import AmigaFleet.Replanning.Planner
import AmigaFleet.Lib.Places

/-! What a FAILURE event comes to. From its session to the end of the last retry there
is a session or a candidate that carries it, and then an outcome that others see. -/
namespace AmigaFleet.Repair
open Lib AmigaFleet.Mission
open Replanning (Xml)

/-- Its sessions have ended, and its candidates have their answers. -/
def Over (s : System) (f : Fault) : Prop :=
  (∀ t ∈ s.sessions, t.fault = f → System.ended t = true) ∧
    ∀ c ∈ s.candidates, c.fault = f → c.verdict.isSome = true

def Escalated (s : System) (f : Fault) : Prop := ∃ t ∈ s.sessions, t.fault = f ∧ t.stage = .finished .escalated

/-- A candidate was accepted, a give-up had been announced since the last reset, the
mission was aborted, or nothing was left to do. -/
def Resolved (s : System) (f : Fault) : Prop :=
  (∃ c ∈ s.candidates, c.fault = f ∧ c.verdict = some .accepted) ∨
    (∃ t ∈ s.sessions, t.fault = f ∧ t.stage = .finished (.gaveUp true)) ∨
    s.planner.missionAborted = true ∨ ∃ t ∈ s.sessions, t.fault = f ∧ t.stage = .finished .complete

/-- No failure that triage left to the planner ends in silence. -/
def Reported (s : System) : Prop := ∀ f ∈ s.faults, Over s f → ¬Escalated s f → Resolved s f

/-- A mission is there before anything fails. -/
def Loaded (s : System) : Event → Prop
  | .failure _ _ _ => s.planner.currentMissionXml.isSome = true
  | _ => True

def Reply.edited : Reply → Bool
  | .edits _ => true
  | _ => false

/-- The model is asked, and does not edit. -/
def Session.fails (a : Answer) (t : Session) : Bool :=
  match t.stage with
  | .asking => !a.reply.edited
  | _ => false

/-- The give-up counts as announced, and is not. -/
def Session.skips (s : System) (t : Session) : Bool :=
  match t.stage with
  | .reporting notice => decide (notice.key ∈ s.planner.gaveUp) && !decide (notice.key ∈ s.announced.map Notice.key)
  | _ => false

/-- The model edits, no give-up is left to another session before it is announced, and
a rejection comes while the planner is about the failure it was for. -/
def Attended (s : System) : Event → Prop
  | .session i a => ∀ t ∈ s.sessions[i]?, t.fault.failure = true → t.fails a = false ∧ t.skips s = false
  | .verdict i (.rejected _) =>
    ∀ c ∈ s.candidates[i]?, c.fault.failure = true →
      s.planner.missionAborted = true ∨ s.planner.lastFailureEvent = some c.fault
  | _ => True

/-- It stands for its failure until it has ended or handed a candidate in. -/
def Session.carries (t : Session) : Bool :=
  match t.stage with
  | .counting | .finished _ => false
  | _ => true

def Carried (s : System) (f : Fault) : Prop :=
  (∃ t ∈ s.sessions, t.fault = f ∧ t.carries = true) ∨ ∃ c ∈ s.candidates, c.fault = f ∧ c.verdict = none

/-- Where a failure is. -/
def Fate (s : System) (f : Fault) : Prop := Resolved s f ∨ Escalated s f ∨ Carried s f

structure Handled (s : System) : Prop where
  loaded : s.faults ≠ [] → s.planner.currentMissionXml.isSome = true
  failures : ∀ f ∈ s.faults, f.failure = true
  fates : ∀ f ∈ s.faults, Fate s f

theorem fate_reported (s : System) (f : Fault) (fate : Fate s f) (past : Over s f) (kept : ¬Escalated s f) :
    Resolved s f := by
  obtain resolved | escalated | ⟨t,member,mine,carries⟩ | ⟨c,member,mine,pending⟩ := fate
  · exact resolved
  · exact absurd escalated kept
  · have ended := past.1 t member mine
    obtain ⟨fault,call,stage⟩ := t
    cases stage with
    | finished ending => cases carries
    | _ => cases ended
  · have answered := past.2 c member mine
    rw [pending] at answered
    cases answered

/-- More sessions and candidates, and the mission no less aborted. -/
theorem Fate.more {s after : System} {f : Fault} (fate : Fate s f) (sessions : s.sessions ⊆ after.sessions)
    (candidates : s.candidates ⊆ after.candidates)
    (aborted : s.planner.missionAborted = true → after.planner.missionAborted = true) : Fate after f := by
  obtain resolved | ⟨t,member,escalated⟩ | ⟨t,member,carries⟩ | ⟨c,member,pending⟩ := fate
  · refine .inl ?_
    obtain ⟨c,member,accepted⟩ | ⟨t,member,gaveUp⟩ | halted | ⟨t,member,complete⟩ := resolved
    · exact .inl ⟨c,candidates member,accepted⟩
    · exact .inr (.inl ⟨t,sessions member,gaveUp⟩)
    · exact .inr (.inr (.inl (aborted halted)))
    · exact .inr (.inr (.inr ⟨t,sessions member,complete⟩))
  · exact .inr (.inl ⟨t,sessions member,escalated⟩)
  · exact .inr (.inr (.inl ⟨t,sessions member,carries⟩))
  · exact .inr (.inr (.inr ⟨c,candidates member,pending⟩))

/-- What a block of a session leaves alone. -/
structure Kept (s : System) (t : Session) (result : System × Session) : Prop where
  sessions : result.1.sessions = s.sessions
  faults : result.1.faults = s.faults
  loaded : result.1.planner.currentMissionXml = s.planner.currentMissionXml
  aborted : result.1.planner.missionAborted = s.planner.missionAborted
  candidates : s.candidates ⊆ result.1.candidates
  fault : result.2.fault = t.fault

theorem block_keeps (s : System) (a : Answer) (t : Session) : Kept s t (s.block a t) := by
  obtain ⟨fault,call,stage⟩ := t
  cases stage with
  | awaiting name =>
    simp only [System.block]
    split
    · split <;> exact ⟨rfl,rfl,rfl,rfl,List.Subset.refl _,rfl⟩
    · exact ⟨rfl,rfl,rfl,rfl,List.Subset.refl _,rfl⟩
  | entering =>
    simp only [System.block]
    split
    · exact ⟨rfl,rfl,rfl,rfl,List.Subset.refl _,rfl⟩
    split
    · exact ⟨rfl,rfl,rfl,rfl,List.Subset.refl _,rfl⟩
    split <;> exact ⟨rfl,rfl,rfl,rfl,List.Subset.refl _,rfl⟩
  | reporting notice =>
    simp only [System.block]
    split <;> exact ⟨rfl,rfl,rfl,rfl,List.Subset.refl _,rfl⟩
  | pruning xml =>
    simp only [System.block]
    split <;> exact ⟨rfl,rfl,rfl,rfl,List.Subset.refl _,rfl⟩
  | asking =>
    simp only [System.block]
    split <;> exact ⟨rfl,rfl,rfl,rfl,List.Subset.refl _,rfl⟩
  | publishing candidate => exact ⟨rfl,rfl,rfl,rfl,List.subset_append_left _ _,rfl⟩
  | _ => exact ⟨rfl,rfl,rfl,rfl,List.Subset.refl _,rfl⟩

/-- A session that carries its failure hands it on: to its next block, to its
candidate, or to an outcome. -/
theorem block_fate (s after : System) (a : Answer) (t : Session) (carries : t.carries = true)
    (loaded : s.planner.currentMissionXml.isSome = true) (edits : t.fails a = false) (announced : t.skips s = false)
    (member : (s.block a t).2 ∈ after.sessions) (candidates : (s.block a t).1.candidates ⊆ after.candidates)
    (aborted : s.planner.missionAborted = true → after.planner.missionAborted = true) : Fate after t.fault := by
  obtain ⟨fault,call,stage⟩ := t
  cases stage with
  | counting => cases carries
  | finished ending => cases carries
  | awaiting name =>
    simp only [System.block] at member
    split at member
    · split at member
      · exact .inr (.inl ⟨_,member,rfl,rfl⟩)
      · exact .inr (.inr (.inl ⟨_,member,rfl,rfl⟩))
    · exact .inr (.inr (.inl ⟨_,member,rfl,rfl⟩))
  | entering =>
    simp only [System.block] at member
    split at member
    · rename_i halted
      exact .inl (.inr (.inr (.inl (aborted halted))))
    split at member
    · rename_i none
      rw [none] at loaded
      cases loaded
    split at member <;> exact .inr (.inr (.inl ⟨_,member,rfl,rfl⟩))
  | reporting notice =>
    simp only [System.block] at member
    split at member
    · rename_i before
      simp only [Session.skips,before,decide_true,Bool.true_and,Bool.not_eq_false'] at announced
      rw [announced] at member
      exact .inl (.inr (.inl ⟨_,member,rfl,rfl⟩))
    · exact .inr (.inr (.inl ⟨_,member,rfl,rfl⟩))
  | announcing notice => exact .inl (.inr (.inl ⟨_,member,rfl,rfl⟩))
  | tracking xml => exact .inr (.inr (.inl ⟨_,member,rfl,rfl⟩))
  | pruning xml =>
    simp only [System.block] at member
    split at member
    · exact .inl (.inr (.inr (.inr ⟨_,member,rfl,rfl⟩)))
    · exact .inr (.inr (.inl ⟨_,member,rfl,rfl⟩))
  | asking =>
    obtain ⟨timeout,reply⟩ := a
    cases reply with
    | edits candidate => exact .inr (.inr (.inl ⟨_,member,rfl,rfl⟩))
    | _ => cases edits
  | publishing candidate =>
    exact .inr (.inr (.inr ⟨_,candidates (List.mem_append_right _ (List.mem_singleton_self _)),rfl,rfl⟩))

theorem next_session (s : System) (i : Nat) (a : Answer) (t : Session) (mine : s.sessions[i]? = some t) :
    s.next (.session i a) = { (s.block a t).1 with sessions := s.sessions.set i (s.block a t).2 } := by
  have kept := (block_keeps s a t).sessions
  simp only [System.next,mine]
  rw [kept]

namespace Handled
variable {s : System}

theorem session (handled : Handled s) (i : Nat) (a : Answer) (t : Session) (mine : s.sessions[i]? = some t)
    (ready : s.ready a t = true)
    (attended : t.fault.failure = true → t.fails a = false ∧ t.skips s = false) :
    Handled (s.next (.session i a)) := by
  rw [next_session s i a t mine]
  have kept := block_keeps s a t
  have placed : (s.block a t).2 ∈ s.sessions.set i (s.block a t).2 :=
    List.mem_set (List.getElem?_eq_some_iff.mp mine).1 _
  have others (other : Session) (member : other ∈ s.sessions) (different : other ≠ t) :
      other ∈ s.sessions.set i (s.block a t).2 := mem_set_other _ _ _ t _ mine member different
  have unfinished (ending : Ending) (other : Session) (ended : other.stage = .finished ending) : other ≠ t := by
    rintro rfl
    simp only [System.ready,ended] at ready
    cases ready
  refine ⟨fun some => ?_,fun f member => handled.failures f (kept.faults ▸ member),fun f faulty => ?_⟩
  · exact (congrArg Option.isSome kept.loaded).trans (handled.loaded (kept.faults ▸ some))
  · have member : f ∈ s.faults := kept.faults ▸ faulty
    have loaded := handled.loaded (List.ne_nil_of_mem member)
    obtain resolved | ⟨t',here,fault,escalated⟩ | ⟨t',here,fault,carries⟩ | ⟨c,here,pending⟩ := handled.fates f member
    · refine .inl ?_
      obtain ⟨c,here,accepted⟩ | ⟨t',here,fault,gaveUp⟩ | halted | ⟨t',here,fault,complete⟩ := resolved
      · exact .inl ⟨c,kept.candidates here,accepted⟩
      · exact .inr (.inl ⟨t',others t' here (unfinished _ t' gaveUp),fault,gaveUp⟩)
      · exact .inr (.inr (.inl (kept.aborted.trans halted)))
      · exact .inr (.inr (.inr ⟨t',others t' here (unfinished _ t' complete),fault,complete⟩))
    · exact .inr (.inl ⟨t',others t' here (unfinished _ t' escalated),fault,escalated⟩)
    · by_cases same : t' = t
      · subst same
        obtain ⟨edits,announced⟩ := attended (fault ▸ handled.failures f member)
        rw [← fault]
        exact block_fate s _ a t' carries loaded edits announced placed (List.Subset.refl _)
          (fun halted => kept.aborted.trans halted)
      · exact .inr (.inr (.inl ⟨t',others t' here same,fault,carries⟩))
    · exact .inr (.inr (.inr ⟨c,kept.candidates here,pending⟩))

/-- More of everything, and no failure that is new. -/
theorem more (handled : Handled s) {after : System} (faults : after.faults = s.faults)
    (loaded : s.planner.currentMissionXml.isSome = true → after.planner.currentMissionXml.isSome = true)
    (sessions : s.sessions ⊆ after.sessions) (candidates : s.candidates ⊆ after.candidates)
    (aborted : s.planner.missionAborted = true → after.planner.missionAborted = true) : Handled after := by
  refine ⟨fun some => loaded (handled.loaded (faults ▸ some)),fun f member => handled.failures f (faults ▸ member),?_⟩
  intro f member
  exact (handled.fates f (faults ▸ member)).more sessions candidates aborted

end Handled

/-- What a rejection leaves alone. -/
theorem onRejection_keeps (s : System) (reason : String) (own : Bool) :
    (s.onRejection reason own).faults = s.faults ∧ s.sessions ⊆ (s.onRejection reason own).sessions ∧
      (s.onRejection reason own).candidates = s.candidates ∧
      (s.onRejection reason own).planner.currentMissionXml = s.planner.currentMissionXml ∧
      (s.onRejection reason own).planner.missionAborted = s.planner.missionAborted := by
  unfold System.onRejection
  split
  · exact ⟨rfl,List.Subset.refl _,rfl,rfl,rfl⟩
  split
  · exact ⟨rfl,List.Subset.refl _,rfl,rfl,rfl⟩
  split <;> exact ⟨rfl,List.subset_append_left _ _,rfl,rfl,rfl⟩

/-- A rejection is taken up: by a retry, or by a give-up. -/
theorem onRejection_carries (s : System) (reason : String) (own : Bool) (f : Fault)
    (current : s.planner.lastFailureEvent = some f) (running : s.planner.missionAborted = false) :
    ∃ t ∈ (s.onRejection reason own).sessions, t.fault = f ∧ t.carries = true := by
  simp only [System.onRejection,current,running,Bool.false_eq_true,if_false]
  split <;> exact ⟨_,List.mem_append_right _ (List.mem_singleton_self _),rfl,rfl⟩

theorem Handled.verdict {s : System} (handled : Handled s) (i : Nat) (v : Verdict) (c : Candidate)
    (mine : s.candidates[i]? = some c) (pending : c.verdict = none)
    (attended : Attended s (.verdict i v)) : Handled (s.next (.verdict i v)) := by
  have placed (w : Verdict) : { c with verdict := some w } ∈ s.candidates.set i { c with verdict := some w } :=
    List.mem_set (List.getElem?_eq_some_iff.mp mine).1 _
  -- The failure of another candidate is where it was; this one's has its answer.
  have fates (after : System) (sessions : s.sessions ⊆ after.sessions)
      (candidates : after.candidates = s.candidates.set i { c with verdict := some v })
      (aborted : s.planner.missionAborted = true → after.planner.missionAborted = true)
      (answered : c.fault ∈ s.faults → Fate after c.fault) : ∀ f ∈ s.faults, Fate after f := by
    intro f member
    by_cases same : f = c.fault
    · rw [same]
      exact answered (same ▸ member)
    have others (other : Candidate) (here : other ∈ s.candidates) (fault : other.fault = f) :
        other ∈ after.candidates := by
      rw [candidates]
      refine mem_set_other _ _ _ c _ mine here ?_
      rintro rfl
      exact same fault.symm
    obtain (⟨d,here,accepted⟩ | ⟨t,here,gaveUp⟩ | halted | ⟨t,here,complete⟩) | ⟨t,here,escalated⟩ |
      ⟨t,here,carries⟩ | ⟨d,here,waiting⟩ := handled.fates f member
    · exact .inl (.inl ⟨d,others d here accepted.1,accepted⟩)
    · exact .inl (.inr (.inl ⟨t,sessions here,gaveUp⟩))
    · exact .inl (.inr (.inr (.inl (aborted halted))))
    · exact .inl (.inr (.inr (.inr ⟨t,sessions here,complete⟩)))
    · exact .inr (.inl ⟨t,sessions here,escalated⟩)
    · exact .inr (.inr (.inl ⟨t,sessions here,carries⟩))
    · exact .inr (.inr (.inr ⟨d,others d here waiting.1,waiting⟩))
  cases v with
  | accepted =>
    simp only [System.next,mine]
    refine ⟨handled.loaded,handled.failures,fates _ (List.Subset.refl _) rfl id (fun _ => ?_)⟩
    exact .inl (.inl ⟨_,placed _,rfl,rfl⟩)
  | rejected reason =>
    simp only [System.next,mine]
    obtain ⟨faults,sessions,candidates,loaded,aborted⟩ := onRejection_keeps
      { s with candidates := s.candidates.set i { c with verdict := some (.rejected reason) } } reason true
    refine ⟨fun some => ?_,fun f member => handled.failures f (faults ▸ member),?_⟩
    · exact (congrArg Option.isSome loaded).trans (handled.loaded (faults ▸ some))
    · rw [faults]
      refine fates _ sessions candidates (fun halted => aborted.trans halted) (fun member => ?_)
      obtain halted | current := attended c mine (handled.failures c.fault member)
      · exact .inl (.inr (.inr (.inl (aborted.trans halted))))
      cases running : s.planner.missionAborted with
      | true => exact .inl (.inr (.inr (.inl (aborted.trans running))))
      | false => exact .inr (.inr (.inl (onRejection_carries _ reason true c.fault current running)))
  | aborted reason =>
    simp only [System.next,mine]
    refine ⟨handled.loaded,handled.failures,fates _ (List.Subset.refl _) rfl (fun _ => rfl) (fun _ => ?_)⟩
    exact .inl (.inr (.inr (.inl rfl)))

theorem onLeafSuccess_keeps (p : Planner) (node : String) :
    (p.onLeafSuccess node).currentMissionXml = p.currentMissionXml ∧
      (p.onLeafSuccess node).missionAborted = p.missionAborted := by
  unfold Planner.onLeafSuccess
  split <;> exact ⟨rfl,rfl⟩

theorem opened_carries (f : Fault) : (System.opened f).fault = f ∧ (System.opened f).carries = true := by
  unfold System.opened
  refine ⟨rfl,?_⟩
  dsimp only
  split <;> rfl

theorem next_handled (s : System) (e : Event) (handled : Handled s) (enabled : s.enabled e) (loaded : Loaded s e)
    (attended : Attended s e) : Handled (s.next e) := by
  cases e with
  | mission xml => exact handled.more rfl (fun _ => rfl) (List.Subset.refl _) (List.Subset.refl _) id
  | orchard map => exact handled.more rfl id (List.Subset.refl _) (List.Subset.refl _) id
  | failure node reason source =>
    have sessions : s.sessions ⊆ (s.next (.failure node reason source)).sessions := by
      simp only [System.next]
      split
      · exact List.Subset.refl _
      · exact List.subset_append_left _ _
    refine ⟨fun _ => loaded,?_,?_⟩
    · intro f member
      obtain member | last := List.mem_append.mp member
      · exact handled.failures f member
      · rw [List.mem_singleton.mp last]
    · intro f member
      obtain member | last := List.mem_append.mp member
      · exact (handled.fates f member).more sessions (List.Subset.refl _) id
      obtain rfl := List.mem_singleton.mp last
      cases running : s.planner.missionAborted with
      | true => exact .inl (.inr (.inr (.inl running)))
      | false =>
        obtain ⟨fault,carries⟩ := opened_carries { number := s.events, node, reason, source }
        refine .inr (.inr (.inl ⟨_,?_,fault,carries⟩))
        simp only [System.next,running,Bool.false_eq_true,if_false]
        exact List.mem_append_right _ (List.mem_singleton_self _)
  | success node =>
    simp only [System.next]
    split
    · exact handled
    obtain ⟨xml,aborted⟩ := onLeafSuccess_keeps s.planner node
    exact handled.more rfl (fun some => (congrArg Option.isSome xml).trans some) (List.Subset.refl _) (List.Subset.refl _)
      (fun halted => aborted.trans halted)
  | route name route => exact handled.more rfl id (List.Subset.refl _) (List.Subset.refl _) id
  | replanRequest cause task request =>
    simp only [System.next]
    split
    · exact handled
    · exact handled.more rfl id (List.subset_append_left _ _) (List.Subset.refl _) id
  | session i a =>
    cases mine : s.sessions[i]? with
    | none => simpa [System.next,mine] using handled
    | some t =>
      have ready : s.ready a t = true := by
        have ready : s.sessions[i]?.any (s.ready a) = true := enabled
        simpa [mine] using ready
      exact handled.session i a t mine ready (attended t mine)
  | verdict i v =>
    cases mine : s.candidates[i]? with
    | none => simpa [System.next,mine] using handled
    | some c =>
      have pending : c.verdict = none := by
        have pending : s.candidates[i]?.any (fun c => c.verdict.isNone) = true := enabled
        simpa [mine] using pending
      exact handled.verdict i v c mine pending attended
  | refusal reason =>
    obtain ⟨faults,sessions,candidates,loaded,aborted⟩ := onRejection_keeps s reason false
    exact handled.more faults (fun some => (congrArg Option.isSome loaded).trans some) sessions
      (fun c member => candidates.symm ▸ member) (fun halted => aborted.trans halted)
  | abort reason => exact handled.more rfl id (List.Subset.refl _) (List.Subset.refl _) (fun _ => rfl)

/-- Every failure that triage left to the planner is reported. -/
theorem failures_reported (s : System) (reached : machine.Reaches (fun s e => Loaded s e ∧ Attended s e) s) :
    Reported s := by
  have handled : Handled s := by
    refine reached.invariant Handled ?_ ?_
    · rintro _ rfl
      exact ⟨by simp,by simp,by simp⟩
    · intro s e _ handled enabled guarded
      exact next_handled s e handled enabled guarded.1 guarded.2
  intro f member past kept
  exact fate_reported s f (handled.fates f member) past kept

instance (s : System) (f : Fault) : Decidable (Over s f) := inferInstanceAs (Decidable (_ ∧ _))

instance (s : System) (f : Fault) : Decidable (Escalated s f) := inferInstanceAs (Decidable (∃ t ∈ s.sessions, _))

instance (s : System) (f : Fault) : Decidable (Resolved s f) := inferInstanceAs (Decidable (_ ∨ _))

instance (s : System) : Decidable (Reported s) := inferInstanceAs (Decidable (∀ f ∈ s.faults, _))

instance (s : System) (e : Event) : Decidable (Loaded s e) := by
  unfold Loaded
  split <;> infer_instance

instance (s : System) (e : Event) : Decidable (Attended s e) := by
  unfold Attended
  split <;> infer_instance

def treesPlan : Xml := .plan Replanning.twoTrees

/-- The blocks of one session, the model answering the same to each. -/
def session (i blocks : Nat) (reply : Reply) : List Event := List.replicate blocks (.session i { reply := reply })

def leafFails : List Event :=
  [.mission treesPlan,.failure (some "to_10") "blocked" "leaf",.route "to_10" { route := "repair" }]

def modelRaises : List Event := leafFails ++ session 0 5 (.raises "connection refused")

def schemaRefuses : List Event := leafFails ++ session 0 5 (.invalid "not well-formed XML")

/-- The tree fails after its leaf, and the leaf's candidate is rejected then. -/
def treeFollows : List Event :=
  leafFails ++ session 0 7 (.edits treesPlan) ++ [.failure (some "<tree>") "tree failed" "tree"] ++ session 1 2 (.edits treesPlan) ++
    [.verdict 0 (.rejected "rate limited")]

/-- The workload changes before the candidate is rejected. -/
def workloadChanges : List Event :=
  leafFails ++ session 0 7 (.edits treesPlan) ++ [.replanRequest "absorbed" "7" none,.verdict 0 (.rejected "rate limited")]

/-- Four ways for a failure to end without a word. -/
def Silent (run : List Event) : Prop := machine.Reaches Loaded (machine.runs {} run) ∧ ¬Reported (machine.runs {} run)

theorem failures_silent : Silent modelRaises ∧ Silent schemaRefuses ∧ Silent treeFollows ∧ Silent workloadChanges := by
  have follows : ∀ run ∈ [modelRaises,schemaRefuses,treeFollows,workloadChanges], machine.Follows Loaded {} run := by
    decide +kernel
  have silent : ∀ run ∈ [modelRaises,schemaRefuses,treeFollows,workloadChanges], ¬Reported (machine.runs {} run) := by
    decide +kernel
  have all : ∀ run ∈ [modelRaises,schemaRefuses,treeFollows,workloadChanges], Silent run := fun run member =>
    ⟨machine.reaches_runs _ {} run (.start _ rfl) (follows run member),silent run member⟩
  exact ⟨all modelRaises (by simp),all schemaRefuses (by simp),all treeFollows (by simp),all workloadChanges (by simp)⟩

/-- Three candidates are rejected, and the budget of sessions is spent. -/
def budgetSpent : List Event :=
  leafFails ++ session 0 7 (.edits treesPlan) ++ [.verdict 0 (.rejected "unjustified drop")] ++
    session 1 6 (.edits treesPlan) ++ [.verdict 1 (.rejected "unjustified drop")] ++ session 2 6 (.edits treesPlan) ++
    [.verdict 2 (.rejected "unjustified drop")] ++ session 3 3 (.edits treesPlan)

theorem budgetSpent_reported :
    Reported (machine.runs {} budgetSpent) ∧ (machine.runs {} budgetSpent).faults.length = 1 ∧
      (machine.runs {} budgetSpent).announced.map Notice.cause = [.maxRetriesExhausted] :=
  ⟨failures_reported _ (machine.reaches_runs _ {} budgetSpent (.start _ rfl) (by decide +kernel)),by decide +kernel,
    by decide +kernel⟩

end AmigaFleet.Repair
