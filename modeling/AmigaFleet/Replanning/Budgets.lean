import AmigaFleet.Replanning.Endings

/-! What the repair budget bounds. A session is admitted on a count that it adds to only
when it ends, so the count is kept beside those that are admitted and not yet counted. -/
namespace AmigaFleet.Repair
open Lib AmigaFleet.Mission

/-- Since the last reset, so many calls of the model and so many candidates for one
node; and no retry but of a candidate. -/
structure Bounded (s : System) : Prop where
  calls : s.calls ≤ maxRetries
  submitted : ∀ node, s.submitted.count node ≤ 1 + maxRejectionRetries
  own : ∀ own ∈ s.retried, own = true

namespace Session

/-- Past the check of the budget, and not counted yet. -/
def admitted (t : Session) : Bool :=
  match t.stage with
  | .tracking _ | .pruning _ | .asking | .publishing _ | .counting => true
  | _ => false

/-- The model was called, and that is not counted yet. -/
def called (t : Session) : Bool :=
  match t.stage with
  | .publishing _ | .counting => true
  | _ => false

/-- The candidate was submitted, and that is not counted yet. -/
def filed (t : Session) : Bool :=
  match t.stage with
  | .counting => true
  | _ => false

end Session

/-- The budget is checked against the sessions that are admitted too, a session that
called the model is counted, and nothing but a candidate is refused while a failure
is on record that could be retried. -/
def Metered (s : System) : Event → Prop
  | .session i a => ∀ t ∈ s.sessions[i]?,
      t.fails a = false ∧ (t.stage = .entering → s.planner.sessions < maxRetries →
        s.planner.sessions + s.sessions.countP Session.admitted < maxRetries)
  | .refusal _ =>
    s.planner.lastFailureEvent = none ∨ s.planner.missionAborted = true ∨
      maxRejectionRetries ≤ s.planner.rejectionRetries
  | _ => True

/-- What a block adds to the counts, the session's own part in them with it. -/
structure Metering (s : System) (t : Session) (result : System × Session) : Prop where
  calls : result.1.calls + s.planner.sessions + t.called.toNat =
    s.calls + result.1.planner.sessions + result.2.called.toNat
  submitted : result.1.submitted.length + s.planner.sessions + t.filed.toNat =
    s.submitted.length + result.1.planner.sessions + result.2.filed.toNat
  retried : result.1.retried = s.retried
  admitted : result.1.planner.sessions + result.2.admitted.toNat ≤ s.planner.sessions + t.admitted.toNat ∨
    t.stage = .entering ∧ s.planner.sessions < maxRetries ∧ result.1.planner.sessions = s.planner.sessions

theorem block_metering (s : System) (a : Answer) (t : Session) (edits : t.fails a = false) :
    Metering s t (s.block a t) := by
  obtain ⟨fault,call,stage⟩ := t
  cases stage with
  | awaiting name =>
    simp only [System.block]
    split
    · split <;> exact ⟨rfl,rfl,rfl,.inl le_rfl⟩
    · exact ⟨rfl,rfl,rfl,.inl le_rfl⟩
  | entering =>
    simp only [System.block]
    split
    · exact ⟨rfl,rfl,rfl,.inl le_rfl⟩
    split
    · exact ⟨rfl,rfl,rfl,.inl le_rfl⟩
    split
    · exact ⟨rfl,rfl,rfl,.inl le_rfl⟩
    · rename_i room
      exact ⟨rfl,rfl,rfl,.inr ⟨rfl,Nat.not_le.mp room,rfl⟩⟩
  | reporting notice =>
    simp only [System.block]
    split <;> exact ⟨rfl,rfl,rfl,.inl le_rfl⟩
  | announcing notice => exact ⟨rfl,rfl,rfl,.inl le_rfl⟩
  | tracking xml => exact ⟨rfl,rfl,rfl,.inl le_rfl⟩
  | pruning xml =>
    simp only [System.block]
    split
    · exact ⟨rfl,rfl,rfl,.inl (Nat.le_succ _)⟩
    · exact ⟨rfl,rfl,rfl,.inl le_rfl⟩
  | asking =>
    obtain ⟨timeout,reply⟩ := a
    cases reply with
    | edits candidate =>
      refine ⟨?_,rfl,rfl,.inl le_rfl⟩
      change s.calls + 1 + s.planner.sessions + 0 = s.calls + s.planner.sessions + 1
      omega
    | _ => cases edits
  | publishing candidate =>
    refine ⟨rfl,?_,rfl,.inl le_rfl⟩
    change (s.submitted ++ [fault.node]).length + s.planner.sessions + 0 = s.submitted.length + s.planner.sessions + 1
    rw [List.length_append,List.length_singleton]
    omega
  | counting => exact ⟨rfl,rfl,rfl,.inl le_rfl⟩
  | finished ending => exact ⟨rfl,rfl,rfl,.inl le_rfl⟩

/-- The counts that bound what the budget is for. -/
structure Counted (s : System) : Prop where
  admitted : s.planner.sessions + s.sessions.countP Session.admitted ≤ maxRetries
  calls : s.calls ≤ s.planner.sessions + s.sessions.countP Session.called
  submitted : s.submitted.length ≤ s.planner.sessions + s.sessions.countP Session.filed
  own : ∀ own ∈ s.retried, own = true

theorem called_admitted (t : Session) (called : t.called = true) : t.admitted = true := by
  obtain ⟨fault,call,stage⟩ := t
  cases stage <;> first | rfl | cases called

theorem filed_admitted (t : Session) (filed : t.filed = true) : t.admitted = true := by
  obtain ⟨fault,call,stage⟩ := t
  cases stage <;> first | rfl | cases filed

theorem counted_bounded (s : System) (counted : Counted s) : Bounded s := by
  have calling := List.countP_mono_left (l := s.sessions) (fun t _ called => called_admitted t called)
  have filing := List.countP_mono_left (l := s.sessions) (fun t _ filed => filed_admitted t filed)
  have admitted := counted.admitted
  have calls := counted.calls
  have submitted := counted.submitted
  refine ⟨by omega,fun node => ?_,counted.own⟩
  calc s.submitted.count node ≤ s.submitted.length := List.count_le_length
    _ ≤ maxRetries := by omega
    _ ≤ 1 + maxRejectionRetries := by decide

namespace Counted
variable {s after : System}

theorem same (counted : Counted s) (spent : after.planner.sessions = s.planner.sessions)
    (sessions : after.sessions = s.sessions) (calls : after.calls = s.calls) (submitted : after.submitted = s.submitted)
    (retried : after.retried = s.retried) : Counted after := by
  refine ⟨?_,?_,?_,?_⟩
  · rw [spent,sessions]
    exact counted.admitted
  · rw [spent,sessions,calls]
    exact counted.calls
  · rw [spent,sessions,submitted]
    exact counted.submitted
  · rw [retried]
    exact counted.own

/-- One more session, which is not admitted yet. -/
theorem opens (counted : Counted s) (t : Session) (waits : t.admitted = false)
    (spent : after.planner.sessions = s.planner.sessions) (sessions : after.sessions = s.sessions ++ [t])
    (calls : after.calls = s.calls) (submitted : after.submitted = s.submitted)
    (own : ∀ own ∈ after.retried, own = true) : Counted after := by
  have idle : t.called = false ∧ t.filed = false := by
    constructor
    · exact Bool.eq_false_iff.mpr (fun called => by simp [called_admitted t called] at waits)
    · exact Bool.eq_false_iff.mpr (fun filed => by simp [filed_admitted t filed] at waits)
  refine ⟨?_,?_,?_,own⟩
  · simpa [spent,sessions,List.countP_append,waits] using counted.admitted
  · simpa [spent,sessions,calls,List.countP_append,idle.1] using counted.calls
  · simpa [spent,sessions,submitted,List.countP_append,idle.2] using counted.submitted

theorem session (counted : Counted s) (i : Nat) (a : Answer) (t : Session) (mine : s.sessions[i]? = some t)
    (edits : t.fails a = false) (room : t.stage = .entering → s.planner.sessions < maxRetries →
      s.planner.sessions + s.sessions.countP Session.admitted < maxRetries) :
    Counted (s.next (.session i a)) := by
  rw [next_session s i a t mine]
  have metering := block_metering s a t edits
  have admitted := countP_replaced Session.admitted s.sessions i t (s.block a t).2 mine
  have called := countP_replaced Session.called s.sessions i t (s.block a t).2 mine
  have filed := countP_replaced Session.filed s.sessions i t (s.block a t).2 mine
  have before := counted.admitted
  refine ⟨?_,?_,?_,fun own member => counted.own own (metering.retried ▸ member)⟩
  · change (s.block a t).1.planner.sessions + (s.sessions.set i (s.block a t).2).countP Session.admitted ≤ maxRetries
    obtain fewer | ⟨entering,spare,same⟩ := metering.admitted
    · omega
    · have left := room entering spare
      have one := Bool.toNat_le (s.block a t).2.admitted
      omega
  · change (s.block a t).1.calls ≤
      (s.block a t).1.planner.sessions + (s.sessions.set i (s.block a t).2).countP Session.called
    have calls := counted.calls
    have step := metering.calls
    omega
  · change (s.block a t).1.submitted.length ≤
      (s.block a t).1.planner.sessions + (s.sessions.set i (s.block a t).2).countP Session.filed
    have submitted := counted.submitted
    have step := metering.submitted
    omega

/-- A rejection, of a candidate where it is retried. -/
theorem rejection (counted : Counted s) (reason : String) (own : Bool)
    (mine : own = true ∨ s.planner.lastFailureEvent = none ∨ s.planner.missionAborted = true ∨
      maxRejectionRetries ≤ s.planner.rejectionRetries) : Counted (s.onRejection reason own) := by
  unfold System.onRejection
  split
  · exact counted
  rename_i f current
  split
  · exact counted
  rename_i running
  split
  · exact counted.opens _ rfl rfl rfl rfl rfl counted.own
  rename_i left
  refine counted.opens _ rfl rfl rfl rfl rfl ?_
  intro other member
  obtain member | last := List.mem_append.mp member
  · exact counted.own other member
  rw [List.mem_singleton.mp last]
  obtain own | none | aborted | spent := mine
  · exact own
  · rw [current] at none
    cases none
  · exact absurd aborted running
  · exact absurd spent left

end Counted

theorem opened_waits (f : Fault) : (System.opened f).admitted = false := by
  unfold System.opened
  dsimp only
  split <;> rfl

theorem next_counted (s : System) (e : Event) (counted : Counted s) (metered : Metered s e) : Counted (s.next e) := by
  cases e with
  | failure node reason source =>
    simp only [System.next]
    split
    · exact counted.same rfl rfl rfl rfl rfl
    · exact counted.opens _ (opened_waits _) rfl rfl rfl rfl counted.own
  | success node =>
    simp only [System.next]
    split
    · exact counted
    refine counted.same ?_ rfl rfl rfl rfl
    unfold Planner.onLeafSuccess
    split <;> rfl
  | replanRequest cause task request =>
    simp only [System.next]
    split
    · exact counted
    · have admitted := counted.admitted
      refine ⟨?_,Nat.zero_le _,Nat.zero_le _,counted.own⟩
      rw [List.countP_append]
      change 0 + (s.sessions.countP Session.admitted + 0) ≤ maxRetries
      omega
  | session i a =>
    cases mine : s.sessions[i]? with
    | none => simpa [System.next,mine] using counted
    | some t => exact counted.session i a t mine (metered t mine).1 (metered t mine).2
  | verdict i v =>
    cases mine : s.candidates[i]? with
    | none => simpa [System.next,mine] using counted
    | some c =>
      have answered : Counted { s with candidates := s.candidates.set i { c with verdict := some v } } :=
        counted.same rfl rfl rfl rfl rfl
      simp only [System.next,mine]
      cases v with
      | accepted => exact answered
      | rejected reason => exact answered.rejection reason true (.inl rfl)
      | aborted reason => exact answered.same rfl rfl rfl rfl rfl
  | refusal reason => exact counted.rejection reason false (.inr metered)
  | _ => exact counted.same rfl rfl rfl rfl rfl

/-- The budget bounds what it is for. -/
theorem budget_bounded (s : System) (reached : machine.Reaches Metered s) : Bounded s := by
  have counted : Counted s := by
    refine reached.invariant Counted ?_ ?_
    · rintro _ rfl
      exact ⟨by decide,Nat.zero_le _,Nat.zero_le _,by simp⟩
    · intro s e _ counted _ metered
      exact next_counted s e counted metered
  exact counted_bounded s counted

instance (s : System) : (e : Event) → Decidable (Metered s e)
  | .session i _ => inferInstanceAs (Decidable (∀ t ∈ s.sessions[i]?, _ ∧ (_ → _ → _)))
  | .refusal _ => inferInstanceAs (Decidable (_ ∨ _ ∨ _))
  | .mission _ => isTrue trivial
  | .orchard _ => isTrue trivial
  | .failure _ _ _ => isTrue trivial
  | .success _ => isTrue trivial
  | .route _ _ => isTrue trivial
  | .replanRequest _ _ _ => isTrue trivial
  | .verdict _ _ => isTrue trivial
  | .abort _ => isTrue trivial

def leafFailsAgain : Event := .failure (some "to_10") "blocked" "leaf"

/-- The model cannot be reached, and no session is counted. -/
def uncounted : List Event :=
  leafFails ++ [leafFailsAgain,leafFailsAgain,leafFailsAgain] ++
    [0,1,2,3].flatMap (fun i => session i 5 (.raises "connection refused"))

/-- A leaf fails five times before its first session is counted. -/
def overlapping : List Event :=
  leafFails ++ [leafFailsAgain,leafFailsAgain,leafFailsAgain,leafFailsAgain] ++
    [0,1,2,3,4].flatMap (fun i => session i 2 (.edits treesPlan)) ++
    [0,1,2,3,4].flatMap (fun i => session i 5 (.edits treesPlan))

/-- The candidate was accepted, and an edit of the coordinator is refused. -/
def editRefused : List Event :=
  leafFails ++ session 0 7 (.edits treesPlan) ++
    [.verdict 0 .accepted,.refusal "task 7 is not in the active plan"]

def Exceeds (run : List Event) : Prop := machine.Reachable (machine.runs {} run) ∧ ¬Bounded (machine.runs {} run)

theorem budget_exceeded : Exceeds uncounted ∧ Exceeds overlapping ∧ Exceeds editRefused := by
  have follows : ∀ run ∈ [uncounted,overlapping,editRefused], machine.Follows (fun _ _ => True) {} run := by
    decide +kernel
  have exceeded : ∀ run ∈ [uncounted,overlapping,editRefused],
      ¬((machine.runs {} run).calls ≤ maxRetries ∧
        (machine.runs {} run).submitted.count (some "to_10") ≤ 1 + maxRejectionRetries ∧
        ∀ own ∈ (machine.runs {} run).retried, own = true) := by
    decide +kernel
  have all : ∀ run ∈ [uncounted,overlapping,editRefused], Exceeds run := by
    intro run member
    refine ⟨machine.reaches_runs _ {} run (.start _ rfl) (follows run member),fun bounded => ?_⟩
    exact exceeded run member ⟨bounded.calls,bounded.submitted (some "to_10"),bounded.own⟩
  exact ⟨all uncounted (by simp),all overlapping (by simp),all editRefused (by simp)⟩

/-- Three candidates, one after the other. -/
theorem budgetSpent_bounded :
    Bounded (machine.runs {} budgetSpent) ∧ (machine.runs {} budgetSpent).calls = 3 :=
  ⟨budget_bounded _ (machine.reaches_runs _ {} budgetSpent (.start _ rfl) (by decide +kernel)),by decide +kernel⟩

end AmigaFleet.Repair
