import AmigaFleet.Replanning.Sanction
import AmigaFleet.Replanning.Refusals
import AmigaFleet.Replanning.Verified

/-! What becomes of the mission's objectives: done, handed to a peer, still planned, or
lost. A history beside the arbiter says which edit came last for a tree, and which
failures have licensed a drop. -/
namespace AmigaFleet.Replanning
open Lib AmigaFleet.Mission

def approaches (d : Document) : List String :=
  d.leaves.filterMap (fun x =>
    if x.2.tag = .moveToTreeID ∧ lowered ((x.2.get "approach_tree").getD "") = "true".toList then x.2.get "id"
    else none)

def Xml.objectives : Xml → Finset String
  | .malformed _ => ∅
  | .plan d => objectiveTreeIds d

/-- The trees that an absorption took on: the plan approaches them more often than before. -/
def taken (basis candidate : Document) : Finset String :=
  (objectiveTreeIds candidate).filter (fun tree => (approaches basis).count tree < (approaches candidate).count tree)

def permanent (reason : String) : Bool := permanentKeywords.any (fun word => word.toList <:+: lowered reason)

namespace Arbiter

def original (s : Arbiter) : Finset String := s.originalObjectives.getD ∅

/-- What the candidate leaves out of what the arbiter takes to be outstanding. -/
def left (s : Arbiter) (xml : Xml) : Finset String :=
  ((s.original \ s.completedObjectives) \ s.transferredObjectives) \ xml.objectives

/-- The drops that need a license. -/
def newly (s : Arbiter) (xml : Xml) : Finset String := s.left xml \ s.justifiedDrops

end Arbiter

/-- The trees whose last accepted edit transferred them, the permanent failures reported,
and whether a drop was accepted since the last of these. -/
structure Ledger where
  handed : Finset String := ∅
  failures : Nat := 0
  spent : Bool := false

namespace Ledger

def edited (l : Ledger) (h : Handler) : Finset String :=
  match h.request,h.basis,h.candidate with
  | some r,some (some (.plan basis)),.plan d =>
    if r.removing then l.handed ∪ (objectiveTreeIds basis \ objectiveTreeIds d) else l.handed \ taken basis d
  | _,_,_ => l.handed

def committed (l : Ledger) (s : Arbiter) (h : Handler) : Ledger :=
  { l with handed := l.edited h, spent := l.spent || decide (s.newly h.candidate ≠ ∅) }

end Ledger

namespace System

/-- The handler whose block the event is. -/
def hand (s : System) : Event → Option Handler
  | .planner _ => s.planner
  | .service i _ => s.requests[i]?
  | _ => none

/-- The others, then. -/
def rest (s : System) : Event → List Handler
  | .planner _ => s.requests
  | .service i _ => s.planner.toList ++ s.requests.eraseIdx i
  | _ => s.planner.toList ++ s.requests

def handlers (s : System) : List Handler := s.planner.toList ++ s.requests

def note (s : System) (l : Ledger) (e : Event) : Ledger :=
  match e with
  | .failed reason => if permanent reason then { l with failures := l.failures + 1, spent := false } else l
  | e =>
    match s.hand e with
    | some h => if h.commits then l.committed s.arbiter h else l
    | none => l

end System

/-- The arbiter with its ledger. -/
def ledgered (settings : Settings) : Machine (System × Ledger) Event :=
  (machine settings).withHistory {} System.note

instance (settings : Settings) (s : System × Ledger) (e : Event) : Decidable ((ledgered settings).enabled s e) :=
  inferInstanceAs (Decidable (s.1.enabled e))

/-- Original objectives that are not in the plan, not done and not with a peer. -/
def lost (s : System × Ledger) : Finset String :=
  ((s.1.arbiter.original \ (s.1.arbiter.activeMissionXml.map Xml.objectives).getD ∅) \ s.1.arbiter.completedObjectives) \
    s.2.handed

/-- Nothing is lost beyond what the budget and the failures allow. -/
def Preserved (budget : Nat) (s : System × Ledger) : Prop :=
  (lost s).card ≤ budget ∧ (lost s).card ≤ permanentDropAllowance * s.2.failures

/-- One mission, loaded before there is anything to decide, and one budget for every check. -/
def Posed (budget : Nat) (s : System × Ledger) : Event → Prop
  | .mission _ => s.1.log = [] ∧ s.1.quiet
  | e => ∀ h ∈ s.1.hand e, h.stage = .checking → s.1.arbiter.maxDroppable.getD defaultViabilityBudget = budget

/-- Its candidate has passed the check on objectives, and may yet be committed. -/
def Handler.cleared (h : Handler) : Bool :=
  match h.stage with
  | .reading | .comparing _ | .judging _ | .recording _ _ | .limiting | .returned .accepted | .acting .accepted _ => true
  | _ => false

def Handler.withdraws (h : Handler) : Bool :=
  match h.stage with
  | .withdrawing _ _ => decide (h.departing ≠ ∅)
  | _ => false

/-- The commit leaves out nothing that came back after its transfer, and no drop is
licensed by a failure that licensed one before. -/
def Handler.Licensed (h : Handler) (s : Arbiter) (l : Ledger) : Prop :=
  (∀ tree ∈ (s.original \ s.completedObjectives) \ h.candidate.objectives,
    tree ∈ s.transferredObjectives → tree ∈ l.edited h) ∧ (s.newly h.candidate ≠ ∅ → l.spent = false)

/-- Besides, only the last publication comes back, and no drop is withdrawn under a
candidate that was checked with it. -/
def Licensed (s : System × Ledger) : Event → Prop
  | .echo => s.1.air.head? = s.1.arbiter.publishedXml
  | e => ∀ h ∈ s.1.hand e, (h.commits = true → h.Licensed s.1.arbiter s.2) ∧
      (h.withdraws = true → ∀ k ∈ s.1.rest e, k.cleared = false)

/-- What a block of the handler does to the plan and to the two sets of drops. -/
inductive Effect (h : Handler) (s after : Arbiter) : Prop
  | none (active : after.activeMissionXml = s.activeMissionXml) (justified : after.justifiedDrops = s.justifiedDrops)
      (transferred : after.transferredObjectives = s.transferredObjectives)
  | justifies (active : after.activeMissionXml = s.activeMissionXml)
      (justified : after.justifiedDrops = s.justifiedDrops ∪ h.departing)
      (transferred : after.transferredObjectives = s.transferredObjectives ∪ h.departing)
  | withdraws (withdraws : h.withdraws = true) (active : after.activeMissionXml = s.activeMissionXml)
      (justified : after.justifiedDrops = s.justifiedDrops \ h.departing)
      (transferred : after.transferredObjectives = s.transferredObjectives \ h.departing)
  | commits (commits : h.commits = true) (now : ℚ) (same : after = s.commit h.candidate now)

theorem advance_effect (settings : Settings) (o : Oracle) (h : Handler) (s : Arbiter) :
    Effect h s (h.advance settings o s).1 ∧ ((h.advance settings o s).1.originalObjectives = s.originalObjectives ∧
      (h.advance settings o s).1.completedObjectives = s.completedObjectives ∧
      (h.advance settings o s).1.lastFailureReason = s.lastFailureReason) := by
  obtain ⟨request,candidate,clause,departing,basis,gate,stage⟩ := h
  cases stage with
  | editing active => cases request <;> exact ⟨.none rfl rfl rfl,rfl,rfl,rfl⟩
  | arming =>
    rw [advance_block _ _ _ _ (by simp)]
    simp only [Handler.block]
    split <;> exact ⟨.none rfl rfl rfl,rfl,rfl,rfl⟩
  | justifying => exact ⟨.justifies rfl rfl rfl,rfl,rfl,rfl⟩
  | checking =>
    rw [advance_block _ _ _ _ (by simp)]
    simp only [Handler.block]
    split
    · exact ⟨.none rfl rfl rfl,rfl,rfl,rfl⟩
    · split <;> exact ⟨.none rfl rfl rfl,rfl,rfl,rfl⟩
  | acting verdict verified =>
    cases verdict with
    | accepted => exact ⟨.commits rfl o.now rfl,rfl,rfl,rfl⟩
    | _ => exact ⟨.none rfl rfl rfl,rfl,rfl,rfl⟩
  | disarming verdict verified =>
    rw [advance_block _ _ _ _ (by simp)]
    simp only [Handler.block]
    split <;> exact ⟨.none rfl rfl rfl,rfl,rfl,rfl⟩
  | withdrawing verdict verified =>
    refine ⟨?_,rfl,rfl,rfl⟩
    by_cases empty : departing = ∅
    · subst empty
      exact .none rfl (Finset.sdiff_empty) (Finset.sdiff_empty)
    · exact .withdraws (decide_eq_true empty) rfl rfl rfl
  | _ => exact ⟨.none rfl rfl rfl,rfl,rfl,rfl⟩

theorem advance_acted (settings : Settings) (o : Oracle) (h : Handler) (s : Arbiter) (commits : h.commits = true) :
    (h.advance settings o s).1 = s.commit h.candidate o.now := by
  obtain ⟨request,candidate,clause,departing,basis,gate,stage⟩ := h
  cases stage with
  | acting verdict verified =>
    cases verdict with
    | accepted => rfl
    | _ => cases commits
  | _ => cases commits

/-- A handler is past its check because it was, or because the check has just passed. -/
theorem advance_cleared (settings : Settings) (o : Oracle) (h : Handler) (s : Arbiter)
    (cleared : (h.advance settings o s).2.cleared = true) :
    (h.advance settings o s).2.candidate = h.candidate ∧ h.commits = false ∧
      (h.cleared = true ∨ h.stage = .checking ∧ s.structural settings o.schema h.candidate = none) := by
  obtain ⟨request,candidate,clause,departing,basis,gate,stage⟩ := h
  cases stage with
  | editing active =>
    cases request with
    | none => cases cleared
    | some r =>
      obtain arming | ⟨reason,refused⟩ := edit_stage settings s r active
        { request := some r, candidate, clause, departing, basis, gate, stage := .editing active }
      · simp only [Handler.advance,Handler.cleared,arming] at cleared
        cases cleared
      · simp only [Handler.advance,Handler.cleared,refused] at cleared
        cases cleared
  | checking =>
    refine ⟨rfl,rfl,.inr ⟨rfl,?_⟩⟩
    rw [advance_block _ _ _ _ (by simp)] at cleared
    cases found : s.structural settings o.schema candidate with
    | none => rfl
    | some verdict =>
      simp only [Handler.block,found] at cleared
      cases verdict with
      | accepted => exact absurd rfl (structural_ne _ _ _ _ _ found)
      | _ => cases cleared
  | returned verdict => cases verdict <;> first | exact ⟨rfl,rfl,.inl rfl⟩ | cases cleared
  | acting verdict verified =>
    cases verdict <;> cases request <;> cases cleared
  | publishing verified => cases request <;> cases cleared
  | disarming verdict verified => cases verdict <;> cases cleared
  | reading => exact ⟨rfl,rfl,.inl rfl⟩
  | comparing active => exact ⟨rfl,rfl,.inl rfl⟩
  | judging active => exact ⟨rfl,rfl,.inl rfl⟩
  | recording active result => exact ⟨rfl,rfl,.inl rfl⟩
  | limiting => exact ⟨rfl,rfl,.inl rfl⟩
  | _ => cases cleared

theorem withdraws_uncleared (h : Handler) (withdraws : h.withdraws = true) : h.cleared = false := by
  obtain ⟨request,candidate,clause,departing,basis,gate,stage⟩ := h
  cases stage with
  | withdrawing verdict verified => rfl
  | _ => cases withdraws

theorem commits_cleared (h : Handler) (commits : h.commits = true) : h.cleared = true := by
  obtain ⟨request,candidate,clause,departing,basis,gate,stage⟩ := h
  cases stage with
  | acting verdict verified => cases verdict <;> first | rfl | cases commits
  | _ => cases commits

theorem commit_justified (s : Arbiter) (d : Document) (now : ℚ) :
    (s.commit (.plan d) now).justifiedDrops = s.justifiedDrops ∪ (s.original \ (Xml.plan d).objectives) := by
  unfold Arbiter.commit Arbiter.original
  cases s.originalObjectives with
  | none => simp
  | some original => rfl

/-- What the check on objectives lets pass. -/
structure Passed (budget failures : Nat) (s : Arbiter) (xml : Xml) : Prop where
  parsed : ∃ d, xml = .plan d
  left : (s.left xml).card ≤ budget
  newly : (s.newly xml).card ≤ permanentDropAllowance
  failed : s.newly xml ≠ ∅ → 0 < failures

theorem checkObjectivePreserved_none (s : Arbiter) (d : Document) (passed : s.checkObjectivePreserved d = none) :
    (s.left (.plan d)).card ≤ s.maxDroppable.getD defaultViabilityBudget ∧
      (s.newly (.plan d)).card ≤ if permanent s.lastFailureReason then permanentDropAllowance else 0 := by
  unfold Arbiter.checkObjectivePreserved at passed
  unfold Arbiter.newly Arbiter.left Arbiter.original
  cases objectives : s.originalObjectives with
  | none => simp
  | some original =>
    simp only [objectives] at passed
    generalize allow : (ite (permanentKeywords.any _ = true) _ _ : Nat) = allowed at passed
    by_cases bare : original = ∅
    · simp [bare]
    rw [if_neg bare] at passed
    split at passed
    · cases passed
    rename_i few
    split at passed
    · cases passed
    rename_i viable
    exact ⟨Nat.not_lt.mp viable,allow ▸ Nat.not_lt.mp few⟩

theorem structural_passed (settings : Settings) (gating : settings.objectiveGating = true) (schema : Option String)
    (s : Arbiter) (xml : Xml) (failures : Nat) (reported : permanent s.lastFailureReason = true → 0 < failures)
    (found : s.structural settings schema xml = none) :
    Passed (s.maxDroppable.getD defaultViabilityBudget) failures s xml := by
  obtain ⟨d,rfl⟩ := structural_plan settings schema s xml found
  have checked : s.checkObjectivePreserved d = none := by
    unfold Arbiter.structural at found
    dsimp only at found
    split at found
    · cases found
    · cases found
    · rwa [if_pos gating] at found
  obtain ⟨left,newly⟩ := checkObjectivePreserved_none s d checked
  cases kind : permanent s.lastFailureReason with
  | true =>
    rw [kind] at newly
    exact ⟨⟨d,rfl⟩,left,newly,fun _ => reported kind⟩
  | false =>
    rw [kind] at newly
    have empty : s.newly (.plan d) = ∅ := Finset.card_eq_zero.mp (Nat.le_zero.mp newly)
    exact ⟨⟨d,rfl⟩,left,newly.trans (Nat.zero_le _),fun some => absurd empty some⟩

/-- More done, transferred or dropped before: what passed would pass again. -/
theorem Passed.mono {budget failures more : Nat} {s after : Arbiter} {xml : Xml} (passed : Passed budget failures s xml)
    (original : after.originalObjectives = s.originalObjectives)
    (completed : s.completedObjectives ⊆ after.completedObjectives)
    (transferred : s.transferredObjectives ⊆ after.transferredObjectives)
    (justified : s.justifiedDrops ⊆ after.justifiedDrops) (failed : failures ≤ more) :
    Passed budget more after xml := by
  have left : after.left xml ⊆ s.left xml := by
    unfold Arbiter.left Arbiter.original
    rw [original]
    gcongr
  have newly : after.newly xml ⊆ s.newly xml := by
    unfold Arbiter.newly
    gcongr
  refine ⟨passed.parsed,(Finset.card_le_card left).trans passed.left,(Finset.card_le_card newly).trans passed.newly,?_⟩
  intro some
  have before : s.newly xml ≠ ∅ := fun none => some (Finset.subset_empty.mp (none ▸ newly))
  exact (passed.failed before).trans_le failed

/-- The account that the ledger keeps of the arbiter. The drops are all that was ever
let go with a license. -/
structure Accounted (budget : Nat) (s : System × Ledger) (drops : Finset String) : Prop where
  bound : (lost s).card ≤ budget
  licensed : lost s ⊆ drops
  justified : (((s.1.arbiter.original ∩ s.1.arbiter.justifiedDrops) \ s.1.arbiter.completedObjectives) \
    s.1.arbiter.transferredObjectives) ⊆ drops
  failures : drops.card ≤ s.2.failures
  unspent : s.2.spent = false → 0 < s.2.failures → drops.card < s.2.failures
  reported : permanent s.1.arbiter.lastFailureReason = true → 0 < s.2.failures
  passed : ∀ h ∈ s.1.handlers, h.cleared = true → Passed budget s.2.failures s.1.arbiter h.candidate
  unloaded : s.1.log = [] → s.1.arbiter.originalObjectives = none

/-- A block, whoever's it is: one handler advances, the others stay. -/
structure Took (settings : Settings) (s after : System) (h : Handler) (rest : List Handler) (o : Oracle) : Prop where
  arbiter : after.arbiter = (h.advance settings o s.arbiter).1
  handlers : ∀ k ∈ after.handlers, k = (h.advance settings o s.arbiter).2 ∨ k ∈ rest
  log : after.log = [] → s.log = [] ∧ h.commits = false

theorem run_log (settings : Settings) (o : Oracle) (h : Handler) (s : System) (none : (s.run settings o h).1.log = []) :
    s.log = [] ∧ h.commits = false := by
  have run : (s.run settings o h).1.log = if h.commits then s.log ++ [.commit h.request h.basis h.candidate] else s.log :=
    rfl
  rw [run] at none
  split at none
  · simp at none
  · rename_i waits
    exact ⟨none,by simpa using waits⟩

theorem next_took (settings : Settings) (s : System) (e : Event) (h : Handler) (mine : s.hand e = some h) :
    h ∈ s.handlers ∧ (∀ k ∈ s.rest e, k ∈ s.handlers) ∧ ∃ o, Took settings s (s.next settings e) h (s.rest e) o := by
  cases e with
  | planner o =>
    have mine : s.planner = some h := mine
    refine ⟨List.mem_append_left _ (by simp [mine]),fun k member => List.mem_append_right _ member,o,?_⟩
    rw [next_planner settings s o h mine]
    refine ⟨rfl,fun k member => ?_,run_log settings o h s⟩
    obtain planner | request := List.mem_append.mp member
    · refine .inl ?_
      change k ∈ (if (s.run settings o h).2.live then some (s.run settings o h).2 else none).toList at planner
      split at planner
      · exact List.mem_singleton.mp planner
      · cases planner
    · exact .inr request
  | service i o =>
    have mine : s.requests[i]? = some h := mine
    refine ⟨List.mem_append_right _ (List.mem_of_getElem? mine),fun k member => ?_,o,?_⟩
    · obtain planner | request := List.mem_append.mp member
      · exact List.mem_append_left _ planner
      · exact List.mem_append_right _ (List.mem_of_mem_eraseIdx request)
    rw [next_service settings s i o h mine]
    refine ⟨rfl,fun k member => ?_,run_log settings o h s⟩
    obtain planner | request := List.mem_append.mp member
    · exact .inr (List.mem_append_left _ planner)
    obtain ⟨j,found⟩ := List.mem_iff_getElem?.mp request
    obtain ⟨-,rfl⟩ | ⟨other,found⟩ := set_placed _ _ _ j k found
    · exact .inl rfl
    · exact .inr (List.mem_append_right _ (List.mem_eraseIdx_iff_getElem?.mpr ⟨j,other,found⟩))
  | mission _ | echo | candidate _ | request _ | orchard _ | failed _ | succeeded _ | completed | budget _ => cases mine

theorem note_hand (s : System) (l : Ledger) (e : Event) (h : Handler) (mine : s.hand e = some h) :
    s.note l e = if h.commits then l.committed s.arbiter h else l := by
  cases e with
  | planner o => simp only [System.note,mine]
  | service i o => simp only [System.note,mine]
  | mission _ | echo | candidate _ | request _ | orchard _ | failed _ | succeeded _ | completed | budget _ => cases mine

namespace Accounted
variable {budget : Nat} {s after : System × Ledger} {drops : Finset String}

/-- The plan and the ledger are the same, and no drop stands that did not stand before. -/
theorem keep (accounted : Accounted budget s drops)
    (active : after.1.arbiter.activeMissionXml = s.1.arbiter.activeMissionXml)
    (original : after.1.arbiter.originalObjectives = s.1.arbiter.originalObjectives)
    (completed : s.1.arbiter.completedObjectives ⊆ after.1.arbiter.completedObjectives)
    (standing : after.1.arbiter.justifiedDrops \ after.1.arbiter.transferredObjectives ⊆
      s.1.arbiter.justifiedDrops \ s.1.arbiter.transferredObjectives)
    (reason : after.1.arbiter.lastFailureReason = s.1.arbiter.lastFailureReason) (ledger : after.2 = s.2)
    (passed : ∀ h ∈ after.1.handlers, h.cleared = true → Passed budget after.2.failures after.1.arbiter h.candidate)
    (log : after.1.log = [] → s.1.log = []) : Accounted budget after drops := by
  have fewer : lost after ⊆ lost s := by
    unfold lost Arbiter.original
    rw [active,original,ledger]
    gcongr
  refine ⟨(Finset.card_le_card fewer).trans accounted.bound,fewer.trans accounted.licensed,?_,?_,?_,?_,passed,?_⟩
  · intro tree member
    apply accounted.justified
    simp only [Arbiter.original,original,Finset.mem_sdiff,Finset.mem_inter] at member ⊢
    obtain ⟨⟨⟨mission,drop⟩,undone⟩,stayed⟩ := member
    obtain ⟨before,here⟩ := Finset.mem_sdiff.mp (standing (Finset.mem_sdiff.mpr ⟨drop,stayed⟩))
    exact ⟨⟨⟨mission,before⟩,fun done => undone (completed done)⟩,here⟩
  · rw [ledger]
    exact accounted.failures
  · rw [ledger]
    exact accounted.unspent
  · rw [reason,ledger]
    exact accounted.reported
  · intro none
    rw [original]
    exact accounted.unloaded (log none)

/-- Nothing that the account is about has changed, but that more may be done, and fewer decided. -/
theorem same (accounted : Accounted budget s drops)
    (active : after.1.arbiter.activeMissionXml = s.1.arbiter.activeMissionXml)
    (original : after.1.arbiter.originalObjectives = s.1.arbiter.originalObjectives)
    (completed : s.1.arbiter.completedObjectives ⊆ after.1.arbiter.completedObjectives)
    (justified : after.1.arbiter.justifiedDrops = s.1.arbiter.justifiedDrops)
    (transferred : after.1.arbiter.transferredObjectives = s.1.arbiter.transferredObjectives)
    (reason : after.1.arbiter.lastFailureReason = s.1.arbiter.lastFailureReason) (ledger : after.2 = s.2)
    (handlers : ∀ h ∈ after.1.handlers, h.cleared = true → h ∈ s.1.handlers)
    (log : after.1.log = [] → s.1.log = []) : Accounted budget after drops := by
  refine accounted.keep active original completed (by rw [justified,transferred]) reason ledger ?_ log
  intro h member cleared
  rw [ledger]
  exact (accounted.passed h (handlers h member cleared) cleared).mono original completed transferred.ge justified.ge
    le_rfl

variable {settings : Settings} {e : Event} {h : Handler}

/-- Those that have passed, after a block that takes no drop back. -/
theorem passedBlock (accounted : Accounted budget s drops) (gating : settings.objectiveGating = true)
    (mine : s.1.hand e = some h)
    (posed : h.stage = .checking → s.1.arbiter.maxDroppable.getD defaultViabilityBudget = budget)
    (transferred : s.1.arbiter.transferredObjectives ⊆ (s.1.next settings e).arbiter.transferredObjectives)
    (justified : s.1.arbiter.justifiedDrops ⊆ (s.1.next settings e).arbiter.justifiedDrops) :
    ∀ k ∈ (s.1.next settings e).handlers, k.cleared = true →
      Passed budget s.2.failures (s.1.next settings e).arbiter k.candidate := by
  obtain ⟨member,others,o,took⟩ := next_took settings s.1 e h mine
  obtain ⟨-,original,completed,-⟩ := advance_effect settings o h s.1.arbiter
  rw [← took.arbiter] at original completed
  have again (xml : Xml) (passed : Passed budget s.2.failures s.1.arbiter xml) :
      Passed budget s.2.failures (s.1.next settings e).arbiter xml :=
    passed.mono original completed.ge transferred justified le_rfl
  intro k now cleared
  obtain rfl | other := took.handlers k now
  · obtain ⟨same,-,before | ⟨checking,found⟩⟩ := advance_cleared settings o h s.1.arbiter cleared
    · rw [same]
      exact again _ (accounted.passed h member before)
    · rw [same]
      apply again
      rw [← posed checking]
      exact structural_passed settings gating o.schema s.1.arbiter h.candidate _ accounted.reported found
  · exact again _ (accounted.passed k (others k other) cleared)

/-- A block that commits nothing. -/
theorem waits (accounted : Accounted budget s drops) (gating : settings.objectiveGating = true)
    (mine : s.1.hand e = some h)
    (posed : h.stage = .checking → s.1.arbiter.maxDroppable.getD defaultViabilityBudget = budget)
    (free : h.withdraws = true → ∀ k ∈ s.1.rest e, k.cleared = false) (waits : h.commits = false) :
    Accounted budget ((ledgered settings).next s e) drops := by
  obtain ⟨-,-,o,took⟩ := next_took settings s.1 e h mine
  obtain ⟨effect,original,completed,reason⟩ := advance_effect settings o h s.1.arbiter
  rw [← took.arbiter] at effect original completed reason
  have ledger : s.1.note s.2 e = s.2 := by
    rw [note_hand s.1 s.2 e h mine,waits]
    rfl
  have passes := accounted.passedBlock gating mine posed
  cases effect with
  | none active justified transferred =>
    refine accounted.keep active original completed.ge ?_ reason ledger ?_ (fun none => (took.log none).1)
    · change (s.1.next settings e).arbiter.justifiedDrops \ (s.1.next settings e).arbiter.transferredObjectives ⊆ _
      rw [justified,transferred]
    · change ∀ k ∈ _,_ → Passed budget (s.1.note s.2 e).failures _ _
      rw [ledger]
      exact passes transferred.ge justified.ge
  | justifies active justified transferred =>
    refine accounted.keep active original completed.ge ?_ reason ledger ?_ (fun none => (took.log none).1)
    · change (s.1.next settings e).arbiter.justifiedDrops \ (s.1.next settings e).arbiter.transferredObjectives ⊆ _
      rw [justified,transferred]
      intro tree
      simp only [Finset.mem_sdiff,Finset.mem_union]
      tauto
    · change ∀ k ∈ _,_ → Passed budget (s.1.note s.2 e).failures _ _
      rw [ledger]
      refine passes ?_ ?_
      · rw [transferred]
        exact Finset.subset_union_left
      · rw [justified]
        exact Finset.subset_union_left
  | withdraws withdraws active justified transferred =>
    refine accounted.keep active original completed.ge ?_ reason ledger ?_ (fun none => (took.log none).1)
    · change (s.1.next settings e).arbiter.justifiedDrops \ (s.1.next settings e).arbiter.transferredObjectives ⊆ _
      rw [justified,transferred]
      intro tree
      simp only [Finset.mem_sdiff]
      tauto
    · intro k now cleared
      obtain rfl | other := took.handlers k now
      · obtain ⟨-,-,before | ⟨checking,-⟩⟩ := advance_cleared settings o h s.1.arbiter cleared
        · exact absurd before (by rw [withdraws_uncleared h withdraws]; exact Bool.false_ne_true)
        · rw [Handler.withdraws,checking] at withdraws
          cases withdraws
      · rw [free withdraws k other] at cleared
        cases cleared
  | commits commits =>
    rw [waits] at commits
    cases commits

/-- A commit. What it leaves out was let go before, or is let go with a license. -/
theorem commits (accounted : Accounted budget s drops) (gating : settings.objectiveGating = true)
    (mine : s.1.hand e = some h)
    (posed : h.stage = .checking → s.1.arbiter.maxDroppable.getD defaultViabilityBudget = budget)
    (commits : h.commits = true) (licensed : h.Licensed s.1.arbiter s.2) :
    Accounted budget ((ledgered settings).next s e) (drops ∪ s.1.arbiter.newly h.candidate) := by
  obtain ⟨member,-,o,took⟩ := next_took settings s.1 e h mine
  obtain ⟨effect,original,completed,reason⟩ := advance_effect settings o h s.1.arbiter
  rw [← took.arbiter] at effect original completed reason
  obtain ⟨now,same⟩ : ∃ now, (s.1.next settings e).arbiter = s.1.arbiter.commit h.candidate now := by
    have acted := advance_acted settings o h s.1.arbiter commits
    exact ⟨o.now,took.arbiter.trans acted⟩
  have passed := accounted.passed h member (commits_cleared h commits)
  obtain ⟨d,parsed⟩ := passed.parsed
  have ledger : s.1.note s.2 e = s.2.committed s.1.arbiter h := by
    rw [note_hand s.1 s.2 e h mine,if_pos commits]
  have justified : (s.1.next settings e).arbiter.justifiedDrops =
      s.1.arbiter.justifiedDrops ∪ (s.1.arbiter.original \ h.candidate.objectives) := by
    rw [same,parsed,commit_justified]
  have transferred : (s.1.next settings e).arbiter.transferredObjectives = s.1.arbiter.transferredObjectives := by
    rw [same]
    rfl
  have left : lost ((ledgered settings).next s e) ⊆ s.1.arbiter.left h.candidate := by
    intro tree member
    change tree ∈ lost (s.1.next settings e,s.1.note s.2 e) at member
    have active : (s.1.next settings e).arbiter.activeMissionXml = some h.candidate := by
      rw [same]
      rfl
    simp only [lost,Arbiter.original,active,original,completed,ledger,Ledger.committed,Option.map_some,Option.getD_some,
      Finset.mem_sdiff] at member
    obtain ⟨⟨⟨mission,absent⟩,undone⟩,stayed⟩ := member
    have outstanding : tree ∈ (s.1.arbiter.original \ s.1.arbiter.completedObjectives) \ h.candidate.objectives := by
      simp only [Finset.mem_sdiff]
      exact ⟨⟨mission,undone⟩,absent⟩
    have here : tree ∉ s.1.arbiter.transferredObjectives := fun gone => stayed (licensed.1 tree outstanding gone)
    simp only [Arbiter.left,Finset.mem_sdiff]
    exact ⟨⟨⟨mission,undone⟩,here⟩,absent⟩
  -- What is left out was dropped before, under the account, or is a new drop.
  have accountedFor : s.1.arbiter.left h.candidate ⊆ drops ∪ s.1.arbiter.newly h.candidate := by
    intro tree member
    by_cases dropped : tree ∈ s.1.arbiter.justifiedDrops
    · refine Finset.mem_union_left _ (accounted.justified ?_)
      simp only [Arbiter.left,Finset.mem_sdiff,Finset.mem_inter] at member ⊢
      exact ⟨⟨⟨member.1.1.1,dropped⟩,member.1.1.2⟩,member.1.2⟩
    · exact Finset.mem_union_right _ (Finset.mem_sdiff.mpr ⟨member,dropped⟩)
  have growth : (drops ∪ s.1.arbiter.newly h.candidate).card ≤ drops.card + (s.1.arbiter.newly h.candidate).card :=
    Finset.card_union_le _ _
  have few : (s.1.arbiter.newly h.candidate).card ≤ 1 := passed.newly
  refine ⟨(Finset.card_le_card left).trans passed.left,left.trans accountedFor,?_,?_,?_,?_,?_,?_⟩
  · intro tree member
    change tree ∈ (((s.1.next settings e).arbiter.original ∩ (s.1.next settings e).arbiter.justifiedDrops) \
      (s.1.next settings e).arbiter.completedObjectives) \ (s.1.next settings e).arbiter.transferredObjectives at member
    simp only [Arbiter.original,original,completed,justified,transferred,Finset.mem_sdiff,Finset.mem_inter,
      Finset.mem_union] at member
    obtain ⟨⟨⟨mission,before | ⟨-,absent⟩⟩,undone⟩,here⟩ := member
    · refine Finset.mem_union_left _ (accounted.justified ?_)
      simp only [Finset.mem_sdiff,Finset.mem_inter]
      exact ⟨⟨⟨mission,before⟩,undone⟩,here⟩
    · refine accountedFor ?_
      simp only [Arbiter.left,Finset.mem_sdiff]
      exact ⟨⟨⟨mission,undone⟩,here⟩,absent⟩
  · change _ ≤ (s.1.note s.2 e).failures
    rw [ledger]
    change _ ≤ s.2.failures
    by_cases none : s.1.arbiter.newly h.candidate = ∅
    · rw [none,Finset.union_empty]
      exact accounted.failures
    · have room := accounted.unspent (licensed.2 none) (passed.failed none)
      omega
  · change (s.1.note s.2 e).spent = false → 0 < (s.1.note s.2 e).failures → _ < (s.1.note s.2 e).failures
    rw [ledger]
    intro unspent failed
    obtain ⟨before,none⟩ := Bool.or_eq_false_iff.mp unspent
    have none : s.1.arbiter.newly h.candidate = ∅ := by simpa using none
    rw [none,Finset.union_empty]
    exact accounted.unspent before failed
  · change permanent (s.1.next settings e).arbiter.lastFailureReason = true → 0 < (s.1.note s.2 e).failures
    rw [reason,ledger]
    exact accounted.reported
  · change ∀ k ∈ _,_ → Passed budget (s.1.note s.2 e).failures _ _
    rw [ledger]
    refine accounted.passedBlock gating mine posed transferred.ge ?_
    rw [justified]
    exact Finset.subset_union_left
  · intro none
    have waits := (took.log none).2
    rw [commits] at waits
    cases waits

theorem block (accounted : Accounted budget s drops) (gating : settings.objectiveGating = true)
    (mine : s.1.hand e = some h)
    (posed : h.stage = .checking → s.1.arbiter.maxDroppable.getD defaultViabilityBudget = budget)
    (licensed : (h.commits = true → h.Licensed s.1.arbiter s.2) ∧
      (h.withdraws = true → ∀ k ∈ s.1.rest e, k.cleared = false)) :
    ∃ drops, Accounted budget ((ledgered settings).next s e) drops := by
  cases acts : h.commits with
  | true => exact ⟨_,accounted.commits gating mine posed acts (licensed.1 acts)⟩
  | false => exact ⟨_,accounted.waits gating mine posed licensed.2 acts⟩

end Accounted

theorem over_uncleared (h : Handler) (past : h.live = false) : h.cleared = false := by
  obtain ⟨request,candidate,clause,departing,basis,gate,stage⟩ := h
  cases stage with
  | answered verdict verified => rfl
  | _ => cases past

theorem quiet_uncleared (s : System) (quiet : s.quiet) : ∀ h ∈ s.handlers, h.cleared = false := by
  intro h member
  obtain ⟨planner,past⟩ := quiet
  rw [System.handlers,planner] at member
  exact over_uncleared h (past h member)

theorem verifyReplan_uncleared (r : Request) (s : Arbiter) : (Handler.verifyReplan r s).cleared = false := by
  unfold Handler.verifyReplan
  split
  · split <;> rfl
  · rfl

theorem onMission_first (s : Arbiter) (xml : Xml) (unloaded : s.originalObjectives = none)
    (foreign : s.publishedXml ≠ some xml) :
    (s.onMission xml).activeMissionXml = some xml ∧ (s.onMission xml).original ⊆ xml.objectives ∧
      (s.onMission xml).original ∩ (s.onMission xml).justifiedDrops = ∅ ∧
      (s.onMission xml).lastFailureReason = s.lastFailureReason := by
  unfold Arbiter.onMission
  rw [if_neg foreign]
  cases xml with
  | malformed text =>
    simp only [unloaded,Arbiter.original]
    exact ⟨trivial,Finset.empty_subset _,Finset.empty_inter _,trivial⟩
  | plan d =>
    simp only [unloaded,Arbiter.original]
    exact ⟨trivial,subset_rfl,Finset.inter_empty _,trivial⟩

/-- The mission that is there first: all of it is in the plan. -/
theorem mission_accounted (settings : Settings) (budget : Nat) (s : System × Ledger) (drops : Finset String) (xml : Xml)
    (accounted : Accounted budget s drops) (fresh : s.1.log = []) (quiet : s.1.quiet) :
    Accounted budget ((ledgered settings).next s (.mission xml)) drops := by
  obtain ⟨s,l⟩ := s
  have unloaded := accounted.unloaded fresh
  have uncleared := quiet_uncleared s quiet
  by_cases own : s.arbiter.publishedXml = some xml
  · have kept : s.arbiter.onMission xml = s.arbiter := if_pos own
    have log : (s.next settings (.mission xml)).log = s.log := if_pos own
    have arbiter : (s.next settings (.mission xml)).arbiter = s.arbiter := kept
    exact accounted.same (congrArg _ arbiter) (congrArg _ arbiter) (arbiter ▸ subset_rfl) (congrArg _ arbiter)
      (congrArg _ arbiter) (congrArg _ arbiter) rfl (fun _ member _ => member) (fun _ => fresh)
  have log : (s.next settings (.mission xml)).log = s.log ++ [.mission xml] := if_neg own
  obtain ⟨active,whole,clean,reason⟩ := onMission_first s.arbiter xml unloaded own
  have none : lost ((ledgered settings).next (s,l) (.mission xml)) = ∅ := by
    have planned : (s.arbiter.onMission xml).original \
        ((s.arbiter.onMission xml).activeMissionXml.map Xml.objectives).getD ∅ = ∅ := by
      rw [active]
      exact Finset.sdiff_eq_empty_iff_subset.mpr whole
    change (((s.arbiter.onMission xml).original \
      ((s.arbiter.onMission xml).activeMissionXml.map Xml.objectives).getD ∅) \ _) \ _ = ∅
    rw [planned,Finset.empty_sdiff,Finset.empty_sdiff]
  constructor
  · rw [none]
    exact Nat.zero_le _
  · rw [none]
    exact Finset.empty_subset _
  · change (((s.arbiter.onMission xml).original ∩ (s.arbiter.onMission xml).justifiedDrops) \ _) \ _ ⊆ drops
    rw [clean,Finset.empty_sdiff,Finset.empty_sdiff]
    exact Finset.empty_subset _
  · exact accounted.failures
  · exact accounted.unspent
  · change permanent (s.arbiter.onMission xml).lastFailureReason = true → _
    rw [reason]
    exact accounted.reported
  · intro h member cleared
    rw [uncleared h member] at cleared
    cases cleared
  · intro empty
    have filled : (s.next settings (.mission xml)).log = [] := empty
    rw [log] at filled
    simp at filled

theorem next_accounted (settings : Settings) (gating : settings.objectiveGating = true) (budget : Nat)
    (s : System × Ledger) (e : Event) (drops : Finset String) (accounted : Accounted budget s drops)
    (enabled : s.1.enabled e) (posed : Posed budget s e) (licensed : Licensed s e) :
    ∃ drops, Accounted budget ((ledgered settings).next s e) drops := by
  cases e with
  | mission xml => exact ⟨drops,mission_accounted settings budget s drops xml accounted posed.1 posed.2⟩
  | echo =>
    refine ⟨drops,?_⟩
    obtain ⟨s,l⟩ := s
    cases air : s.air with
    | nil => exact absurd air enabled.2
    | cons xml rest =>
      have own : s.arbiter.publishedXml = some xml := by
        have head : s.air.head? = s.arbiter.publishedXml := licensed
        rw [← head,air]
        rfl
      have arbiter : (s.next settings .echo).arbiter = s.arbiter := by
        rw [next_echo settings s xml rest air]
        exact if_pos own
      have handlers : (s.next settings .echo).handlers = s.handlers := by
        rw [next_echo settings s xml rest air]
        rfl
      have log : (s.next settings .echo).log = s.log := by
        rw [next_echo settings s xml rest air]
        rfl
      exact accounted.same (congrArg _ arbiter) (congrArg _ arbiter) (arbiter ▸ subset_rfl) (congrArg _ arbiter)
        (congrArg _ arbiter) (congrArg _ arbiter) rfl (fun _ member _ => handlers ▸ member) (fun none => log ▸ none)
  | candidate xml =>
    refine ⟨drops,accounted.same rfl rfl subset_rfl rfl rfl rfl rfl ?_ id⟩
    intro h member cleared
    obtain planner | request := List.mem_append.mp member
    · obtain rfl := List.mem_singleton.mp planner
      cases cleared
    · exact List.mem_append_right _ request
  | request r =>
    refine ⟨drops,accounted.same rfl rfl subset_rfl rfl rfl rfl rfl ?_ id⟩
    intro h member cleared
    obtain planner | request := List.mem_append.mp member
    · exact List.mem_append_left _ planner
    obtain request | fresh := List.mem_append.mp request
    · exact List.mem_append_right _ request
    · obtain rfl := List.mem_singleton.mp fresh
      rw [verifyReplan_uncleared] at cleared
      cases cleared
  | planner o =>
    cases mine : s.1.planner with
    | none =>
      have idle : s.1.planner.isSome = true := enabled
      rw [mine] at idle
      cases idle
    | some h => exact accounted.block gating mine (posed h mine) (licensed h mine)
  | service i o =>
    cases mine : s.1.requests[i]? with
    | none =>
      have live : s.1.requests[i]?.any Handler.live = true := enabled
      rw [mine] at live
      cases live
    | some h => exact accounted.block gating mine (posed h mine) (licensed h mine)
  | orchard map =>
    refine ⟨drops,?_⟩
    change Accounted budget (s.1.next settings (.orchard map),s.2) drops
    simp only [System.next]
    split
    · exact accounted
    · exact accounted.same rfl rfl subset_rfl rfl rfl rfl rfl (fun _ member _ => member) id
  | failed reason =>
    refine ⟨drops,?_⟩
    have note : s.1.note s.2 (.failed reason) =
        if permanent reason then { s.2 with failures := s.2.failures + 1, spent := false } else s.2 := rfl
    change Accounted budget (s.1.next settings (.failed reason),s.1.note s.2 (.failed reason)) drops
    rw [note]
    by_cases kind : permanent reason = true
    · rw [if_pos kind]
      refine ⟨accounted.bound,accounted.licensed,accounted.justified,accounted.failures.trans (Nat.le_succ _),?_,?_,?_,
        accounted.unloaded⟩
      · exact fun _ _ => Nat.lt_succ_of_le accounted.failures
      · exact fun _ => Nat.succ_pos _
      · intro h member cleared
        exact (accounted.passed h member cleared).mono rfl subset_rfl subset_rfl subset_rfl (Nat.le_succ _)
    · rw [if_neg kind]
      exact ⟨accounted.bound,accounted.licensed,accounted.justified,accounted.failures,accounted.unspent,
        fun permanent => absurd permanent kind,fun h member cleared => (accounted.passed h member cleared).mono rfl subset_rfl subset_rfl subset_rfl le_rfl,accounted.unloaded⟩
  | succeeded node => exact ⟨drops,accounted.same rfl rfl subset_rfl rfl rfl rfl rfl (fun _ member _ => member) id⟩
  | completed =>
    refine ⟨drops,?_⟩
    change Accounted budget (s.1.next settings .completed,s.2) drops
    simp only [System.next]
    split
    · exact accounted
    · exact accounted.same rfl rfl (Finset.subset_insert _ _) rfl rfl rfl rfl (fun _ member _ => member) id
  | budget answer =>
    refine ⟨drops,?_⟩
    change Accounted budget (s.1.next settings (.budget answer),s.2) drops
    simp only [System.next]
    split
    · exact accounted
    · exact accounted.same rfl rfl subset_rfl rfl rfl rfl rfl (fun _ member _ => member) id

/-- No objective is lost beyond the budget and the failures, where no transferred tree
that came back is left out, no failure licenses two drops, no drop is taken back under a
checked candidate and only the last publication comes back. -/
theorem objectives_preserved (settings : Settings) (gating : settings.objectiveGating = true) (budget : Nat)
    (s : System × Ledger) (reached : (ledgered settings).Reaches (fun s e => Posed budget s e ∧ Licensed s e) s) :
    Preserved budget s := by
  obtain ⟨drops,accounted⟩ : ∃ drops, Accounted budget s drops := by
    refine reached.invariant (fun s => ∃ drops, Accounted budget s drops) ?_ ?_
    · rintro ⟨s,l⟩ ⟨rfl,rfl⟩
      exact ⟨∅,Nat.zero_le _,subset_rfl,subset_rfl,le_rfl,fun _ failed => absurd failed (Nat.lt_irrefl 0),
        by decide,by simp [System.handlers],fun _ => rfl⟩
    · rintro s e - ⟨drops,accounted⟩ enabled ⟨posed,licensed⟩
      exact next_accounted settings gating budget s e drops accounted enabled posed licensed
  refine ⟨accounted.bound,((Finset.card_le_card accounted.licensed).trans accounted.failures).trans ?_⟩
  rw [permanentDropAllowance,Nat.one_mul]

instance (s : Arbiter) (l : Ledger) (h : Handler) : Decidable (h.Licensed s l) := inferInstanceAs (Decidable (_ ∧ _))

instance (budget : Nat) (s : System × Ledger) (e : Event) : Decidable (Posed budget s e) := by
  unfold Posed
  split <;> infer_instance

instance (s : System × Ledger) (e : Event) : Decidable (Licensed s e) := by
  unfold Licensed
  split <;> infer_instance

instance (budget : Nat) (s : System × Ledger) : Decidable (Preserved budget s) := inferInstanceAs (Decidable (_ ∧ _))

def treeSixty (mission : String) : Document where
  mission := some mission
  tree := [.node 0 ⟨.sequence,[]⟩ [visitTree 3 60]]

def noTrees (mission : String) : Document where
  mission := some mission
  tree := [.node 0 ⟨.sequence,[]⟩ []]

/-- Tree 10 went to a peer and came back; the planner leaves it out, and nothing failed. -/
def cameBack : List Event :=
  transferredBefore ++ [.candidate (.plan (treeSixty "visit tree 10"))] ++ plan 9 30

/-- One permanent failure, and two candidates that drop a tree each. -/
def failedOnce : List Event :=
  [.mission (.plan twoTrees),.failed "permanently blocked",.candidate (.plan (treeSixty ""))] ++ plan 9 10 ++
    [.echo,.candidate (.plan (noTrees ""))] ++ plan 9 20

/-- Both trees went and came back under a budget of one, and both are left out. -/
def bothCameBack : List Event :=
  [.mission (.plan twoTrees),.budget 1,.request (shed 10)] ++ serve 0 13 10 ++ [.echo,.request (absorb 10 10)] ++
    serve 1 14 20 ++ [.echo,.request (shed 60)] ++ serve 2 14 30 ++ [.echo,.request (absorb 60 60)] ++ serve 3 14 40 ++
    [.echo,.candidate (.plan (noTrees "visit tree 10; visit tree 60"))] ++ plan 10 50

/-- Within the budget the run loses an objective. -/
def Loses (budget : Nat) (run : List Event) : Prop :=
  (ledgered noFix).Reaches (Posed budget) ((ledgered noFix).runs ({},{}) run) ∧
    ¬Preserved budget ((ledgered noFix).runs ({},{}) run)

theorem objectives_lost : Loses 2 cameBack ∧ Loses 2 failedOnce ∧ Loses 1 bothCameBack := by
  have follows : ∀ run ∈ [(2,cameBack),(2,failedOnce),(1,bothCameBack)],
      (ledgered noFix).Follows (Posed run.1) ({},{}) run.2 := by
    decide +kernel
  have lost : ∀ run ∈ [(2,cameBack),(2,failedOnce),(1,bothCameBack)],
      ¬Preserved run.1 ((ledgered noFix).runs ({},{}) run.2) := by
    decide +kernel
  have loses : ∀ run ∈ [(2,cameBack),(2,failedOnce),(1,bothCameBack)], Loses run.1 run.2 := fun run member =>
    ⟨(ledgered noFix).reaches_runs _ ({},{}) run.2 (.start _ ⟨rfl,rfl⟩) (follows run member),lost run member⟩
  exact ⟨loses (2,cameBack) (by simp),loses (2,failedOnce) (by simp),loses (1,bothCameBack) (by simp)⟩

/-- Tree 10 goes to a peer, and tree 60 is dropped when it fails. -/
def handedAndDropped : List Event :=
  [.mission (.plan twoTrees),.request (shed 10)] ++ serve 0 13 10 ++
    [.echo,.failed "permanently blocked",.candidate (.plan (noTrees ""))] ++ plan 9 20

theorem handedAndDropped_preserved :
    Preserved 2 ((ledgered noFix).runs ({},{}) handedAndDropped) ∧
      lost ((ledgered noFix).runs ({},{}) handedAndDropped) = {"60"} :=
  ⟨objectives_preserved noFix rfl 2 _
    ((ledgered noFix).reaches_runs _ ({},{}) handedAndDropped (.start _ ⟨rfl,rfl⟩) (by decide +kernel)),
    by decide +kernel⟩

end AmigaFleet.Replanning
