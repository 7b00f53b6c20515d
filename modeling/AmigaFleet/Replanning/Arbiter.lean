import AmigaFleet.Mission.Edits
import AmigaFleet.Mission.Prune
import AmigaFleet.Mission.Synthesis
import Mathlib.Data.Finset.SDiff
import Mathlib.Data.Rat.Defs
import Mathlib.Algebra.Order.Field.Rat

/-! The arbiter: what it holds, how it edits a plan for the coordinator, and the
checks a candidate has to pass. -/
namespace AmigaFleet.Replanning
open Lib AmigaFleet.Mission
open Codec (Target TargetKind)

/-- A document: the text of its first `Mission`, where it has one, and what its
behaviour tree holds. -/
structure Document where
  mission : Option String := none
  tree : List Element
  deriving DecidableEq

def Document.leaves (d : Document) : List Leaf := d.tree.flatMap actionsIn

/-- A plan as it travels. -/
inductive Xml where
  | malformed (text : String)
  | plan (document : Document)
  deriving DecidableEq

def missionText (d : Document) : String := Text.strip (d.mission.getD "")

def Xml.text : Xml → String
  | malformed _ => ""
  | plan d => missionText d

/-- `ltl_gate._extend`. -/
def extend (text appendix : String) : String := if text = "" then appendix else text ++ "; " ++ appendix

def extendMissionText (d : Document) (clause : String) : Document :=
  match d.mission with
  | none => d
  | some text => { d with mission := some (extend (Text.strip text) clause) }

def missionClause (task : MissionTask) : String :=
  if task.target.kind ≠ .tree then ""
  else if .sampleLeaf ∈ capabilitiesIn task.capabilities then "sample leaves from tree " ++ toString task.target.a
  else "visit tree " ++ toString task.target.a

def lowered (text : String) : List Char := text.toList.map Char.toLower

def objectiveTreeIds (d : Document) : Finset String :=
  (d.leaves.filterMap (fun x =>
    if x.2.tag = .moveToTreeID ∧ lowered ((x.2.get "approach_tree").getD "") = "true".toList then x.2.get "id"
    else none)).toFinset

/-- Why a candidate or a request was turned down. -/
inductive Reason where
  | said (text : String)
  | malformed
  | schema (log : String)
  | badTarget (kind a b : Int)
  | unjustifiedDrop (newly already : Finset String) (allowed : Nat)
  | notViable (dropped : Finset String) (budget : Nat)
  | rewritten (expected got : String)
  | tooLarge (ratio : ℚ)
  | rateLimited (since : ℚ)
  deriving DecidableEq

inductive Verdict where
  | accepted
  | refused (reason : Reason)
  | aborted (reason : Reason)
  deriving DecidableEq

structure GateResult where
  accepted : Bool
  reason : Reason
  verified : Bool := false
  deriving DecidableEq

/-- What the formula, the model and SPIN come to for one candidate. -/
inductive Outcome where
  | noFormula (error : String)
  | noModel (error : String)
  | uncovered (gap : String)
  | noSpin
  | inconclusive (error : String)
  | violated (formula trail : String)
  | holds (formula : String)
  deriving DecidableEq

/-- `evaluate`, from where the text has passed. -/
def judged : Outcome → GateResult
  | .noFormula error => ⟨true,.said ("unverified: " ++ error),false⟩
  | .noModel error => ⟨false,.said ("cannot verify plan: " ++ error),false⟩
  | .uncovered gap => ⟨false,.said ("LTL coverage: " ++ gap),false⟩
  | .noSpin => ⟨true,.said "unverified: spin not installed",false⟩
  | .inconclusive error => ⟨true,.said ("unverified: " ++ error),false⟩
  | .violated formula trail => ⟨false,.said ("LTL violation of `" ++ formula ++ "`:\n" ++ trail),true⟩
  | .holds formula => ⟨true,.said ("verified against `" ++ formula ++ "`"),true⟩

/-- `_text_unchanged`, with the reason where it is not. -/
def textUnchanged (text : String) (active : Option Xml) (appendix : String) : Option Reason :=
  match active with
  | some (.plan d) =>
    if text = missionText d then none
    else if appendix ≠ "" ∧ text = extend (missionText d) appendix then none
    else some (.rewritten (missionText d) text)
  | _ => none

structure Status where
  accepted : Nat := 0
  rejected : Nat := 0
  lastRejectionReason : Option Reason := none
  lastDecision : Option String := none
  ltlChecked : Nat := 0
  ltlRejected : Nat := 0
  ltlUnverified : Nat := 0
  ltlLastReason : Option Reason := none
  viabilityBudget : Option Nat := none

structure Settings where
  ltlVerification : Bool := true
  objectiveGating : Bool := true
  fix : String → String → Option Target
  actionNames : List (String × String) := []

/-- The arbiter's fields, and the gate's `_appendix`. -/
structure Arbiter where
  activeMissionXml : Option Xml := none
  originalObjectives : Option (Finset String) := none
  justifiedDrops : Finset String := ∅
  completedObjectives : Finset String := ∅
  transferredObjectives : Finset String := ∅
  maxDroppable : Option Nat := none
  lastFailureReason : String := ""
  lastAcceptTime : ℚ := 0
  awaitingRetry : Bool := false
  publishedXml : Option Xml := none
  lastGateVerified : Bool := false
  lastStatus : Status := {}
  orchard : Option Orchard := none
  appendix : String := ""

/-- `VerifyReplan`. The subtree is not there, does not parse, or does. -/
structure Request where
  removing : Bool := false
  taskId : Nat
  requiredCapabilities : Nat := 0
  targetKind : Int := 0
  targetA : Int := 0
  targetB : Int := 0
  priority : Int := 0
  taskXml : Option (Option Element) := none

def Request.task (r : Request) : Option MissionTask :=
  (Target.ofWords? r.targetKind r.targetA r.targetB).map (fun target =>
    { taskId := r.taskId
      name := "task_" ++ toString r.taskId
      capabilities := r.requiredCapabilities
      target := target
      priority := r.priority
      xml := r.taskXml.join })

/-- The plan with the task added or removed, the sanctioned text, and what the
rebuild could not supply. -/
structure Edit where
  candidate : Document
  clause : String := ""
  dropped : List String := []

def removal (settings : Settings) (r : Request) (active : Xml) : Except Reason Edit :=
  let missing := Reason.said ("task " ++ toString r.taskId ++ " is not in the active plan")
  match active with
  | .malformed _ => .error missing
  | .plan d =>
    match removeTask settings.fix d.tree r.taskId with
    | .error error => .error (.said error)
    | .ok none => .error missing
    | .ok (some tree) => .ok { candidate := { d with tree := tree } }

def rebuild (settings : Settings) (orchard : Option Orchard) (r : Request) (task : MissionTask) :
    Except Reason (MissionTask × List String) :=
  match r.taskXml with
  | some _ => .ok (task,[])
  | none =>
    match synthesize settings.actionNames orchard task with
    | some rebuilt => .ok ({ task with xml := some rebuilt.xml },rebuilt.dropped)
    | none =>
      let names := (capabilityNames task.capabilities).map (fun name => "'" ++ name ++ "'")
      .error (.said ("task " ++ toString r.taskId ++ " cannot be rebuilt from its announcement (target_kind " ++
        toString r.targetKind ++ ", capabilities [" ++ String.intercalate ", " names ++ "])"))

def absorption (settings : Settings) (orchard : Option Orchard) (r : Request) (active : Xml) : Except Reason Edit :=
  let ungrafted := Reason.said ("could not graft task " ++ toString r.taskId ++ " into the active plan")
  match r.task with
  | none => .error (.badTarget r.targetKind r.targetA r.targetB)
  | some task =>
    match rebuild settings orchard r task,active with
    | .error reason,_ => .error reason
    | .ok _,.malformed _ => .error ungrafted
    | .ok (task,dropped),.plan d =>
      match insertTask d.tree task with
      | none => .error ungrafted
      | some tree =>
        let edited := { d with tree := tree }
        let clause := missionClause task
        .ok ⟨if clause = "" then edited else extendMissionText edited clause,clause,dropped⟩

def applyTaskEdit (settings : Settings) (orchard : Option Orchard) (r : Request) (active : Xml) :
    Except Reason Edit :=
  if r.removing then removal settings r active else absorption settings orchard r active

def objectivesLeaving (active : Xml) (candidate : Document) : Finset String :=
  match active with
  | .malformed _ => ∅
  | .plan d => objectiveTreeIds d \ objectiveTreeIds candidate

def checkPreconditions (d : Document) (orchard : Option Orchard) : Option String :=
  ((steps orchard {} (d.leaves.map Prod.snd)).filterMap Step.violation).head?

def permanentKeywords : List String := ["permanent","removed","unavailable","does not exist"]
def maxDroppedTrees : Nat := 0
def permanentDropAllowance : Nat := 1
def defaultViabilityBudget : Nat := 2
def maxChangedLineRatio : ℚ := 1 / 2
def minAcceptIntervalSec : ℚ := 5

namespace Arbiter

def allowMissionText (s : Arbiter) (text : String) : Arbiter := { s with appendix := Text.strip text }

def count (s : Arbiter) (change : Status → Status) : Arbiter := { s with lastStatus := change s.lastStatus }

/-- `_check_objective_preserved`: nothing where both gates pass. -/
def checkObjectivePreserved (s : Arbiter) (d : Document) : Option Verdict :=
  match s.originalObjectives with
  | none => none
  | some original =>
    let budget := s.maxDroppable.getD defaultViabilityBudget
    let outstanding := (original \ s.completedObjectives) \ s.transferredObjectives
    let dropped := outstanding \ objectiveTreeIds d
    let newly := dropped \ s.justifiedDrops
    let permanent := permanentKeywords.any (fun word => word.toList <:+: lowered s.lastFailureReason)
    let allowed := if permanent then max maxDroppedTrees permanentDropAllowance else maxDroppedTrees
    if original = ∅ then none
    else if allowed < newly.card then some (.refused (.unjustifiedDrop newly s.justifiedDrops allowed))
    else if budget < dropped.card then some (.aborted (.notViable dropped budget))
    else none

/-- Checks 1 to 4. The schema's verdict is given. -/
def structural (settings : Settings) (schema : Option String) (s : Arbiter) : Xml → Option Verdict
  | .malformed _ => some (.refused .malformed)
  | .plan d =>
    match schema,checkPreconditions d s.orchard with
    | some log,_ => some (.refused (.schema log))
    | none,some reason => some (.refused (.said reason))
    | none,none => if settings.objectiveGating then s.checkObjectivePreserved d else none

/-- Check 7, nothing while a rejected candidate is being retried. -/
def rateLimit (now : ℚ) (s : Arbiter) : Verdict :=
  if !s.awaitingRetry && 0 < s.lastAcceptTime && now - s.lastAcceptTime < minAcceptIntervalSec then
    .refused (.rateLimited (now - s.lastAcceptTime))
  else .accepted

def commit (candidate : Xml) (now : ℚ) (s : Arbiter) : Arbiter :=
  let dropped :=
    match s.originalObjectives,candidate with
    | some original,.plan d => original \ objectiveTreeIds d
    | _,_ => ∅
  { s with
    publishedXml := some candidate
    activeMissionXml := some candidate
    lastAcceptTime := now
    awaitingRetry := false
    justifiedDrops := s.justifiedDrops ∪ dropped
    lastStatus :=
      { s.lastStatus with accepted := s.lastStatus.accepted + 1, lastDecision := some "accepted" } }

def abort (reason : Reason) (s : Arbiter) : Arbiter :=
  { s with
    awaitingRetry := false
    lastStatus := { s.lastStatus with lastDecision := some "aborted", lastRejectionReason := some reason } }

def reject (reason : Reason) (s : Arbiter) : Arbiter :=
  { s with
    awaitingRetry := true
    lastStatus :=
      { s.lastStatus with
        rejected := s.lastStatus.rejected + 1, lastRejectionReason := some reason, lastDecision := some "rejected" } }

/-- The gate's answer, as `_evaluate` records it. -/
def record (result : GateResult) (s : Arbiter) : Arbiter :=
  { s with
    lastGateVerified := result.verified
    lastStatus :=
      { s.lastStatus with
        ltlLastReason := some result.reason
        ltlChecked := s.lastStatus.ltlChecked + if result.verified then 1 else 0
        ltlUnverified := s.lastStatus.ltlUnverified + if result.verified then 0 else 1 } }

def onMission (xml : Xml) (s : Arbiter) : Arbiter :=
  if s.publishedXml = some xml then s
  else
    match s.originalObjectives,xml with
    | none,.plan d =>
      { s with
        activeMissionXml := some xml, originalObjectives := some (objectiveTreeIds d), justifiedDrops := ∅ }
    | _,_ => { s with activeMissionXml := some xml }

end Arbiter

theorem checkObjectivePreserved_cases (s : Arbiter) (d : Document) (verdict : Verdict)
    (found : s.checkObjectivePreserved d = some verdict) :
    (∃ newly already allowed, verdict = .refused (.unjustifiedDrop newly already allowed)) ∨
      ∃ dropped budget, verdict = .aborted (.notViable dropped budget) := by
  unfold Arbiter.checkObjectivePreserved at found
  cases objectives : s.originalObjectives with
  | none => simp [objectives] at found
  | some original =>
    simp only [objectives] at found
    generalize (ite (permanentKeywords.any _ = true) _ _ : Nat) = allowed at found
    by_cases bare : original = ∅
    · simp [bare] at found
    rw [if_neg bare] at found
    split at found
    · exact .inl ⟨_,_,_,(Option.some.inj found).symm⟩
    split at found
    · exact .inr ⟨_,_,(Option.some.inj found).symm⟩
    · cases found

/-- What checks 1 to 4 turn down: a refusal, never of the text, or an abort. -/
theorem structural_cases (settings : Settings) (schema : Option String) (s : Arbiter) (xml : Xml) (verdict : Verdict)
    (found : s.structural settings schema xml = some verdict) :
    (∃ reason, verdict = .refused reason ∧ ∀ expected got, reason ≠ .rewritten expected got) ∨
      ∃ dropped budget, verdict = .aborted (.notViable dropped budget) := by
  unfold Arbiter.structural at found
  split at found
  · exact .inl ⟨_,(Option.some.inj found).symm,by simp⟩
  split at found
  · exact .inl ⟨_,(Option.some.inj found).symm,by simp⟩
  · exact .inl ⟨_,(Option.some.inj found).symm,by simp⟩
  split at found
  · obtain ⟨_,_,_,rfl⟩ | ⟨dropped,budget,rfl⟩ := checkObjectivePreserved_cases _ _ _ found
    · exact .inl ⟨_,rfl,by simp⟩
    · exact .inr ⟨dropped,budget,rfl⟩
  · cases found

theorem structural_ne (settings : Settings) (schema : Option String) (s : Arbiter) (xml : Xml) (verdict : Verdict)
    (found : s.structural settings schema xml = some verdict) : verdict ≠ .accepted := by
  obtain ⟨reason,rfl,-⟩ | ⟨_,_,rfl⟩ := structural_cases settings schema s xml verdict found <;> simp

theorem onMission_active (s : Arbiter) (xml : Xml) :
    (s.onMission xml).activeMissionXml = if s.publishedXml = some xml then s.activeMissionXml else some xml := by
  unfold Arbiter.onMission
  split
  · rfl
  · split <;> rfl

theorem onMission_appendix (s : Arbiter) (xml : Xml) : (s.onMission xml).appendix = s.appendix := by
  unfold Arbiter.onMission
  split
  · rfl
  · split <;> rfl

end AmigaFleet.Replanning
