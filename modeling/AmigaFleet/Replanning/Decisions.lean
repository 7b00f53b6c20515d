import AmigaFleet.Replanning.Arbiter
import AmigaFleet.Lib.Machine
import AmigaFleet.Lib.Places

/-! Decisions under way. A handler advances by one lock-held block at a time;
between two of its blocks any other may take one. -/
namespace AmigaFleet.Replanning
open Lib AmigaFleet.Mission

/-- The block a handler is about to take, with what it has read so far. -/
inductive Stage where
  | editing (active : Xml)
  | arming
  | justifying
  | clearing
  | checking
  | reading
  | comparing (active : Option Xml)
  | judging (active : Option Xml)
  | recording (active : Option Xml) (result : GateResult)
  | counting (reason : Reason)
  | limiting
  | returned (verdict : Verdict)
  | acting (verdict : Verdict) (verified : Bool)
  | publishing (verified : Bool)
  | disarming (verdict : Verdict) (verified : Bool)
  | withdrawing (verdict : Verdict) (verified : Bool)
  | answered (verdict : Verdict) (verified : Bool)
  deriving DecidableEq

/-- Between being allowed its clause and giving it back. -/
def Stage.armed : Stage → Bool
  | .editing _ | .arming | .withdrawing _ _ | .answered _ _ => false
  | _ => true

/-- One candidate in hand: the coordinator's, with its request, or the planner's.
The basis is the plan that was edited or, for the planner's, the one it was
compared with; the gate's answer to it is kept. -/
structure Handler where
  request : Option Request := none
  candidate : Xml
  clause : String := ""
  departing : Finset String := ∅
  basis : Option (Option Xml) := none
  gate : Option GateResult := none
  stage : Stage

/-- What the world answers to the block. -/
structure Oracle where
  schema : Option String := none
  outcome : Outcome := .noSpin
  ratio : ℚ := 0
  now : ℚ := 0

namespace Handler

def live (h : Handler) : Bool :=
  match h.stage with
  | .answered _ _ => false
  | _ => true

/-- Where `_decide` returns to. -/
def decided (h : Handler) (verdict : Verdict) (verified : Bool) : Stage :=
  if h.request.isSome then .disarming verdict verified else .answered verdict verified

/-- The first block of `_on_verify_replan`. -/
def verifyReplan (r : Request) (s : Arbiter) : Handler :=
  match s.activeMissionXml with
  | some active =>
    if active = .malformed "" then
      { request := some r, candidate := active, stage := .answered .accepted false }
    else { request := some r, candidate := active, basis := some (some active), stage := .editing active }
  | none => { request := some r, candidate := .malformed "", stage := .answered .accepted false }

/-- `_apply_task_edit`, on the plan that was read. -/
def edit (settings : Settings) (s : Arbiter) (r : Request) (active : Xml) (h : Handler) : Handler :=
  match applyTaskEdit settings s.orchard r active with
  | .error reason => { h with stage := .answered (.refused reason) false }
  | .ok edit =>
    { h with
      candidate := .plan edit.candidate
      clause := edit.clause
      departing := if r.removing then objectivesLeaving active edit.candidate else ∅
      stage := .arming }

/-- `_text_unchanged`, under the gate's lock. -/
def compare (h : Handler) (active : Option Xml) (s : Arbiter) : Stage :=
  match textUnchanged h.candidate.text active s.appendix with
  | some reason => .recording active ⟨false,reason,false⟩
  | none =>
    if h.candidate.text = "" then
      .recording active ⟨true,.said "no <Mission> text to verify against",false⟩
    else .judging active

/-- What follows the gate's answer: the refusal, check 6, or check 7. -/
def gated (active : Option Xml) (result : GateResult) (ratio : ℚ) : Stage :=
  if !result.accepted then .counting result.reason
  else if active.isSome && maxChangedLineRatio < ratio then .returned (.refused (.tooLarge ratio))
  else .limiting

def act (h : Handler) (now : ℚ) (s : Arbiter) (verified : Bool) : Verdict → Arbiter × Stage
  | .accepted => (s.commit h.candidate now,.publishing verified)
  | .aborted reason => (s.abort reason,h.decided (.aborted reason) verified)
  | .refused reason => (s.reject reason,h.decided (.refused reason) verified)

/-- The block the handler's stage names. -/
def block (settings : Settings) (o : Oracle) (h : Handler) (s : Arbiter) : Arbiter × Stage :=
  match h.stage with
  | .editing active => (s,.editing active)
  | .arming => (if settings.ltlVerification then s.allowMissionText h.clause else s,.justifying)
  | .justifying =>
    ({ s with
        justifiedDrops := s.justifiedDrops ∪ h.departing
        transferredObjectives := s.transferredObjectives ∪ h.departing },.clearing)
  | .clearing => ({ s with lastGateVerified := false },.checking)
  | .checking =>
    match s.structural settings o.schema h.candidate with
    | some verdict => (s,.returned verdict)
    | none =>
      if settings.ltlVerification then (s,.reading)
      else
        (s.count (fun status =>
          { status with
            ltlUnverified := status.ltlUnverified + 1, ltlLastReason := some (.said "verification disabled") }),
          .returned .accepted)
  | .reading => (s,.comparing s.activeMissionXml)
  | .comparing active => (s,h.compare active s)
  | .judging active => (s,.recording active (judged o.outcome))
  | .recording active result => (s.record result,gated active result o.ratio)
  | .counting reason =>
    (s.count (fun status => { status with ltlRejected := status.ltlRejected + 1 }),.returned (.refused reason))
  | .limiting => (s,.returned (s.rateLimit o.now))
  | .returned verdict => (s,.acting verdict s.lastGateVerified)
  | .acting verdict verified => h.act o.now s verified verdict
  | .publishing verified => (s,h.decided .accepted verified)
  | .disarming verdict verified =>
    (if settings.ltlVerification then s.allowMissionText "" else s,
      if verdict = .accepted then .answered verdict verified else .withdrawing verdict verified)
  | .withdrawing verdict verified =>
    ({ s with
        justifiedDrops := s.justifiedDrops \ h.departing
        transferredObjectives := s.transferredObjectives \ h.departing },.answered verdict verified)
  | .answered verdict verified => (s,.answered verdict verified)

/-- The plan the planner's candidate is compared with, once it is read. -/
def reads (h : Handler) (s : Arbiter) : Option (Option Xml) :=
  match h.stage,h.request with
  | .reading,none => some s.activeMissionXml
  | _,_ => h.basis

/-- The gate's answer, once it is recorded. -/
def hears (h : Handler) : Option GateResult :=
  match h.stage with
  | .recording _ result => some result
  | _ => h.gate

def advance (settings : Settings) (o : Oracle) (h : Handler) (s : Arbiter) : Arbiter × Handler :=
  match h.stage,h.request with
  | .editing active,some r => (s,h.edit settings s r active)
  | _,_ =>
    ((h.block settings o s).1,{ h with basis := h.reads s, gate := h.hears, stage := (h.block settings o s).2 })

/-- The block commits the candidate. -/
def commits (h : Handler) : Bool :=
  match h.stage with
  | .acting .accepted _ => true
  | _ => false

/-- The block finds checks 1 to 4 passed, and the handler comes to the gate. -/
def arrives (h after : Handler) : Bool :=
  match h.stage,after.stage with
  | .checking,.reading => true
  | .checking,.returned .accepted => true
  | _,_ => false

def publishes (h : Handler) : Bool :=
  match h.stage with
  | .publishing _ => true
  | _ => false

end Handler

/-- What replaced the active plan: a mission from elsewhere, or a candidate. -/
inductive Entry where
  | mission (xml : Xml)
  | commit (request : Option Request) (basis : Option (Option Xml)) (candidate : Xml)

/-- The arbiter with what it has under way. Its subscriptions take turns; its
service does not. The first mission, the clauses of the absorptions accepted
since, all that replaced the plan and how many candidates came to the gate are
kept for the record. -/
structure System where
  arbiter : Arbiter := {}
  planner : Option Handler := none
  requests : List Handler := []
  air : List Xml := []
  reporting : Option String := none
  budgetFor : Option Nat := none
  first : Option Xml := none
  absorbed : List String := []
  log : List Entry := []
  arrived : Nat := 0

inductive Event where
  | mission (xml : Xml)
  | echo
  | candidate (xml : Xml)
  | request (r : Request)
  | planner (o : Oracle)
  | service (i : Nat) (o : Oracle)
  | orchard (map : Orchard)
  | failed (reason : String)
  | succeeded (node : String)
  | completed
  | budget (answer : Nat)

/-- `sample_leaf_trees(doc).get(name)`. A later sample of the same name counts. -/
def sampleLeafTree (d : Document) (orchard : Option Orchard) (name : String) : Option String :=
  ((bindings orchard {} [] d.leaves).map (fun b => ((b.2.1.2.get "name").getD "",b.2.2))).reverse.lookup name

namespace System
variable (settings : Settings)

/-- No callback of the subscriptions is running. -/
def idle (s : System) : Bool := s.planner.isNone && s.reporting.isNone

def deliver (s : System) (xml : Xml) : System :=
  { s with
    arbiter := s.arbiter.onMission xml
    budgetFor :=
      if settings.objectiveGating && s.arbiter.originalObjectives.isNone then
        ((s.arbiter.onMission xml).originalObjectives.map Finset.card).or s.budgetFor
      else s.budgetFor }

/-- One block of the handler, and what it leaves for the handler's place. -/
def run (s : System) (o : Oracle) (h : Handler) : System × Handler :=
  let (arbiter,after) := h.advance settings o s.arbiter
  ({ s with
      arbiter := arbiter
      air := if h.publishes then s.air ++ [h.candidate] else s.air
      absorbed := if h.commits && h.clause ≠ "" then s.absorbed ++ [h.clause] else s.absorbed
      log := if h.commits then s.log ++ [.commit h.request h.basis h.candidate] else s.log
      arrived := s.arrived + if h.arrives after then 1 else 0 },after)

/-- `_on_bt_status` on a success, up to the tree it names. -/
def finished (s : System) (node : String) : Option String :=
  match s.arbiter.activeMissionXml with
  | some (.plan d) => if node = "" ∨ node = "<tree>" then none else sampleLeafTree d s.arbiter.orchard node
  | _ => none

def next (s : System) : Event → System
  | .mission xml =>
    { s.deliver settings xml with
      first := s.first.or (some xml)
      log := if s.arbiter.publishedXml = some xml then s.log else s.log ++ [.mission xml] }
  | .echo =>
    match s.air with
    | [] => s
    | xml::rest => { s.deliver settings xml with air := rest }
  | .candidate xml => { s with planner := some { candidate := xml, stage := .clearing } }
  | .request r => { s with requests := s.requests ++ [.verifyReplan r s.arbiter] }
  | .planner o =>
    match s.planner with
    | none => s
    | some h =>
      let (s,after) := s.run settings o h
      { s with planner := if after.live then some after else none }
  | .service i o =>
    match s.requests[i]? with
    | none => s
    | some h =>
      let (s,after) := s.run settings o h
      { s with requests := s.requests.set i after }
  | .orchard map =>
    if map.aisleByTree.size = 0 then s else { s with arbiter := { s.arbiter with orchard := some map } }
  | .failed reason => { s with arbiter := { s.arbiter with lastFailureReason := reason } }
  | .succeeded node => { s with reporting := s.finished node }
  | .completed =>
    match s.reporting with
    | none => s
    | some tree =>
      { s with
        arbiter := { s.arbiter with completedObjectives := insert tree s.arbiter.completedObjectives }
        reporting := none }
  | .budget answer =>
    match s.budgetFor with
    | none => s
    | some trees =>
      let budget := max 1 (min answer trees)
      { s with
        arbiter := { s.arbiter with
          maxDroppable := some budget
          lastStatus := { s.arbiter.lastStatus with viabilityBudget := some budget } }
        budgetFor := none }

def enabled (s : System) : Event → Prop
  | .mission _ => s.idle
  | .echo => s.idle ∧ s.air ≠ []
  | .candidate _ => s.idle
  | .request _ => True
  | .planner _ => s.planner.isSome
  | .service i _ => s.requests[i]?.any Handler.live
  | .orchard _ => s.idle
  | .failed _ => s.idle
  | .succeeded _ => s.idle
  | .completed => s.reporting.isSome
  | .budget _ => s.budgetFor.isSome

instance (s : System) : (e : Event) → Decidable (s.enabled e)
  | .mission _ | .candidate _ | .orchard _ | .failed _ | .succeeded _ => inferInstanceAs (Decidable (s.idle = true))
  | .echo => inferInstanceAs (Decidable (s.idle = true ∧ s.air ≠ []))
  | .request _ => inferInstanceAs (Decidable True)
  | .planner _ => inferInstanceAs (Decidable (s.planner.isSome = true))
  | .service i _ => inferInstanceAs (Decidable (s.requests[i]?.any Handler.live = true))
  | .completed => inferInstanceAs (Decidable (s.reporting.isSome = true))
  | .budget _ => inferInstanceAs (Decidable (s.budgetFor.isSome = true))

end System

/-- The arbiter from its start, under any order of callbacks and blocks. -/
def machine (settings : Settings) : Machine System Event where
  initial := fun s => s = {}
  enabled := System.enabled
  next := System.next settings

instance (settings : Settings) (s : System) (e : Event) : Decidable ((machine settings).enabled s e) :=
  inferInstanceAs (Decidable (s.enabled e))

theorem advance_block (settings : Settings) (o : Oracle) (h : Handler) (s : Arbiter)
    (other : ∀ active, h.stage ≠ .editing active) :
    h.advance settings o s =
      ((h.block settings o s).1,{ h with basis := h.reads s, gate := h.hears, stage := (h.block settings o s).2 }) := by
  unfold Handler.advance
  split
  · rename_i active _ editing _
    exact absurd editing (other active)
  · rfl

theorem advance_request (settings : Settings) (o : Oracle) (h : Handler) (s : Arbiter) :
    (h.advance settings o s).2.request = h.request := by
  unfold Handler.advance
  split
  · unfold Handler.edit
    split <;> rfl
  · rfl

theorem next_echo (settings : Settings) (s : System) (xml : Xml) (rest : List Xml) (air : s.air = xml :: rest) :
    s.next settings .echo = { s.deliver settings xml with air := rest } := by
  simp only [System.next,air]

theorem next_planner (settings : Settings) (s : System) (o : Oracle) (h : Handler) (mine : s.planner = some h) :
    s.next settings (.planner o) =
      { (s.run settings o h).1 with
        planner := if (s.run settings o h).2.live then some (s.run settings o h).2 else none } := by
  simp only [System.next,mine]

theorem next_service (settings : Settings) (s : System) (i : Nat) (o : Oracle) (h : Handler)
    (mine : s.requests[i]? = some h) :
    s.next settings (.service i o) =
      { (s.run settings o h).1 with requests := s.requests.set i (s.run settings o h).2 } := by
  simp only [System.next,mine]
  rfl

/-! Small plans, and the blocks of one handler in a row, for the runs on them. -/

def visitTree (ref tree : Nat) : Element :=
  .node ref ⟨.sequence,[("name","visit__task_" ++ toString tree)]⟩
    [.leaf (ref + 1) ⟨.moveToTreeID,[("name","to_" ++ toString tree),("id",toString tree),("approach_tree","true")]⟩]

def treeTen : Document where
  mission := some "visit tree 10"
  tree := [.node 0 ⟨.sequence,[]⟩ [visitTree 1 10]]

def twoTrees : Document where
  mission := some ""
  tree := [.node 0 ⟨.sequence,[]⟩ [visitTree 1 10,visitTree 3 60]]

def absorb (task : Nat) (tree : Int) : Request :=
  { taskId := task, requiredCapabilities := 1, targetKind := 1, targetA := tree }

def shed (task : Nat) : Request := { removing := true, taskId := task }

def noFix : Settings := { fix := fun _ _ => none }

def serve (i blocks : Nat) (now : ℚ) : List Event := List.replicate blocks (.service i { now := now })

def plan (blocks : Nat) (now : ℚ) : List Event := List.replicate blocks (.planner { now := now })

end AmigaFleet.Replanning
