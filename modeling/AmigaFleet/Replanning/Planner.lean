import AmigaFleet.Replanning.Decisions

/-! The mission planner: its sessions on threads of their own, one lock-held block at a
time, and the callbacks that open them, answer them and take them up again. -/
namespace AmigaFleet.Repair
open Lib AmigaFleet.Mission
open Replanning (Xml Document sampleLeafTree)

/-- What a session is about: a FAILURE event, or a change of the workload. Every one
has a number of its own. -/
structure Fault where
  number : Nat
  node : Option String
  reason : String := ""
  source : String := ""
  failure : Bool := true
  deriving DecidableEq

structure Route where
  route : String
  guidance : String := ""

/-- `_last_planner_call`: the template, what it is filled with, and the guidance. -/
structure Call where
  template : String := "mission_planner/replan_user.j2"
  extra : Option String := none
  guidance : String := ""

inductive Cause where
  | maxRetriesExhausted
  | rejectionRetriesExhausted
  deriving DecidableEq

instance : LawfulBEq (Cause × Option (Option String)) := inferInstance

/-- What goes to `/mission/planner_status`. -/
structure Notice where
  cause : Cause
  node : Option String
  lastReason : String
  deriving DecidableEq

/-- The cause, and the node where the budget is the node's. -/
def Notice.key (n : Notice) : Cause × Option (Option String) :=
  (n.cause,if n.cause = .maxRetriesExhausted then none else some n.node)

def maxRetries : Nat := 3
def maxRejectionRetries : Nat := 3

structure Planner where
  currentMissionXml : Option Xml := none
  orchard : Option Orchard := none
  completedTrees : List String := []
  sessions : Nat := 0
  rejectionRetries : Nat := 0
  lastFailureEvent : Option Fault := none
  lastRejectionReason : Option String := none
  missionAborted : Bool := false
  lastPlannerCall : Call := {}
  gaveUp : List (Cause × Option (Option String)) := []
  routes : List (String × Route) := []

/-- The document as one element. -/
def rooted (d : Document) : Element := .node (1 + (d.tree.flatMap Tree.refs).foldr max 0) ⟨.sequence,[]⟩ d.tree

namespace Planner

/-- Nothing is left to replan. A plan that does not parse is not pruned. -/
def complete (p : Planner) : Xml → Bool
  | .malformed _ => false
  | .plan d => (actionsIn (pruneCompleted (rooted d) p.completedTrees p.orchard)).isEmpty

/-- What `_run_planner` keeps of the failure it addresses. -/
def track (p : Planner) (f : Fault) (call : Call) : Planner :=
  let anew := p.lastFailureEvent.all (fun last => last.node ≠ f.node)
  { p with
    rejectionRetries := if anew then 0 else p.rejectionRetries
    lastRejectionReason := if anew then none else p.lastRejectionReason
    lastFailureEvent := some f
    lastPlannerCall := call }

/-- The tree that the leaf samples in the plan. -/
def sampledBy (p : Planner) (node : String) : Option String :=
  match p.currentMissionXml with
  | some (.plan d) => if node = "" ∨ node = "<tree>" then none else sampleLeafTree d p.orchard node
  | _ => none

def onLeafSuccess (p : Planner) (node : String) : Planner :=
  match p.sampledBy node with
  | none => p
  | some tree =>
    { p with completedTrees := if tree ∈ p.completedTrees then p.completedTrees else p.completedTrees ++ [tree] }

/-- The block of `_on_replan_request`. -/
def reset (p : Planner) : Planner :=
  { p with sessions := 0, gaveUp := [], rejectionRetries := 0, lastRejectionReason := none, lastFailureEvent := none }

def onAbort (p : Planner) : Planner :=
  { p with lastFailureEvent := none, rejectionRetries := 0, missionAborted := true }

end Planner

/-- How a session ended. A give-up that was announced before is not announced again. -/
inductive Ending where
  | escalated
  | aborted
  | unloaded
  | gaveUp (announced : Bool)
  | complete
  | raised (error : String)
  | invalid (error : String)
  | submitted
  deriving DecidableEq

/-- The block a session is about to take. -/
inductive Stage where
  | awaiting (name : String)
  | entering
  | reporting (notice : Notice)
  | announcing (notice : Notice)
  | tracking (xml : Xml)
  | pruning (xml : Xml)
  | asking
  | publishing (candidate : Xml)
  | counting
  | finished (ending : Ending)
  deriving DecidableEq

structure Session where
  fault : Fault
  call : Call := {}
  stage : Stage

/-- The model's reply, past the schema. -/
inductive Reply where
  | raises (error : String)
  | invalid (error : String)
  | edits (candidate : Xml)

/-- What the world answers to a block. -/
structure Answer where
  timeout : Bool := false
  reply : Reply := .raises ""

/-- The arbiter's word on a candidate. -/
inductive Verdict where
  | accepted
  | rejected (reason : String)
  | aborted (reason : String)
  deriving DecidableEq

structure Candidate where
  fault : Fault
  verdict : Option Verdict := none

/-- The planner with its sessions. The failures and the candidates are kept for the
record and, since the last reset of the budget, the give-ups announced, the calls of the
model and the nodes that candidates were submitted for; and of every rejection that
was retried, whether it was of a candidate. -/
structure System where
  planner : Planner := {}
  sessions : List Session := []
  events : Nat := 0
  faults : List Fault := []
  candidates : List Candidate := []
  announced : List Notice := []
  calls : Nat := 0
  submitted : List (Option String) := []
  retried : List Bool := []

inductive Event where
  | mission (xml : Xml)
  | orchard (map : Orchard)
  | failure (node : Option String) (reason source : String)
  | success (node : String)
  | route (name : String) (route : Route)
  | replanRequest (cause task : String) (request : Option String)
  | session (i : Nat) (a : Answer)
  | verdict (i : Nat) (v : Verdict)
  | refusal (reason : String)
  | abort (reason : String)

namespace System

/-- `_repair_if_routed`, up to its wait. -/
def opened (f : Fault) : Session :=
  let name := f.node.getD ""
  { fault := f, stage := if name = "" ∨ name = "<tree>" ∨ f.source = "tree" then .entering else .awaiting name }

/-- One block of a session, and what it leaves for the session's place. -/
def block (s : System) (a : Answer) (t : Session) : System × Session :=
  let ends (ending : Ending) : Session := { t with stage := .finished ending }
  match t.stage with
  | .awaiting name =>
    match s.planner.routes.lookup name with
    | some r =>
      (s,if r.route = "escalate" then ends .escalated
        else { t with call := { t.call with guidance := r.guidance }, stage := .entering })
    | none => (s,{ t with stage := .entering })
  | .entering =>
    if s.planner.missionAborted then (s,ends .aborted)
    else
      match s.planner.currentMissionXml with
      | none => (s,ends .unloaded)
      | some xml =>
        if maxRetries ≤ s.planner.sessions then
          (s,{ t with
            stage := .reporting ⟨.maxRetriesExhausted,t.fault.node,
              "reached MAX_RETRIES (3) planning sessions without a plan that runs"⟩ })
        else (s,{ t with stage := .tracking xml })
  | .reporting notice =>
    if notice.key ∈ s.planner.gaveUp then
      (s,ends (.gaveUp (decide (notice.key ∈ s.announced.map Notice.key))))
    else
      ({ s with planner := { s.planner with gaveUp := notice.key :: s.planner.gaveUp } },
        { t with stage := .announcing notice })
  | .announcing notice => ({ s with announced := s.announced ++ [notice] },ends (.gaveUp true))
  | .tracking xml => ({ s with planner := s.planner.track t.fault t.call },{ t with stage := .pruning xml })
  | .pruning xml => (s,if s.planner.complete xml then ends .complete else { t with stage := .asking })
  | .asking =>
    ({ s with calls := s.calls + 1 },
      match a.reply with
      | .raises error => ends (.raised error)
      | .invalid error => ends (.invalid error)
      | .edits candidate => { t with stage := .publishing candidate })
  | .publishing _ =>
    ({ s with candidates := s.candidates ++ [{ fault := t.fault }], submitted := s.submitted ++ [t.fault.node] },
      { t with stage := .counting })
  | .counting =>
    ({ s with planner := { s.planner with sessions := s.planner.sessions + 1 } },ends .submitted)
  | .finished ending => (s,ends ending)

/-- `_on_rejection`. Whether the rejection was of a candidate is for the record only. -/
def onRejection (s : System) (reason : String) (own : Bool) : System :=
  match s.planner.lastFailureEvent with
  | none => s
  | some f =>
    if s.planner.missionAborted then s
    else if maxRejectionRetries ≤ s.planner.rejectionRetries then
      { s with
        sessions := s.sessions ++ [{
          fault := f
          stage := .reporting ⟨.rejectionRetriesExhausted,f.node,"gave up after 3 rejections: " ++ reason⟩ }] }
    else
      { s with
        planner :=
          { s.planner with rejectionRetries := s.planner.rejectionRetries + 1, lastRejectionReason := some reason }
        sessions := s.sessions ++ [{ fault := f, call := s.planner.lastPlannerCall, stage := .entering }]
        retried := s.retried ++ [own] }

def next (s : System) : Event → System
  | .mission xml => { s with planner := { s.planner with currentMissionXml := some xml } }
  | .orchard map => { s with planner := { s.planner with orchard := some map } }
  | .failure node reason source =>
    let f : Fault := { number := s.events, node, reason, source }
    { s with
      events := s.events + 1
      faults := s.faults ++ [f]
      sessions := if s.planner.missionAborted then s.sessions else s.sessions ++ [opened f] }
  | .success node => if s.planner.missionAborted then s else { s with planner := s.planner.onLeafSuccess node }
  | .route name route => { s with planner := { s.planner with routes := (name,route) :: s.planner.routes } }
  | .replanRequest cause task request =>
    if s.planner.missionAborted then s
    else
      let f : Fault := { number := s.events, node := some (cause ++ ":" ++ task), reason := cause, failure := false }
      { s with
        planner := s.planner.reset
        sessions := s.sessions ++ [{
          fault := f
          call := { template := "mission_planner/replan_request_user.j2", extra := request }
          stage := .entering }]
        events := s.events + 1
        announced := []
        calls := 0
        submitted := [] }
  | .session i a =>
    match s.sessions[i]? with
    | none => s
    | some t =>
      let (s,after) := s.block a t
      { s with sessions := s.sessions.set i after }
  | .verdict i v =>
    match s.candidates[i]? with
    | none => s
    | some c =>
      let s := { s with candidates := s.candidates.set i { c with verdict := some v } }
      match v with
      | .accepted => s
      | .rejected reason => s.onRejection reason true
      | .aborted _ => { s with planner := s.planner.onAbort }
  | .refusal reason => s.onRejection reason false
  | .abort _ => { s with planner := s.planner.onAbort }

def ended (t : Session) : Bool :=
  match t.stage with
  | .finished _ => true
  | _ => false

/-- A session waits for its route, or for the wait to time out. -/
def ready (s : System) (a : Answer) (t : Session) : Bool :=
  match t.stage with
  | .awaiting name => (s.planner.routes.lookup name).isSome || a.timeout
  | .finished _ => false
  | _ => true

def enabled (s : System) : Event → Prop
  | .session i a => s.sessions[i]?.any (s.ready a)
  | .verdict i _ => s.candidates[i]?.any (fun c => c.verdict.isNone)
  | _ => True

instance (s : System) : (e : Event) → Decidable (s.enabled e)
  | .session i a => inferInstanceAs (Decidable (s.sessions[i]?.any (s.ready a) = true))
  | .verdict i _ => inferInstanceAs (Decidable (s.candidates[i]?.any (fun c => c.verdict.isNone) = true))
  | .mission _ | .orchard _ | .failure _ _ _ | .success _ | .route _ _ | .replanRequest _ _ _ | .refusal _ | .abort _ =>
    inferInstanceAs (Decidable True)

end System

/-- The planner from its start, under any order of callbacks and blocks. The arbiter
may answer anything to a candidate, and refuse anything else at any time. -/
def machine : Machine System Event where
  initial := fun s => s = {}
  enabled := System.enabled
  next := System.next

instance (s : System) (e : Event) : Decidable (machine.enabled s e) := inferInstanceAs (Decidable (s.enabled e))

end AmigaFleet.Repair
