import AmigaFleet.Triage.Replies
import AmigaFleet.Replanning.Arbiter
import AmigaFleet.Lib.Machine

/-! The triage node: its routing threads and its callbacks, one lock-held block or one
publication at a time, and what they publish. -/
namespace AmigaFleet.Triage
open Lib
open Replanning (Xml)
open Mission (MissionTask)

/-- What goes to `/mission/fault_route`, less the time of day. -/
structure Payload where
  node : String
  timestampMs : Json
  verdict : Verdict

/-- What goes to `/coordination/infeasible`. -/
structure Report where
  cause : String
  detail : String
  fault : Fields
  task : Option MissionTask

structure Node where
  lastFault : Option Fields := none
  missionXml : Option Xml := none
  routes : Dict String Payload := .empty
  routing : List String := []

/-- The block that a routing thread is about to take. From the verdict on it holds what
it published, and in the escalation also what that read. -/
inductive Stage where
  | gathering
  | asking
  | recording (verdict : Verdict)
  | publishing (payload : Payload)
  | escalating (payload : Payload)
  | announcing (payload : Payload) (fault : Fields) (missionXml : Option Xml)
  | finished (payload : Payload)
  | raised (payload : Payload) (error : String)

/-- `_route_fault` of an event. -/
structure Thread where
  event : Fields
  stage : Stage := .gathering

/-- The rest of a callback: a verdict published again, or an escalation without one. -/
inductive Callback where
  | republishing (payload : Payload)
  | escalating (cause detail : String)
  | announcing (cause detail : String) (fault : Fields) (missionXml : Option Xml)
  | returned

/-- The record: what failed, the calls of the model, and what was published. A report
stands with the node whose verdict it is for and with the plan held when it went out. -/
inductive Mark where
  | failed (event : Fields)
  | called (name : String)
  | routed (payload : Payload)
  | infeasible (verdictOn : Option String) (report : Report) (held : Option Xml)

structure System where
  node : Node := {}
  threads : List Thread := []
  callbacks : List Callback := []
  trail : List Mark := []

/-- A block of a thread meets a reply or an exception. -/
inductive Event where
  | statusChange (event : Fields)
  | mission (xml : Xml)
  | plannerStatus (info : Fields)
  | abort (info : Fields)
  | thread (i : Nat) (reply : Reply)
  | callback (i : Nat)

def Stage.ended : Stage → Bool
  | .finished _ | .raised _ _ => true
  | _ => false

def Callback.done : Callback → Bool
  | returned => true
  | _ => false

section
variable (repr : Json → String)

/-- `str(event.get("node") or "")`. -/
def nodeOf (event : Fields) : String := Json.textOr repr "" (event.lookup "node")

def Thread.name (t : Thread) : String := nodeOf repr t.event

def failure (event : Fields) : Bool := Text.upper (Json.textOr repr "FAILURE" (event.lookup "status")) = "FAILURE"

def wholeTree (event : Fields) : Bool :=
  nodeOf repr event = "" || nodeOf repr event = "<tree>" ||
    match event.lookup "source" with
    | some (.str source) => source = "tree"
    | _ => false

variable (fix : String → String → Option Codec.Target)

/-- `task_for_node`, on a plan as it is held. -/
def taskOn (missionXml : Option Xml) (name : String) : Except String (Option MissionTask) :=
  match missionXml with
  | some (.plan d) => Mission.taskForNode fix d.tree name
  | _ => .ok none

def taskFor (fault : Fields) (missionXml : Option Xml) : Except String (Option MissionTask) :=
  let name := Json.field repr fault "node" ""
  if name = "" then .ok none else taskOn fix missionXml name

namespace System

/-- `_on_fault`, with the thread it starts or the verdict it publishes again. -/
def onFault (s : System) (event : Fields) : System :=
  let name := nodeOf repr event
  if !failure repr event || wholeTree repr event then s
  else
    let node := { s.node with lastFault := some event }
    let trail := s.trail ++ [.failed event]
    match s.node.routes.get? name with
    | some cached => { s with node, trail, callbacks := s.callbacks ++ [.republishing cached] }
    | none =>
      if name ∈ s.node.routing then { s with node, trail }
      else { s with
        node := { node with routing := s.node.routing ++ [name] }
        threads := s.threads ++ [{ event }]
        trail }

/-- `_on_planner_status`, up to the escalation. -/
def onPlannerStatus (s : System) (info : Fields) : System :=
  let outcome := String.intercalate " " (["outcome","event","cause"].map (fun key => Json.field repr info key ""))
  if (["gave_up","give_up","max_retries"].filter (Text.contains outcome)).isEmpty then s
  else
    let reason := Json.textOr repr (Json.textOr repr (Text.strip outcome) (info.lookup "reason")) (info.lookup "last_reason")
    { s with callbacks := s.callbacks ++ [.escalating "planner_gave_up" ("local replanning gave up: " ++ reason)] }

/-- `_on_abort`, up to the escalation. -/
def onAbort (s : System) (info : Fields) : System :=
  { s with
    callbacks := s.callbacks ++
      [.escalating "arbiter_abort" ("arbiter aborted the mission: " ++ Json.field repr info "reason" "unknown")] }

/-- The message of an escalation, or what looking its task up raises. -/
def announce (cause detail : String) (fault : Fields) (missionXml : Option Xml) : Except String Report :=
  (taskFor repr fix fault missionXml).map (fun task => { cause, detail, fault, task })

/-- One block of a routing thread. -/
def block (s : System) (t : Thread) (reply : Reply) : System × Stage :=
  match t.stage with
  | .gathering =>
    match reply,taskFor repr fix t.event s.node.missionXml with
    | .error error,_ => (s,.recording (failedOpen error))
    | .ok _,.error error => (s,.recording (failedOpen error))
    | .ok _,.ok _ => ({ s with trail := s.trail ++ [.called (t.name repr)] },.asking)
  | .asking =>
    match parseRoute repr reply with
    | .ok verdict => (s,.recording verdict)
    | .error error => (s,.recording (failedOpen error))
  | .recording verdict =>
    let name := t.name repr
    let payload : Payload := ⟨name,(t.event.lookup "timestamp_ms").getD (.int 0),verdict⟩
    ({ s with
      node := { s.node with
        routes := s.node.routes.set name payload
        routing := s.node.routing.filter (· ≠ name) } },.publishing payload)
  | .publishing payload =>
    ({ s with trail := s.trail ++ [.routed payload] },
      if payload.verdict.route = .escalate then .escalating payload else .finished payload)
  | .escalating payload => (s,.announcing payload (s.node.lastFault.getD []) s.node.missionXml)
  | .announcing payload fault missionXml =>
    match announce repr fix "triage_route" ("triage routed the fault to the fleet: " ++ payload.verdict.rationale) fault
      missionXml with
    | .ok report =>
      ({ s with trail := s.trail ++ [.infeasible (some payload.node) report s.node.missionXml] },.finished payload)
    | .error error => (s,.raised payload error)
  | stage => (s,stage)

/-- One block of a callback. -/
def turn (s : System) (c : Callback) : System × Callback :=
  match c with
  | .republishing payload => ({ s with trail := s.trail ++ [.routed payload] },.returned)
  | .escalating cause detail => (s,.announcing cause detail (s.node.lastFault.getD []) s.node.missionXml)
  | .announcing cause detail fault missionXml =>
    match announce repr fix cause detail fault missionXml with
    | .ok report => ({ s with trail := s.trail ++ [.infeasible none report s.node.missionXml] },.returned)
    | .error _ => (s,.returned)
  | .returned => (s,.returned)

def next (s : System) : Event → System
  | .statusChange event => s.onFault repr event
  | .mission xml => { s with node := { s.node with missionXml := some xml } }
  | .plannerStatus info => s.onPlannerStatus repr info
  | .abort info => s.onAbort repr info
  | .thread i reply =>
    match s.threads[i]? with
    | none => s
    | some t =>
      let (s,stage) := s.block repr fix t reply
      { s with threads := s.threads.set i { t with stage } }
  | .callback i =>
    match s.callbacks[i]? with
    | none => s
    | some c =>
      let (s,after) := s.turn repr fix c
      { s with callbacks := s.callbacks.set i after }

def enabled (s : System) : Event → Prop
  | .thread i _ => s.threads[i]?.any (fun t => !t.stage.ended)
  | .callback i => s.callbacks[i]?.any (fun c => !c.done)
  | _ => True

instance (s : System) : (e : Event) → Decidable (s.enabled e)
  | .thread i _ => inferInstanceAs (Decidable (s.threads[i]?.any (fun t => !t.stage.ended) = true))
  | .callback i => inferInstanceAs (Decidable (s.callbacks[i]?.any (fun c => !c.done) = true))
  | .statusChange _ | .mission _ | .plannerStatus _ | .abort _ => inferInstanceAs (Decidable True)

end System

/-- The node from its start, under any order of messages and blocks. -/
def machine : Machine System Event where
  initial := fun s => s = {}
  enabled := System.enabled
  next := System.next repr fix

instance (s : System) (e : Event) : Decidable ((machine repr fix).enabled s e) := inferInstanceAs (Decidable (s.enabled e))

end
end AmigaFleet.Triage
