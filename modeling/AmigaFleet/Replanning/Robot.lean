import AmigaFleet.Coordinator.News
import AmigaFleet.Coordinator.Takeover
import AmigaFleet.Replanning.Decisions

/-! One robot: its coordinator, the verifications it has sent off, each on a thread of
its own, and the arbiter that answers them in any order. -/
namespace AmigaFleet
open Lib Replanning

/-- A verification in flight. Once its call is made, it is a request at the arbiter. -/
structure Verification where
  task : Coordinator.Task
  removing : Bool
  note : String := ""
  served : Option Nat := none

/-- `_ask`. The task's own subtree goes along where the robot has it. -/
def Verification.request (v : Verification) (xml : Option (Option Mission.Element)) : Request where
  removing := v.removing
  taskId := v.task.taskId.toNat
  requiredCapabilities := v.task.requiredCapabilities.toNat
  targetKind := v.task.location.kind.code
  targetA := v.task.location.a
  targetB := v.task.location.b
  priority := v.task.priority
  taskXml := xml

/-- `replan_and_verify`: the removals first, a thread for each. -/
def Coordinator.Call.verifications : Coordinator.Call → List Verification
  | .replanAndVerify _ delta =>
    delta.removed.map (fun task => { task := task, removing := true, note := delta.note }) ++
      delta.added.map (fun task => { task := task, removing := false, note := delta.note })
  | _ => []

/-- What the operation dispatched, in its order. -/
def dispatched (before after : Coordinator.Session) : List Verification :=
  (Coordinator.newCalls before after).reverse.flatMap Coordinator.Call.verifications

structure Robot where
  session : Coordinator.Session := {}
  arbiter : System := {}
  flying : List Verification := []
  /-- The absorptions refused, and not yet handed to the anomaly path. -/
  rejected : List Coordinator.Task := []

namespace Robot

inductive Event where
  | op (label : Coordinator.Label)
  | ask (k : Nat) (xml : Option (Option Mission.Element))
  | arbiter (e : Replanning.Event)
  | answer (k : Nat)
  | handBack (k : Nat) (world : Coordinator.World) (reason : String)

/-- The request that the verification has become. -/
def handler (r : Robot) (v : Verification) : Option Handler := v.served.bind (fun i => r.arbiter.requests[i]?)

def verdict (h : Handler) : Option Verdict :=
  match h.stage with
  | .answered verdict _ => some verdict
  | _ => none

/-- `_on_replan_rejected`. -/
def replanRejected (task : Coordinator.Task) (reason : String) : Coordinator.Op :=
  .report (some task) ("replan rejected by verification: " ++ reason) Codec.ReasonCode.taskFailed .asked

variable (cfg : Coordinator.Config) (settings : Settings)

def perform (world : Coordinator.World) (op : Coordinator.Op) (r : Robot) : Robot :=
  let session := (r.session.perform cfg world.dispatching op).state
  { r with session := session, flying := r.flying ++ dispatched r.session session }

def next (r : Robot) : Event → Robot
  | .op label => r.perform cfg label.world label.op
  | .ask k xml =>
    match r.flying[k]? with
    | none => r
    | some v =>
      { r with
        arbiter := r.arbiter.next settings (.request (v.request xml))
        flying := r.flying.set k { v with served := some r.arbiter.requests.length } }
  | .arbiter e => { r with arbiter := r.arbiter.next settings e }
  | .answer k =>
    match r.flying[k]? with
    | none => r
    | some v =>
      let refused := (r.handler v).bind verdict ≠ some .accepted
      { r with
        flying := r.flying.eraseIdx k
        rejected := if refused ∧ v.removing = false then r.rejected ++ [v.task] else r.rejected }
  | .handBack k world reason =>
    match r.rejected[k]? with
    | none => r
    | some task => { r.perform cfg world (replanRejected task reason) with rejected := r.rejected.eraseIdx k }

def own : Replanning.Event → Bool
  | .request _ => false
  | _ => true

def enabled (r : Robot) : Event → Prop
  | .op label => (Coordinator.machine cfg).enabled r.session label
  | .ask k _ => r.flying[k]?.any (fun v => v.served.isNone)
  | .arbiter e => r.arbiter.enabled e ∧ own e = true
  | .answer k => (r.flying[k]?.bind r.handler).any (fun h => !h.live)
  | .handBack k _ _ => r.rejected[k]?.isSome

instance (r : Robot) : (e : Event) → Decidable (r.enabled cfg e)
  | .op label => inferInstanceAs (Decidable ((Coordinator.machine cfg).enabled r.session label))
  | .ask k _ => inferInstanceAs (Decidable (r.flying[k]?.any (fun v => v.served.isNone) = true))
  | .arbiter e => inferInstanceAs (Decidable (r.arbiter.enabled e ∧ own e = true))
  | .answer k => inferInstanceAs (Decidable ((r.flying[k]?.bind r.handler).any (fun h => !h.live) = true))
  | .handBack k _ _ => inferInstanceAs (Decidable (r.rejected[k]?.isSome = true))

/-- The robot from its start, under any order of operations, threads and verdicts. -/
def machine : Machine Robot Event where
  initial r := r = {}
  enabled := enabled cfg
  next := next cfg settings

instance (r : Robot) (e : Event) : Decidable ((machine cfg settings).enabled r e) :=
  inferInstanceAs (Decidable (r.enabled cfg e))

end Robot
end AmigaFleet
