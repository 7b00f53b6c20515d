import AmigaFleet.Coordinator.Bidding
import AmigaFleet.Coordinator.Params
import AmigaFleet.Coordinator.Registry
import AmigaFleet.Reliability.Notes
import AmigaFleet.Reliability.Session

/-! What surrounds the session: the record of one owned task, the calls it
makes through its ports, and the answers it gets. The log of calls is newest
first and only grows; every answer may depend on all of it. -/
namespace AmigaFleet.Coordinator
open Lib AmigaFleet.Codec AmigaFleet.Reliability

structure OwnedTask where
  /-- Which object this is, among all the records ever created. -/
  serial : Nat
  task : Task
  state : TaskState := .ours
  auction : Option Auction := none
  fallback : LocalDisposition := .hold
  reasonCode : Int := ReasonCode.unspecified
  note : String := ""
  delegationAttempts : Int := 0
  grantedTo : Option Int := none
  excludedBidders : Finset Int := ∅
  /-- `none` is `-inf`. -/
  lastAnnouncedAt : Option ℚ := none
  settledAt : Option ℚ := none
  inMission : Bool := true

def OwnedTask.ours (r : OwnedTask) : Bool := r.state.isOurs

/-- How `send_reliable` comes back: it raises, or returns a future that is
resolved already or still open. -/
inductive Reply where
  | refused
  | resolved (outcome : Outcome)
  | pending
  deriving DecidableEq

/-- A GRANT in flight: the call that sent it, its task and its winner. -/
structure GrantFuture where
  id : Nat
  taskId : Int
  winnerId : Int
  deriving DecidableEq

inductive Call where
  | broadcast (message : Message) (sent : Bool)
  | sendNote (taskId : Int) (text : String) (sent : Bool)
  | sendReliable (record : OwnedTask) (dst : Int) (message : Message) (reply : Reply)
  | absorb (task : Task)
  | release (task : Task)
  | markTransferred (task : Task)
  | replanAndVerify (serial : Nat) (delta : MissionDelta)
  | requestYield (reason : String)
  | interpretAnomaly (context : AnomalyContext)
  /-- `_apply` begins, on the table and with the GRANTs in flight as it finds them. -/
  | apply (action : Action) (now : ℚ) (tasks : Dict Int OwnedTask) (futures : List GrantFuture)
  /-- A record is created for the task outside of `_apply`. -/
  | entered (task : Task) (futures : List GrantFuture)
  /-- A peer's message begins to be handled, on the table as it finds it. -/
  | received (message : Message) (tasks : Dict Int OwnedTask)
  /-- `_announce` begins on this record: a cycle is opened. -/
  | opened (record : OwnedTask)

abbrev Log : Type := List Call

/-- Every answer the session gets during one operation. `none` is a port that
raised, or for the replanner and the interpreter also an answer it refuses. -/
structure World where
  clock : Log → ℚ
  broadcast : Log → Message → Bool := fun _ _ => true
  sendNote : Log → Bool := fun _ => true
  sendReliable : Log → Reply := fun _ => .pending
  replan : Log → MissionDelta → Option ReplanResult := fun _ _ => some { accepted := true }
  interpret : Log → Option Action := fun _ => none
  canReach : Log → Target → Option Bool := fun _ _ => some true
  canAbsorb : Log → Task → Option Bool := fun _ _ => some true
  eta : Log → Target → Option ℚ := fun _ _ => some 0
  currentTaskId : Log → Option Int := fun _ => some taskNone
  batteryPercent : Log → Option Int := fun _ => some 100
  currentLocation : Log → Option Target := fun _ => none
  fitness : Log → Task → ℚ → Int → Bool → Option Fitness := fun _ _ _ _ _ => some { feasible := true }
  completedNote : Log → Int → Int → Option CompletedNote := fun _ _ _ => none
  jitter : Log → ℚ := fun _ => 0
  /-- How many calls of `_take_on` the stack has room for inside the first. -/
  depth : Nat := 100
  unit : ∀ log, 0 ≤ jitter log ∧ jitter log ≤ 1 := by simp

theorem World.still (_ : Log) : (0 : ℚ) ≤ 0 ∧ (0 : ℚ) ≤ 1 := by simp

/-- `_safe`: a port that fails answers with the default. -/
def safe {α : Type} (answer : Option α) (default : α) : α := answer.getD default

end AmigaFleet.Coordinator
