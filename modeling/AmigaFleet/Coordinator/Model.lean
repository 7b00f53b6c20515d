import AmigaFleet.Codec.Messages
import AmigaFleet.Lib.Dict
import Mathlib.Data.Rat.Defs
import Mathlib.Algebra.Order.Field.Rat

/-! The nouns of coordination: tasks, peers, fitness, mission deltas, and the
closed unions of actions and bid revisions. A task is built announceable. -/
namespace AmigaFleet.Coordinator
open AmigaFleet.Codec

structure Task where
  taskId : Int
  requiredCapabilities : Int
  location : Target
  priority : Int := 0
  idRange : taskNone < taskId ∧ taskId ≤ taskIdMax := by decide
  maskRange : 0 ≤ requiredCapabilities ∧ requiredCapabilities < 2^capMaskBits := by decide
  priorityRange : 0 ≤ priority ∧ priority ≤ priorityMax := by decide
  deriving DecidableEq

namespace Task

instance : Inhabited Task := ⟨{ taskId := taskIdMax, requiredCapabilities := 0, location := .none }⟩

/-- `Task(...)`, with nothing where the constructor raises. -/
def build (taskId requiredCapabilities : Int) (location : Target) (priority : Int) : Option Task :=
  if idRange : taskNone < taskId ∧ taskId ≤ taskIdMax then
    if maskRange : 0 ≤ requiredCapabilities ∧ requiredCapabilities < 2^capMaskBits then
      if priorityRange : 0 ≤ priority ∧ priority ≤ priorityMax then
        some ⟨taskId,requiredCapabilities,location,priority,idRange,maskRange,priorityRange⟩
      else none
    else none
  else none

theorem build_taskId (taskId mask : Int) (location : Target) (priority : Int) (task : Task)
    (built : build taskId mask location priority = some task) : task.taskId = taskId := by
  unfold build at built
  split at built
  · split at built
    · split at built
      · injection built with built
        rw [← built]
      · cases built
    · cases built
  · cases built

def delegable (task : Task) : Bool := task.location.placed

/-- Task 7 at a place, with nothing required and no priority. -/
def seventh (location : Target) : Task := { taskId := 7, requiredCapabilities := 0, location := location }

end Task

inductive TaskState where
  | ours
  | announced
  | granted
  | transferred
  | relinquished
  deriving DecidableEq, Repr

def TaskState.isOurs : TaskState → Bool
  | ours => true
  | announced => true
  | granted => true
  | transferred => false
  | relinquished => false

structure PeerRecord where
  robotId : Int
  capMask : Int := 0
  location : Option Target := none
  battery : Int := 0
  currentTask : Int := taskNone
  lastSeen : ℚ := 0
  deriving DecidableEq

structure Fitness where
  feasible : Bool
  cost : Int := 0
  etaS : ℚ := 0
  reason : String := ""
  deriving DecidableEq

structure MissionDelta where
  removed : List Task := []
  added : List Task := []
  cause : String := ""
  note : String := ""
  deriving DecidableEq

inductive LocalDisposition where
  | drop
  | hold
  | requestHuman
  deriving DecidableEq, Repr

inductive Action where
  | reDelegate (task : Task) (reasonCode : Int) (fallback : LocalDisposition) (note : String)
  | addTask (task : Task) (reasonCode : Int)
  | dropTask (task : Task) (disposition : LocalDisposition) (reasonCode : Int)
  deriving DecidableEq

def Action.task : Action → Task
  | reDelegate task .. => task
  | addTask task _ => task
  | dropTask task .. => task

inductive BidRevision where
  | keepBid (reason : String)
  | reviseBid (costDelta : Int) (reason : String)
  | withdrawBid (reason : String)
  deriving DecidableEq

structure NoteContext where
  text : String
  taskId : Int
  src : Int
  task : Task
  cost : Int
  etaS : ℚ
  feasible : Bool
  at_ : ℚ
  deriving DecidableEq

structure AnomalyContext where
  task : Option Task
  detail : String
  reasonCode : Int
  peers : List PeerRecord
  battery : Int
  location : Option Target
  at_ : ℚ
  deriving DecidableEq

structure ReplanResult where
  accepted : Bool
  reason : String := ""
  deriving DecidableEq

def ReplanResult.rejected (result : ReplanResult) : Bool := !result.accepted

end AmigaFleet.Coordinator
