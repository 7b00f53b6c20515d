import AmigaFleet.Coordinator.Session
import AmigaFleet.Lib.Json
import AmigaFleet.Lib.Machine
import AmigaFleet.Mission.Tasks

/-! The mission bridge and the coordinator's mission port. The bridge publishes a snapshot
of every plan on a latched topic, where a newer one may overwrite an older before it
arrives. The port keeps the last one it received and answers the bidder out of it. -/
namespace AmigaFleet.MissionPort
open Lib Coordinator
open AmigaFleet.Mission (Element MissionTask tasksIn)
open Codec (Target taskNone)

/-- What the bridge reads when it publishes: the tasks of the plan, and its parameter. -/
structure Snapshot where
  tasks : List MissionTask
  battery : Int

namespace Snapshot

/-- `_current_task_id`: the next task in plan order. -/
def currentTaskId (s : Snapshot) : Int := (s.tasks.head?.map (fun task => (task.taskId : Int))).getD taskNone

/-- `_battery`. -/
def batteryPercent (s : Snapshot) : Int := max 0 (min 100 s.battery)

def canAbsorb (maxTasks : Int) (s : Snapshot) : Bool := decide ((s.tasks.length : Int) < maxTasks)

def Holds (s : Snapshot) (taskId : Int) : Prop := ∃ task ∈ s.tasks, (task.taskId : Int) = taskId

instance (s : Snapshot) (taskId : Int) : Decidable (s.Holds taskId) :=
  inferInstanceAs (Decidable (∃ task ∈ s.tasks, _))

/-- `_state`. -/
def state (maxTasks : Int) (s : Snapshot) : List (String × Json) :=
  [("current_task_id",.int s.currentTaskId),("battery_percent",.int s.batteryPercent),
    ("task_count",.int s.tasks.length),("task_ids",.list (s.tasks.map (fun task => .int task.taskId))),
    ("can_absorb",.bool (s.canAbsorb maxTasks))]

end Snapshot

/-- `BehaviorTreeMission`, with its `_state`. -/
structure Port where
  state : List (String × Json) := []

def hashable : Json → Bool
  | .list _ | .dict _ => false
  | _ => true

/-- `n == value`. -/
def equals (n : Int) : Json → Bool
  | .int m => n = m
  | .bool b => n = b.toInt
  | .float _ value => value = some (n : ℚ)
  | _ => false

/-- `n in set(ids or [])`, with nothing where it raises. -/
def among (n : Int) (ids : Json) : Option Bool :=
  if !ids.truthy then some false
  else
    match ids with
    | .list items => if items.all hashable then some (items.any (equals n)) else none
    | .str _ | .dict _ => some false
    | _ => none

namespace Port

/-- `_on_state`, of the value in the message where there is one. -/
def onState (p : Port) : Option Json → Port
  | some (.dict state) => { state := state }
  | _ => p

def canAbsorb (p : Port) (taskId : Int) : Option Bool :=
  if p.state.isEmpty then some false
  else
    (among taskId ((p.state.lookup "task_ids").getD .null)).map (fun held =>
      !held && ((p.state.lookup "can_absorb").getD (.bool false)).truthy)

def currentTaskId (p : Port) : Except Json.NumberError Int :=
  ((p.state.lookup "current_task_id").getD (.int taskNone)).toInt

def batteryPercent (p : Port) : Except Json.NumberError Int :=
  ((p.state.lookup "battery_percent").getD (.int 0)).toInt.map (fun percent => max 0 (min 100 percent))

def world (p : Port) (others : World) : World :=
  { others with
    canAbsorb := fun _ task => p.canAbsorb task.taskId
    currentTaskId := fun _ => p.currentTaskId.toOption
    batteryPercent := fun _ => p.batteryPercent.toOption }

end Port

/-- The bridge, its topic and the port. The port's place on the topic is how much of what
was published is behind it. -/
structure System where
  tree : List Element := []
  battery : Int := 100
  running : Bool := true
  published : List Snapshot
  received : Nat := 0
  port : Port := {}

inductive Event where
  | mission (tree : List Element)
  | setBattery (percent : Int)
  | receive (n : Nat)
  | unusable (data : Option Json)

section
variable (fix : String → String → Option Target) (maxTasks : Int)

namespace System

/-- `_on_mission`. A plan whose tasks cannot be told apart ends the bridge's process. -/
def onMission (s : System) (tree : List Element) : System :=
  match tasksIn fix tree with
  | .error _ => { s with tree := tree, running := false }
  | .ok tasks => { s with tree := tree, published := s.published ++ [⟨tasks,s.battery⟩] }

def next (s : System) : Event → System
  | .mission tree => if s.running then s.onMission fix tree else s
  | .setBattery percent => { s with battery := percent }
  | .receive n =>
    match s.published[n]? with
    | none => s
    | some snapshot => { s with port := s.port.onState (some (.dict (snapshot.state maxTasks))), received := n + 1 }
  | .unusable data => { s with port := s.port.onState data }

/-- Messages arrive in order, each once, and some are overwritten before they do. -/
def enabled (s : System) : Event → Prop
  | .receive n => s.received ≤ n ∧ n < s.published.length
  | .unusable data => ∀ fields, data ≠ some (.dict fields)
  | _ => True

end System

def machine : Machine System Event where
  initial := fun s => ∃ battery, s = { battery := battery, published := [⟨[],battery⟩] }
  enabled := System.enabled
  next := System.next fix maxTasks

end

variable {fix : String → String → Option Target} {maxTasks : Int}

theorem among_tasks (snapshot : Snapshot) (taskId : Int) :
    among taskId (.list (snapshot.tasks.map (fun task => .int task.taskId))) = some (decide (snapshot.Holds taskId)) := by
  have plain : (snapshot.tasks.map (fun task => Json.int task.taskId)).all hashable = true := by
    simp [hashable]
  unfold among
  cases tasks : snapshot.tasks with
  | nil => simp [Json.truthy,Snapshot.Holds,tasks]
  | cons task rest =>
    rw [tasks] at plain
    have found : ((task :: rest).map (fun task => Json.int task.taskId)).any (equals taskId) =
        decide (snapshot.Holds taskId) := by
      rw [Bool.eq_iff_iff,decide_eq_true_eq,List.any_eq_true]
      simp only [List.mem_map,Snapshot.Holds,tasks]
      constructor
      · rintro ⟨_,⟨other,member,rfl⟩,same⟩
        exact ⟨other,member,(of_decide_eq_true same).symm⟩
      · rintro ⟨other,member,same⟩
        exact ⟨_,⟨other,member,rfl⟩,decide_eq_true same.symm⟩
    rw [← found]
    simp only [Json.truthy,List.map_cons,List.isEmpty_cons,Bool.not_false,Bool.not_true,Bool.false_eq_true,if_false]
    rw [List.map_cons] at plain
    rw [if_pos plain]

theorem canAbsorb_snapshot (snapshot : Snapshot) (taskId : Int) :
    (Port.mk (snapshot.state maxTasks)).canAbsorb taskId =
      some (decide (¬snapshot.Holds taskId ∧ (snapshot.tasks.length : Int) < maxTasks)) := by
  change Option.map _ (among taskId (.list (snapshot.tasks.map (fun task => .int task.taskId)))) = _
  rw [among_tasks,Option.map_some]
  change some (!decide (snapshot.Holds taskId) && decide _) = _
  simp

structure Received (fix : String → String → Option Target) (maxTasks : Int) (s : System) : Prop where
  port : (s.received = 0 ∧ s.port = {}) ∨ (0 < s.received ∧ ∃ snapshot, s.published[s.received - 1]? = some snapshot ∧
    s.port = ⟨snapshot.state maxTasks⟩)
  within : s.received ≤ s.published.length
  latest : s.running = true → ∃ snapshot, s.published.getLast? = some snapshot ∧ tasksIn fix s.tree = .ok snapshot.tasks

theorem initial_received (s : System) (initial : (machine fix maxTasks).initial s) : Received fix maxTasks s := by
  obtain ⟨battery,rfl⟩ := initial
  exact ⟨.inl ⟨rfl,rfl⟩,by simp,fun _ => ⟨⟨[],battery⟩,rfl,rfl⟩⟩

theorem onMission_received (s : System) (received : Received fix maxTasks s) (tree : List Element) :
    Received fix maxTasks (s.onMission fix tree) := by
  unfold System.onMission
  cases read : tasksIn fix tree with
  | error error => exact ⟨received.port,received.within,fun running => by cases running⟩
  | ok tasks =>
    refine ⟨?_,?_,fun _ => ⟨⟨tasks,s.battery⟩,by simp,read⟩⟩
    · refine received.port.imp_right ?_
      rintro ⟨more,snapshot,found,port⟩
      have inside : s.received - 1 < s.published.length := by
        have within := received.within
        omega
      exact ⟨more,snapshot,by rw [List.getElem?_append_left inside,found],port⟩
    · have within := received.within
      rw [List.length_append]
      exact within.trans (Nat.le_add_right _ _)

theorem next_received (s : System) (received : Received fix maxTasks s) (e : Event)
    (enabled : s.enabled e) : Received fix maxTasks (s.next fix maxTasks e) := by
  cases e with
  | mission tree =>
    rw [System.next]
    split
    · exact onMission_received s received tree
    · exact received
  | setBattery percent => exact ⟨received.port,received.within,received.latest⟩
  | receive n =>
    rw [System.next]
    cases found : s.published[n]? with
    | none => exact received
    | some snapshot =>
      exact ⟨.inr ⟨Nat.succ_pos n,snapshot,found,rfl⟩,Nat.succ_le_of_lt enabled.2,received.latest⟩
  | unusable data =>
    have same : s.port.onState data = s.port := by
      unfold Port.onState
      split
      · exact absurd rfl (enabled _)
      · rfl
    rw [System.next,same]
    exact received

theorem reachable_received (s : System) (reached : (machine fix maxTasks).Reachable s) : Received fix maxTasks s :=
  reached.invariant (Received fix maxTasks) initial_received
    (fun s e _ received enabled _ => next_received s received e enabled)

/-- Until a snapshot has arrived the port declines everything. Then its answers are those of
one snapshot, the last one received, and of the plan in force where none is missing. -/
theorem port_answers (s : System) (reached : (machine fix maxTasks).Reachable s) :
    (s.received = 0 ∧ ∀ taskId, s.port.canAbsorb taskId = some false) ∨
      ∃ snapshot, s.published[s.received - 1]? = some snapshot ∧
        (∀ taskId, s.port.canAbsorb taskId =
          some (decide (¬snapshot.Holds taskId ∧ (snapshot.tasks.length : Int) < maxTasks))) ∧
        s.port.currentTaskId = .ok snapshot.currentTaskId ∧ s.port.batteryPercent = .ok snapshot.batteryPercent ∧
        (s.received = s.published.length → s.running = true → tasksIn fix s.tree = .ok snapshot.tasks) := by
  have held := reachable_received s reached
  obtain ⟨none_,port⟩ | ⟨more,snapshot,found,port⟩ := held.port
  · exact .inl ⟨none_,fun taskId => by rw [port]; rfl⟩
  · refine .inr ⟨snapshot,found,fun taskId => by rw [port,canAbsorb_snapshot],by rw [port]; rfl,?_,?_⟩
    · rw [port]
      change Except.ok (max 0 (min 100 snapshot.batteryPercent)) = _
      rw [Snapshot.batteryPercent]
      congr 1
      omega
    · intro all running
      obtain ⟨last,newest,read⟩ := held.latest running
      rw [List.getLast?_eq_getElem?,← all,found] at newest
      obtain rfl := Option.some.inj newest
      exact read

def nowhere : String → String → Option Target := fun _ _ => none

def ownPlan : List Element :=
  [.node 0 ⟨.sequence,[("name","task_8")]⟩ [.leaf 1 ⟨.moveToTreeID,[("id","60"),("approach_tree","true")]⟩]]

def heard : System := (machine nowhere 8).runs { published := [⟨[],100⟩] } [.mission ownPlan,.receive 1]

theorem heard_reached : (machine nowhere 8).Reachable heard :=
  Machine.reaches_runs _ _ _ _ (.start _ ⟨100,rfl⟩) ⟨trivial,trivial,⟨Nat.zero_le _,by decide +kernel⟩,trivial,trivial⟩

theorem port_answers_heard : ∃ snapshot, heard.published[heard.received - 1]? = some snapshot ∧
    heard.port.canAbsorb 8 = some (decide (¬snapshot.Holds 8 ∧ (snapshot.tasks.length : Int) < 8)) ∧
    tasksIn nowhere heard.tree = .ok snapshot.tasks := by
  have arrived : heard.received ≠ 0 := by decide +kernel
  obtain ⟨snapshot,found,answers,-,-,newest⟩ :=
    (port_answers heard heard_reached).resolve_left (fun silent => arrived silent.1)
  exact ⟨snapshot,found,answers 8,newest (by decide +kernel) (by decide +kernel)⟩

/-- What the port has received only grows: it never goes back to an older snapshot. -/
theorem received_grows (s : System) (events : List Event)
    (follows : (machine fix maxTasks).Follows (fun _ _ => True) s events) :
    s.received ≤ ((machine fix maxTasks).runs s events).received := by
  refine Machine.Follows.keeps (fun after => s.received ≤ after.received) ?_ s events follows le_rfl
  intro after e grown enabled _
  change s.received ≤ (after.next fix maxTasks e).received
  cases e with
  | mission tree =>
    rw [System.next]
    split
    · unfold System.onMission
      cases tasksIn fix tree <;> exact grown
    · exact grown
  | setBattery percent => exact grown
  | receive n =>
    rw [System.next]
    cases after.published[n]? with
    | none => exact grown
    | some snapshot => exact grown.trans (enabled.1.trans (Nat.le_succ n))
  | unusable data => exact grown

theorem assess_absorbs (world : World) (task : Task) (log : Log) (fitness : Fitness)
    (assessed : Session.assess world task log = some fitness) (feasible : fitness.feasible = true) :
    world.canAbsorb log task = some true := by
  unfold Session.assess at assessed
  split at assessed
  · obtain rfl := Option.some.inj assessed
    cases feasible
  split at assessed
  · obtain rfl := Option.some.inj assessed
    cases feasible
  rename_i able
  cases answer : world.canAbsorb log task with
  | none => simp [answer,safe] at able
  | some b =>
    cases b with
    | true => rfl
    | false => simp [answer,safe] at able

/-- A robot finds a task feasible only if the last plan it heard of is not full and does not
hold the task already. -/
theorem bids_elsewhere (s : System) (reached : (machine fix maxTasks).Reachable s) (others : World) (task : Task)
    (log : Log) (fitness : Fitness) (assessed : Session.assess (s.port.world others) task log = some fitness)
    (feasible : fitness.feasible = true) :
    0 < s.received ∧ ∃ snapshot, s.published[s.received - 1]? = some snapshot ∧ ¬snapshot.Holds task.taskId ∧
      (snapshot.tasks.length : Int) < maxTasks := by
  have able : s.port.canAbsorb task.taskId = some true := assess_absorbs _ task log fitness assessed feasible
  obtain ⟨-,port⟩ | ⟨more,snapshot,found,port⟩ := (reachable_received s reached).port
  · rw [port] at able
    cases able
  · rw [port,canAbsorb_snapshot] at able
    exact ⟨more,snapshot,found,of_decide_eq_true (Option.some.inj able)⟩

theorem bids_elsewhere_heard : ∃ snapshot, heard.published[heard.received - 1]? = some snapshot ∧ ¬snapshot.Holds 7 := by
  obtain ⟨-,snapshot,found,free,-⟩ := bids_elsewhere heard heard_reached { clock := fun _ => 0, unit := World.still }
    (.seventh .none) [] { feasible := true } (by decide +kernel) rfl
  exact ⟨snapshot,found,free⟩

end AmigaFleet.MissionPort
