import AmigaFleet.Codec.Canonical
import AmigaFleet.Coordinator.Tracking
import AmigaFleet.Mission.Ranges
import AmigaFleet.Triage.Interpretation
import AmigaFleet.Triage.Routing

/-! An escalation: what triage puts in it, and the task that the coordinator's node reads
out of it. The payload is the value that `json.loads` gives. -/
namespace AmigaFleet
open Lib Codec

/-- `as_payload`. -/
def Mission.MissionTask.asPayload (t : Mission.MissionTask) : List (String × Json) :=
  [("task_id",.int t.taskId),("name",.str t.name),("capabilities",.int t.capabilities),
    ("target_kind",.int t.target.kind.code),("target_a",.int t.target.a),("target_b",.int t.target.b),
    ("priority",.int t.priority)]

/-- What `_escalate` publishes, at a time of day. -/
def Triage.Report.payload (r : Triage.Report) (time : Json) : Triage.Fields :=
  [("cause",.str r.cause),("detail",.str r.detail),("fault",.dict r.fault),("at",time)] ++
    (r.task.map Mission.MissionTask.asPayload).getD [("task_id",.int 0)]

namespace CoordinatorNode
open Coordinator

abbrev Fields := List (String × Json)

/-- `_parse_escalation`, of what `json.loads` gives where it gives something. -/
def parseEscalation : Option Json → Option Fields
  | some (.dict payload) => some payload
  | _ => none

/-- `int(payload.get("task_id") or 0)`. -/
def taskIdOf (payload : Fields) : Except Json.NumberError Int :=
  (((payload.lookup "task_id").filter Json.truthy).getD (.int 0)).toInt

/-- A constructor that may raise a `ValueError`. -/
def constructed {α : Type} (made : Option α) : Except Json.NumberError α := made.elim (.error .valueError) .ok

/-- `except (ValueError, TypeError)`. -/
def caught {α : Type} : Except Json.NumberError α → Except Json.NumberError (Option α)
  | .ok value => .ok (some value)
  | .error .overflowError => .error .overflowError
  | .error _ => .ok none

/-- The task, from what the payload has of it. -/
def describe (taskId capabilities : Int) (kind : Json) (payload : Fields) : Except Json.NumberError Task := do
  let kind ← constructed (TargetKind.ofCode? (← kind.toInt))
  let a ← ((payload.lookup "target_a").getD (.int 0)).toInt
  let b ← ((payload.lookup "target_b").getD (.int 0)).toInt
  let location ← constructed (Target.ofWords? kind.code a b)
  let priority ← ((payload.lookup "priority").getD (.int 0)).toInt
  constructed (Task.build taskId capabilities location priority)

def taskFromPayload (taskId : Int) (payload : Fields) : Except Json.NumberError (Option Task) :=
  match payload.lookup "target_kind",payload.lookup "capabilities" with
  | some kind,some capabilities =>
    match caught capabilities.toInt with
    | .error error => .error error
    | .ok none => .ok none
    | .ok (some capabilities) => caught (describe taskId capabilities kind payload)
  | _,_ => .ok none

/-- `_default_capabilities`, from the names of the parameter. -/
def defaultCapabilities (names : List String) : Nat :=
  Mission.capMask (names.filterMap (fun name =>
    Mission.Capability.all.find? (fun capability => capability.xmlElement = Text.strip name)))

/-- `_task_for`, or what it raises. -/
def taskFor (defaults : List String) (s : Session) (taskId : Int) (payload : Fields) :
    Except Json.NumberError (Option Task) :=
  if taskId ≤ 0 then .ok none
  else
    match s.tasks.get? taskId with
    | some known => .ok (some known.task)
    | none =>
      match taskFromPayload taskId payload with
      | .error error => .error error
      | .ok (some described) => .ok (some described)
      | .ok none => (constructed (Task.build taskId (defaultCapabilities defaults) Target.none 0)).map some

/-- `str(payload.get("detail", "")) or "local recovery exhausted"`. -/
def detailOf (repr : Json → String) (payload : Fields) : String :=
  let detail := Json.field repr payload "detail" ""
  if detail = "" then "local recovery exhausted" else detail

/-- An id of a task comes with a task of that id, and any other with none. -/
def About (taskId : Int) (task : Option Task) : Prop :=
  if taskId ≤ 0 then task = none else ∃ t, task = some t ∧ t.taskId = taskId

/-! ### The task of an escalation -/

theorem constructed_ok {α : Type} (made : Option α) (value : α) (ok : constructed made = .ok value) : made = some value := by
  cases made with
  | none => cases ok
  | some other => exact congrArg some (Except.ok.inj ok)

theorem caught_ok {α : Type} (outcome : Except Json.NumberError α) (value : α) (ok : caught outcome = .ok (some value)) :
    outcome = .ok value := by
  cases outcome with
  | error error => cases error <;> cases ok
  | ok other => exact congrArg Except.ok (Option.some.inj (Except.ok.inj ok))

/-- A task read from a payload has the id it was looked for under. -/
theorem taskFromPayload_taskId (taskId : Int) (payload : Fields) (task : Task)
    (read : taskFromPayload taskId payload = .ok (some task)) : task.taskId = taskId := by
  unfold taskFromPayload at read
  split at read
  · split at read
    · cases read
    · cases read
    · rename_i capabilities _
      have described := caught_ok _ task read
      unfold describe at described
      obtain ⟨kind,-,described⟩ := bind_ok _ _ task described
      obtain ⟨kind,-,described⟩ := bind_ok _ _ task described
      obtain ⟨a,-,described⟩ := bind_ok _ _ task described
      obtain ⟨b,-,described⟩ := bind_ok _ _ task described
      obtain ⟨location,-,described⟩ := bind_ok _ _ task described
      obtain ⟨priority,-,described⟩ := bind_ok _ _ task described
      exact Task.build_taskId _ _ _ _ task (constructed_ok _ task described)
  · cases read

theorem taskFor_about (defaults : List String) (s : Session) (keyed : ∀ id r, s.tasks.get? id = some r → r.task.taskId = id)
    (taskId : Int) (payload : Fields) (task : Option Task) (found : taskFor defaults s taskId payload = .ok task) :
    About taskId task := by
  unfold taskFor at found
  unfold About
  split at found
  · rename_i none_
    rw [if_pos none_]
    injection found with found
    exact found.symm
  · rename_i some_
    rw [if_neg some_]
    split at found
    · rename_i r held
      injection found with found
      exact ⟨r.task,found.symm,keyed taskId r held⟩
    · split at found
      · cases found
      · rename_i described read
        injection found with found
        exact ⟨described,found.symm,taskFromPayload_taskId taskId payload described read⟩
      · cases built : Task.build taskId (defaultCapabilities defaults) Codec.Target.none 0 with
        | none => rw [built] at found; cases found
        | some placeholder =>
          rw [built] at found
          injection found with found
          exact ⟨placeholder,found.symm,Task.build_taskId _ _ _ _ placeholder built⟩

/-- The unit of work and the task say the same. -/
structure Describes (t : Mission.MissionTask) (task : Task) : Prop where
  taskId : task.taskId = t.taskId
  capabilities : task.requiredCapabilities = t.capabilities
  location : task.location = t.target
  priority : task.priority = t.priority

theorem built_task (taskId requiredCapabilities priority : Int) (location : Target) (task : Task)
    (built : Task.build taskId requiredCapabilities location priority = some task) :
    task.taskId = taskId ∧ task.requiredCapabilities = requiredCapabilities ∧ task.location = location ∧
      task.priority = priority := by
  unfold Task.build at built
  split_ifs at built
  injection built with built
  rw [← built]
  exact ⟨rfl,rfl,rfl,rfl⟩

/-- What a unit's payload says is one task. -/
theorem describe_payload (r : Triage.Report) (t : Mission.MissionTask) (time : Json) (has : r.task = some t)
    (fits : Mission.Fits t) (positive : 0 < t.taskId) :
    ∃ task, taskFromPayload t.taskId (r.payload time) = .ok (some task) ∧ Describes t task := by
  have mask : (t.capabilities : Int) < 2^capMaskBits := by
    have room := fits.capabilities
    simp only [capMaskBits]
    omega
  obtain ⟨task,built⟩ := Triage.build_task t.taskId t.capabilities t.priority t.target
    ⟨Int.natCast_pos.mpr positive,fits.taskId⟩ ⟨Int.natCast_nonneg _,mask⟩ fits.priority
  obtain ⟨taskId,capabilities,location,priority⟩ := built_task _ _ _ _ _ built
  refine ⟨task,?_,⟨taskId,capabilities,location,priority⟩⟩
  have words := Target.ofWords?_words t.target
  simp only [taskFromPayload,Triage.Report.payload,has,Option.map_some,Option.getD_some,Mission.MissionTask.asPayload,
    List.cons_append,List.nil_append,List.lookup_cons,String.reduceBEq,Json.toInt,caught,describe,constructed,bind,Except.bind,
    TargetKind.ofCode?_code,Option.elim,words,built]

theorem number_read (n : Int) : (((some (Json.int n)).filter Json.truthy).getD (.int 0)).toInt = .ok n := by
  by_cases zero : n = 0
  · rw [zero]
    rfl
  · have full : Json.truthy (.int n) = true := by simp [Json.truthy,zero]
    rw [Option.filter_some,if_pos full]
    rfl

theorem taskIdOf_payload (r : Triage.Report) (time : Json) :
    taskIdOf (r.payload time) = .ok ((r.task.map (fun t => (t.taskId : Int))).getD 0) := by
  rw [taskIdOf,Triage.Report.payload]
  cases r.task with
  | none => exact number_read 0
  | some t => exact number_read t.taskId

/-- A task's announcement, once sent and received, is the same task to who bids for it. -/
theorem announced_read (action : Action) (reason : 0 ≤ Triage.reasonIn action ∧ Triage.reasonIn action ≤ 0xFF)
    (src seq : Int) (sender : 0 ≤ src ∧ src ≤ srcMax) (number : 0 ≤ seq ∧ seq ≤ seqMax) :
    ∃ packet m, encode (Triage.announced action src seq) defaultMaxPayloadBytes = .ok packet ∧
      decode packet = .ok (.taskAnnounce m) ∧ m.src = src ∧ Session.announcedTask m = some action.task := by
  obtain ⟨packet,encoded⟩ := (Triage.announceable_iff action).mpr reason src seq sender number
  let m := Desk.announcement { serial := 0, task := action.task, reasonCode := Triage.reasonIn action }
  refine ⟨packet,{ m with src := src, seq := seq },encoded,?_,rfl,?_⟩
  case refine_2 =>
    exact Session.announced_announcement { serial := 0, task := action.task, reasonCode := Triage.reasonIn action }
  rw [decode_encode _ _ _ encoded,checkTarget_ok]
  refine ⟨rfl,?_⟩
  rintro _ _ _ ⟨rfl,rfl,rfl⟩
  exact Option.isSome_iff_exists.mpr ⟨_,Target.ofWords?_words action.task.location⟩

variable (repr : Json → String) (fix : String → String → Option Target)

theorem announce_fits (cause detail : String) (fault : Fields) (missionXml : Option Replanning.Xml)
    (report : Triage.Report) (made : Triage.System.announce repr fix cause detail fault missionXml = .ok report)
    (t : Mission.MissionTask) (has : report.task = some t) : Mission.Fits t := by
  unfold Triage.System.announce Triage.taskFor Triage.taskOn at made
  generalize Json.field repr fault "node" "" = name at made
  dsimp only at made
  split at made
  · cases made
    cases has
  · split at made
    · rename_i d
      cases found : Mission.taskForNode fix d.tree name with
      | error => rw [found] at made; cases made
      | ok task =>
        rw [found] at made
        cases made
        exact Mission.taskForNode_fits fix d.tree name t (found.trans (congrArg Except.ok has))
    · cases made
      cases has

/-- Who hears an announcement of the task has the same task. -/
def Announced (task : Task) : Prop :=
  ∀ action : Action, action.task = task → 0 ≤ Triage.reasonIn action ∧ Triage.reasonIn action ≤ 0xFF →
    ∀ src seq, 0 ≤ src ∧ src ≤ srcMax → 0 ≤ seq ∧ seq ≤ seqMax →
      ∃ packet m, encode (Triage.announced action src seq) defaultMaxPayloadBytes = .ok packet ∧
        decode packet = .ok (.taskAnnounce m) ∧ m.src = src ∧ Session.announcedTask m = some task

/-- What the node makes of an escalation about a unit of work. -/
structure Carries (defaults : List String) (s : Session) (t : Mission.MissionTask) (payload : Fields) : Prop where
  nameless : t.taskId = 0 → taskFor defaults s t.taskId payload = .ok none
  known : ∀ r, 0 < t.taskId → s.tasks.get? t.taskId = some r → taskFor defaults s t.taskId payload = .ok (some r.task)
  fresh : 0 < t.taskId → s.tasks.get? t.taskId = none →
    ∃ task, taskFor defaults s t.taskId payload = .ok (some task) ∧ Describes t task ∧ Announced task

/-- Whatever unit of the plan triage resolves a fault to, the node reads its id and, where
it has no record of it, that unit, and so does every robot that hears it announced. -/
theorem escalation_names_work (cause detail : String) (fault : Fields) (missionXml : Option Replanning.Xml)
    (report : Triage.Report) (made : Triage.System.announce repr fix cause detail fault missionXml = .ok report)
    (time : Json) (defaults : List String) (s : Session) :
    taskIdOf (report.payload time) = .ok ((report.task.map (fun t => (t.taskId : Int))).getD 0) ∧
      (report.task = none → taskFor defaults s 0 (report.payload time) = .ok none) ∧
      ∀ t, report.task = some t → Carries defaults s t (report.payload time) := by
  refine ⟨taskIdOf_payload report time,fun _ => if_pos le_rfl,fun t has => ⟨?_,?_,?_⟩⟩
  · intro zero
    rw [taskFor,zero]
    exact if_pos le_rfl
  · intro r positive found
    rw [taskFor,if_neg (by omega),found]
  · intro positive unknown
    have fits := announce_fits repr fix cause detail fault missionXml report made t has
    obtain ⟨task,read,describes⟩ := describe_payload report t time has fits positive
    refine ⟨task,?_,describes,?_⟩
    · rw [taskFor,if_neg (by omega),unknown,read]
    · intro action about reason src seq sender number
      rw [← about]
      exact announced_read action reason src seq sender number

/-- A leaf that fails in a plan with two trees. -/
theorem escalation_names_work_to10 : ∃ report t,
    Triage.System.announce Triage.plain Triage.nowhere "triage_route" "blocked" [("node",.str "to_10")]
      (some (.plan Replanning.twoTrees)) = .ok report ∧ report.task = some t ∧ t.taskId ≠ 0 ∧
      Carries [] {} t (report.payload .null) := by
  have resolved : (Triage.System.announce Triage.plain Triage.nowhere "triage_route" "blocked" [("node",.str "to_10")]
      (some (.plan Replanning.twoTrees))).toOption.any (fun report => report.task.any (fun t => t.taskId ≠ 0)) = true := by
    decide +kernel
  cases made : Triage.System.announce Triage.plain Triage.nowhere "triage_route" "blocked" [("node",.str "to_10")]
      (some (.plan Replanning.twoTrees)) with
  | error => rw [made] at resolved; cases resolved
  | ok report =>
    rw [made] at resolved
    have numbered : report.task.any (fun t => t.taskId ≠ 0) = true := resolved
    obtain ⟨t,has,positive⟩ := (Option.any_eq_true _ _).mp numbered
    exact ⟨report,t,rfl,has,by simpa using positive,
      (escalation_names_work Triage.plain Triage.nowhere "triage_route" "blocked" [("node",.str "to_10")]
        (some (.plan Replanning.twoTrees)) report made .null [] {}).2.2 t has⟩

end CoordinatorNode
end AmigaFleet
