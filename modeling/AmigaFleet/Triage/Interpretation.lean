import AmigaFleet.Triage.Replies
import AmigaFleet.Codec.RoundTrip
import AmigaFleet.Lib.Results
import AmigaFleet.Coordinator.Cascade

/-! A decision on its way from the model to the coordinator: the node's answer to
`interpret_anomaly`, what the client makes of any answer, and when nothing of the decision is
lost or made up. -/
namespace AmigaFleet.Triage
open Lib
open Codec (Target)
open Coordinator (Task Action AnomalyContext LocalDisposition)

/-- What a field of a message can hold. -/
abbrev Ranged (least most : Int) := { n : Int // least ≤ n ∧ n ≤ most }
abbrev Uint8 := Ranged 0 0xFF
abbrev Uint16 := Ranged 0 0xFFFF
abbrev Int32 := Ranged (-(2^31)) (2^31 - 1)

/-- Assigning to a field asserts its range. -/
def assign (least most value : Int) : Except String (Ranged least most) :=
  if fits : least ≤ value ∧ value ≤ most then .ok ⟨value,fits⟩
  else .error ("The field must be an integer in [" ++ toString least ++ ", " ++ toString most ++ "]")

/-- What the coordinator sends, less what only the prompt is made of. -/
structure Request where
  taskId : Int := 0
  requiredCapabilities : Int := 0
  target : Target := .none
  priority : Int := 0

structure Response where
  ok : Bool
  error : String := ""
  action : String := ""
  reasonCode : Uint16 := ⟨0,by decide⟩
  fallback : String := ""
  note : String := ""
  disposition : String := ""
  taskId : Uint16 := ⟨0,by decide⟩
  requiredCapabilities : Uint16 := ⟨0,by decide⟩
  targetKind : Uint8 := ⟨0,by decide⟩
  targetA : Int32 := ⟨0,by decide⟩
  targetB : Int32 := ⟨0,by decide⟩
  priority : Uint8 := ⟨0,by decide⟩
  rationale : String := ""

/-- `_request`. -/
def requestOf (context : AnomalyContext) : Request :=
  match context.task with
  | some task =>
    { taskId := task.taskId, requiredCapabilities := task.requiredCapabilities, target := task.location,
      priority := task.priority }
  | none => {}

section
variable (repr : Json → String) (gps : Json → Json → Except String Target)

/-- `_on_interpret`. The assignments stand outside the handler of exceptions. -/
def onInterpret (request : Request) (reply : Reply) : Except String Response :=
  match parseDecision repr gps reply with
  | .error error => .ok { ok := false, error }
  | .ok d => do
    let echo := d.action ≠ "add_task"
    let orEcho (value sent : Int) : Int := if value ≠ 0 then value else if echo then sent else 0
    let target := d.target.getD (if echo then request.target else .none)
    let reasonCode ← assign 0 0xFFFF d.reasonCode
    let taskId ← assign 0 0xFFFF (orEcho d.taskId request.taskId)
    let requiredCapabilities ← assign 0 0xFFFF (orEcho d.capabilities request.requiredCapabilities)
    let targetKind ← assign 0 0xFF target.kind.code
    let targetA ← assign (-(2^31)) (2^31 - 1) target.a
    let targetB ← assign (-(2^31)) (2^31 - 1) target.b
    let priority ← assign 0 0xFF (orEcho d.priority request.priority)
    return {
      ok := true
      action := d.action
      reasonCode
      fallback := d.fallback
      note := d.note
      disposition := d.disposition
      taskId
      requiredCapabilities
      targetKind
      targetA
      targetB
      priority
      rationale := d.rationale }

/-- `TriageRefused`, and any other exception. -/
inductive Refusal where
  | triageRefused (why : String)
  | raised (why : String)
  deriving DecidableEq

/-- What the name says, put as the name is compared. -/
def lowered (name : String) : String := Text.lower (Text.strip name)

def dispositions : List (String × LocalDisposition) := [("drop",.drop),("hold",.hold),("request_human",.requestHuman)]

/-- `_disposition`. -/
def dispositionOf (name : String) (default : LocalDisposition) : LocalDisposition :=
  (dispositions.lookup (lowered name)).getD default

/-- `_bounded` of the client. -/
def boundedOr (value maximum default : Int) : Int := if 0 ≤ value ∧ value ≤ maximum then value else default

def taskFrom (r : Response) : Except Refusal Task :=
  if ¬(0 < r.taskId.val ∧ r.taskId.val ≤ Codec.taskIdMax) then
    .error (.triageRefused ("add_task with task_id=" ++ toString r.taskId.val ++ ", outside the wire range"))
  else
    match Target.ofWords? r.targetKind.val r.targetA.val r.targetB.val with
    | none =>
      .error (.triageRefused ("add_task names a place that is not one: " ++
        misplacement r.targetKind.val r.targetA.val r.targetB.val))
    | some location =>
      match Task.build r.taskId.val r.requiredCapabilities.val location (boundedOr r.priority.val Codec.priorityMax 0) with
      | some task => .ok task
      | none => .error (.raised "the task does not fit the wire")

def decode (r : Response) (context : AnomalyContext) : Except Refusal Action :=
  let action := lowered r.action
  let reasonCode := boundedOr r.reasonCode.val 0xFFFF Codec.ReasonCode.unspecified
  if action = "re_delegate" then
    match context.task with
    | none => .error (.triageRefused "re_delegate with no task attached to the anomaly")
    | some task => .ok (.reDelegate task reasonCode (dispositionOf r.fallback .hold) (Text.strip r.note))
  else if action = "drop_task" then
    match context.task with
    | none => .error (.triageRefused "drop_task with no task attached to the anomaly")
    | some task => .ok (.dropTask task (dispositionOf r.disposition .drop) reasonCode)
  else if action = "add_task" then (taskFrom r).map (fun task => .addTask task reasonCode)
  else .error (.triageRefused ("action " ++ repr (.str action) ++ " is not in the schema"))

def kindOf : Action → String
  | .reDelegate .. => "re_delegate"
  | .addTask .. => "add_task"
  | .dropTask .. => "drop_task"

def reasonIn : Action → Int
  | .reDelegate _ reasonCode _ _ | .addTask _ reasonCode | .dropTask _ _ reasonCode => reasonCode

def dispositionName : LocalDisposition → String
  | .drop => "drop"
  | .hold => "hold"
  | .requestHuman => "request_human"

/-- What would be announced of the action, from a sender. -/
def announced (a : Action) (src seq : Int) : Codec.Message :=
  (Codec.Message.taskAnnounce (Coordinator.Desk.announcement { serial := 0, task := a.task, reasonCode := reasonIn a })).stamped
    src seq

/-- The action can be announced as it is. -/
def Announceable (a : Action) : Prop :=
  ∀ src seq, 0 ≤ src ∧ src ≤ Codec.srcMax → 0 ≤ seq ∧ seq ≤ Codec.seqMax →
    ∃ packet, Codec.encode (announced a src seq) Codec.defaultMaxPayloadBytes = .ok packet

/-- The disposition is the one named for this kind of action. -/
def DisposesAs (r : Response) : Action → Prop
  | .reDelegate _ _ fallback _ => dispositionName fallback = lowered r.fallback
  | .dropTask _ disposition _ => dispositionName disposition = lowered r.disposition
  | .addTask _ _ => True

/-- The answer is refused, or taken for what it says. -/
def Survives (r : Response) (context : AnomalyContext) : Prop :=
  match decode repr r context with
  | .ok a => kindOf a = lowered r.action ∧ reasonIn a = r.reasonCode.val ∧ DisposesAs r a ∧ Announceable a
  | .error (.triageRefused _) => True
  | .error (.raised _) => False

/-- Where an action comes of the answer, its reason fits a byte of the wire and its
disposition is one of the three. -/
def Named (r : Response) (context : AnomalyContext) : Prop :=
  (lowered r.action = "re_delegate" → context.task.isSome →
    lowered r.fallback ∈ validDispositions ∧ r.reasonCode.val ≤ 0xFF) ∧
  (lowered r.action = "drop_task" → context.task.isSome →
    lowered r.disposition ∈ validDispositions ∧ r.reasonCode.val ≤ 0xFF) ∧
  (lowered r.action = "add_task" → 0 < r.taskId.val →
    (Target.ofWords? r.targetKind.val r.targetA.val r.targetB.val).isSome → r.reasonCode.val ≤ 0xFF)

theorem disposition_named (name : String) (default : LocalDisposition) :
    dispositionName (dispositionOf name default) = lowered name ↔ lowered name ∈ validDispositions := by
  unfold dispositionOf
  generalize lowered name = key
  by_cases drop : key = "drop"
  · subst drop
    cases default <;> decide
  by_cases hold : key = "hold"
  · subst hold
    cases default <;> decide
  by_cases human : key = "request_human"
  · subst human
    cases default <;> decide
  have none : dispositions.lookup key = Option.none := by
    simp only [dispositions,List.lookup_cons,List.lookup_nil,beq_false_of_ne drop,beq_false_of_ne hold,beq_false_of_ne human]
  rw [none]
  constructor
  · intro same
    cases default
    · exact absurd same.symm drop
    · exact absurd same.symm hold
    · exact absurd same.symm human
  · intro known
    simp [validDispositions,drop,hold,human] at known

/-- A task fits its announcement; only the reason may not. -/
theorem announceable_iff (a : Action) : Announceable a ↔ 0 ≤ reasonIn a ∧ reasonIn a ≤ 0xFF := by
  have id := a.task.idRange
  have mask := a.task.maskRange
  let place := a.task.location
  constructor
  · intro goes
    obtain ⟨packet,ok⟩ := goes 0 0 (by decide) (by decide)
    obtain ⟨_,_,raws,-,-,third,-,-⟩ := Codec.encode_packet _ _ _ ok
    obtain ⟨-,_,rest⟩ := Codec.toRaws_range _ _ _ _ _ _ rfl third
    obtain ⟨-,_,rest⟩ := Codec.toRaws_range _ _ _ _ _ _ rfl rest
    obtain ⟨-,_,rest⟩ := Codec.toRaws_range _ _ _ _ _ _ rfl rest
    obtain ⟨-,_,rest⟩ := Codec.toRaws_range _ _ _ _ _ _ rfl rest
    obtain ⟨-,_,rest⟩ := Codec.toRaws_range _ _ _ _ _ _ rfl rest
    obtain ⟨-,_,rest⟩ := Codec.toRaws_range _ _ _ _ _ _ rfl rest
    exact (Codec.toRaws_range _ _ _ _ _ _ rfl rest).1
  · intro reason src seq sender number
    have kind : 0 ≤ place.kind.code ∧ place.kind.code ≤ 3 := by cases place.kind <;> decide
    have values : Codec.toRaws (Codec.className .taskAnnounce) (Codec.layout .taskAnnounce) (announced a src seq).values =
        .ok [a.task.taskId,a.task.requiredCapabilities,place.kind.code,place.a,place.b,a.task.priority,reasonIn a] :=
      Codec.toRaws_of_range _ _ _ _ _ _ rfl rfl ⟨id.1.le,id.2⟩ (Codec.toRaws_of_range _ _ _ _ _ _ rfl rfl
        ⟨mask.1,Int.le_sub_one_of_lt mask.2⟩ (Codec.toRaws_of_range _ _ _ _ _ _ rfl rfl kind
          (Codec.toRaws_of_range _ _ _ _ _ _ rfl rfl place.wordA (Codec.toRaws_of_range _ _ _ _ _ _ rfl rfl place.wordB
            (Codec.toRaws_of_range _ _ _ _ _ _ rfl rfl a.task.priorityRange
              (Codec.toRaws_of_range _ _ _ _ _ _ rfl rfl reason rfl))))))
    exact Codec.encode_of_parts (announced a src seq) _ src seq _ (Codec.toRaw_of_range _ _ _ rfl rfl sender)
      (Codec.toRaw_of_range _ _ _ rfl rfl number) values
      (show ((Codec.headerBytes + Struct.size (Codec.slots .taskAnnounce) + 0 : Nat) : Int) ≤
        Codec.defaultMaxPayloadBytes by decide)

/-- Every reason that the field can hold is in the client's range. -/
theorem reason_kept (r : Response) : boundedOr r.reasonCode.val 0xFFFF Codec.ReasonCode.unspecified = r.reasonCode.val :=
  if_pos r.reasonCode.property

theorem build_task (taskId requiredCapabilities priority : Int) (location : Target)
    (id : Codec.taskNone < taskId ∧ taskId ≤ Codec.taskIdMax)
    (mask : 0 ≤ requiredCapabilities ∧ requiredCapabilities < 2^Codec.capMaskBits)
    (urgency : 0 ≤ priority ∧ priority ≤ Codec.priorityMax) :
    ∃ task, Task.build taskId requiredCapabilities location priority = some task :=
  ⟨⟨taskId,requiredCapabilities,location,priority,id,mask,urgency⟩,by rw [Task.build,dif_pos id,dif_pos mask,dif_pos urgency]⟩

/-- The work that an answer names, where it names any, fits the wire as it comes. -/
theorem taskFrom_cases (r : Response) :
    (∃ task, taskFrom r = .ok task ∧ 0 < r.taskId.val ∧
      (Target.ofWords? r.targetKind.val r.targetA.val r.targetB.val).isSome = true) ∨
      (∃ why, taskFrom r = .error (.triageRefused why)) ∧
        ¬(0 < r.taskId.val ∧ (Target.ofWords? r.targetKind.val r.targetA.val r.targetB.val).isSome = true) := by
  unfold taskFrom
  split
  · rename_i out
    exact .inr ⟨⟨_,rfl⟩,fun named => out ⟨named.1,r.taskId.property.2⟩⟩
  rename_i numbered
  have id := not_not.mp numbered
  cases placed : Target.ofWords? r.targetKind.val r.targetA.val r.targetB.val with
  | none => exact .inr ⟨⟨_,rfl⟩,fun named => by cases named.2⟩
  | some location =>
    have mask : r.requiredCapabilities.val < 2^Codec.capMaskBits := Int.lt_of_le_sub_one r.requiredCapabilities.property.2
    have urgency : boundedOr r.priority.val Codec.priorityMax 0 = r.priority.val := if_pos r.priority.property
    obtain ⟨task,built⟩ := build_task r.taskId.val r.requiredCapabilities.val r.priority.val location id
      ⟨r.requiredCapabilities.property.1,mask⟩ r.priority.property
    refine .inl ⟨task,?_,id.1,rfl⟩
    simp only [urgency,built]

/-- What survives of an action with this reason. -/
theorem survives_reason (r : Response) (a : Action) (same : reasonIn a = r.reasonCode.val) :
    Announceable a ↔ r.reasonCode.val ≤ 0xFF := by
  rw [announceable_iff,same]
  exact and_iff_right r.reasonCode.property.1

theorem survives_named (r : Response) (context : AnomalyContext) : Survives repr r context ↔ Named r context := by
  unfold Survives Named decode
  simp only [reason_kept]
  by_cases shed : lowered r.action = "re_delegate"
  · rw [if_pos shed]
    cases context.task with
    | none => simp [shed]
    | some task =>
      simp only [kindOf,reasonIn,DisposesAs,disposition_named,survives_reason r (.reDelegate task _ _ _) rfl,shed]
      simp
  rw [if_neg shed]
  by_cases dropped : lowered r.action = "drop_task"
  · rw [if_pos dropped]
    cases context.task with
    | none => simp [dropped]
    | some task =>
      simp only [kindOf,reasonIn,DisposesAs,disposition_named,survives_reason r (.dropTask task _ _) rfl,dropped]
      simp
  rw [if_neg dropped]
  by_cases added : lowered r.action = "add_task"
  · rw [if_pos added]
    obtain ⟨task,taken,id,placed⟩ | ⟨⟨why,refused⟩,nameless⟩ := taskFrom_cases r
    · simp only [taken,Except.map,kindOf,reasonIn,DisposesAs,survives_reason r (.addTask task _) rfl,added,id,placed]
      simp
    · simp only [refused,Except.map,added]
      simp only [true_iff]
      exact ⟨nofun,nofun,fun _ id placed => absurd ⟨id,placed⟩ nameless⟩
  · rw [if_neg added]
    simp [shed,dropped,added]

theorem bounded_range (value : Json) (maximum number : Int) (room : 0 ≤ maximum)
    (ok : bounded repr value maximum = .ok number) : 0 ≤ number ∧ number ≤ maximum := by
  unfold bounded at ok
  split at ok
  · obtain rfl := Except.ok.inj ok
    split
    · assumption
    · exact ⟨le_refl _,room⟩
  · cases ok
  · obtain rfl := Except.ok.inj ok
    exact ⟨le_refl _,room⟩

theorem withCapability_room (mask after : Nat) (name : Json) (room : mask < 2^9)
    (ok : withCapability repr mask name = .ok after) : after < 2^9 := by
  unfold withCapability at ok
  split at ok
  · rename_i capability _
    obtain rfl := Except.ok.inj ok
    have bit : 1 <<< capability.index < 2^9 := by cases capability <;> decide
    exact Nat.or_lt_two_pow room bit
  · cases ok

theorem capabilities_room (actions : Json) (mask : Nat) (ok : capabilities repr actions = .ok mask) : mask < 2^9 := by
  have fold (names : List Json) (before : Nat) (room : before < 2^9)
      (ok : names.foldlM (withCapability repr) before = .ok mask) : mask < 2^9 := by
    induction names generalizing before with
    | nil => exact Except.ok.inj ok ▸ room
    | cons name rest ih =>
      obtain ⟨between,first,ok⟩ := bind_ok _ _ _ ok
      exact ih between (withCapability_room repr before between name room first) ok
  cases actions with
  | null => exact Except.ok.inj ok ▸ by decide
  | str name => exact withCapability_room repr 0 mask _ (by decide) ok
  | list names => exact fold names 0 (by decide) ok
  | _ => cases ok

theorem reason_range (fields : Fields) (code : Int) (ok : reasonOf repr fields = .ok code) :
    reasonCodes.lookup (word repr fields "reason_code" "unspecified") = some code ∧ 0 ≤ code ∧ code ≤ 0xFF := by
  unfold reasonOf at ok
  dsimp only at ok
  split at ok
  · rename_i known found
    obtain rfl := Except.ok.inj ok
    have small : ∀ entry ∈ reasonCodes, 0 ≤ entry.2 ∧ entry.2 ≤ 0xFF := by decide
    obtain ⟨before,after,same,-⟩ := List.lookup_eq_some_iff.mp found
    exact ⟨found,small (word repr fields "reason_code" "unspecified",known) (same ▸ List.mem_append_right _ List.mem_cons_self)⟩
  · cases ok

/-- What a decision has of the object that the model wrote, and that it fits its fields. -/
structure Chosen (fields : Fields) (d : Decision) : Prop where
  action : d.action = word repr fields "action" ""
  known : d.action ∈ validActions
  reason : reasonCodes.lookup (word repr fields "reason_code" "unspecified") = some d.reasonCode
  fallback : d.action = "re_delegate" → d.fallback = word repr fields "fallback" "hold" ∧ d.fallback ∈ validDispositions
  disposition : d.action = "drop_task" →
    d.disposition = word repr fields "disposition" "drop" ∧ d.disposition ∈ validDispositions
  reasonRange : 0 ≤ d.reasonCode ∧ d.reasonCode ≤ 0xFF
  idRange : 0 ≤ d.taskId ∧ d.taskId ≤ 0xFFFF
  maskRange : d.capabilities < 2^9
  priorityRange : 0 ≤ d.priority ∧ d.priority ≤ 0xFF

theorem parseDecision_chosen (reply : Reply) (d : Decision) (ok : parseDecision repr gps reply = .ok d) :
    ∃ fields, reply = .ok (.dict fields) ∧ Chosen repr fields d := by
  unfold parseDecision at ok
  obtain ⟨json,replied,ok⟩ := bind_ok _ _ _ ok
  obtain ⟨fields,object,ok⟩ := bind_ok _ _ _ ok
  have written : json = .dict fields := by
    cases json with
    | dict other => exact congrArg Json.dict (Except.ok.inj object)
    | _ => cases object
  dsimp only at ok
  split at ok
  · cases ok
  rename_i known
  split at ok
  · cases ok
  rename_i shed
  split at ok
  · cases ok
  rename_i dropped
  obtain ⟨reasonCode,reason,ok⟩ := bind_ok _ _ _ ok
  obtain ⟨taskId,id,ok⟩ := bind_ok _ _ _ ok
  obtain ⟨mask,named,ok⟩ := bind_ok _ _ _ ok
  obtain ⟨target,-,ok⟩ := bind_ok _ _ _ ok
  obtain ⟨priority,urgency,ok⟩ := bind_ok _ _ _ ok
  obtain ⟨note,-,ok⟩ := bind_ok _ _ _ ok
  obtain rfl := Except.ok.inj ok
  obtain ⟨found,range⟩ := reason_range repr fields reasonCode reason
  refine ⟨fields,written ▸ replied,rfl,not_not.mp known,found,?_,?_,range,bounded_range repr _ _ _ (by decide) id,capabilities_room repr _ _ named,
    bounded_range repr _ _ _ (by decide) urgency⟩
  · intro action
    have known := not_and_not_right.mp shed action
    simp only [show word repr fields "action" "" = "re_delegate" from action,if_true]
    exact ⟨trivial,known⟩
  · intro action
    have known := not_and_not_right.mp dropped action
    simp only [show word repr fields "action" "" = "drop_task" from action,if_true]
    exact ⟨trivial,known⟩

theorem assign_ok (least most value : Int) (fits : least ≤ value ∧ value ≤ most) :
    assign least most value = .ok ⟨value,fits⟩ := dif_pos fits

/-- The request's own values fit the answer's fields. -/
theorem request_range (context : AnomalyContext) :
    (0 ≤ (requestOf context).taskId ∧ (requestOf context).taskId ≤ 0xFFFF) ∧
      (0 ≤ (requestOf context).requiredCapabilities ∧ (requestOf context).requiredCapabilities ≤ 0xFFFF) ∧
      0 ≤ (requestOf context).priority ∧ (requestOf context).priority ≤ 0xFF := by
  unfold requestOf
  cases context.task with
  | none => decide
  | some task => exact ⟨⟨task.idRange.1.le,task.idRange.2⟩,⟨task.maskRange.1,Int.le_sub_one_of_lt task.maskRange.2⟩,task.priorityRange⟩

/-- No reply makes the node raise: it declines, or passes on what it read. -/
theorem onInterpret_cases (context : AnomalyContext) (reply : Reply) :
    ∃ response, onInterpret repr gps (requestOf context) reply = .ok response ∧
      (response.ok = false ∨ ∃ fields d, reply = .ok (.dict fields) ∧ Chosen repr fields d ∧ response.action = d.action ∧
        response.reasonCode.val = d.reasonCode ∧ response.fallback = d.fallback ∧ response.disposition = d.disposition) := by
  obtain ⟨id,mask,urgency⟩ := request_range context
  unfold onInterpret
  cases read : parseDecision repr gps reply with
  | error error => exact ⟨_,rfl,.inl rfl⟩
  | ok d =>
    obtain ⟨fields,replied,chosen⟩ := parseDecision_chosen repr gps reply d read
    have echoes (echo : Prop) [Decidable echo] (value sent most : Int) (own : 0 ≤ value ∧ value ≤ most)
        (other : 0 ≤ sent ∧ sent ≤ most) :
        0 ≤ (if value ≠ 0 then value else if echo then sent else 0) ∧
          (if value ≠ 0 then value else if echo then sent else 0) ≤ most := by
      split
      · exact own
      split
      · exact other
      · exact ⟨le_refl _,own.1.trans own.2⟩
    have room : (0 : Int) ≤ d.capabilities ∧ (d.capabilities : Int) ≤ 0xFFFF := by
      have small := chosen.maskRange
      omega
    generalize place : d.target.getD (if d.action ≠ "add_task" then (requestOf context).target else .none) = target
    have kind : 0 ≤ target.kind.code ∧ target.kind.code ≤ 0xFF := by cases target.kind <;> decide
    have wordA : -(2^31) ≤ target.a ∧ target.a ≤ 2^31 - 1 := target.wordA
    have wordB : -(2^31) ≤ target.b ∧ target.b ≤ 2^31 - 1 := target.wordB
    have reason : 0 ≤ d.reasonCode ∧ d.reasonCode ≤ 0xFFFF :=
      ⟨chosen.reasonRange.1,chosen.reasonRange.2.trans (by decide)⟩
    simp only [place,assign_ok _ _ _ reason,assign_ok _ _ _ kind,assign_ok _ _ _ wordA,assign_ok _ _ _ wordB,
      assign_ok _ _ _ (echoes (d.action ≠ "add_task") _ _ _ chosen.idRange id),
      assign_ok _ _ _ (echoes (d.action ≠ "add_task") _ _ _ room mask),
      assign_ok _ _ _ (echoes (d.action ≠ "add_task") _ _ _ chosen.priorityRange urgency)]
    exact ⟨_,rfl,.inr ⟨fields,d,replied,chosen,rfl,rfl,rfl,rfl⟩⟩

/-- The task, the disposition and the reason of what is executed are those of the context
and of the object that the model wrote. -/
def Executes (fields : Fields) (context : AnomalyContext) (a : Action) : Prop :=
  context.task = some a.task ∧ kindOf a = word repr fields "action" "" ∧
    reasonCodes.lookup (word repr fields "reason_code" "unspecified") = some (reasonIn a) ∧
      match a with
      | .reDelegate _ _ fallback _ => dispositionName fallback = word repr fields "fallback" "hold"
      | .dropTask _ disposition _ => dispositionName disposition = word repr fields "disposition" "drop"
      | .addTask _ _ => True

/-- The node answers, and where it does not decline, what it answers to a context with a
task is decoded as the model chose. -/
def Relayed (context : AnomalyContext) (reply : Reply) : Prop :=
  ∃ response, onInterpret repr gps (requestOf context) reply = .ok response ∧
    (response.ok = true → context.task.isSome = true → ∃ fields, reply = .ok (.dict fields) ∧
      (lowered response.action = "re_delegate" ∨ lowered response.action = "drop_task" →
        ∃ a, decode repr response context = .ok a ∧ Executes repr fields context a))

theorem lowered_action (name : String) (known : name ∈ validActions) : lowered name = name := by
  revert name
  decide

theorem lowered_disposition (name : String) (known : name ∈ validDispositions) : lowered name = name := by
  revert name
  decide

theorem reply_relayed (context : AnomalyContext) (reply : Reply) : Relayed repr gps context reply := by
  obtain ⟨response,answered,declined | ⟨fields,d,replied,chosen,action,reason,fallback,disposition⟩⟩ :=
    onInterpret_cases repr gps context reply
  · exact ⟨response,answered,fun ok => by rw [declined] at ok; cases ok⟩
  refine ⟨response,answered,fun _ attached => ⟨fields,replied,fun kind => ?_⟩⟩
  obtain ⟨task,attached⟩ := Option.isSome_iff_exists.mp attached
  have known : d.action ∈ validActions := chosen.known
  have plain : lowered d.action = d.action := lowered_action d.action known
  rw [action,plain] at kind
  unfold decode
  simp only [reason_kept,attached,action,plain]
  obtain shed | dropped := kind
  · obtain ⟨same,valid⟩ := chosen.fallback shed
    have word := lowered_disposition _ valid
    rw [if_pos shed]
    refine ⟨_,rfl,attached,?_,?_,?_⟩
    · exact (chosen.action.symm.trans shed).symm
    · exact reason.symm ▸ chosen.reason
    · change dispositionName (dispositionOf response.fallback .hold) = _
      rw [fallback,(disposition_named d.fallback .hold).mpr (word.symm ▸ valid),word,same]
  · obtain ⟨same,valid⟩ := chosen.disposition dropped
    have word := lowered_disposition _ valid
    have other : ¬d.action = "re_delegate" := by
      rw [dropped]
      decide
    rw [if_neg other,if_pos dropped]
    refine ⟨_,rfl,attached,?_,?_,?_⟩
    · exact (chosen.action.symm.trans dropped).symm
    · exact reason.symm ▸ chosen.reason
    · change dispositionName (dispositionOf response.disposition .drop) = _
      rw [disposition,(disposition_named d.disposition .drop).mpr (word.symm ▸ valid),word,same]

theorem decision_survives (context : AnomalyContext) :
    (∀ r : Response, Survives repr r context ↔ Named r context) ∧ ∀ reply, Relayed repr gps context reply :=
  ⟨fun r => survives_named repr r context,reply_relayed repr gps context⟩

end

/-- A disposition that is none is taken for the one that loses the work. -/
theorem unnamed_disposition_drops :
    ¬∀ (repr : Json → String) (r : Response) (context : AnomalyContext), Survives repr r context := by
  intro survives
  have dropped := survives (fun _ => "") { ok := true, action := "drop_task", disposition := "wait" }
    ⟨some default,"blocked",0,[],100,none,0⟩
  have kept : dispositionName (dispositionOf "wait" .drop) = lowered "wait" := dropped.2.2.1
  exact absurd kept (by decide)

end AmigaFleet.Triage
