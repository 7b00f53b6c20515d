import AmigaFleet.Lib.Json
import AmigaFleet.Mission.Tasks
import AmigaFleet.Reliability.Splitting

/-! What the triage node takes from a reply of the model: a verdict on a fault, or a
decision about the work, or nothing. A reply is the value between its outermost
braces, or what went wrong before there was one. -/
namespace AmigaFleet.Triage
open Lib
open Codec (Target)

abbrev Fields := List (String × Json)
abbrev Reply := Except String Json

def validActions : List String := ["re_delegate","add_task","drop_task"]
def validDispositions : List String := ["drop","hold","request_human"]
def maxGuidanceChars : Nat := 500

def noteMaxBytes : Int :=
  Codec.maxNoteFragments * Reliability.textBytesPerFragment Codec.defaultMaxPayloadBytes

def reasonCodes : List (String × Int) :=
  [("unspecified",Codec.ReasonCode.unspecified),("task_failed",Codec.ReasonCode.taskFailed),
    ("battery_low",Codec.ReasonCode.batteryLow),("unreachable",Codec.ReasonCode.unreachable),
    ("capability_missing",Codec.ReasonCode.capabilityMissing),("operator_request",Codec.ReasonCode.operatorRequest),
    ("timeout",Codec.ReasonCode.timeout)]

/-- `VALID_ROUTES`. -/
inductive Route where
  | repair
  | escalate
  deriving DecidableEq

def Route.ofName? (name : String) : Option Route :=
  if name = "repair" then some .repair else if name = "escalate" then some .escalate else none

structure Verdict where
  route : Route
  reasonCode : Int := Codec.ReasonCode.unspecified
  rationale : String := ""
  guidance : String := ""
  deriving DecidableEq

structure Decision where
  action : String
  reasonCode : Int
  fallback : String
  disposition : String
  taskId : Int
  capabilities : Nat
  target : Option Target
  priority : Int
  rationale : String
  note : String

/-- What `Target(kind, a, b)` raises, of a kind with this name where there is one. -/
def misplacement (kind a b : Int) : String :=
  let word (name : String) (value : Int) : String :=
    "target." ++ name ++ "=" ++ toString value ++ " outside -2147483648..2147483647"
  let outside (value : Int) : Bool := value < Codec.targetWordMin || Codec.targetWordMax < value
  match Codec.TargetKind.ofCode? kind with
  | none => toString kind ++ " is not a valid TargetKind"
  | some kind =>
    let name := if kind = .tree then "TREE" else "AISLE"
    if outside a then word "a" a
    else if outside b then word "b" b
    else if kind = .none then "a NONE target carries no coordinates"
    else if 0 ≤ a ∧ a ≤ Codec.indexMax then name ++ " target does not use b, got " ++ toString b
    else name ++ " index " ++ toString a ++ " outside 0..65535"

section
variable (repr : Json → String)

/-- `str(fields.get(key, default)).strip().lower()`. -/
def word (fields : Fields) (key default : String) : String :=
  Text.lower (Text.strip (Json.field repr fields key default))

def objectOf (json : Json) : Except String Fields :=
  match json with
  | .dict fields => .ok fields
  | other => .error ("expected a JSON object, got " ++ other.typeName)

def reasonOf (fields : Fields) : Except String Int :=
  let reason := word repr fields "reason_code" "unspecified"
  match reasonCodes.lookup reason with
  | some code => .ok code
  | none =>
    .error ("reason_code " ++ repr (.str reason) ++ " is not one of ['battery_low', 'capability_missing', " ++
      "'operator_request', 'task_failed', 'timeout', 'unreachable', 'unspecified']")

def parseRoute (reply : Reply) : Except String Verdict := do
  let fields ← objectOf (← reply)
  let name := word repr fields "route" ""
  let some route := Route.ofName? name
    | throw ("route " ++ repr (.str name) ++ " is not one of repair, escalate")
  let reasonCode ← reasonOf repr fields
  return {
    route
    reasonCode
    rationale := Text.strip (Json.field repr fields "rationale" "")
    guidance :=
      if route = .repair then
        String.ofList ((Text.strip (Json.field repr fields "guidance" "")).toList.take maxGuidanceChars)
      else "" }

/-- What a fault gets when its routing fails. -/
def failedOpen (error : String) : Verdict :=
  { route := .repair, rationale := "routing failed (" ++ error ++ "); defaulting to local repair" }

/-- `_bounded` of the node: 0 for what is no number in the range. -/
def bounded (value : Json) (maximum : Int) : Except String Int :=
  match value.toInt with
  | .ok number => .ok (if 0 ≤ number ∧ number ≤ maximum then number else 0)
  | .error .overflowError => .error (Json.complaint repr .overflowError value)
  | .error _ => .ok 0

/-- The mask of the names so far, and one more. -/
def withCapability (mask : Nat) (name : Json) : Except String Nat :=
  match Mission.Capability.all.find? (fun capability => capability.xmlElement = Text.strip (name.text repr)) with
  | some capability => .ok (mask ||| 1 <<< capability.index)
  | none =>
    .error ("action " ++ repr name ++ " is not in the mission schema; known: ApproachGPSWaypoint, FollowPerson, " ++
      "MoveArmToPosition, MoveToAisleHead, MoveToGPSLocation, MoveToRelativeLocation, MoveToTreeID, " ++
      "OrientRobotHeading, SampleLeaf")

def capabilities (actions : Json) : Except String Nat :=
  match actions with
  | .null => .ok 0
  | .str name => withCapability repr 0 (.str name)
  | .list names => names.foldlM (withCapability repr) 0
  | other => .error ("'actions' must be a list of action names, got " ++ repr other)

/-- `_note`. -/
def noteOf (note : Option Json) (action : String) : Except String String :=
  let text := Text.strip (Json.textOr repr "" note)
  let size := (Reliability.encodeUtf8 text).length
  if text = "" ∨ action ≠ "re_delegate" then .ok ""
  else if noteMaxBytes < size then
    .error ("note is " ++ toString size ++ " UTF-8 bytes; the radio carries at most 328. Say less, or say nothing.")
  else .ok text

variable (gps : Json → Json → Except String Target)

/-- `Target.tree(int(target["index"]))`, and the same for an aisle. -/
def indexed (kind : Codec.TargetKind) (target : Fields) : Except String Target :=
  let misplaced (why : String) : Except String Target :=
    .error ("target " ++ repr (.dict target) ++ " is not a place: " ++ why)
  match target.lookup "index" with
  | none => misplaced "'index'"
  | some value =>
    match value.toInt with
    | .error .overflowError => .error (Json.complaint repr .overflowError value)
    | .error error => misplaced (Json.complaint repr error value)
    | .ok index =>
      match Target.ofWords? kind.code index 0 with
      | some place => .ok place
      | none => misplaced (misplacement kind.code index 0)

/-- `_target`. Whether two values are a place on the globe, and which, is `gps`. -/
def targetOf (target : Json) : Except String (Option Target) :=
  match target with
  | .null => .ok none
  | .dict fields =>
    let kind := word repr fields "kind" ""
    if kind = "" ∨ kind = "none" then .ok (some .none)
    else if kind = "tree" then (indexed repr .tree fields).map some
    else if kind = "aisle" then (indexed repr .aisle fields).map some
    else if kind = "gps" then
      match fields.lookup "latitude",fields.lookup "longitude" with
      | some latitude,some longitude => (gps latitude longitude).map some
      | none,_ => .error ("target " ++ repr target ++ " is not a place: 'latitude'")
      | _,none => .error ("target " ++ repr target ++ " is not a place: 'longitude'")
    else .error ("target kind " ++ repr (.str kind) ++ " is not one of: none, tree, aisle, gps")
  | other => .error ("'target' must be an object, got " ++ other.typeName)

def parseDecision (reply : Reply) : Except String Decision := do
  let fields ← objectOf (← reply)
  let action := word repr fields "action" ""
  if action ∉ validActions then
    throw ("action " ++ repr (.str action) ++ " is not one of re_delegate, add_task, drop_task")
  let fallback := word repr fields "fallback" "hold"
  let disposition := word repr fields "disposition" "drop"
  if action = "re_delegate" ∧ fallback ∉ validDispositions then
    throw ("fallback " ++ repr (.str fallback) ++ " is not a valid disposition")
  if action = "drop_task" ∧ disposition ∉ validDispositions then
    throw ("disposition " ++ repr (.str disposition) ++ " is not a valid disposition")
  let reasonCode ← reasonOf repr fields
  let taskId ← bounded repr ((fields.lookup "task_id").getD .null) Codec.taskIdMax
  let capabilities ← capabilities repr ((fields.lookup "actions").getD .null)
  let target ← targetOf repr gps ((fields.lookup "target").getD .null)
  let priority ← bounded repr ((fields.lookup "priority").getD .null) Codec.priorityMax
  let note ← noteOf repr (fields.lookup "note") action
  return {
    action
    reasonCode
    fallback := if action = "re_delegate" then fallback else ""
    disposition := if action = "drop_task" then disposition else ""
    taskId
    capabilities
    target
    priority
    rationale := Text.strip (Json.field repr fields "rationale" "")
    note }

end
end AmigaFleet.Triage
