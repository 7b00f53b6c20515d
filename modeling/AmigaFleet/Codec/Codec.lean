import AmigaFleet.Codec.Messages
import AmigaFleet.Lib.Struct

/-! One message to one packet and back, driven by one layout table. A field
carries the fact that its range fits its bytes, so packing never truncates. -/
namespace AmigaFleet.Codec
open Lib.Struct

inductive Value where
  | int (n : Int)
  | bool (b : Bool)
  deriving DecidableEq, Repr

inductive RangeFault where
  | notBool (value : Value)
  | notNumber (value : Value)
  | outside (value lo hi : Int)
  | boolByte (raw : Int)
  | target (kind a b : Int)
  deriving DecidableEq, Repr

inductive CodecError where
  | unknownMessageType (tag : Int)
  | reservedMessageType (tag : Int)
  | truncated (where_ : String) (needs has : Nat)
  | trailingBytes (where_ : String) (needs has : Nat)
  | payloadTooLarge (where_ : String) (size : Nat) (maxPayloadBytes : Int)
  | fieldRange (path : String) (fault : RangeFault)
  deriving DecidableEq, Repr

def CodecError.kind : CodecError → String
  | unknownMessageType _ => "unknown_type"
  | reservedMessageType _ => "reserved_type"
  | truncated .. => "truncated"
  | trailingBytes .. => "trailing"
  | payloadTooLarge .. => "oversize"
  | fieldRange .. => "range"

/-- Half-up rounding onto the quantization lattice. -/
def quantize (scale value : Int) : Int := (value*2 + scale) / (2*scale)

structure Field where
  name : String
  slot : Slot
  hi : Int
  lo : Int := 0
  scale : Int := 1
  isBool : Bool := false
  positive : 0 < scale := by decide
  lattice : scale ∣ lo ∧ scale ∣ hi := by decide
  fits : slot.least * scale ≤ lo ∧ hi < (slot.least + slot.modulus) * scale := by decide
  truth : isBool = true → lo = 0 ∧ hi = 1 ∧ scale = 1 := by decide

def byte : Slot := ⟨1,false⟩
def half : Slot := ⟨2,false⟩
def word : Slot := ⟨4,true⟩

def headerSlots : List Slot := [byte,byte,half]
def srcField : Field := { name := "src", slot := byte, hi := srcMax }
def seqField : Field := { name := "seq", slot := half, hi := seqMax }

def targetFields : List Field :=
  [{ name := "target_kind", slot := byte, hi := 3 },
   { name := "target_a", slot := word, hi := targetWordMax, lo := targetWordMin },
   { name := "target_b", slot := word, hi := targetWordMax, lo := targetWordMin }]

def taskIdField : Field := { name := "task_id", slot := half, hi := taskIdMax }

def layout : MessageType → List Field
  | .heartbeat =>
    { name := "cap_mask", slot := half, hi := 2^capMaskBits - 1 } :: targetFields ++
      [{ name := "battery", slot := byte, hi := batteryMax },
       { name := "cur_task", slot := half, hi := taskIdMax }]
  | .taskAnnounce =>
    taskIdField :: { name := "req_cap_mask", slot := half, hi := 2^capMaskBits - 1 } ::
      targetFields ++
      [{ name := "priority", slot := byte, hi := priorityMax },
       { name := "reason_code", slot := byte, hi := 0xFF }]
  | .bid =>
    [taskIdField,
     { name := "eta_s", slot := byte, hi := etaMaxS, scale := etaResolutionS },
     { name := "feasible", slot := byte, hi := 1, isBool := true },
     { name := "cost", slot := byte, hi := costMax }]
  | .grant => [taskIdField,{ name := "winner_id", slot := byte, hi := srcMax }]
  | .ack =>
    [{ name := "ack_src", slot := byte, hi := srcMax },
     { name := "ack_seq", slot := half, hi := seqMax }]
  | .freeform =>
    [taskIdField,
     { name := "note_id", slot := byte, hi := noteIdMax },
     { name := "frag_index", slot := byte, hi := fragMax },
     { name := "frag_count", slot := byte, hi := fragMax }]

def slots (type : MessageType) : List Slot := (layout type).map Field.slot

def hasTail : MessageType → Bool
  | .freeform => true
  | _ => false

def className : MessageType → String
  | .heartbeat => "Heartbeat"
  | .taskAnnounce => "TaskAnnounce"
  | .bid => "Bid"
  | .grant => "Grant"
  | .ack => "Ack"
  | .freeform => "Freeform"

def path (where_ : String) (field : Field) : String := where_ ++ "." ++ field.name

def toRaw (where_ : String) (field : Field) (value : Value) : Except CodecError Int :=
  if field.isBool then
    match value with
    | .bool b => .ok b.toInt
    | .int n =>
      if n = 0 ∨ n = 1 then .ok n else .error (.fieldRange (path where_ field) (.notBool value))
  else
    match value with
    | .bool _ => .error (.fieldRange (path where_ field) (.notNumber value))
    | .int n =>
      if field.lo ≤ n ∧ n ≤ field.hi then
        .ok (if field.scale = 1 then n else quantize field.scale n)
      else .error (.fieldRange (path where_ field) (.outside n field.lo field.hi))

def fromRaw (where_ : String) (field : Field) (raw : Int) : Except CodecError Value :=
  if field.isBool then
    if raw = 0 ∨ raw = 1 then .ok (.bool (raw = 1))
    else .error (.fieldRange (path where_ field) (.boolByte raw))
  else
    -- An enum member and its integer compare equal, so the coercion is not repeated here.
    if field.lo ≤ raw*field.scale ∧ raw*field.scale ≤ field.hi then .ok (.int (raw*field.scale))
    else .error (.fieldRange (path where_ field) (.outside (raw*field.scale) field.lo field.hi))

def toRaws (where_ : String) : List Field → List Value → Except CodecError (List Int)
  | field::fields,value::values => do
    let raw ← toRaw where_ field value
    let raws ← toRaws where_ fields values
    return raw::raws
  | _,_ => .ok []

def fromRaws (where_ : String) : List Field → List Int → Except CodecError (List Value)
  | field::fields,raw::raws => do
    let value ← fromRaw where_ field raw
    let values ← fromRaws where_ fields raws
    return value::values
  | _,_ => .ok []

namespace Message

def values : Message → List Value
  | heartbeat m => [.int m.capMask,.int m.targetKind,.int m.targetA,.int m.targetB,
      .int m.battery,.int m.curTask]
  | taskAnnounce m => [.int m.taskId,.int m.reqCapMask,.int m.targetKind,.int m.targetA,
      .int m.targetB,.int m.priority,.int m.reasonCode]
  | bid m => [.int m.taskId,.int m.etaS,.bool m.feasible,.int m.cost]
  | grant m => [.int m.taskId,.int m.winnerId]
  | ack m => [.int m.ackSrc,.int m.ackSeq]
  | freeform m => [.int m.taskId,.int m.noteId,.int m.fragIndex,.int m.fragCount]

def tail : Message → List UInt8
  | freeform m => m.text
  | _ => []

/-- `cls(src=src, seq=seq, **values)`. -/
def build (type : MessageType) (src seq : Int) (values : List Value) (tail : List UInt8) :
    Option Message :=
  match type,values with
  | .heartbeat,[.int mask,.int kind,.int a,.int b,.int battery,.int task] =>
    some (.heartbeat ⟨src,seq,mask,kind,a,b,battery,task⟩)
  | .taskAnnounce,[.int task,.int mask,.int kind,.int a,.int b,.int priority,.int reason] =>
    some (.taskAnnounce ⟨src,seq,task,mask,kind,a,b,priority,reason⟩)
  | .bid,[.int task,.int eta,.bool feasible,.int cost] =>
    some (.bid ⟨src,seq,task,eta,feasible,cost⟩)
  | .grant,[.int task,.int winner] => some (.grant ⟨src,seq,task,winner⟩)
  | .ack,[.int source,.int number] => some (.ack ⟨src,seq,source,number⟩)
  | .freeform,[.int task,.int note,.int index,.int count] =>
    some (.freeform ⟨src,seq,task,note,index,count,tail⟩)
  | _,_ => none

def words? : Message → Option (Int × Int × Int)
  | heartbeat m => some (m.targetKind,m.targetA,m.targetB)
  | taskAnnounce m => some (m.targetKind,m.targetA,m.targetB)
  | _ => none

end Message

/-- `target_of(msg)`, for a message whose words the decoder let through. -/
def targetOf (kind a b : Int) : Target := (Target.ofWords? kind a b).getD .none

def encodeValues (type : MessageType) (src seq : Value) (values : List Value) (tail : List UInt8)
    (maxPayloadBytes : Int) : Except CodecError (List UInt8) := do
  if type.tag ∈ reservedTypes then throw (.reservedMessageType type.tag)
  let name := className type
  let source ← toRaw name srcField src
  let number ← toRaw name seqField seq
  let raws ← toRaws name (layout type) values
  let packet := packAll headerSlots [type.tag,source,number] ++ packAll (slots type) raws ++ tail
  if (packet.length : Int) > maxPayloadBytes then
    throw (.payloadTooLarge name packet.length maxPayloadBytes)
  return packet

def encode (message : Message) (maxPayloadBytes : Int) : Except CodecError (List UInt8) :=
  encodeValues message.type (.int message.src) (.int message.seq) message.values message.tail
    maxPayloadBytes

def byTag (tag : Int) : Option MessageType := MessageType.all.find? (fun type => type.tag = tag)

def checkTarget (type : MessageType) (message : Message) : Except CodecError Message :=
  match message.words? with
  | none => .ok message
  | some (kind,a,b) =>
    if (Target.ofWords? kind a b).isSome then .ok message
    else .error (.fieldRange (className type) (.target kind a b))

def decode (data : List UInt8) : Except CodecError Message := do
  if data.length < headerBytes then throw (.truncated "header" headerBytes data.length)
  match unpackAll headerSlots data with
  | [tag,src,seq] =>
    if tag ∈ reservedTypes then throw (.reservedMessageType tag)
    match byTag tag with
    | none => throw (.unknownMessageType tag)
    | some type =>
      let name := className type
      let expected := headerBytes + size (slots type)
      if data.length < expected then throw (.truncated name expected data.length)
      if expected < data.length ∧ hasTail type = false then
        throw (.trailingBytes name expected data.length)
      let values ← fromRaws name (layout type) (unpackAll (slots type) (data.drop headerBytes))
      match Message.build type src seq values (data.drop expected) with
      | some message => checkTarget type message
      | none => throw (.unknownMessageType tag)
  | _ => throw (.truncated "header" headerBytes data.length)

end AmigaFleet.Codec
