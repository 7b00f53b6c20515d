import AmigaFleet.Codec.Canonical

/-! Message objects, their fields set to any integers or booleans, and what the
decoder reads back of those that can be encoded. -/
namespace AmigaFleet.Codec
open Lib.Struct

/-- A value as `==` sees it. -/
def Value.number : Value → Int
  | .int n => n
  | .bool b => b.toInt

structure Object where
  type : MessageType
  src : Value
  seq : Value
  values : List Value
  tail : List UInt8 := []
  complete : values.length = (layout type).length := by rfl
  bare : hasTail type = false → tail = [] := by decide

/-- What a field reads back as: the same, or for a quantized field the nearest
point of its lattice, half rounded up. -/
def Field.Reads (field : Field) (sent read : Value) : Prop :=
  if field.scale = 1 then read.number = sent.number
  else field.scale ∣ read.number ∧ -field.scale < 2*(read.number - sent.number) ∧
    2*(read.number - sent.number) ≤ field.scale

def ReadsAll : List Field → List Value → List Value → Prop
  | field::fields,sent::values,read::others => field.Reads sent read ∧ ReadsAll fields values others
  | [],[],[] => True
  | _,_,_ => False

namespace Object

def encode (o : Object) (maxPayloadBytes : Int) : Except CodecError (List UInt8) :=
  encodeValues o.type o.src o.seq o.values o.tail maxPayloadBytes

/-- The message is the object again. -/
structure Reads (o : Object) (message : Message) : Prop where
  type : message.type = o.type
  src : message.src = o.src.number
  seq : message.seq = o.seq.number
  values : ReadsAll (layout o.type) o.values message.values
  tail : message.tail = o.tail

def words? (o : Object) : Option (Int × Int × Int) :=
  match o.type,o.values with
  | .heartbeat,[_,kind,a,b,_,_] => some (kind.number,a.number,b.number)
  | .taskAnnounce,[_,_,kind,a,b,_,_] => some (kind.number,a.number,b.number)
  | _,_ => none

def Placed (o : Object) : Prop :=
  ∀ kind a b, o.words? = some (kind,a,b) → (Target.ofWords? kind a b).isSome = true

end Object

def Field.proper (field : Field) (value : Value) : Value :=
  if field.isBool then .bool (value.number = 1) else value

theorem toRaw_proper (where_ : String) (field : Field) (value : Value) (raw : Int)
    (ok : toRaw where_ field value = .ok raw) : toRaw where_ field (field.proper value) = .ok raw := by
  cases truth : field.isBool with
  | false => simpa [Field.proper,truth] using ok
  | true =>
    cases value with
    | bool b => cases b <;> simpa [Field.proper,truth,Value.number,toRaw] using ok
    | int n =>
      simp only [toRaw,truth,if_true] at ok
      split at ok
      · rename_i bit
        injection ok with ok
        subst ok
        obtain rfl | rfl := bit
        · simp [Field.proper,truth,Value.number,toRaw]
        · simp [Field.proper,truth,Value.number,toRaw]
      · cases ok

theorem quantize_nearest (scale n : Int) (positive : 0 < scale) :
    -scale < 2*(quantize scale n * scale - n) ∧ 2*(quantize scale n * scale - n) ≤ scale := by
  have least := Int.ediv_mul_le (n*2 + scale) (show 2*scale ≠ 0 by omega)
  have most := Int.lt_ediv_add_one_mul_self (n*2 + scale) (show 0 < 2*scale by omega)
  rw [quantize]
  constructor
  · nlinarith
  · nlinarith

theorem reads_onWire (where_ : String) (field : Field) (value : Value) (raw : Int)
    (ok : toRaw where_ field value = .ok raw) : field.Reads value (field.onWire (field.proper value)) := by
  cases truth : field.isBool with
  | true =>
    obtain ⟨_,_,scale⟩ := field.truth truth
    rw [Field.Reads,if_pos scale]
    cases value with
    | bool b => cases b <;> simp [Field.proper,Field.onWire,Value.number,truth]
    | int n =>
      simp only [toRaw,truth,if_true] at ok
      split at ok
      · rename_i bit
        obtain rfl | rfl := bit
        · simp [Field.proper,Field.onWire,Value.number,truth]
        · simp [Field.proper,Field.onWire,Value.number,truth]
      · cases ok
  | false =>
    obtain ⟨n,rfl,_,_,_⟩ := toRaw_number where_ field value raw truth ok
    have shape : field.onWire (field.proper (.int n)) = .int (quantize field.scale n * field.scale) := by
      simp [Field.proper,Field.onWire,truth]
    rw [shape,Field.Reads]
    split
    · rename_i unscaled
      simp [Value.number,unscaled,quantize_one]
    · exact ⟨Dvd.intro_left _ rfl,quantize_nearest field.scale n field.positive⟩

theorem toRaws_proper (where_ : String) (fields : List Field) (values : List Value) (raws : List Int)
    (same : values.length = fields.length) (ok : toRaws where_ fields values = .ok raws) :
    toRaws where_ fields (List.zipWith Field.proper fields values) = .ok raws ∧
      ReadsAll fields values (List.zipWith Field.onWire fields (List.zipWith Field.proper fields values)) ∧
      List.Forall₂ (fun field value => field.isBool = false → ∃ n, value = .int n) fields values := by
  induction fields generalizing values raws with
  | nil =>
    cases values with
    | nil => exact ⟨ok,trivial,.nil⟩
    | cons value values => simp at same
  | cons field fields ih =>
    cases values with
    | nil => simp at same
    | cons value values =>
      obtain ⟨raw,rest,rfl,first,others⟩ := toRaws_cons where_ field fields value values raws ok
      obtain ⟨again,reads,numbers⟩ := ih values rest (by simpa using same) others
      refine ⟨?_,⟨reads_onWire where_ field value raw first,reads⟩,.cons ?_ numbers⟩
      · simp [toRaws,toRaw_proper where_ field value raw first,again,bind,Except.bind,pure,Except.pure]
      · intro number
        obtain ⟨n,shape,_⟩ := toRaw_number where_ field value raw number first
        exact ⟨n,shape⟩

theorem object_message (o : Object) (src seq : Int)
    (numbers : List.Forall₂ (fun (field : Field) value => field.isBool = false → ∃ n, value = Value.int n)
      (layout o.type) o.values) : ∃ message, Message.build o.type src seq
        (List.zipWith Field.proper (layout o.type) o.values) o.tail = some message ∧ message.words? = o.words? := by
  obtain ⟨type,_,_,values,tail,_,_⟩ := o
  cases type
  all_goals
    simp only [layout,targetFields,taskIdField,List.cons_append,List.nil_append,List.forall₂_cons_left_iff,
      List.forall₂_nil_left_iff,forall_const,Bool.true_eq_false,false_implies,true_and] at numbers
  case heartbeat =>
    obtain ⟨_,_,⟨_,rfl⟩,⟨_,_,⟨_,rfl⟩,⟨_,_,⟨_,rfl⟩,⟨_,_,⟨_,rfl⟩,⟨_,_,⟨_,rfl⟩,⟨_,_,⟨_,rfl⟩,rfl,rfl⟩,rfl⟩,rfl⟩,
      rfl⟩,rfl⟩,rfl⟩ := numbers
    simp [Message.build,Message.words?,Object.words?,layout,targetFields,Field.proper,Value.number]
  case taskAnnounce =>
    obtain ⟨_,_,⟨_,rfl⟩,⟨_,_,⟨_,rfl⟩,⟨_,_,⟨_,rfl⟩,⟨_,_,⟨_,rfl⟩,⟨_,_,⟨_,rfl⟩,⟨_,_,⟨_,rfl⟩,⟨_,_,⟨_,rfl⟩,rfl,rfl⟩,
      rfl⟩,rfl⟩,rfl⟩,rfl⟩,rfl⟩,rfl⟩ := numbers
    simp [Message.build,Message.words?,Object.words?,layout,targetFields,taskIdField,Field.proper,Value.number]
  case bid =>
    obtain ⟨_,_,⟨_,rfl⟩,⟨_,_,⟨_,rfl⟩,⟨_,_,⟨_,_,⟨_,rfl⟩,rfl,rfl⟩,rfl⟩,rfl⟩,rfl⟩ := numbers
    simp [Message.build,Message.words?,Object.words?,layout,taskIdField,Field.proper]
  case grant =>
    obtain ⟨_,_,⟨_,rfl⟩,⟨_,_,⟨_,rfl⟩,rfl,rfl⟩,rfl⟩ := numbers
    simp [Message.build,Message.words?,Object.words?,layout,taskIdField,Field.proper]
  case ack =>
    obtain ⟨_,_,⟨_,rfl⟩,⟨_,_,⟨_,rfl⟩,rfl,rfl⟩,rfl⟩ := numbers
    simp [Message.build,Message.words?,Object.words?,layout,Field.proper]
  case freeform =>
    obtain ⟨_,_,⟨_,rfl⟩,⟨_,_,⟨_,rfl⟩,⟨_,_,⟨_,rfl⟩,⟨_,_,⟨_,rfl⟩,rfl,rfl⟩,rfl⟩,rfl⟩,rfl⟩ := numbers
    simp [Message.build,Message.words?,Object.words?,layout,taskIdField,Field.proper]

theorem object_encoded (o : Object) (maxPayloadBytes : Int) (packet : List UInt8)
    (ok : o.encode maxPayloadBytes = .ok packet) :
    ∃ message, encode message maxPayloadBytes = .ok packet ∧ o.Reads message.onWire ∧
      message.words? = o.words? := by
  have parts := ok
  simp only [Object.encode,encodeValues,reservedTypes,List.not_mem_nil,if_false,bind,Except.bind,pure,
    Except.pure,throw,throwThe,MonadExceptOf.throw] at parts
  split at parts
  · cases parts
  rename_i source first
  split at parts
  · cases parts
  rename_i number second
  split at parts
  · cases parts
  rename_i raws third
  obtain ⟨src,shapeSrc,_⟩ := toRaw_number _ srcField _ _ rfl first
  obtain ⟨seq,shapeSeq,_⟩ := toRaw_number _ seqField _ _ rfl second
  obtain ⟨again,reads,numbers⟩ := toRaws_proper _ _ _ _ o.complete third
  obtain ⟨message,built,words⟩ := object_message o src seq numbers
  obtain ⟨type,srcSame,seqSame,values,tail⟩ := build_parts _ _ _ _ _ message built
  have whole : message.tail = o.tail := by
    cases open_ : hasTail o.type with
    | true => rw [tail,if_pos open_]
    | false =>
      rw [tail,o.bare open_]
      exact ite_self _
  have sameEncode : encode message maxPayloadBytes = o.encode maxPayloadBytes := by
    simp only [encode,Object.encode,encodeValues,type,srcSame,seqSame,values,whole,shapeSrc,shapeSeq,again,third]
  have wire := build_onWire message
  obtain ⟨wireType,_,_,wireValues,wireTail⟩ := build_parts _ _ _ _ _ message.onWire wire
  refine ⟨message,sameEncode.trans ok,⟨?_,?_,?_,?_,?_⟩,words⟩
  · rw [wireType,type]
  · rw [Message.onWire_src,srcSame,shapeSrc]
    rfl
  · rw [Message.onWire_seq,seqSame,shapeSeq]
    rfl
  · rw [wireValues,type,values]
    exact reads
  · rw [wireTail,type,whole]
    cases open_ : hasTail o.type with
    | true => rfl
    | false => exact (o.bare open_).symm

/-- What was encoded reads back as the object it was, exactly where the object's
words are a legal target or it has none. -/
theorem encode_read (o : Object) (maxPayloadBytes : Int) (packet : List UInt8)
    (ok : o.encode maxPayloadBytes = .ok packet) :
    (∃ message, decode packet = .ok message ∧ o.Reads message) ↔ o.Placed := by
  obtain ⟨message,encoded,reads,words⟩ := object_encoded o maxPayloadBytes packet ok
  rw [decode_encode message maxPayloadBytes packet encoded]
  simp only [checkTarget_ok]
  constructor
  · rintro ⟨_,⟨rfl,placed⟩,_⟩ kind a b named
    exact placed kind a b (by rw [onWire_words,words,named])
  · intro placed
    refine ⟨message.onWire,⟨rfl,?_⟩,reads⟩
    intro kind a b named
    rw [onWire_words,words] at named
    exact placed kind a b named

def sampleBid : Object :=
  { type := .bid, src := .int 3, seq := .int 9, values := [.int 17,.int 6,.int 1,.int 40] }

theorem encode_read_bid :
    sampleBid.encode defaultMaxPayloadBytes = .ok [3,3,0,9,0,17,2,1,40] ∧
      ∃ message, decode [3,3,0,9,0,17,2,1,40] = .ok message ∧ sampleBid.Reads message :=
  ⟨by decide,(encode_read sampleBid defaultMaxPayloadBytes _ (by decide)).mpr (fun _ _ _ named => by cases named)⟩

/-- A heartbeat that is going nowhere, and to 5. -/
def straySample : Object :=
  { type := .heartbeat, src := .int 3, seq := .int 9,
    values := [.int 0,.int 0,.int 5,.int 0,.int 80,.int 0] }

theorem encode_unread :
    ∃ packet, straySample.encode defaultMaxPayloadBytes = .ok packet ∧
      decode packet = .error (.fieldRange "Heartbeat" (.target 0 5 0)) :=
  ⟨[1,3,0,9,0,0,0,0,0,0,5,0,0,0,0,80,0,0],by decide,by decide⟩

end AmigaFleet.Codec
