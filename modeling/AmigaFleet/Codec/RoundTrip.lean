import AmigaFleet.Codec.Codec

/-! What the decoder reads back from an encoded message: the same message, with
its ETA on the 4 s lattice, unless its three target words name no place. -/
namespace AmigaFleet.Codec
open Lib.Struct

theorem quantize_one (value : Int) : quantize 1 value = value := by
  simp only [quantize]
  omega

theorem quantize_bounds (field : Field) (value : Int) (low : field.lo ≤ value)
    (high : value ≤ field.hi) :
    field.lo ≤ quantize field.scale value * field.scale ∧
      quantize field.scale value * field.scale ≤ field.hi := by
  have positive := field.positive
  obtain ⟨⟨l,lo⟩,⟨h,hi⟩⟩ := field.lattice
  have double : 0 < 2*field.scale := by omega
  have least : l ≤ quantize field.scale value := by
    apply (Int.le_ediv_iff_mul_le double).mpr
    nlinarith
  have most : quantize field.scale value < h+1 := by
    apply (Int.ediv_lt_iff_lt_mul double).mpr
    nlinarith
  constructor
  · rw [lo]
    nlinarith
  · rw [hi]
    nlinarith

theorem quantize_fits (field : Field) (value : Int) (low : field.lo ≤ value)
    (high : value ≤ field.hi) : field.slot.Fits (quantize field.scale value) := by
  have positive := field.positive
  have bounds := quantize_bounds field value low high
  have fits := field.fits
  constructor
  · exact le_of_mul_le_mul_right (fits.1.trans bounds.1) positive
  · exact lt_of_mul_lt_mul_right (bounds.2.trans_lt fits.2) positive.le

def Field.onWire (field : Field) : Value → Value
  | .bool b => .bool b
  | .int n => if field.isBool then .bool (n = 1) else .int (quantize field.scale n * field.scale)

theorem toRaw_number (where_ : String) (field : Field) (value : Value) (raw : Int)
    (number : field.isBool = false) (ok : toRaw where_ field value = .ok raw) :
    ∃ n, value = .int n ∧ field.lo ≤ n ∧ n ≤ field.hi ∧ raw = quantize field.scale n := by
  cases value with
  | bool b => simp [toRaw,number] at ok
  | int n =>
    simp only [toRaw,number,Bool.false_eq_true,if_false] at ok
    split at ok
    · rename_i within
      refine ⟨n,rfl,within.1,within.2,?_⟩
      injection ok with ok
      by_cases unscaled : field.scale = 1
      · rw [← ok,if_pos unscaled,unscaled,quantize_one]
      · rw [← ok,if_neg unscaled]
    · cases ok

theorem toRaw_of_range (where_ : String) (field : Field) (n : Int) (number : field.isBool = false)
    (unscaled : field.scale = 1) (range : field.lo ≤ n ∧ n ≤ field.hi) : toRaw where_ field (.int n) = .ok n := by
  simp [toRaw,number,unscaled,range]

theorem toRaw_truth (where_ : String) (field : Field) (value : Value) (raw : Int)
    (truth : field.isBool = true) (ok : toRaw where_ field value = .ok raw) :
    (raw = 0 ∨ raw = 1) ∧ field.onWire value = .bool (raw = 1) := by
  cases value with
  | bool b =>
    simp only [toRaw,truth,if_true] at ok
    injection ok with ok
    subst ok
    cases b <;> simp [Field.onWire]
  | int n =>
    simp only [toRaw,truth,if_true] at ok
    split at ok
    · rename_i bit
      injection ok with ok
      subst ok
      exact ⟨bit,by simp [Field.onWire,truth]⟩
    · cases ok

theorem toRaw_fits (where_ : String) (field : Field) (value : Value) (raw : Int)
    (ok : toRaw where_ field value = .ok raw) : field.slot.Fits raw := by
  cases truth : field.isBool with
  | false =>
    obtain ⟨n,_,low,high,rfl⟩ := toRaw_number where_ field value raw truth ok
    exact quantize_fits field n low high
  | true =>
    obtain ⟨lo,hi,scale⟩ := field.truth truth
    have fits := field.fits
    rw [lo,hi,scale] at fits
    rcases (toRaw_truth where_ field value raw truth ok).1 with rfl | rfl
    · exact ⟨by linarith [fits.1],by linarith [fits.2]⟩
    · exact ⟨by linarith [fits.1],by linarith [fits.2]⟩

theorem fromRaw_toRaw (where_ : String) (field : Field) (value : Value) (raw : Int)
    (ok : toRaw where_ field value = .ok raw) : fromRaw where_ field raw = .ok (field.onWire value) := by
  cases truth : field.isBool with
  | false =>
    obtain ⟨n,rfl,low,high,rfl⟩ := toRaw_number where_ field value raw truth ok
    simp [fromRaw,truth,Field.onWire,quantize_bounds field n low high]
  | true =>
    obtain ⟨bit,wire⟩ := toRaw_truth where_ field value raw truth ok
    simp [fromRaw,truth,wire,bit]

theorem toRaws_cons (where_ : String) (field : Field) (fields : List Field) (value : Value)
    (values : List Value) (raws : List Int)
    (ok : toRaws where_ (field::fields) (value::values) = .ok raws) :
    ∃ raw rest, raws = raw::rest ∧ toRaw where_ field value = .ok raw ∧
      toRaws where_ fields values = .ok rest := by
  simp only [toRaws,bind,Except.bind,pure,Except.pure] at ok
  split at ok
  · cases ok
  · rename_i raw first
    split at ok
    · cases ok
    · rename_i rest others
      injection ok with ok
      exact ⟨raw,rest,ok.symm,first,others⟩

theorem toRaws_of_range (where_ : String) (field : Field) (fields : List Field) (n : Int)
    (values : List Value) (raws : List Int) (number : field.isBool = false) (unscaled : field.scale = 1)
    (range : field.lo ≤ n ∧ n ≤ field.hi) (rest : toRaws where_ fields values = .ok raws) :
    toRaws where_ (field::fields) (.int n::values) = .ok (n::raws) := by
  simp [toRaws,toRaw_of_range where_ field n number unscaled range,rest,bind,Except.bind,pure,Except.pure]

theorem toRaws_range (where_ : String) (field : Field) (fields : List Field) (n : Int) (values : List Value)
    (raws : List Int) (number : field.isBool = false)
    (ok : toRaws where_ (field::fields) (.int n::values) = .ok raws) :
    (field.lo ≤ n ∧ n ≤ field.hi) ∧ ∃ rest, toRaws where_ fields values = .ok rest := by
  obtain ⟨raw,rest,-,first,others⟩ := toRaws_cons _ _ _ _ _ _ ok
  obtain ⟨m,same,low,high,-⟩ := toRaw_number _ _ _ _ number first
  cases same
  exact ⟨⟨low,high⟩,rest,others⟩

theorem toRaws_fits (where_ : String) (fields : List Field) (values : List Value) (raws : List Int)
    (same : fields.length = values.length) (ok : toRaws where_ fields values = .ok raws) :
    List.Forall₂ Slot.Fits (fields.map Field.slot) raws := by
  induction fields generalizing values raws with
  | nil =>
    simp only [toRaws,Except.ok.injEq] at ok
    subst ok
    exact .nil
  | cons field fields ih =>
    cases values with
    | nil => simp at same
    | cons value values =>
      obtain ⟨raw,rest,rfl,first,others⟩ := toRaws_cons where_ field fields value values raws ok
      exact .cons (toRaw_fits where_ field value raw first)
        (ih values rest (by simpa using same) others)

theorem fromRaws_toRaws (where_ : String) (fields : List Field) (values : List Value)
    (raws : List Int) (same : fields.length = values.length)
    (ok : toRaws where_ fields values = .ok raws) :
    fromRaws where_ fields raws = .ok (List.zipWith Field.onWire fields values) := by
  induction fields generalizing values raws with
  | nil => rfl
  | cons field fields ih =>
    cases values with
    | nil => simp at same
    | cons value values =>
      obtain ⟨raw,rest,rfl,first,others⟩ := toRaws_cons where_ field fields value values raws ok
      simp [fromRaws,fromRaw_toRaw where_ field value raw first,
        ih values rest (by simpa using same) others,bind,Except.bind,pure,Except.pure]

/-- The message as a receiver sees it. -/
def Message.onWire : Message → Message
  | .bid m => .bid { m with etaS := quantize etaResolutionS m.etaS * etaResolutionS }
  | m => m

@[simp] theorem Message.onWire_src (message : Message) : message.onWire.src = message.src := by
  cases message <;> rfl

@[simp] theorem Message.onWire_seq (message : Message) : message.onWire.seq = message.seq := by
  cases message <;> rfl

theorem layout_length (message : Message) :
    (layout message.type).length = message.values.length := by cases message <;> rfl

theorem build_onWire (message : Message) :
    Message.build message.type message.src message.seq
      (List.zipWith Field.onWire (layout message.type) message.values) message.tail =
      some message.onWire := by
  cases message <;>
    simp [Message.type,Message.values,Message.src,Message.seq,Message.tail,layout,targetFields,
      taskIdField,Field.onWire,Message.build,Message.onWire,quantize_one]

theorem byTag_tag (type : MessageType) : byTag type.tag = some type := by cases type <;> decide

theorem tag_fits (type : MessageType) : byte.Fits type.tag := by cases type <;> decide

theorem encode_packet (message : Message) (maxPayloadBytes : Int) (packet : List UInt8)
    (ok : encode message maxPayloadBytes = .ok packet) :
    ∃ source number raws, toRaw (className message.type) srcField (.int message.src) = .ok source ∧
      toRaw (className message.type) seqField (.int message.seq) = .ok number ∧
      toRaws (className message.type) (layout message.type) message.values = .ok raws ∧
      packet = packAll headerSlots [message.type.tag,source,number] ++
        packAll (slots message.type) raws ++ message.tail ∧
      (packet.length : Int) ≤ maxPayloadBytes := by
  simp only [encode,encodeValues,reservedTypes,List.not_mem_nil,if_false,bind,Except.bind,pure,
    Except.pure,throw,throwThe,MonadExceptOf.throw] at ok
  split at ok
  · cases ok
  rename_i source first
  split at ok
  · cases ok
  rename_i number second
  split at ok
  · cases ok
  rename_i raws third
  split at ok
  · cases ok
  rename_i small
  injection ok with ok
  exact ⟨source,number,raws,first,second,third,ok.symm,by rw [← ok]; omega⟩

theorem encode_of_parts (message : Message) (maxPayloadBytes source number : Int) (raws : List Int)
    (first : toRaw (className message.type) srcField (.int message.src) = .ok source)
    (second : toRaw (className message.type) seqField (.int message.seq) = .ok number)
    (third : toRaws (className message.type) (layout message.type) message.values = .ok raws)
    (small : (headerBytes + size (slots message.type) + message.tail.length : Nat) ≤ maxPayloadBytes) :
    ∃ packet, encode message maxPayloadBytes = .ok packet := by
  have body : (packAll (slots message.type) raws).length = size (slots message.type) :=
    packAll_length _ _ (toRaws_fits _ _ _ _ (layout_length message) third).length_eq
  have length : (packAll headerSlots [message.type.tag,source,number] ++
      packAll (slots message.type) raws ++ message.tail).length =
      headerBytes + size (slots message.type) + message.tail.length := by
    rw [List.length_append,List.length_append,packAll_length _ _ rfl,body]
    rfl
  generalize shape : packAll headerSlots [message.type.tag,source,number] ++
      packAll (slots message.type) raws ++ message.tail = packet at length
  have within : ¬(packet.length : Int) > maxPayloadBytes := by omega
  refine ⟨packet,?_⟩
  simp only [encode,encodeValues,reservedTypes,List.not_mem_nil,if_false,first,second,third,shape,within,bind,
    Except.bind,pure,Except.pure]

theorem header_number (where_ : String) (field : Field) (n raw : Int) (number : field.isBool = false)
    (unscaled : field.scale = 1) (ok : toRaw where_ field (.int n) = .ok raw) : raw = n := by
  obtain ⟨m,same,_,_,rfl⟩ := toRaw_number where_ field (.int n) raw number ok
  cases same
  rw [unscaled,quantize_one]

theorem decode_encode (message : Message) (maxPayloadBytes : Int) (packet : List UInt8)
    (ok : encode message maxPayloadBytes = .ok packet) :
    decode packet = checkTarget message.type message.onWire := by
  obtain ⟨source,number,raws,first,second,third,shape,_⟩ :=
    encode_packet message maxPayloadBytes packet ok
  have sourceFits := toRaw_fits _ _ _ _ first
  have numberFits := toRaw_fits _ _ _ _ second
  have rawsFit := toRaws_fits _ _ _ _ (layout_length message) third
  obtain rfl : source = message.src := header_number _ srcField _ _ rfl rfl first
  obtain rfl : number = message.seq := header_number _ seqField _ _ rfl rfl second
  have headerFits : List.Forall₂ Slot.Fits headerSlots [message.type.tag,message.src,message.seq] :=
    .cons (tag_fits message.type) (.cons sourceFits (.cons numberFits .nil))
  have headerLength : (packAll headerSlots [message.type.tag,message.src,message.seq]).length = 4 :=
    packAll_length _ _ rfl
  have bodyLength : (packAll (slots message.type) raws).length = size (slots message.type) :=
    packAll_length _ _ rawsFit.length_eq
  have length : packet.length = headerBytes + size (slots message.type) + message.tail.length := by
    rw [shape,List.length_append,List.length_append,headerLength,bodyLength,headerBytes]
  have header : unpackAll headerSlots packet = [message.type.tag,message.src,message.seq] := by
    rw [shape,List.append_assoc]
    exact unpackAll_packAll _ _ _ headerFits
  have body : unpackAll (slots message.type) (packet.drop headerBytes) = raws := by
    rw [shape,List.append_assoc,headerBytes,List.drop_left' headerLength]
    exact unpackAll_packAll _ _ _ rawsFit
  have tail : packet.drop (headerBytes + size (slots message.type)) = message.tail := by
    rw [shape]
    apply List.drop_left'
    rw [List.length_append,headerLength,bodyLength,headerBytes]
  have closed : ¬(headerBytes + size (slots message.type) < packet.length ∧
      hasTail message.type = false) := by
    rintro ⟨longer,fixed⟩
    rw [length] at longer
    cases message <;> simp_all [Message.tail,Message.type,hasTail]
  have whole : ¬packet.length < headerBytes := by omega
  have enough : ¬packet.length < headerBytes + size (slots message.type) := by omega
  simp only [decode,header,whole,enough,closed,reservedTypes,List.not_mem_nil,if_false,byTag_tag,body,
    fromRaws_toRaws _ _ _ _ (layout_length message) third,tail,build_onWire,bind,Except.bind]

end AmigaFleet.Codec
