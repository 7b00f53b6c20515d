import AmigaFleet.Codec.RoundTrip

/-! Accepted packets are canonical: what the decoder accepts is the encoding of
what it returns, byte for byte. -/
namespace AmigaFleet.Codec
open Lib.Struct

theorem quantize_mul (scale raw : Int) (positive : 0 < scale) : quantize scale (raw*scale) = raw := by
  have split : raw*scale*2 + scale = scale + raw*(2*scale) := by ring
  rw [quantize,split,Int.add_mul_ediv_right _ _ (by omega),Int.ediv_eq_zero_of_lt (by omega) (by omega)]
  omega

theorem toRaw_fromRaw (where_ : String) (field : Field) (raw : Int) (value : Value)
    (ok : fromRaw where_ field raw = .ok value) : toRaw where_ field value = .ok raw := by
  cases truth : field.isBool with
  | true =>
    simp only [fromRaw,truth,if_true] at ok
    split at ok
    · rename_i bit
      injection ok with ok
      subst ok
      obtain rfl | rfl := bit
      · simp [toRaw,truth]
      · simp [toRaw,truth]
    · cases ok
  | false =>
    simp only [fromRaw,truth,Bool.false_eq_true,if_false] at ok
    split at ok
    · rename_i within
      injection ok with ok
      subst ok
      have back : (if field.scale = 1 then raw*field.scale else quantize field.scale (raw*field.scale)) = raw := by
        split
        · rename_i unscaled
          rw [unscaled,mul_one]
        · exact quantize_mul _ _ field.positive
      simp [toRaw,truth,within,back]
    · cases ok

theorem fromRaws_cons (where_ : String) (field : Field) (fields : List Field) (raw : Int) (raws : List Int)
    (values : List Value) (ok : fromRaws where_ (field::fields) (raw::raws) = .ok values) :
    ∃ value rest, values = value::rest ∧ fromRaw where_ field raw = .ok value ∧
      fromRaws where_ fields raws = .ok rest := by
  simp only [fromRaws,bind,Except.bind,pure,Except.pure] at ok
  split at ok
  · cases ok
  · rename_i value first
    split at ok
    · cases ok
    · rename_i rest others
      injection ok with ok
      exact ⟨value,rest,ok.symm,first,others⟩

theorem toRaws_fromRaws (where_ : String) (fields : List Field) (raws : List Int) (values : List Value)
    (same : fields.length = raws.length) (ok : fromRaws where_ fields raws = .ok values) :
    toRaws where_ fields values = .ok raws := by
  induction fields generalizing raws values with
  | nil =>
    cases raws with
    | nil => rfl
    | cons raw raws => simp at same
  | cons field fields ih =>
    cases raws with
    | nil => simp at same
    | cons raw raws =>
      obtain ⟨value,rest,rfl,first,others⟩ := fromRaws_cons where_ field fields raw raws values ok
      simp [toRaws,toRaw_fromRaw where_ field raw value first,ih raws rest (by simpa using same) others,
        bind,Except.bind,pure,Except.pure]

theorem toRaw_header (where_ : String) (field : Field) (n : Int) (number : field.isBool = false)
    (unscaled : field.scale = 1) (low : field.lo ≤ n) (high : n ≤ field.hi) :
    toRaw where_ field (.int n) = .ok n := by
  simp [toRaw,number,unscaled,low,high]

theorem build_parts (type : MessageType) (src seq : Int) (values : List Value) (tail : List UInt8)
    (message : Message) (built : Message.build type src seq values tail = some message) :
    message.type = type ∧ message.src = src ∧ message.seq = seq ∧ message.values = values ∧
      message.tail = if hasTail type then tail else [] := by
  unfold Message.build at built
  split at built
  all_goals
    cases built
    try exact ⟨rfl,rfl,rfl,rfl,rfl⟩

theorem byTag_eq_some (tag : Int) (type : MessageType) (found : byTag tag = some type) : type.tag = tag := by
  have matched := List.find?_some found
  simpa using matched

theorem decode_packet (data : List UInt8) (message : Message) (ok : decode data = .ok message) :
    ∃ raws, unpackAll headerSlots data = [message.type.tag,message.src,message.seq] ∧
      headerBytes + size (slots message.type) ≤ data.length ∧
      raws = unpackAll (slots message.type) (data.drop headerBytes) ∧
      fromRaws (className message.type) (layout message.type) raws = .ok message.values ∧
      message.tail = data.drop (headerBytes + size (slots message.type)) ∧
      checkTarget message.type message = .ok message := by
  simp only [decode,bind,Except.bind,throw,throwThe,MonadExceptOf.throw] at ok
  split at ok
  · cases ok
  split at ok
  · rename_i tag src seq header
    simp only [reservedTypes,List.not_mem_nil,if_false] at ok
    split at ok
    · cases ok
    rename_i type known
    split at ok
    · cases ok
    rename_i enough
    split at ok
    · cases ok
    rename_i closed
    split at ok
    · cases ok
    rename_i values reads
    split at ok
    · rename_i built_message built
      obtain ⟨rfl,rfl,rfl,rfl,tail⟩ := build_parts type src seq values _ built_message built
      have same : built_message = message := by
        unfold checkTarget at ok
        split at ok
        · injection ok
        · split at ok
          · injection ok
          · cases ok
      subst same
      refine ⟨_,by rw [header,byTag_eq_some tag _ known],not_lt.mp enough,rfl,reads,?_,ok⟩
      rw [tail]
      split
      · rfl
      · rename_i bare
        have fixed : ¬ headerBytes + size (slots built_message.type) < data.length :=
          fun longer => closed ⟨longer,by simpa using bare⟩
        exact (List.drop_of_length_le (not_lt.mp fixed)).symm
    · cases ok
  · cases ok

/-- Encoding what was decoded gives the packet back. -/
theorem encode_decode (data : List UInt8) (message : Message) (ok : decode data = .ok message)
    (maxPayloadBytes : Int) (room : (data.length : Int) ≤ maxPayloadBytes) :
    encode message maxPayloadBytes = .ok data := by
  obtain ⟨raws,header,enough,rfl,reads,tail,_⟩ := decode_packet data message ok
  have fits := unpackAll_fits headerSlots data
  rw [header,headerSlots] at fits
  simp only [List.forall₂_cons] at fits
  obtain ⟨_,srcFits,seqFits,_⟩ := fits
  have source : toRaw (className message.type) srcField (.int message.src) = .ok message.src := by
    refine toRaw_header _ srcField _ rfl rfl srcFits.1 ?_
    have below := srcFits.2
    simp only [byte,Slot.least,Slot.modulus,srcField,srcMax] at below ⊢
    norm_num at below
    omega
  have number : toRaw (className message.type) seqField (.int message.seq) = .ok message.seq := by
    refine toRaw_header _ seqField _ rfl rfl seqFits.1 ?_
    have below := seqFits.2
    simp only [half,Slot.least,Slot.modulus,seqField,seqMax] at below ⊢
    norm_num at below
    omega
  have whole : (layout message.type).length = (unpackAll (slots message.type) (data.drop headerBytes)).length := by
    have counted := (unpackAll_fits (slots message.type) (data.drop headerBytes)).length_eq
    rwa [slots,List.length_map] at counted
  have body := toRaws_fromRaws _ _ _ _ whole reads
  have headed : packAll headerSlots [message.type.tag,message.src,message.seq] = data.take headerBytes := by
    rw [← header]
    exact packAll_unpackAll headerSlots data (by change 4 ≤ data.length; simp only [headerBytes] at enough; omega)
  have filled := packAll_unpackAll (slots message.type) (data.drop headerBytes) (by rw [List.length_drop]; omega)
  have packet : packAll headerSlots [message.type.tag,message.src,message.seq] ++
      packAll (slots message.type) (unpackAll (slots message.type) (data.drop headerBytes)) ++ message.tail = data := by
    rw [headed,filled,tail,← List.drop_drop,List.append_assoc,List.take_append_drop,List.take_append_drop]
  simp only [encode,encodeValues,reservedTypes,List.not_mem_nil,if_false,source,number,body,bind,Except.bind,
    packet,pure,Except.pure]
  rw [if_neg (by omega)]

/-- The words of a message that names a place are a legal target. -/
def Message.Placed (message : Message) : Prop :=
  ∀ kind a b, message.words? = some (kind,a,b) → (Target.ofWords? kind a b).isSome = true

theorem checkTarget_ok (type : MessageType) (message other : Message) :
    checkTarget type message = .ok other ↔ message = other ∧ message.Placed := by
  unfold checkTarget Message.Placed
  cases words : message.words? with
  | none => simp
  | some w =>
    obtain ⟨kind,a,b⟩ := w
    simp only [Option.some.injEq,Prod.mk.injEq]
    split
    · rename_i legal
      constructor
      · intro same
        injection same with same
        refine ⟨same,?_⟩
        rintro _ _ _ ⟨rfl,rfl,rfl⟩
        exact legal
      · exact fun same => by rw [same.1]
    · rename_i illegal
      constructor
      · exact fun same => by cases same
      · exact fun same => absurd (same.2 kind a b ⟨rfl,rfl,rfl⟩) illegal

theorem onWire_words (message : Message) : message.onWire.words? = message.words? := by
  cases message <;> rfl

/-- A packet is accepted exactly if it is the encoding of a message with a legal
target, and then it is the encoding of what was read and of nothing else. -/
theorem decode_canonical (data : List UInt8) :
    (∀ message, decode data = .ok message → ∀ maxPayloadBytes : Int, (data.length : Int) ≤ maxPayloadBytes →
      encode message maxPayloadBytes = .ok data) ∧
    (∀ other message, decode data = .ok message → decode other = .ok message → other = data) ∧
    ((∃ message, decode data = .ok message) ↔
      ∃ message maxPayloadBytes, encode message maxPayloadBytes = .ok data ∧ message.Placed) := by
  refine ⟨fun message ok maxPayloadBytes room => encode_decode data message ok maxPayloadBytes room,?_,?_,?_⟩
  · intro other message ok also
    have first := encode_decode data message ok (max data.length other.length) (le_max_left _ _)
    have second := encode_decode other message also (max data.length other.length) (le_max_right _ _)
    rw [first] at second
    injection second with second
    exact second.symm
  · rintro ⟨message,ok⟩
    obtain ⟨_,_,_,_,_,_,checked⟩ := decode_packet data message ok
    exact ⟨message,data.length,encode_decode data message ok _ le_rfl,((checkTarget_ok _ _ _).mp checked).2⟩
  · rintro ⟨message,maxPayloadBytes,ok,placed⟩
    refine ⟨message.onWire,?_⟩
    rw [decode_encode message maxPayloadBytes data ok,checkTarget_ok]
    refine ⟨rfl,?_⟩
    intro kind a b words
    rw [onWire_words] at words
    exact placed kind a b words

end AmigaFleet.Codec
