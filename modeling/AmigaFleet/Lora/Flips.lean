import AmigaFleet.Lora.Parser

/-! One corrupted byte on the serial hop. Where the stuffing carries the byte as
it is, length and CRC refuse the frame; where the corruption moves the blocks or
makes a delimiter, what is published is what then stands there. -/
namespace AmigaFleet.Lora
open Lib

def crcUnbit (crc : UInt8) : UInt8 :=
  if crc &&& 1 ≠ 0 then ((crc ^^^ crc8Poly) >>> 1) ||| 0x80 else crc >>> 1

theorem byte_forall (P : UInt8 → Prop) (all : ∀ n : Fin 256, P (UInt8.ofNat n)) (c : UInt8) : P c := by
  have one := all ⟨c.toNat,c.toNat_lt⟩
  rwa [UInt8.ofNat_toNat] at one

theorem crcUnbit_crcBit (crc : UInt8) : crcUnbit (crcBit crc) = crc :=
  byte_forall (fun c => crcUnbit (crcBit c) = c) (by decide +kernel) crc

theorem crc8Table_injective : Function.Injective crc8Table :=
  (Function.LeftInverse.injective crcUnbit_crcBit).iterate 8

theorem xor_cancel (a b c : UInt8) (same : a ^^^ c = b ^^^ c) : a = b := by
  have undone := congrArg (fun x => x ^^^ c) same
  simpa [UInt8.xor_assoc] using undone

theorem crcStep_lossless : Checksum.Lossless crcStep where
  sums byte s t same := xor_cancel s t byte (crc8Table_injective same)
  elements s a b same := by
    have undone := crc8Table_injective same
    rw [UInt8.xor_comm s,UInt8.xor_comm s] at undone
    exact xor_cancel a b s undone

theorem logicalFrame_apart (payload other before after : List UInt8) (x y : UInt8) (changed : x ≠ y)
    (left : logicalFrame payload = before ++ x::after) (right : logicalFrame other = before ++ y::after) : False := by
  have lengths : payload.length = other.length := by
    have first := congrArg List.length left
    have second := congrArg List.length right
    simp only [logicalFrame_length,List.length_append,List.length_cons] at first second
    omega
  cases before with
  | nil =>
    injection left with start _
    injection right with begin _
    exact changed (by rw [← start,← begin,lengths])
  | cons head before =>
    obtain ⟨_,left⟩ := List.cons.inj (show _ :: (payload ++ [crc8 payload]) = head :: (before ++ x::after) from left)
    obtain ⟨_,right⟩ := List.cons.inj (show _ :: (other ++ [crc8 other]) = head :: (before ++ y::after) from right)
    obtain rfl | ⟨rest,final,rfl⟩ := List.eq_nil_or_concat after
    · obtain ⟨inner,last⟩ := List.append_inj' left rfl
      obtain ⟨same,end_⟩ := List.append_inj' right rfl
      injection last with last _
      injection end_ with end_ _
      exact changed (by rw [← last,← end_,inner,same])
    · rw [List.concat_eq_append,← List.cons_append,← List.append_assoc] at left right
      obtain ⟨inner,last⟩ := List.append_inj' left rfl
      obtain ⟨same,end_⟩ := List.append_inj' right rfl
      injection last with last _
      injection end_ with end_ _
      refine Checksum.sum_changed crcStep crcStep_lossless 0 before rest x y changed ?_
      rw [← inner,← same]
      exact last.trans end_.symm

theorem logicalFrame_prefix (payload other : List UInt8) (small : payload.length ≤ maxBodyBytes)
    (bounded : other.length ≤ maxBodyBytes) (begins : logicalFrame other <+: logicalFrame payload) :
    other = payload := by
  obtain ⟨rest,same⟩ := begins
  have lengths : other.length = payload.length := by
    injection same with start _
    have first := congrArg UInt8.toNat start
    rw [UInt8.toNat_ofNat',UInt8.toNat_ofNat'] at first
    simp only [maxBodyBytes] at small bounded
    omega
  have none : rest = [] := by
    have counted := congrArg List.length same
    simp only [List.length_append,logicalFrame_length] at counted
    exact List.length_eq_zero_iff.mp (by omega)
  rw [none,List.append_nil] at same
  injection same with _ same
  exact (List.append_inj' same rfl).1

theorem cobsBlocks_overrun (fuel : Nat) (blocks : List Cobs.Block) (code : UInt8) (pre : List UInt8)
    (nonzero : code ≠ 0) (cut : pre.length < code.toNat - 1)
    (enough : (Cobs.stuff blocks ++ code::pre).length ≤ fuel) :
    cobsBlocks fuel (Cobs.stuff blocks ++ code::pre) = .error .overrun := by
  induction blocks generalizing fuel with
  | nil =>
    cases fuel with
    | zero => simp at enough
    | succ fuel => simp [Cobs.stuff,cobsBlocks,nonzero,cut]
  | cons b rest ih =>
    cases fuel with
    | zero => simp [Cobs.stuff] at enough
    | succ fuel =>
      have value := b.code_toNat
      have size : b.code.toNat - 1 = b.bytes.length := by omega
      simp only [Cobs.stuff,List.cons_append,List.append_assoc,List.length_cons,List.length_append] at enough ⊢
      simp only [cobsBlocks,if_neg b.code_ne_zero,size,List.length_append,List.drop_left,List.take_left]
      rw [if_neg (by omega),ih fuel (by simp only [List.length_append,List.length_cons]; omega)]
      rfl

theorem cobsDecode_overrun (blocks : List Cobs.Block) (code : UInt8) (pre : List UInt8) (nonzero : code ≠ 0)
    (cut : pre.length < code.toNat - 1) : cobsDecode (Cobs.stuff blocks ++ code::pre) = .error .overrun :=
  cobsBlocks_overrun _ blocks code pre nonzero cut le_rfl

namespace FrameParser
variable (cfg : ParserConfig)

theorem frame?_overrun (blocks : List Cobs.Block) (code : UInt8) (pre : List UInt8) (nonzero : code ≠ 0)
    (cut : pre.length < code.toNat - 1) : frame? cfg (Cobs.stuff blocks ++ code::pre) = none := by
  rw [frame?,decodeFrame,cobsDecode_overrun blocks code pre nonzero cut]
  rfl

theorem frame?_sound (run : List UInt8) (frame : Frame) (found : frame? cfg run = some frame) :
    ∃ body, body.length ≤ maxBodyBytes ∧ cobsDecode run = .ok (logicalFrame body) ∧
      openBody body cfg.maxPayloadBytes cfg.withLinkStats = .ok frame := by
  refine decodeFrame_sound run _ _ frame ?_
  rw [frame?] at found
  cases decoded : decodeFrame run cfg.maxPayloadBytes cfg.withLinkStats with
  | error e =>
    rw [decoded] at found
    cases found
  | ok other =>
    rw [decoded] at found
    injection found with found
    rw [found]

theorem openBody_payload (bare : cfg.withLinkStats = false) (body : List UInt8) (frame : Frame)
    (opened : openBody body cfg.maxPayloadBytes cfg.withLinkStats = .ok frame) : frame.payload = body := by
  rw [openBody,bare] at opened
  simp only [bind,Except.bind,pure,Except.pure,Bool.false_eq_true,if_false,throw,throwThe,
    MonadExceptOf.throw] at opened
  split at opened
  · cases opened
  · injection opened with opened
    rw [← opened]

/-- For each byte on the wire, delimiter included, whether its place is carried
data or the delimiter's, and not a code byte's. -/
def carried (payload : List UInt8) : List Bool := Cobs.carried (Cobs.split (logicalFrame payload)) ++ [true]

theorem changed_refused (payload : List UInt8) (first last : List Cobs.Block) (b : Cobs.Block) (pre post : List UInt8)
    (byte changed : UInt8)
    (blocks : Cobs.split (logicalFrame payload) = first ++ b::last) (bytes : b.bytes = pre ++ byte::post)
    (different : byte ≠ changed) (nonzero : changed ≠ 0) :
    frame? cfg (Cobs.stuff first ++ b.code :: pre ++ changed :: (post ++ Cobs.stuff last)) = none := by
  have clean := b.clean
  have short := b.short
  rw [bytes] at clean short
  simp only [List.mem_append,List.mem_cons,not_or] at clean
  obtain ⟨c,shape⟩ : ∃ c : Cobs.Block, c.bytes = pre ++ changed::post :=
    ⟨⟨pre ++ changed::post,by simpa using short,by simp [clean,Ne.symm nonzero]⟩,rfl⟩
  have code : c.code = b.code := by simp [Cobs.Block.code,bytes,shape]
  have stuffed : Cobs.stuff first ++ b.code :: pre ++ changed :: (post ++ Cobs.stuff last) =
      Cobs.stuff (first ++ c::last) := by simp [Cobs.stuff_append,Cobs.stuff,shape,code]
  obtain ⟨before,after,old,new⟩ := Cobs.content_change first last b c pre post byte changed bytes shape
  rw [← blocks,Cobs.content_split] at old
  rw [stuffed]
  cases found : frame? cfg (Cobs.stuff (first ++ c::last)) with
  | none => rfl
  | some frame =>
    obtain ⟨body,_,decodes,_⟩ := frame?_sound cfg _ frame found
    rw [cobsDecode_stuff,new] at decodes
    injection decodes with decodes
    exact (logicalFrame_apart payload body before after byte changed different old decodes.symm).elim

theorem run_on_refused (payload : List UInt8) (small : payload.length ≤ maxBodyBytes) (changed : UInt8)
    (nonzero : changed ≠ 0) : frame? cfg (cobsEncode (logicalFrame payload) ++ [changed]) = none := by
  rw [cobsEncode_stuff]
  by_cases one : changed.toNat = 1
  · have code : changed = Cobs.Block.empty.code := UInt8.toNat_inj.mp one
    have stuffed : Cobs.stuff (Cobs.split (logicalFrame payload)) ++ [changed] =
        Cobs.stuff (Cobs.split (logicalFrame payload) ++ [.empty]) := by
      simp [Cobs.stuff_append,Cobs.stuff,code,Cobs.Block.empty]
    obtain ⟨first,last,blocks,open_⟩ := Cobs.splitFrom_last .empty (logicalFrame payload) rfl
    have whole : Cobs.content (first ++ [last]) = logicalFrame payload := by
      rw [← blocks]
      exact Cobs.content_split _
    have longer : Cobs.content (Cobs.split (logicalFrame payload) ++ [.empty]) = logicalFrame payload ++ [0] := by
      rw [Cobs.split,blocks,← whole]
      clear blocks whole
      induction first with
      | nil => simp [Cobs.content,open_,Cobs.Block.empty]
      | cons b rest ih =>
        rw [List.cons_append,List.cons_append,Cobs.content_cons _ _ (by simp),ih,
          Cobs.content_cons b (rest ++ [last]) (by simp)]
        simp
    rw [stuffed]
    cases found : frame? cfg (Cobs.stuff (Cobs.split (logicalFrame payload) ++ [.empty])) with
    | none => rfl
    | some frame =>
      obtain ⟨body,fits,decodes,_⟩ := frame?_sound cfg _ frame found
      rw [cobsDecode_stuff,longer] at decodes
      injection decodes with decodes
      have same := logicalFrame_prefix body payload fits small ⟨[0],decodes⟩
      have counted := congrArg List.length decodes
      rw [same,List.length_append] at counted
      simp at counted
  · refine frame?_overrun cfg _ changed [] nonzero ?_
    have positive : changed.toNat ≠ 0 := fun zero => nonzero (UInt8.toNat_inj.mp zero)
    simp only [List.length_nil]
    omega

theorem cut_payload (bare : cfg.withLinkStats = false) (payload : List UInt8) (small : payload.length ≤ maxBodyBytes)
    (before after : List UInt8) (byte : UInt8) (cut : cobsEncode (logicalFrame payload) = before ++ byte::after)
    (frame : Frame) (found : frame? cfg before = some frame) : frame.payload = payload := by
  rw [cobsEncode_stuff] at cut
  obtain ⟨first,b,last,blocks,⟨at_,_⟩ | ⟨pre,post,bytes,at_,_⟩⟩ := Cobs.stuff_place _ before after byte cut
  · obtain ⟨body,fits,decodes,opened⟩ := frame?_sound cfg before frame found
    rw [at_,cobsDecode_stuff] at decodes
    injection decodes with decodes
    have begins := Cobs.content_prefix first (b::last)
    rw [← blocks,Cobs.content_split,decodes] at begins
    rw [openBody_payload cfg bare body frame opened]
    exact logicalFrame_prefix payload body small fits begins
  · rw [at_] at found
    rw [frame?_overrun cfg first b.code pre b.code_ne_zero (by
      rw [b.code_toNat,bytes,List.length_append,List.length_cons]
      omega)] at found
    cases found

def flipBit (byte : UInt8) (bit : Fin 8) : UInt8 := byte ^^^ ((1 : UInt8) <<< UInt8.ofNat bit)

theorem flipBit_ne (byte : UInt8) (bit : Fin 8) : byte ≠ flipBit byte bit := by
  intro same
  have zero : (0 : UInt8) = (1 : UInt8) <<< UInt8.ofNat bit := by
    refine xor_cancel _ _ byte ?_
    rw [UInt8.zero_xor,UInt8.xor_comm]
    exact same
  have all : ∀ bit : Fin 8, (0 : UInt8) ≠ (1 : UInt8) <<< UInt8.ofNat bit := by decide
  exact all bit zero

theorem feed_closed (run : List UInt8) (clean : 0 ∉ run) (short : run.length ≤ maxWire) (n : Nat) :
    (feed cfg {} (run ++ delimiter :: List.replicate n delimiter)).2 = (frame? cfg run).toList := by
  have split_ : run ++ delimiter :: List.replicate n delimiter =
      (run ++ [delimiter]) ++ List.replicate n delimiter := by simp
  obtain ⟨emptied,one⟩ := feed_delimited cfg {} run clean rfl
  rw [split_,feed_append,feed_padding cfg _ n emptied,one,kept_short run short,List.append_nil]

theorem feed_cut (before rest : List UInt8) (cleanBefore : 0 ∉ before) (cleanRest : 0 ∉ rest)
    (short : before.length + rest.length ≤ maxWire) (n : Nat) :
    (feed cfg {} (before ++ delimiter :: (rest ++ delimiter :: List.replicate n delimiter))).2 =
      (frame? cfg before).toList ++ (frame? cfg rest).toList := by
  have split_ : before ++ delimiter :: (rest ++ delimiter :: List.replicate n delimiter) =
      ((before ++ [delimiter]) ++ (rest ++ [delimiter])) ++ List.replicate n delimiter := by simp
  obtain ⟨emptied,one⟩ := feed_delimited cfg {} before cleanBefore rfl
  obtain ⟨cleared,two⟩ := feed_delimited cfg _ rest cleanRest emptied
  rw [kept_short _ (by omega)] at one two
  have emptiedTwice : (feed cfg {} ((before ++ [delimiter]) ++ (rest ++ [delimiter]))).1.buffer = [] := by
    rw [feed_append]
    exact cleared
  rw [split_,feed_append,feed_padding cfg _ n emptiedTwice,feed_append,one,two,List.append_nil]

/-- A flipped bit in a carried byte, or in the delimiter, publishes nothing as
long as it makes no zero. Whatever is published otherwise and is not the payload
sent is the frame that stands, under its own length and CRC, after the zero that
was made, or in the whole run with its code byte changed. -/
theorem flip_published (bare : cfg.withLinkStats = false) (payload wire : List UInt8)
    (encoded : encodeFrame payload = .ok wire) (before after : List UInt8) (byte : UInt8)
    (cut : wire = before ++ byte::after) (bit : Fin 8) :
    (flipBit byte bit ≠ 0 → (carried payload)[before.length]? = some true →
      (feed cfg {} (before ++ flipBit byte bit :: (after ++ [delimiter]))).2 = []) ∧
    ∀ frame ∈ (feed cfg {} (before ++ flipBit byte bit :: (after ++ [delimiter]))).2, frame.payload ≠ payload →
      frame? cfg (if flipBit byte bit = 0 then after.dropLast else before ++ flipBit byte bit :: after.dropLast) =
        some frame := by
  obtain ⟨small,shape⟩ := (encodeFrame_eq_ok _ _).mp encoded
  have clean := cobsEncode_clean (logicalFrame payload)
  have length := cobsEncode_length payload small
  have different := flipBit_ne byte bit
  generalize flipBit byte bit = flipped at different ⊢
  rw [cut] at shape
  obtain rfl | ⟨rest,final,rfl⟩ := List.eq_nil_or_concat after
  · -- The delimiter itself.
    obtain ⟨same,last⟩ := List.append_inj' shape rfl
    injection last with last _
    have nonzero : flipped ≠ 0 := fun zero => different (last.trans zero.symm)
    have run : 0 ∉ before ++ [flipped] := by
      rw [same]
      simpa [clean] using Ne.symm nonzero
    have published := feed_closed cfg (before ++ [flipped]) run (by
      rw [same,maxWire,List.length_append,List.length_singleton]
      omega) 0
    rw [same,run_on_refused cfg payload small flipped nonzero] at published
    have silent : (feed cfg {} (before ++ flipped :: ([] ++ [delimiter]))).2 = [] := by
      rw [same]
      simpa using published
    rw [silent]
    exact ⟨fun _ _ => rfl,fun _ member => by cases member⟩
  · rw [List.concat_eq_append] at shape ⊢
    have parts : (before ++ byte::rest) ++ [final] = cobsEncode (logicalFrame payload) ++ [delimiter] := by
      rw [← shape]
      simp
    obtain ⟨body,last⟩ := List.append_inj' parts rfl
    injection last with last _
    subst last
    rw [← body] at clean length
    simp only [List.mem_append,List.mem_cons,not_or,List.length_append,List.length_cons] at clean length
    obtain ⟨cleanBefore,_,cleanRest⟩ := clean
    rw [List.dropLast_concat]
    by_cases zero : flipped = 0
    · -- Two runs: the first cannot be another payload.
      subst zero
      have published := feed_cut cfg before rest cleanBefore cleanRest (by rw [maxWire]; omega) 1
      have frames : (feed cfg {} (before ++ 0 :: (rest ++ [delimiter] ++ [delimiter]))).2 =
          (frame? cfg before).toList ++ (frame? cfg rest).toList := by simpa [delimiter] using published
      refine ⟨fun nonzero => absurd rfl nonzero,?_⟩
      intro frame member other
      rw [frames] at member
      rw [if_pos rfl]
      obtain first | second := List.mem_append.mp member
      · exact absurd (cut_payload cfg bare payload small before rest byte body.symm frame (by simpa using first)) other
      · simpa using second
    · have run : 0 ∉ before ++ flipped::rest := by
        simp only [List.mem_append,List.mem_cons,not_or]
        exact ⟨cleanBefore,Ne.symm zero,cleanRest⟩
      have published := feed_closed cfg (before ++ flipped::rest) run (by
        rw [maxWire,List.length_append,List.length_cons]
        omega) 1
      have frames : (feed cfg {} (before ++ flipped :: (rest ++ [delimiter] ++ [delimiter]))).2 =
          (frame? cfg (before ++ flipped::rest)).toList := by simpa using published
      rw [frames,if_neg zero]
      constructor
      · intro _ mark
        rw [cobsEncode_stuff] at body
        obtain ⟨first,b,last,blocks,⟨_,_,_,code⟩ | ⟨pre,post,bytes,at_,then_,_⟩⟩ :=
          Cobs.stuff_place _ before rest byte body.symm
        · rw [carried,List.getElem?_append_left (List.getElem?_eq_some_iff.mp code).1,code] at mark
          cases mark
        · rw [at_,then_,changed_refused cfg payload first last b pre post byte flipped blocks bytes different zero]
          rfl
      · exact fun frame member _ => by simpa using member

/-- A bit of the first byte of "ab" inverted. -/
theorem flip_published_ab : (feed {} {} [0x05,0x02,0x63,0x62,0xC9,0x00,0x00]).2 = [] := by
  refine (flip_published {} rfl [0x61,0x62] [0x05,0x02,0x61,0x62,0xC9,0x00] (by decide +kernel) [0x05,0x02]
    [0x62,0xC9,0x00] 0x61 rfl 1).1 (by decide) (by decide +kernel)

/-- No inverted bit of the payload's frame ever publishes another payload. -/
def Unharmed (payload : List UInt8) : Prop := ∀ wire before after byte bit, encodeFrame payload = .ok wire →
  wire = before ++ byte::after →
    ∀ frame ∈ (feed {} {} (before ++ flipBit byte bit :: (after ++ [delimiter]))).2, frame.payload = payload

/-- A data byte that becomes a delimiter, and a code byte that moves the blocks. -/
theorem flip_misread : ¬ Unharmed [0x62,0x01,0x01,0x01] ∧ ¬ Unharmed [0x03,0x00,0x00,0x01,0x02] := by
  constructor
  · intro unharmed
    have same := unharmed [0x06,0x04,0x62,0x01,0x01,0x01,0x01,0x00] [0x06,0x04,0x62] [0x01,0x01,0x01,0x00] 0x01 0
      (by decide +kernel) rfl ⟨[],none,none⟩ (by decide +kernel)
    cases same
  · intro unharmed
    have same := unharmed [0x03,0x05,0x03,0x01,0x04,0x01,0x02,0xBD,0x00] [] [0x05,0x03,0x01,0x04,0x01,0x02,0xBD,0x00]
      0x03 0 (by decide +kernel) rfl ⟨[0x00,0x01,0x04,0x00,0x00],none,none⟩ (by decide +kernel)
    revert same
    decide

end FrameParser
end AmigaFleet.Lora
