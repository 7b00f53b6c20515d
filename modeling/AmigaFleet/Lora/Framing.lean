import AmigaFleet.Lib.Checksum
import AmigaFleet.Lib.Cobs
import Mathlib.Data.Rat.Defs

/-! Frames on the serial hop: length byte, body and CRC, stuffed, and closed by a
delimiter. The body is opaque, but for the link statistics a modem puts first. -/
namespace AmigaFleet.Lora
open Lib

def crc8Poly : UInt8 := 0x07
def delimiter : UInt8 := 0x00
def maxBodyBytes : Nat := 255
def linkStatsBytes : Nat := 3

/-- One bit of the division. -/
def crcBit (crc : UInt8) : UInt8 := if crc &&& 0x80 ≠ 0 then (crc <<< 1) ^^^ crc8Poly else crc <<< 1

def crc8Table (i : UInt8) : UInt8 := Nat.iterate crcBit 8 i

def crcStep (crc byte : UInt8) : UInt8 := crc8Table (crc ^^^ byte)

def crc8 (data : List UInt8) : UInt8 := Checksum.sum crcStep 0 data

inductive FrameErrorKind where
  | cobs
  | crc
  | length
  | oversize
  deriving DecidableEq, Repr

inductive FrameError where
  | zeroCode
  | overrun
  | short
  | mismatch (declared decoded : Nat)
  | crc
  | noStats
  | oversizeBody (size : Nat)
  | oversize (size : Nat) (maxPayloadBytes : Int)
  deriving DecidableEq, Repr

namespace FrameError

def kind : FrameError → FrameErrorKind
  | zeroCode | overrun => .cobs
  | short | mismatch .. | noStats => .length
  | crc => .crc
  | oversizeBody _ | oversize .. => .oversize

def reason : FrameError → String
  | zeroCode => "zero code byte inside frame"
  | overrun => "code byte overruns frame"
  | short => "frame shorter than length+crc"
  | mismatch declared decoded =>
    "length byte says " ++ toString declared ++ ", decoded " ++ toString decoded
  | crc => "crc mismatch"
  | noStats => "frame too short to hold link stats"
  | oversizeBody size => "body of " ++ toString size ++ " exceeds " ++ toString maxBodyBytes
  | oversize size maxPayloadBytes =>
    "payload of " ++ toString size ++ " exceeds max_payload_bytes=" ++ toString maxPayloadBytes

end FrameError

/-- The output so far, where the code byte of the open block stands, and what it will be. -/
structure Stuffing where
  out : List UInt8
  codeIndex : Nat
  code : Nat

namespace Stuffing

def settled (s : Stuffing) : List UInt8 := s.out.set s.codeIndex (UInt8.ofNat s.code)

def close (s : Stuffing) : Stuffing := ⟨s.settled ++ [0],s.out.length,1⟩

def add (s : Stuffing) (byte : UInt8) : Stuffing :=
  if byte = 0 then s.close
  else
    let s := { s with out := s.out ++ [byte], code := s.code + 1 }
    if s.code = 0xFF then s.close else s

end Stuffing

def cobsEncode (data : List UInt8) : List UInt8 := (data.foldl Stuffing.add ⟨[0],0,1⟩).settled

/-- The blocks from here on; each takes a byte at least, so as much fuel as there are bytes is enough. -/
def cobsBlocks : Nat → List UInt8 → Except FrameError (List UInt8)
  | _,[] => .ok []
  | 0,_ => .ok []
  | fuel+1,code::data =>
    if code = 0 then .error .zeroCode
    else if data.length < code.toNat - 1 then .error .overrun
    else
      let rest := data.drop (code.toNat - 1)
      (cobsBlocks fuel rest).map (fun out =>
        data.take (code.toNat - 1) ++ ((if code ≠ 0xFF ∧ rest ≠ [] then [0] else []) ++ out))

def cobsDecode (data : List UInt8) : Except FrameError (List UInt8) := cobsBlocks data.length data

def maxWireFrameBytes (maxBodyBytes : Nat) : Nat :=
  let logical := maxBodyBytes + 2
  logical + (logical/254 + 1) + 1

def logicalFrame (body : List UInt8) : List UInt8 := UInt8.ofNat body.length :: (body ++ [crc8 body])

def encodeFrame (payload : List UInt8) : Except FrameError (List UInt8) :=
  if payload.length > maxBodyBytes then .error (.oversizeBody payload.length)
  else .ok (cobsEncode (logicalFrame payload) ++ [delimiter])

structure Frame where
  payload : List UInt8
  rssi : Option Int := none
  snr : Option ℚ := none
  deriving DecidableEq

/-- `int.from_bytes(.., "little", signed=True)`. -/
def signedLittle (bytes : List UInt8) : Int :=
  let value : Nat := bytes.foldr (fun byte n => byte.toNat + 256*n) 0
  if 2*value < 256^bytes.length then value else value - 256^bytes.length

def stripStats (body : List UInt8) : Except FrameError Frame :=
  if body.length < linkStatsBytes then .error .noStats
  else .ok ⟨body.drop linkStatsBytes,some (signedLittle (body.take 2)),
    some ((signedLittle ((body.drop 2).take 1) : ℚ) / 4)⟩

/-- What a body whose length and CRC agree is published as. -/
def openBody (body : List UInt8) (maxPayloadBytes : Int) (withLinkStats : Bool) : Except FrameError Frame := do
  let frame ← if withLinkStats then stripStats body else .ok ⟨body,none,none⟩
  if (frame.payload.length : Int) > maxPayloadBytes then throw (.oversize frame.payload.length maxPayloadBytes)
  return frame

def decodeFrame (encoded : List UInt8) (maxPayloadBytes : Int) (withLinkStats : Bool) :
    Except FrameError Frame := do
  let logical ← cobsDecode encoded
  if logical.length < 2 then throw .short
  let declared := (logical.headD 0).toNat
  let body := (logical.drop 1).dropLast
  if declared ≠ body.length then throw (.mismatch declared body.length)
  if crc8 body ≠ logical.getLastD 0 then throw .crc
  openBody body maxPayloadBytes withLinkStats

example : crc8 ("123456789".toUTF8.toList) = 0xF4 := by decide +kernel

/-! ### The stuffing -/

theorem settled_open (done bytes : List UInt8) :
    Stuffing.settled ⟨done ++ 0 :: bytes,done.length,bytes.length + 1⟩ =
      done ++ UInt8.ofNat (bytes.length + 1) :: bytes := by
  simp [Stuffing.settled]

theorem foldl_add (data done : List UInt8) (b : Cobs.Block) (room : b.full = false) :
    (data.foldl Stuffing.add ⟨done ++ 0 :: b.bytes,done.length,b.bytes.length + 1⟩).settled =
      done ++ Cobs.stuff (Cobs.splitFrom b data) := by
  induction data generalizing done b with
  | nil =>
    rw [List.foldl_nil,settled_open,Cobs.splitFrom]
    simp [Cobs.stuff,Cobs.Block.code]
  | cons byte rest ih =>
    have short : b.bytes.length + 1 ≤ 254 := by
      have most := b.short
      have other : b.bytes.length ≠ 254 := by simpa [Cobs.Block.full] using room
      omega
    -- A block that ends leaves its code byte and its bytes behind.
    have closing : ∀ c : Cobs.Block, (rest.foldl Stuffing.add
        (Stuffing.close ⟨done ++ 0 :: c.bytes,done.length,c.bytes.length + 1⟩)).settled =
        done ++ Cobs.stuff (c :: Cobs.splitFrom .empty rest) := by
      intro c
      have next := ih (done ++ c.code :: c.bytes) .empty rfl
      simp only [Cobs.Block.empty,List.length_nil,List.length_append,List.length_cons] at next
      rw [Stuffing.close,settled_open]
      simp only [List.length_append,List.length_cons,Cobs.stuff]
      rw [Cobs.Block.code] at next
      simpa [Cobs.Block.code,Cobs.Block.empty] using next
    rw [List.foldl_cons]
    unfold Cobs.splitFrom
    split
    · rename_i zero
      rw [Stuffing.add,if_pos zero]
      exact closing b
    · rename_i plain
      rw [Stuffing.add,if_neg plain]
      dsimp only
      split
      · rename_i filled
        have isFull : b.bytes.length + 1 = 254 := by omega
        rw [if_pos (by simpa [Cobs.Block.full] using isFull)]
        simpa [filled] using closing ⟨b.bytes ++ [byte],by simpa using short,by simp [b.clean,Ne.symm plain]⟩
      · rename_i partial_
        have open_ : b.bytes.length + 1 ≠ 254 := by omega
        rw [if_neg (by simpa [Cobs.Block.full] using open_)]
        have next := ih done ⟨b.bytes ++ [byte],by simpa using short,by simp [b.clean,Ne.symm plain]⟩
          (by simpa [Cobs.Block.full] using open_)
        simpa using next

theorem cobsEncode_stuff (data : List UInt8) : cobsEncode data = Cobs.stuff (Cobs.split data) :=
  foldl_add data [] .empty rfl

theorem cobsBlocks_stuff (fuel : Nat) (blocks : List Cobs.Block) (enough : (Cobs.stuff blocks).length ≤ fuel) :
    cobsBlocks fuel (Cobs.stuff blocks) = .ok (Cobs.content blocks) := by
  induction blocks generalizing fuel with
  | nil =>
    cases fuel with
    | zero => rfl
    | succ fuel => rfl
  | cons b rest ih =>
    cases fuel with
    | zero => simp [Cobs.stuff] at enough
    | succ fuel =>
      have value := b.code_toNat
      simp only [Cobs.stuff,List.length_cons,List.length_append] at enough
      have size : b.code.toNat - 1 = b.bytes.length := by omega
      simp only [Cobs.stuff,cobsBlocks,if_neg b.code_ne_zero,size,List.length_append,List.drop_left,List.take_left]
      rw [if_neg (by omega),ih fuel (by omega),Except.map,Cobs.content_code]

@[simp] theorem cobsDecode_stuff (blocks : List Cobs.Block) :
    cobsDecode (Cobs.stuff blocks) = .ok (Cobs.content blocks) := cobsBlocks_stuff _ blocks le_rfl

@[simp] theorem cobsDecode_encode (data : List UInt8) : cobsDecode (cobsEncode data) = .ok data := by
  rw [cobsEncode_stuff,cobsDecode_stuff,Cobs.content_split]

/-- Whatever is accepted is made of blocks. -/
theorem cobsBlocks_sound (fuel : Nat) (data out : List UInt8) (enough : data.length ≤ fuel) (clean : 0 ∉ data)
    (ok : cobsBlocks fuel data = .ok out) : ∃ blocks, data = Cobs.stuff blocks ∧ out = Cobs.content blocks := by
  induction fuel generalizing data out with
  | zero =>
    have none : data = [] := List.length_eq_zero_iff.mp (by omega)
    subst none
    injection ok with ok
    exact ⟨[],rfl,ok.symm⟩
  | succ fuel ih =>
    cases data with
    | nil =>
      injection ok with ok
      exact ⟨[],rfl,ok.symm⟩
    | cons code rest =>
      simp only [List.mem_cons,not_or] at clean
      simp only [cobsBlocks,if_neg (Ne.symm clean.1)] at ok
      split at ok
      · cases ok
      rename_i within
      cases later : cobsBlocks fuel (rest.drop (code.toNat - 1)) with
      | error e =>
        rw [later] at ok
        cases ok
      | ok out' =>
        rw [later] at ok
        injection ok with ok
        have size : (rest.take (code.toNat - 1)).length = code.toNat - 1 := List.length_take_of_le (by omega)
        have most := code.toNat_lt
        obtain ⟨blocks,same,meaning⟩ := ih _ out' (by simp at enough ⊢; omega)
          (fun zero => clean.2 (List.mem_of_mem_drop zero)) later
        have positive : code.toNat ≠ 0 := by
          intro zero
          exact clean.1 (UInt8.toNat_inj.mp (by rw [zero]; rfl))
        obtain ⟨b,bytes⟩ : ∃ b : Cobs.Block, b.bytes = rest.take (code.toNat - 1) :=
          ⟨⟨rest.take (code.toNat - 1),by omega,fun zero => clean.2 (List.mem_of_mem_take zero)⟩,rfl⟩
        have coded : b.code = code := by
          apply UInt8.toNat_inj.mp
          rw [b.code_toNat,bytes]
          omega
        refine ⟨b::blocks,?_,?_⟩
        · rw [Cobs.stuff,coded,bytes,← same,List.take_append_drop]
        · rw [← ok,same,meaning,Cobs.content_code,coded,bytes]

theorem cobsDecode_sound (data out : List UInt8) (clean : 0 ∉ data) (ok : cobsDecode data = .ok out) :
    ∃ blocks, data = Cobs.stuff blocks ∧ out = Cobs.content blocks :=
  cobsBlocks_sound _ data out le_rfl clean ok

theorem cobsEncode_clean (data : List UInt8) : 0 ∉ cobsEncode data := by
  rw [cobsEncode_stuff]
  exact Cobs.stuff_clean _

theorem cobsEncode_overhead (data : List UInt8) : (cobsEncode data).length ≤ data.length + data.length/254 + 1 := by
  have bound := Cobs.stuff_length (Cobs.split data)
  rw [Cobs.content_split] at bound
  rw [cobsEncode_stuff]
  omega

theorem cobsEncode_injective : Function.Injective cobsEncode := by
  intro first second same
  have decoded := cobsDecode_encode first
  rw [same,cobsDecode_encode] at decoded
  injection decoded with decoded
  exact decoded.symm

/-! ### The frame -/

theorem logicalFrame_length (body : List UInt8) : (logicalFrame body).length = body.length + 2 := by
  simp [logicalFrame]

theorem decodeFrame_body (encoded body : List UInt8) (maxPayloadBytes : Int) (withLinkStats : Bool)
    (fits : body.length ≤ maxBodyBytes) (decodes : cobsDecode encoded = .ok (logicalFrame body)) :
    decodeFrame encoded maxPayloadBytes withLinkStats = openBody body maxPayloadBytes withLinkStats := by
  have declared : (UInt8.ofNat body.length).toNat = body.length := by
    rw [UInt8.toNat_ofNat']
    simp only [maxBodyBytes] at fits
    omega
  have length := logicalFrame_length body
  have enough : ¬ (logicalFrame body).length < 2 := by omega
  have inner : ((logicalFrame body).drop 1).dropLast = body := by simp [logicalFrame]
  have first : (logicalFrame body).headD 0 = UInt8.ofNat body.length := rfl
  have last : (logicalFrame body).getLastD 0 = crc8 body := by
    rw [logicalFrame,← List.cons_append,List.getLastD_concat]
  simp only [decodeFrame,decodes,bind,Except.bind,enough,inner,first,last,declared,if_false,
    ne_eq,not_true_eq_false]

/-- Only a body under its own length byte and CRC is published. -/
theorem decodeFrame_sound (encoded : List UInt8) (maxPayloadBytes : Int) (withLinkStats : Bool) (frame : Frame)
    (ok : decodeFrame encoded maxPayloadBytes withLinkStats = .ok frame) :
    ∃ body, body.length ≤ maxBodyBytes ∧ cobsDecode encoded = .ok (logicalFrame body) ∧
      openBody body maxPayloadBytes withLinkStats = .ok frame := by
  simp only [decodeFrame,bind,Except.bind,throw,throwThe,MonadExceptOf.throw] at ok
  split at ok
  · cases ok
  rename_i logical decodes
  split at ok
  · cases ok
  rename_i enough
  split at ok
  · cases ok
  rename_i agrees
  split at ok
  · cases ok
  rename_i checks
  push Not at agrees checks
  obtain ⟨first,rest,rfl⟩ := List.exists_cons_of_length_pos (show 0 < logical.length by omega)
  have more : rest ≠ [] := by
    intro none
    rw [none] at enough
    simp at enough
  simp only [List.headD_cons,List.drop_one,List.tail_cons] at agrees checks ok
  have last : (first::rest).getLastD 0 = rest.getLast more := by
    rw [List.getLastD_cons,List.getLastD_eq_getLast?,List.getLast?_eq_some_getLast more]
    rfl
  refine ⟨rest.dropLast,?_,?_,ok⟩
  · have small := first.toNat_lt
    simp only [maxBodyBytes]
    omega
  · have byte : UInt8.ofNat rest.dropLast.length = first := by
      rw [← agrees]
      exact UInt8.ofNat_toNat
    rw [decodes,logicalFrame,byte,checks,last,List.dropLast_concat_getLast more]

theorem encodeFrame_eq_ok (payload wire : List UInt8) : encodeFrame payload = .ok wire ↔
    payload.length ≤ maxBodyBytes ∧ wire = cobsEncode (logicalFrame payload) ++ [delimiter] := by
  unfold encodeFrame
  split
  · rename_i long
    constructor
    · exact fun same => by cases same
    · exact fun same => absurd same.1 (by omega)
  · rename_i fits
    constructor
    · intro same
      injection same with same
      exact ⟨by omega,same.symm⟩
    · exact fun same => by rw [same.2]

theorem cobsEncode_length (payload : List UInt8) (fits : payload.length ≤ maxBodyBytes) :
    (cobsEncode (logicalFrame payload)).length + 1 ≤ maxWireFrameBytes maxBodyBytes := by
  have bound := cobsEncode_overhead (logicalFrame payload)
  rw [logicalFrame_length] at bound
  simp only [maxWireFrameBytes,maxBodyBytes] at fits ⊢
  omega

theorem decodeFrame_long (encoded : List UInt8) (maxPayloadBytes : Int) (withLinkStats : Bool) (frame : Frame)
    (clean : 0 ∉ encoded) (ok : decodeFrame encoded maxPayloadBytes withLinkStats = .ok frame) :
    encoded.length < maxWireFrameBytes maxBodyBytes := by
  obtain ⟨body,fits,decodes,_⟩ := decodeFrame_sound encoded maxPayloadBytes withLinkStats frame ok
  obtain ⟨blocks,rfl,meaning⟩ := cobsDecode_sound encoded _ clean decodes
  have bound := Cobs.stuff_length blocks
  rw [← meaning,logicalFrame_length] at bound
  simp only [maxWireFrameBytes,maxBodyBytes] at fits ⊢
  omega

end AmigaFleet.Lora
