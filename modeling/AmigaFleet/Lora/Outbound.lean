import AmigaFleet.Lora.Framing
import AmigaFleet.Lib.Results
import AmigaFleet.Lib.Struct
import Mathlib.Data.Rat.Floor

/-! What is put on the wire, with the link statistics of a modem or without: its size,
and the statistics as the other side reads them. -/
namespace AmigaFleet.Lora
open Lib

inductive EncodeError where
  | overflow
  | frame (error : FrameError)
  deriving DecidableEq, Repr

def EncodeError.reason : EncodeError → String
  | overflow => "int too big to convert"
  | frame error => error.reason

/-- `int` of a number. -/
def truncate (x : ℚ) : Int := x.num.tdiv x.den

/-- `round`: half way between two integers the even one is taken. -/
def roundEven (x : ℚ) : Int :=
  if x - ⌊x⌋ < 1/2 ∨ (x - ⌊x⌋ = 1/2 ∧ ⌊x⌋ % 2 = 0) then ⌊x⌋ else ⌊x⌋ + 1

/-- `int.to_bytes(width, "little", signed=True)`. -/
def toLittle (width : Nat) (value : Int) : Except EncodeError (List UInt8) :=
  let slot : Struct.Slot := ⟨width,true⟩
  if slot.Fits value then .ok (Struct.pack slot value).reverse else .error .overflow

/-- The statistics are the signal strength in dBm and the signal-to-noise ratio in dB. -/
def statsHeader : Option (ℚ × ℚ) → Except EncodeError (List UInt8)
  | none => .ok []
  | some (rssi,snr) => do
    let strength ← toLittle 2 (truncate rssi)
    let ratio ← toLittle 1 (roundEven (snr*4))
    return strength ++ ratio

def encodeFrameWith (payload : List UInt8) (linkStats : Option (ℚ × ℚ)) : Except EncodeError (List UInt8) := do
  let header ← statsHeader linkStats
  (encodeFrame (header ++ payload)).mapError .frame

/-- No integer is nearer. -/
theorem roundEven_near (x : ℚ) : |roundEven x - x| ≤ 1/2 := by
  have low := Int.floor_le x
  have high := Int.lt_floor_add_one x
  unfold roundEven
  rw [abs_le]
  split
  · rename_i down
    obtain near | ⟨half,_⟩ := down
    · constructor <;> linarith
    · constructor <;> linarith
  · rename_i up
    have far : 1/2 ≤ x - ⌊x⌋ := by
      by_contra near
      exact up (.inl (not_le.mp near))
    push_cast
    constructor <;> linarith

theorem roundEven_even (x : ℚ) (tie : |roundEven x - x| = 1/2) : roundEven x % 2 = 0 := by
  have low := Int.floor_le x
  unfold roundEven at tie ⊢
  split
  · rename_i down
    rw [if_pos down,abs_of_nonpos (by linarith)] at tie
    obtain near | ⟨_,even⟩ := down
    · linarith
    · exact even
  · rename_i up
    rw [if_neg up] at tie
    have high := Int.lt_floor_add_one x
    push_cast at tie
    rw [abs_of_nonneg (by linarith)] at tie
    have half : x - ⌊x⌋ = 1/2 := by linarith
    have odd : ¬⌊x⌋ % 2 = 0 := fun even => up (.inr ⟨half,even⟩)
    omega

example : roundEven (5/2) = 2 ∧ roundEven (-7/2) = -4 := by decide +kernel

theorem mapError_ok {ε δ α : Type} (f : ε → δ) (result : Except ε α) (value : α) :
    result.mapError f = .ok value ↔ result = .ok value := by
  cases result with
  | error error => simp [Except.mapError]
  | ok there => simp [Except.mapError]

theorem toLittle_eq_ok (width : Nat) (value : Int) (bytes : List UInt8) : toLittle width value = .ok bytes ↔
    Struct.Slot.Fits ⟨width,true⟩ value ∧ bytes = (Struct.pack ⟨width,true⟩ value).reverse := by
  unfold toLittle
  dsimp only
  split
  · rename_i fits
    constructor
    · intro ok
      injection ok with ok
      exact ⟨fits,ok.symm⟩
    · rintro ⟨_,rfl⟩
      rfl
  · rename_i misfit
    constructor
    · exact fun ok => by cases ok
    · exact fun fits => absurd fits.1 misfit

/-- Every frame is the frame of some body; the statistics come first in it. -/
theorem encodeFrameWith_eq_ok (payload : List UInt8) (linkStats : Option (ℚ × ℚ)) (wire : List UInt8) :
    encodeFrameWith payload linkStats = .ok wire ↔
      ∃ header, statsHeader linkStats = .ok header ∧ encodeFrame (header ++ payload) = .ok wire := by
  constructor
  · intro ok
    obtain ⟨header,headed,ok⟩ := bind_ok _ _ _ ok
    exact ⟨header,headed,(mapError_ok _ _ _).mp ok⟩
  · rintro ⟨header,headed,ok⟩
    rw [encodeFrameWith,headed]
    exact (mapError_ok _ _ _).mpr ok

theorem statsHeader_some (rssi snr : ℚ) (header : List UInt8) (ok : statsHeader (some (rssi,snr)) = .ok header) :
    ∃ strength ratio, toLittle 2 (truncate rssi) = .ok strength ∧ toLittle 1 (roundEven (snr*4)) = .ok ratio ∧
      header = strength ++ ratio := by
  obtain ⟨strength,first,ok⟩ := bind_ok _ _ _ ok
  obtain ⟨ratio,second,ok⟩ := bind_ok _ _ _ ok
  injection ok with ok
  exact ⟨strength,ratio,first,second,ok.symm⟩

theorem encodeFrame_length (body wire : List UInt8) (ok : encodeFrame body = .ok wire) :
    wire.length ≤ maxWireFrameBytes maxBodyBytes := by
  obtain ⟨fits,rfl⟩ := (encodeFrame_eq_ok body wire).mp ok
  rw [List.length_append]
  exact cobsEncode_length body fits

theorem cobs_sound : (∀ d, 0 ∉ cobsEncode d ∧ cobsDecode (cobsEncode d) = .ok d ∧
      (cobsEncode d).length ≤ d.length + d.length/254 + 1) ∧
    Function.Injective cobsEncode ∧
    ∀ payload linkStats wire, encodeFrameWith payload linkStats = .ok wire →
      wire.length ≤ maxWireFrameBytes 255 := by
  refine ⟨fun d => ⟨cobsEncode_clean d,cobsDecode_encode d,cobsEncode_overhead d⟩,cobsEncode_injective,?_⟩
  intro payload linkStats wire ok
  obtain ⟨header,_,plain⟩ := (encodeFrameWith_eq_ok payload linkStats wire).mp ok
  exact encodeFrame_length _ wire plain

theorem cobs_sound_stamped : ∃ wire, encodeFrameWith [0x61] (some (-97,-29/4)) = .ok wire ∧
    wire.length ≤ maxWireFrameBytes 255 := by
  have made : encodeFrameWith [0x61] (some (-97,-29/4)) =
      .ok [7,4,0x9F,0xFF,0xE3,0x61,0xF3,0] := by decide +kernel
  exact ⟨_,made,cobs_sound.2.2 _ _ _ made⟩

/-! ### The statistics on the other side -/

theorem signedLittle_reverse (bytes : List UInt8) : signedLittle bytes.reverse =
    if 2*Struct.fromBigEndian bytes < 256^bytes.length then (Struct.fromBigEndian bytes : Int)
    else Struct.fromBigEndian bytes - (256^bytes.length : Nat) := by
  have value : bytes.reverse.foldr (fun byte n => byte.toNat + 256*n) 0 = Struct.fromBigEndian bytes := by
    rw [List.foldr_reverse,Struct.fromBigEndian]
    congr 1
    funext n byte
    omega
  rw [signedLittle,value,List.length_reverse,Nat.cast_pow,Nat.cast_ofNat]

/-- The upper half of the residues stands for the negative numbers. -/
theorem residue_signed (size : Nat) (value : Int) (low : -((size/2 : Nat) : Int) ≤ value)
    (high : value < -((size/2 : Nat) : Int) + size) :
    (if 2*((value % (size : Int)).toNat % size) < size then (((value % (size : Int)).toNat % size : Nat) : Int)
      else ((value % (size : Int)).toNat % size : Nat) - size) = value := by
  have whole : (value % (size : Int)).toNat % size = (value % (size : Int)).toNat := by
    have small := Int.emod_lt_of_pos value (show (0 : Int) < size by omega)
    exact Nat.mod_eq_of_lt (by omega)
  rw [whole]
  by_cases sign : 0 ≤ value
  · have same : value % (size : Int) = value := Int.emod_eq_of_lt sign (by omega)
    rw [same,if_pos (by omega)]
    omega
  · have same : value % (size : Int) = value + size := by
      rw [← Int.add_emod_right,Int.emod_eq_of_lt (by omega) (by omega)]
    rw [same,if_neg (by omega)]
    omega

theorem signedLittle_toLittle (width : Nat) (value : Int) (bytes : List UInt8)
    (ok : toLittle width value = .ok bytes) : bytes.length = width ∧ signedLittle bytes = value := by
  obtain ⟨⟨low,high⟩,rfl⟩ := (toLittle_eq_ok width value bytes).mp ok
  have length := Struct.pack_length ⟨width,true⟩ value
  refine ⟨by rw [List.length_reverse,length],?_⟩
  rw [signedLittle_reverse,length,Struct.pack,Struct.fromBigEndian_bigEndian]
  exact residue_signed (256^width) value low high

theorem encodeFrameWith_decodes (payload wire : List UInt8) (rssi snr : ℚ) (maxPayloadBytes : Int)
    (fits : (payload.length : Int) ≤ maxPayloadBytes) (ok : encodeFrameWith payload (some (rssi,snr)) = .ok wire) :
    ∃ encoded, wire = encoded ++ [delimiter] ∧ decodeFrame encoded maxPayloadBytes true =
      .ok ⟨payload,some (truncate rssi),some (roundEven (snr*4)/4)⟩ := by
  obtain ⟨header,headed,plain⟩ := (encodeFrameWith_eq_ok payload _ wire).mp ok
  obtain ⟨strength,ratio,first,second,rfl⟩ := statsHeader_some rssi snr header headed
  obtain ⟨small,rfl⟩ := (encodeFrame_eq_ok _ wire).mp plain
  obtain ⟨two,strong⟩ := signedLittle_toLittle 2 _ strength first
  obtain ⟨one,clear⟩ := signedLittle_toLittle 1 _ ratio second
  refine ⟨_,rfl,?_⟩
  rw [decodeFrame_body _ _ maxPayloadBytes true small (cobsDecode_encode _)]
  have three : (strength ++ ratio).length = linkStatsBytes := by simp [two,one,linkStatsBytes]
  have stripped : stripStats (strength ++ ratio ++ payload) =
      .ok ⟨payload,some (truncate rssi),some (roundEven (snr*4)/4)⟩ := by
    rw [stripStats,if_neg (by rw [List.length_append]; omega),List.drop_left' three,List.append_assoc,
      List.take_left' two,List.drop_left' two,List.take_left' one,strong,clear]
  simp only [openBody,if_true,stripped,bind,Except.bind,pure,Except.pure]
  rw [if_neg (by omega)]

end AmigaFleet.Lora
