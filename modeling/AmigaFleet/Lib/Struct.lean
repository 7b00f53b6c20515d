import Mathlib.Data.List.Basic
import Mathlib.Data.Nat.ModEq
import Mathlib.Tactic.Ring
import Mathlib.Tactic.Linarith
import Mathlib.Tactic.Positivity

/-! Fixed-width integers in network byte order, packed one after another. A
slot is one format code: its width in bytes and whether it is two's complement. -/
namespace Lib.Struct

structure Slot where
  width : Nat
  signed : Bool
  deriving DecidableEq, Repr

namespace Slot

def modulus (slot : Slot) : Nat := 256^slot.width

def least (slot : Slot) : Int := if slot.signed then -(slot.modulus/2 : Nat) else 0

def Fits (slot : Slot) (value : Int) : Prop :=
  slot.least ≤ value ∧ value < slot.least + slot.modulus

instance (slot : Slot) (value : Int) : Decidable (slot.Fits value) :=
  inferInstanceAs (Decidable (_ ∧ _))

end Slot

def bigEndian : Nat → Nat → List UInt8
  | 0,_ => []
  | width+1,n => UInt8.ofNat (n / 256^width) :: bigEndian width n

def fromBigEndian (bytes : List UInt8) : Nat := bytes.foldl (fun n byte => n*256 + byte.toNat) 0

@[simp] theorem bigEndian_length (width n : Nat) : (bigEndian width n).length = width := by
  induction width with
  | zero => rfl
  | succ width ih => simp [bigEndian,ih]

private theorem foldl_bigEndian (width n start : Nat) :
    (bigEndian width n).foldl (fun n byte => n*256 + byte.toNat) start =
      start * 256^width + n % 256^width := by
  induction width generalizing start with
  | zero => simp [bigEndian,Nat.mod_one]
  | succ width ih =>
    have split : n % 256^(width+1) = n % 256^width + 256^width * (n / 256^width % 256) := by
      rw [Nat.pow_succ,Nat.mod_mul]
    simp only [bigEndian,List.foldl_cons,ih,UInt8.toNat_ofNat']
    rw [split,Nat.pow_succ]
    ring

theorem fromBigEndian_bigEndian (width n : Nat) : fromBigEndian (bigEndian width n) = n % 256^width := by
  simpa [fromBigEndian] using foldl_bigEndian width n 0

def pack (slot : Slot) (value : Int) : List UInt8 :=
  bigEndian slot.width (value % (slot.modulus : Int)).toNat

/-- The representative of the bytes in the slot's range. -/
def unpack (slot : Slot) (bytes : List UInt8) : Int :=
  (fromBigEndian bytes - slot.least) % (slot.modulus : Int) + slot.least

@[simp] theorem pack_length (slot : Slot) (value : Int) : (pack slot value).length = slot.width :=
  bigEndian_length _ _

theorem unpack_pack (slot : Slot) (value : Int) (fits : slot.Fits value) :
    unpack slot (pack slot value) = value := by
  have positive : (0 : Int) < slot.modulus := by
    have power : 0 < 256^slot.width := by positivity
    simp only [Slot.modulus]
    exact_mod_cast power
  have reduced := Int.emod_nonneg value (ne_of_gt positive)
  have small := Int.emod_lt_of_pos value positive
  have bytes : (fromBigEndian (pack slot value) : Int) = value % (slot.modulus : Int) := by
    rw [pack,fromBigEndian_bigEndian,Nat.mod_eq_of_lt]
    · exact Int.toNat_of_nonneg reduced
    · change (value % (slot.modulus : Int)).toNat < slot.modulus
      omega
  rw [unpack,bytes,Int.emod_sub_emod,Int.emod_eq_of_lt]
  · omega
  · linarith [fits.1]
  · linarith [fits.2]

def packAll : List Slot → List Int → List UInt8
  | slot::slots,value::values => pack slot value ++ packAll slots values
  | _,_ => []

def size (slots : List Slot) : Nat := (slots.map Slot.width).sum

def unpackAll : List Slot → List UInt8 → List Int
  | [],_ => []
  | slot::slots,bytes => unpack slot (bytes.take slot.width) :: unpackAll slots (bytes.drop slot.width)

theorem packAll_length (slots : List Slot) (values : List Int) (same : slots.length = values.length) :
    (packAll slots values).length = size slots := by
  induction slots generalizing values with
  | nil => simp [packAll,size]
  | cons slot slots ih =>
    cases values with
    | nil => simp at same
    | cons value values =>
      have rest := ih values (by simpa using same)
      simp only [size,List.map_cons,List.sum_cons] at rest ⊢
      simp [packAll,rest]

theorem unpackAll_packAll (slots : List Slot) (values : List Int) (tail : List UInt8)
    (fits : List.Forall₂ Slot.Fits slots values) :
    unpackAll slots (packAll slots values ++ tail) = values := by
  induction fits with
  | nil => rfl
  | @cons slot value slots values fit _ ih =>
    simp only [packAll,unpackAll,List.append_assoc]
    rw [List.take_left' (pack_length slot value),List.drop_left' (pack_length slot value),
      unpack_pack slot value fit,ih]

theorem bigEndian_add (width n k : Nat) : bigEndian width (k*256^width + n) = bigEndian width n := by
  induction width generalizing k with
  | zero => rfl
  | succ width ih =>
    have positive : 0 < 256^width := by positivity
    have split : k*256^(width+1) + n = (k*256)*256^width + n := by ring
    have top : ((k*256)*256^width + n) / 256^width = k*256 + n / 256^width := by
      rw [Nat.add_comm,Nat.add_mul_div_right _ _ positive,Nat.add_comm]
    rw [bigEndian,bigEndian,split,top,ih]
    refine congrArg (fun byte => byte :: bigEndian width n) (UInt8.toNat_inj.mp ?_)
    rw [UInt8.toNat_ofNat',UInt8.toNat_ofNat']
    omega

theorem fromBigEndian_cons (byte : UInt8) (bytes : List UInt8) :
    fromBigEndian (byte::bytes) = byte.toNat * 256^bytes.length + fromBigEndian bytes := by
  have shifted : ∀ (bytes : List UInt8) (start : Nat), bytes.foldl (fun n byte => n*256 + byte.toNat) start =
      start * 256^bytes.length + bytes.foldl (fun n byte => n*256 + byte.toNat) 0 := by
    intro bytes
    induction bytes with
    | nil => simp
    | cons next rest ih =>
      intro start
      rw [List.foldl_cons,ih,List.foldl_cons,ih (0*256 + next.toNat),List.length_cons,Nat.pow_succ]
      ring
  simpa [fromBigEndian] using shifted bytes byte.toNat

theorem fromBigEndian_lt (bytes : List UInt8) : fromBigEndian bytes < 256^bytes.length := by
  induction bytes with
  | nil => decide
  | cons byte rest ih =>
    have small := byte.toNat_lt
    rw [fromBigEndian_cons,List.length_cons,Nat.pow_succ]
    nlinarith

theorem bigEndian_fromBigEndian (bytes : List UInt8) : bigEndian bytes.length (fromBigEndian bytes) = bytes := by
  induction bytes with
  | nil => rfl
  | cons byte rest ih =>
    have small := fromBigEndian_lt rest
    have top : (byte.toNat * 256^rest.length + fromBigEndian rest) / 256^rest.length = byte.toNat := by
      rw [Nat.add_comm,Nat.add_mul_div_right _ _ (by positivity),Nat.div_eq_of_lt small,Nat.zero_add]
    rw [fromBigEndian_cons,List.length_cons,bigEndian,top,bigEndian_add,ih]
    simp

theorem unpack_fits (slot : Slot) (bytes : List UInt8) : slot.Fits (unpack slot bytes) := by
  have positive : (0 : Int) < slot.modulus := by
    have power : 0 < 256^slot.width := by positivity
    simp only [Slot.modulus]
    exact_mod_cast power
  have low := Int.emod_nonneg (fromBigEndian bytes - slot.least) (ne_of_gt positive)
  have high := Int.emod_lt_of_pos (fromBigEndian bytes - slot.least) positive
  constructor
  · rw [unpack]
    omega
  · rw [unpack]
    omega

theorem pack_unpack (slot : Slot) (bytes : List UInt8) (whole : bytes.length = slot.width) :
    pack slot (unpack slot bytes) = bytes := by
  have small : fromBigEndian bytes < slot.modulus := by
    have bound := fromBigEndian_lt bytes
    rwa [whole] at bound
  have value : (unpack slot bytes % (slot.modulus : Int)).toNat = fromBigEndian bytes := by
    rw [unpack,Int.emod_add_emod,Int.sub_add_cancel,
      Int.emod_eq_of_lt (Int.natCast_nonneg _) (by exact_mod_cast small),Int.toNat_natCast]
  rw [pack,value,← whole,bigEndian_fromBigEndian]

theorem unpackAll_fits (slots : List Slot) (bytes : List UInt8) :
    List.Forall₂ Slot.Fits slots (unpackAll slots bytes) := by
  induction slots generalizing bytes with
  | nil => exact .nil
  | cons slot slots ih => exact .cons (unpack_fits slot _) (ih _)

theorem packAll_unpackAll (slots : List Slot) (bytes : List UInt8) (enough : size slots ≤ bytes.length) :
    packAll slots (unpackAll slots bytes) = bytes.take (size slots) := by
  induction slots generalizing bytes with
  | nil => simp [packAll,size]
  | cons slot slots ih =>
    simp only [size,List.map_cons,List.sum_cons] at enough
    have first := pack_unpack slot (bytes.take slot.width) (List.length_take_of_le (by omega))
    have rest := ih (bytes.drop slot.width) (by simp only [size,List.length_drop]; omega)
    rw [unpackAll,packAll,first,rest]
    simp only [size,List.map_cons,List.sum_cons]
    rw [List.take_add]

end Lib.Struct
