import Mathlib.Data.List.Basic
import Mathlib.Logic.Function.Basic
import Mathlib.Logic.Function.Iterate

/-! A checksum folded over a list, one element at a time. Where a step loses
neither the sum so far nor the element, changing one element changes the sum. -/
namespace Lib.Checksum
variable {σ α : Type} (step : σ → α → σ)

def sum (start : σ) (data : List α) : σ := data.foldl step start

structure Lossless : Prop where
  sums : ∀ a, Function.Injective (fun s => step s a)
  elements : ∀ s, Function.Injective (step s)

theorem sum_injective (lossless : Lossless step) (data : List α) :
    Function.Injective (fun start => sum step start data) := by
  induction data with
  | nil => exact fun _ _ same => same
  | cons a rest ih =>
    intro s t same
    exact lossless.sums a (ih same)

/-- One element changed. -/
theorem sum_changed (lossless : Lossless step) (start : σ) (before after : List α) (a b : α) (changed : a ≠ b) :
    sum step start (before ++ a :: after) ≠ sum step start (before ++ b :: after) := by
  intro same
  simp only [sum,List.foldl_append,List.foldl_cons] at same
  exact changed (lossless.elements _ (sum_injective step lossless after same))

/-- A step that adds up what it is given. -/
def Additive (plus : σ → σ → σ) (join : α → α → α) : Prop :=
  ∀ s t a b, step (plus s t) (join a b) = plus (step s a) (step t b)

/-- The sum of two lists joined is the two sums together. -/
theorem Additive.sum_zipWith {plus : σ → σ → σ} {join : α → α → α} (additive : Additive step plus join)
    (first second : List α) (same : first.length = second.length) (s t : σ) :
    sum step (plus s t) (List.zipWith join first second) = plus (sum step s first) (sum step t second) := by
  induction first generalizing second s t with
  | nil =>
    obtain rfl := List.length_eq_zero_iff.mp same.symm
    rfl
  | cons a first ih =>
    cases second with
    | nil => cases same
    | cons b second =>
      rw [List.zipWith_cons_cons,sum,List.foldl_cons,additive]
      exact ih second (Nat.succ.inj same) _ _

/-- One bit of the division by the CRC-32 polynomial, the low bit first. -/
def crc32Bit (crc : UInt32) : UInt32 := if crc &&& 1 = 1 then (crc >>> 1) ^^^ 0xEDB88320 else crc >>> 1

def crc32Step (crc : UInt32) (byte : UInt8) : UInt32 := Nat.iterate crc32Bit 8 (crc ^^^ byte.toUInt32)

/-- `zlib.crc32`. -/
def crc32 (data : List UInt8) : UInt32 := ~~~(sum crc32Step 0xFFFFFFFF data)

example : crc32 "123456789".toUTF8.data.toList = 0xCBF43926 := by decide +kernel

end Lib.Checksum
