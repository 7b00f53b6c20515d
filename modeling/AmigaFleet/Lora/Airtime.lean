import AmigaFleet.Lib.Climb
import AmigaFleet.Lib.Results
import Mathlib.Data.Rat.Floor
import Mathlib.Tactic.Linarith
import Mathlib.Tactic.Positivity

/-! Time on air, derived from the modem settings, and the largest payload that fits
in a dwell. Arithmetic is exact. -/
namespace AmigaFleet.Lora
open Lib

def dwellLimitSec : ℚ := 2/5
def payloadCeilingBytes : Int := 255

inductive RadioError where
  | spreadingFactor (value : Int)
  | bandwidth (value : Int)
  | codingRate (value : Int)
  | preamble (value : Int)
  | payload (value : Int)
  | zeroDivision
  deriving DecidableEq, Repr

def RadioError.reason : RadioError → String
  | spreadingFactor value => "spreading_factor must be 6..12, got " ++ toString value
  | bandwidth value => "bandwidth_hz must be positive, got " ++ toString value
  | codingRate value => "coding_rate is the 4/N denominator and must be 5..8, got " ++ toString value
  | preamble value => "preamble_symbols must be >= 0, got " ++ toString value
  | payload value => "payload_bytes must be >= 0, got " ++ toString value
  | zeroDivision => "division by zero"

structure RadioConfig where
  spreadingFactor : Int := 7
  bandwidthHz : Int := 125000
  codingRate : Int := 5
  preambleSymbols : Int := 8
  explicitHeader : Bool := true
  payloadCrc : Bool := true
  spread : 6 ≤ spreadingFactor ∧ spreadingFactor ≤ 12 := by decide
  banded : 0 < bandwidthHz := by decide
  coded : 5 ≤ codingRate ∧ codingRate ≤ 8 := by decide
  led : 0 ≤ preambleSymbols := by decide
  deriving DecidableEq, Repr

/-- The constructor, `__post_init__` included. -/
def radioConfig (spreadingFactor bandwidthHz codingRate preambleSymbols : Int)
    (explicitHeader payloadCrc : Bool) : Except RadioError RadioConfig :=
  if spread : 6 ≤ spreadingFactor ∧ spreadingFactor ≤ 12 then
    if banded : bandwidthHz ≤ 0 then .error (.bandwidth bandwidthHz)
    else if coded : 5 ≤ codingRate ∧ codingRate ≤ 8 then
      if led : preambleSymbols < 0 then .error (.preamble preambleSymbols)
      else .ok ⟨spreadingFactor,bandwidthHz,codingRate,preambleSymbols,explicitHeader,payloadCrc,
        spread,Int.not_le.mp banded,coded,Int.not_lt.mp led⟩
    else .error (.codingRate codingRate)
  else .error (.spreadingFactor spreadingFactor)

def defaultRadio : RadioConfig := {}

/-- `/` on integers. -/
def divide (numerator denominator : Int) : Except RadioError ℚ :=
  if denominator = 0 then .error .zeroDivision else .ok (numerator/denominator)

def symbolTimeSec (radio : RadioConfig) : Except RadioError ℚ :=
  divide (2^radio.spreadingFactor.toNat) radio.bandwidthHz

def lowDataRateOptimize (radio : RadioConfig) : Except RadioError Bool := do
  return (← symbolTimeSec radio) > 16/1000

def preambleTimeSec (radio : RadioConfig) : Except RadioError ℚ := do
  return (radio.preambleSymbols + 17/4) * (← symbolTimeSec radio)

def payloadSymbols (payloadBytes : Int) (radio : RadioConfig) : Except RadioError Int := do
  if payloadBytes < 0 then throw (.payload payloadBytes)
  let sf := radio.spreadingFactor
  let de := if ← lowDataRateOptimize radio then 1 else 0
  let numerator := 8*payloadBytes - 4*sf + 28 + (if radio.payloadCrc then 16 else 0)
    - (if radio.explicitHeader then 0 else 20)
  let denominator := 4*(sf - 2*de)
  return 8 + max (⌈← divide numerator denominator⌉ * radio.codingRate) 0

def airtimeSec (payloadBytes : Int) (radio : RadioConfig) : Except RadioError ℚ := do
  return (← preambleTimeSec radio) + (← payloadSymbols payloadBytes radio) * (← symbolTimeSec radio)

/-- The loop: the sizes still ahead, and the last that fitted. -/
def searchPayload (radio : RadioConfig) (dwellSec : ℚ) (best : Int) : List Int → Except RadioError Int
  | [] => .ok best
  | size::rest => do
    if (← airtimeSec size radio) > dwellSec then return best
    searchPayload radio dwellSec size rest

/-- `range`. -/
def sizesBelow (stop : Int) : List Int := (List.range stop.toNat).map Int.ofNat

def maxPayloadForDwell (radio : RadioConfig) (dwellSec : ℚ) (ceiling : Int) : Except RadioError Int :=
  searchPayload radio dwellSec 0 (sizesBelow (ceiling + 1))

/-- What the constructor accepts are the configurations. -/
theorem radioConfig_accepts (spreadingFactor bandwidthHz codingRate preambleSymbols : Int)
    (explicitHeader payloadCrc : Bool) (radio : RadioConfig) :
    radioConfig spreadingFactor bandwidthHz codingRate preambleSymbols explicitHeader payloadCrc = .ok radio ↔
      radio.spreadingFactor = spreadingFactor ∧ radio.bandwidthHz = bandwidthHz ∧ radio.codingRate = codingRate ∧
      radio.preambleSymbols = preambleSymbols ∧ radio.explicitHeader = explicitHeader ∧ radio.payloadCrc = payloadCrc := by
  constructor
  · intro made
    unfold radioConfig at made
    split at made
    · split at made
      · cases made
      · split at made
        · split at made
          · cases made
          · injection made with made
            subst made
            exact ⟨rfl,rfl,rfl,rfl,rfl,rfl⟩
        · cases made
    · cases made
  · rintro ⟨rfl,rfl,rfl,rfl,rfl,rfl⟩
    unfold radioConfig
    rw [dif_pos radio.spread,dif_neg (Int.not_le.mpr radio.banded),dif_pos radio.coded,
      dif_neg (Int.not_lt.mpr radio.led)]

namespace RadioConfig
variable (radio : RadioConfig)

def symbolTime : ℚ := 2^radio.spreadingFactor.toNat / radio.bandwidthHz

/-- What the low-data-rate mode leaves of the bits of a symbol, fourfold. -/
def denominator : Int := 4*(radio.spreadingFactor - 2*(if radio.symbolTime > 16/1000 then 1 else 0))

def numerator (n : Int) : Int :=
  8*n - 4*radio.spreadingFactor + 28 + (if radio.payloadCrc then 16 else 0)
    - (if radio.explicitHeader then 0 else 20)

def symbols (n : Int) : Int :=
  8 + max (⌈(radio.numerator n : ℚ)/radio.denominator⌉ * radio.codingRate) 0

def airtime (n : Int) : ℚ := (radio.preambleSymbols + 17/4) * radio.symbolTime + radio.symbols n * radio.symbolTime

theorem symbolTime_pos : 0 < radio.symbolTime := by
  have banded : (0 : ℚ) < radio.bandwidthHz := by exact_mod_cast radio.banded
  unfold symbolTime
  positivity

theorem denominator_pos : 0 < radio.denominator := by
  have spread := radio.spread
  unfold denominator
  split
  · omega
  · omega

theorem numerator_mono (n m : Int) (less : n ≤ m) : radio.numerator n ≤ radio.numerator m := by
  unfold numerator
  omega

/-- The count is clamped and rounded up, and both keep the order. -/
theorem symbols_mono (n m : Int) (less : n ≤ m) : radio.symbols n ≤ radio.symbols m := by
  have positive : (0 : ℚ) < radio.denominator := by exact_mod_cast radio.denominator_pos
  have numerators : (radio.numerator n : ℚ) ≤ radio.numerator m := by exact_mod_cast radio.numerator_mono n m less
  have quotients : (radio.numerator n : ℚ)/radio.denominator ≤ radio.numerator m/radio.denominator :=
    div_le_div_of_nonneg_right numerators positive.le
  have rounded := Int.ceil_le_ceil quotients
  have coded := radio.coded
  have scaled := Int.mul_le_mul_of_nonneg_right rounded (show 0 ≤ radio.codingRate by omega)
  unfold symbols
  have clamped := max_le_max_right 0 scaled
  omega

theorem airtime_mono (n m : Int) (less : n ≤ m) : radio.airtime n ≤ radio.airtime m := by
  have counts : (radio.symbols n : ℚ) ≤ radio.symbols m := by exact_mod_cast radio.symbols_mono n m less
  have time := mul_le_mul_of_nonneg_right counts radio.symbolTime_pos.le
  unfold airtime
  linarith only [time]

end RadioConfig

theorem divide_eq (numerator denominator : Int) (defined : denominator ≠ 0) :
    divide numerator denominator = .ok (numerator/denominator) := if_neg defined

@[simp] theorem symbolTimeSec_eq (radio : RadioConfig) : symbolTimeSec radio = .ok radio.symbolTime := by
  rw [symbolTimeSec,divide_eq _ _ radio.banded.ne',RadioConfig.symbolTime]
  norm_cast

@[simp] theorem lowDataRateOptimize_eq (radio : RadioConfig) :
    lowDataRateOptimize radio = .ok (decide (radio.symbolTime > 16/1000)) := by
  simp [lowDataRateOptimize,bind,Except.bind,pure,Except.pure]

theorem payloadSymbols_eq (radio : RadioConfig) (n : Int) (size : 0 ≤ n) :
    payloadSymbols n radio = .ok (radio.symbols n) := by
  have defined := divide_eq (radio.numerator n) radio.denominator radio.denominator_pos.ne'
  simp only [RadioConfig.numerator,RadioConfig.denominator] at defined
  rw [payloadSymbols,if_neg (by omega),lowDataRateOptimize_eq]
  simp only [bind,Except.bind,pure,Except.pure,decide_eq_true_eq,defined]
  rfl

theorem payloadSymbols_negative (radio : RadioConfig) (n : Int) (size : n < 0) :
    payloadSymbols n radio = .error (.payload n) := by
  rw [payloadSymbols,if_pos size]
  rfl

theorem airtimeSec_eq (radio : RadioConfig) (n : Int) (size : 0 ≤ n) : airtimeSec n radio = .ok (radio.airtime n) := by
  simp only [airtimeSec,preambleTimeSec,symbolTimeSec_eq,payloadSymbols_eq radio n size,bind,Except.bind,pure,Except.pure]
  rfl

/-! ### The search -/

theorem mem_sizesBelow (stop n : Int) : n ∈ sizesBelow stop ↔ 0 ≤ n ∧ n < stop := by
  simp only [sizesBelow,List.mem_map,List.mem_range]
  constructor
  · rintro ⟨k,small,rfl⟩
    simp only [Int.ofNat_eq_natCast]
    omega
  · rintro ⟨low,high⟩
    exact ⟨n.toNat,by omega,by simp only [Int.ofNat_eq_natCast]; omega⟩

theorem sizesBelow_sorted (stop : Int) : (sizesBelow stop).Pairwise (· ≤ ·) := by
  rw [sizesBelow,List.pairwise_map]
  apply List.Pairwise.imp _ List.pairwise_lt_range
  intro a b less
  simp only [Int.ofNat_eq_natCast]
  omega

def RadioConfig.fits (radio : RadioConfig) (dwellSec : ℚ) (n : Int) : Bool := radio.airtime n ≤ dwellSec

theorem searchPayload_eq (radio : RadioConfig) (dwellSec : ℚ) (best : Int) (sizes : List Int)
    (proper : ∀ n ∈ sizes, 0 ≤ n) :
    searchPayload radio dwellSec best sizes = .ok (Climb.last (radio.fits dwellSec) best sizes) := by
  induction sizes generalizing best with
  | nil => rfl
  | cons size rest ih =>
    obtain ⟨first,later⟩ := List.forall_mem_cons.mp proper
    rw [searchPayload,airtimeSec_eq radio size first]
    simp only [bind,Except.bind,pure,Except.pure]
    by_cases long : radio.airtime size > dwellSec
    · rw [if_pos long,Climb.last,if_neg (by simpa [RadioConfig.fits] using long)]
    · rw [if_neg long,Climb.last,if_pos (by simpa [RadioConfig.fits] using long)]
      exact ih size later

theorem maxPayloadForDwell_eq (radio : RadioConfig) (dwellSec : ℚ) (ceiling : Int) :
    maxPayloadForDwell radio dwellSec ceiling =
      .ok (Climb.last (radio.fits dwellSec) 0 (sizesBelow (ceiling + 1))) :=
  searchPayload_eq radio dwellSec 0 _ (fun n here => ((mem_sizesBelow _ n).mp here).1)

example : maxPayloadForDwell { spreadingFactor := 9 } dwellLimitSec payloadCeilingBytes = .ok 66 := by decide +kernel

theorem maxPayloadForDwell_within (radio : RadioConfig) (dwellSec : ℚ) (ceiling : Int) (proper : 0 ≤ ceiling) :
    ∃ most, maxPayloadForDwell radio dwellSec ceiling = .ok most ∧ 0 ≤ most ∧ most ≤ ceiling := by
  refine ⟨_,maxPayloadForDwell_eq radio dwellSec ceiling,?_⟩
  obtain start | within := List.mem_cons.mp (Climb.last_mem (radio.fits dwellSec) 0 (sizesBelow (ceiling + 1)))
  · rw [start]
    exact ⟨le_rfl,proper⟩
  · obtain ⟨low,high⟩ := (mem_sizesBelow _ _).mp within
    exact ⟨low,by omega⟩

/-- Where even the empty frame is too long the answer is the empty frame all the same. -/
theorem maxPayloadForDwell_misfit (radio : RadioConfig) (dwellSec : ℚ) (ceiling : Int)
    (long : dwellSec < radio.airtime 0) : maxPayloadForDwell radio dwellSec ceiling = .ok 0 := by
  rw [maxPayloadForDwell_eq]
  have misfit : ∀ n, 0 ≤ n → radio.fits dwellSec n = false := by
    intro n size
    simpa [RadioConfig.fits] using long.trans_le (radio.airtime_mono 0 n size)
  cases sizes : sizesBelow (ceiling + 1) with
  | nil => rfl
  | cons first rest =>
    have size := ((mem_sizesBelow (ceiling + 1) first).mp (by rw [sizes]; exact List.mem_cons_self)).1
    rw [Climb.last,if_neg (by simp [misfit first size])]

theorem dwell_exact (radio : RadioConfig) (dwellSec : ℚ) (ceiling : Int) :
    (∀ n, payloadSymbols n radio ≠ .error .zeroDivision) ∧
    (∀ n, 0 ≤ n → ∃ count, payloadSymbols n radio = .ok count) ∧
    (∀ n m count more, n ≤ m → payloadSymbols n radio = .ok count → payloadSymbols m radio = .ok more →
      count ≤ more) ∧
    ∃ most, maxPayloadForDwell radio dwellSec ceiling = .ok most ∧
      ∀ empty, airtimeSec 0 radio = .ok empty → empty ≤ dwellSec → ∀ n, 0 ≤ n → n ≤ ceiling →
        ∃ time, airtimeSec n radio = .ok time ∧ (time ≤ dwellSec ↔ n ≤ most) := by
  have counted : ∀ n, 0 ≤ n → ∃ count, payloadSymbols n radio = .ok count := fun n size =>
    ⟨_,payloadSymbols_eq radio n size⟩
  have sized : ∀ n count, payloadSymbols n radio = .ok count → 0 ≤ n ∧ count = radio.symbols n := by
    intro n count ok
    by_cases size : 0 ≤ n
    · rw [payloadSymbols_eq radio n size] at ok
      injection ok with ok
      exact ⟨size,ok.symm⟩
    · rw [payloadSymbols_negative radio n (by omega)] at ok
      cases ok
  refine ⟨?_,counted,?_,_,maxPayloadForDwell_eq radio dwellSec ceiling,?_⟩
  · intro n fails
    by_cases size : 0 ≤ n
    · rw [payloadSymbols_eq radio n size] at fails
      cases fails
    · rw [payloadSymbols_negative radio n (by omega)] at fails
      cases fails
  · intro n m count more less small large
    rw [(sized n count small).2,(sized m more large).2]
    exact radio.symbols_mono n m less
  · intro empty start short n size within
    rw [airtimeSec_eq radio 0 le_rfl] at start
    injection start with start
    have down : ∀ a b, a ≤ b → radio.fits dwellSec b = true → radio.fits dwellSec a = true := by
      intro a b less good
      simp only [RadioConfig.fits,decide_eq_true_eq] at good ⊢
      exact (radio.airtime_mono a b less).trans good
    have sorted : (0 :: sizesBelow (ceiling + 1)).Pairwise (· ≤ ·) :=
      List.pairwise_cons.mpr ⟨fun k here => ((mem_sizesBelow _ k).mp here).1,sizesBelow_sorted _⟩
    have fits := Climb.fits_iff (radio.fits dwellSec) down 0 _ sorted
      (by simpa [RadioConfig.fits,start] using short) n (List.mem_cons_of_mem _ ((mem_sizesBelow _ n).mpr ⟨size,by omega⟩))
    refine ⟨radio.airtime n,airtimeSec_eq radio n size,?_⟩
    rw [← fits,RadioConfig.fits,decide_eq_true_eq]

theorem dwell_exact_default : ∃ most, maxPayloadForDwell defaultRadio dwellLimitSec payloadCeilingBytes = .ok most ∧
    ∀ n, 0 ≤ n → n ≤ 255 →
      ∃ time, airtimeSec n defaultRadio = .ok time ∧ (time ≤ dwellLimitSec ↔ n ≤ most) := by
  obtain ⟨_,_,_,most,found,exact_⟩ := dwell_exact defaultRadio dwellLimitSec payloadCeilingBytes
  exact ⟨most,found,exact_ _ (airtimeSec_eq defaultRadio 0 le_rfl) (by decide +kernel)⟩

end AmigaFleet.Lora
