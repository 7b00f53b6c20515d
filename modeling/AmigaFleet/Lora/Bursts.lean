import AmigaFleet.Lora.Flips

/-! A burst on the serial hop: the errors fall within eight bits in a row, the high
bit of a byte first, over the body and its CRC. -/
namespace AmigaFleet.Lora
open Lib

/-- The bit at a place, counted from the high bit of the first byte. -/
def bitAt (data : List UInt8) (i : Nat) : Bool := (data.getD (i/8) 0).toNat.testBit (7 - i%8)

example : bitAt [0x00,0x40] 9 = true := by decide +kernel

/-- Every bit that is set is among the eight from `start`. -/
def Confined (pattern : List UInt8) (start : Nat) : Prop := ∀ i, bitAt pattern i = true → start ≤ i ∧ i < start + 8

def Burst (pattern : List UInt8) : Prop := (∃ i, bitAt pattern i = true) ∧ ∃ start, Confined pattern start

def corrupt (data pattern : List UInt8) : List UInt8 := List.zipWith (· ^^^ ·) data pattern

theorem crcBit_xor (a b : UInt8) : crcBit (a ^^^ b) = crcBit a ^^^ crcBit b := by
  have high (c : UInt8) : c &&& 0x80 ≠ 0 ↔ c.toBitVec.getLsbD 7 = true :=
    byte_forall (fun c => c &&& 0x80 ≠ 0 ↔ c.toBitVec.getLsbD 7 = true) (by decide +kernel) c
  have shift : (a ^^^ b) <<< 1 = (a <<< 1) ^^^ (b <<< 1) := by
    apply UInt8.toBitVec_inj.mp
    exact BitVec.shiftLeft_xor_distrib _ _ _
  simp only [crcBit,high,UInt8.toBitVec_xor,BitVec.getLsbD_xor,shift]
  cases a.toBitVec.getLsbD 7 <;> cases b.toBitVec.getLsbD 7
  · rfl
  · exact UInt8.xor_assoc ..
  · change a <<< 1 ^^^ b <<< 1 ^^^ crc8Poly = a <<< 1 ^^^ crc8Poly ^^^ b <<< 1
    rw [UInt8.xor_assoc,UInt8.xor_comm (b <<< 1),UInt8.xor_assoc]
  · change a <<< 1 ^^^ b <<< 1 = a <<< 1 ^^^ crc8Poly ^^^ (b <<< 1 ^^^ crc8Poly)
    rw [UInt8.xor_comm (b <<< 1) crc8Poly,UInt8.xor_assoc,← UInt8.xor_assoc crc8Poly,UInt8.xor_self,UInt8.zero_xor]

theorem crc8Table_xor (a b : UInt8) : crc8Table (a ^^^ b) = crc8Table a ^^^ crc8Table b := by
  unfold crc8Table
  generalize 8 = n
  induction n generalizing a b with
  | zero => rfl
  | succ n ih => rw [Function.iterate_succ_apply,Function.iterate_succ_apply,Function.iterate_succ_apply,crcBit_xor,ih]

theorem crcStep_additive : Checksum.Additive crcStep (· ^^^ ·) (· ^^^ ·) := by
  intro s t a b
  have swap : s ^^^ t ^^^ (a ^^^ b) = s ^^^ a ^^^ (t ^^^ b) := by
    rw [UInt8.xor_assoc,UInt8.xor_assoc,← UInt8.xor_assoc t,UInt8.xor_comm t a,UInt8.xor_assoc]
  change crc8Table (s ^^^ t ^^^ (a ^^^ b)) = crc8Table (s ^^^ a) ^^^ crc8Table (t ^^^ b)
  rw [swap,crc8Table_xor]

theorem crc8_corrupt (data pattern : List UInt8) (same : data.length = pattern.length) :
    crc8 (corrupt data pattern) = crc8 data ^^^ crc8 pattern := by
  have sums := crcStep_additive.sum_zipWith _ data pattern same 0 0
  rwa [UInt8.xor_self] at sums

theorem crc8_closed (body : List UInt8) (c : UInt8) : crc8 (body ++ [c]) = crc8Table (crc8 body ^^^ c) := by
  simp [crc8,Checksum.sum,crcStep]

/-- A body and a byte divide to nothing where the byte is the body's CRC. -/
theorem crc8_zero (body : List UInt8) (c : UInt8) : crc8 (body ++ [c]) = 0 ↔ crc8 body = c := by
  have none_ : crc8Table 0 = 0 := by decide
  rw [crc8_closed]
  constructor
  · intro zero
    have same := crc8Table_injective (zero.trans none_.symm)
    exact xor_cancel _ _ c (by rw [same,UInt8.xor_self])
  · rintro rfl
    rw [UInt8.xor_self,none_]

theorem bitAt_cons (p : UInt8) (rest : List UInt8) (i : Nat) : bitAt (p::rest) (i + 8) = bitAt rest i := by
  have byte : (i + 8)/8 = i/8 + 1 := by omega
  have place : (i + 8)%8 = i%8 := by omega
  rw [bitAt,bitAt,byte,place,List.getD_cons_succ]

theorem bitAt_first (p : UInt8) (rest : List UInt8) (i : Nat) (within : i < 8) :
    bitAt (p::rest) i = p.toNat.testBit (7 - i) := by
  have byte : i/8 = 0 := by omega
  have place : i%8 = i := by omega
  rw [bitAt,byte,place,List.getD_cons_zero]

/-- A byte with no bit in front of the window is small. -/
theorem byte_small (p : UInt8) (start : Nat) (within : start ≤ 8) (clear : ∀ i, i < start → p.toNat.testBit (7 - i) = false) :
    p.toNat < 2^(8 - start) := by
  refine Nat.lt_pow_two_of_testBit p.toNat fun j high => ?_
  by_cases inside : j < 8
  · have bit := clear (7 - j) (by omega)
    rwa [Nat.sub_sub_self (by omega)] at bit
  · exact Nat.testBit_lt_two_pow (lt_of_lt_of_le p.toNat_lt (Nat.pow_le_pow_right (by decide) (by omega)))

/-- A byte with no bit behind the window is a multiple. -/
theorem byte_multiple (q : UInt8) (start : Nat) (within : start ≤ 8)
    (clear : ∀ i, i < 8 → start ≤ i → q.toNat.testBit (7 - i) = false) : q.toNat % 2^(8 - start) = 0 := by
  refine Nat.eq_of_testBit_eq fun j => ?_
  rw [Nat.zero_testBit,Nat.testBit_mod_two_pow]
  by_cases low : j < 8 - start
  · have bit := clear (7 - j) (by omega) (by omega)
    rw [Nat.sub_sub_self (by omega)] at bit
    simp [bit]
  · simp [low]

theorem byte_clear (p : UInt8) (clear : ∀ i, i < 8 → p.toNat.testBit (7 - i) = false) : p = 0 := by
  have small := byte_small p 8 le_rfl clear
  exact UInt8.toNat_inj.mp (Nat.lt_one_iff.mp small)

theorem table_zero (s : UInt8) : crc8Table s = 0 ↔ s = 0 := by
  have none_ : crc8Table 0 = 0 := by decide
  constructor
  · intro zero
    rw [← none_] at zero
    exact crc8Table_injective zero
  · intro same
    rw [same,none_]

theorem sum_clear (data : List UInt8) (clear : ∀ i, bitAt data i = false) (s : UInt8) :
    Checksum.sum crcStep s data = 0 ↔ s = 0 := by
  induction data generalizing s with
  | nil => rfl
  | cons p rest ih =>
    have first : p = 0 := byte_clear p fun i within => by rw [← bitAt_first p rest i within,clear]
    have later := ih (fun i => by rw [← bitAt_cons p,clear]) (crcStep s p)
    rw [Checksum.sum,List.foldl_cons]
    refine later.trans ?_
    rw [crcStep,first,UInt8.xor_zero,table_zero]

/-- Fewer than eight bits over do not divide: the polynomial has a last term. -/
theorem table_burst (p : UInt8) (start : Nat) (within : start < 8) (small : p.toNat < 2^(8 - start))
    (multiple : (crc8Table p).toNat % 2^(8 - start) = 0) : p = 0 := by
  have every := byte_forall (fun p => ∀ k : Fin 8, p.toNat < 2^(8 - k.val) → (crc8Table p).toNat % 2^(8 - k.val) = 0 → p = 0)
    (by decide +kernel) p
  exact every ⟨start,within⟩ small multiple

theorem crc8_cons (p : UInt8) (rest : List UInt8) : crc8 (p::rest) = Checksum.sum crcStep (crc8Table p) rest := by
  rw [crc8,Checksum.sum,List.foldl_cons,crcStep,UInt8.zero_xor]
  rfl

theorem crc8_lead (rest : List UInt8) : crc8 (0::rest) = crc8 rest := by
  rw [crc8_cons,(table_zero 0).mpr rfl]
  rfl

/-- A remainder that is none behind the second byte was cancelled by it. -/
theorem crc8_second (p q : UInt8) (rest : List UInt8) (clear : ∀ i, bitAt rest i = false)
    (zero : crc8 (p::q::rest) = 0) : crc8Table p = q := by
  rw [crc8_cons,Checksum.sum,List.foldl_cons] at zero
  have behind := (sum_clear rest clear (crcStep (crc8Table p) q)).mp zero
  rw [crcStep,table_zero] at behind
  exact xor_cancel _ _ q (by rw [behind,UInt8.xor_self])

/-- No burst divides. -/
theorem crc8_burst (pattern : List UInt8) (start : Nat) (confined : Confined pattern start) (zero : crc8 pattern = 0)
    (i : Nat) : bitAt pattern i = false := by
  induction pattern generalizing start i with
  | nil => simp [bitAt]
  | cons p rest ih =>
    have shifted (j : Nat) (set : bitAt rest j = true) : start ≤ j + 8 ∧ j + 8 < start + 8 :=
      confined (j + 8) (by rw [bitAt_cons,set])
    have ahead (j : Nat) (within : j < 8) (before : j < start) : p.toNat.testBit (7 - j) = false := by
      rw [← bitAt_first p rest j within,Bool.eq_false_iff]
      exact fun set => absurd (confined j set).1 (by omega)
    suffices clear : p = 0 ∧ ∀ j, bitAt rest j = false by
      by_cases first : i < 8
      · rw [bitAt_first p rest i first,clear.1]
        exact Nat.zero_testBit _
      · rw [show i = i - 8 + 8 by omega,bitAt_cons,clear.2]
    by_cases later : 8 ≤ start
    · have none_ : p = 0 := byte_clear p fun j within => ahead j within (by omega)
      refine ⟨none_,ih (start - 8) (fun j set => ?_) ?_⟩
      · have := shifted j set
        omega
      · rw [none_,crc8_lead] at zero
        exact zero
    · have small := byte_small p start (by omega) fun j before => ahead j (by omega) before
      cases rest with
      | nil =>
        rw [crc8_cons] at zero
        exact ⟨(table_zero p).mp zero,fun j => by simp [bitAt]⟩
      | cons q rest =>
        have clear (j : Nat) : bitAt rest j = false := by
          rw [← bitAt_cons q,Bool.eq_false_iff]
          exact fun set => absurd (shifted _ set).2 (by omega)
        have multiple : q.toNat % 2^(8 - start) = 0 := byte_multiple q start (by omega) fun j within beyond => by
          rw [← bitAt_first q rest j within,Bool.eq_false_iff]
          exact fun set => absurd (shifted j set).2 (by omega)
        have same := crc8_second p q rest clear zero
        have none_ : p = 0 := table_burst p start (by omega) small (by rw [same,multiple])
        have other : q = 0 := by
          rw [← same,table_zero]
          exact none_
        refine ⟨none_,fun j => ?_⟩
        by_cases first : j < 8
        · rw [bitAt_first q rest j first,other]
          exact Nat.zero_testBit _
        · rw [show j = j - 8 + 8 by omega,bitAt_cons,clear]

/-- What decoding does with a frame before it is stuffed. -/
theorem decodeFrame_logical (length c : UInt8) (body : List UInt8) (maxPayloadBytes : Int) (withLinkStats : Bool) :
    decodeFrame (cobsEncode (length :: (body ++ [c]))) maxPayloadBytes withLinkStats =
      if length.toNat ≠ body.length then .error (.mismatch length.toNat body.length)
      else if crc8 body ≠ c then .error .crc
      else openBody body maxPayloadBytes withLinkStats := by
  have enough : ¬(length :: (body ++ [c])).length < 2 := by simp
  have inner : ((length :: (body ++ [c])).drop 1).dropLast = body := by simp
  have first : (length :: (body ++ [c])).headD 0 = length := rfl
  have last : (length :: (body ++ [c])).getLastD 0 = c := by
    rw [← List.cons_append,List.getLastD_concat]
  simp only [decodeFrame,cobsDecode_encode,bind,Except.bind,enough,inner,first,last,if_false]
  split
  · rfl
  · split
    · rfl
    · rfl

/-- A burst leaves a body that its CRC does not match. -/
theorem burst_mismatch (body pattern : List UInt8) (c : UInt8) (same : pattern.length = body.length) (burst : Burst (pattern ++ [c])) :
    crc8 (corrupt body pattern) ≠ crc8 body ^^^ c := by
  obtain ⟨⟨i,set⟩,start,confined⟩ := burst
  intro agrees
  rw [crc8_corrupt body pattern same.symm,UInt8.xor_comm,UInt8.xor_comm (crc8 body)] at agrees
  have divides := (crc8_zero pattern c).mpr (xor_cancel _ _ _ agrees)
  rw [crc8_burst _ start confined divides i] at set
  cases set

/-- Every burst in the body and its CRC is refused, and so is every other length byte. -/
theorem burst_refused (body : List UInt8) (small : body.length ≤ maxBodyBytes) (maxPayloadBytes : Int) (withLinkStats : Bool) :
    (∀ pattern : List UInt8, pattern.length = body.length + 1 → Burst pattern →
      decodeFrame (cobsEncode (UInt8.ofNat body.length :: corrupt (body ++ [crc8 body]) pattern)) maxPayloadBytes withLinkStats =
        .error .crc) ∧
    ∀ length : UInt8, length ≠ UInt8.ofNat body.length →
      decodeFrame (cobsEncode (length :: (body ++ [crc8 body]))) maxPayloadBytes withLinkStats =
        .error (.mismatch length.toNat body.length) := by
  have declared : (UInt8.ofNat body.length).toNat = body.length := by
    rw [UInt8.toNat_ofNat']
    simp only [maxBodyBytes] at small
    omega
  refine ⟨fun pattern long burst => ?_,fun length other => ?_⟩
  · obtain rfl | ⟨front,c,rfl⟩ := List.eq_nil_or_concat pattern
    · cases long
    · rw [List.concat_eq_append] at long burst ⊢
      have same : front.length = body.length := by simpa using long
      have split : corrupt (body ++ [crc8 body]) (front ++ [c]) = corrupt body front ++ [crc8 body ^^^ c] :=
        List.zipWith_append same.symm
      have size : (corrupt body front).length = body.length := by simp [corrupt,same]
      rw [split,decodeFrame_logical,if_neg (by rw [declared,size]; simp),if_pos (burst_mismatch body front c same burst)]
  · have wrong : length.toNat ≠ body.length := fun same => other (by rw [← same,UInt8.ofNat_toNat])
    rw [decodeFrame_logical,if_pos wrong]

/-- A burst over two bytes, and a length byte that is off by one. -/
theorem burst_refused_ab :
    decodeFrame (cobsEncode [0x02,0x61,0x63,0x49]) 255 false = .error .crc ∧
      decodeFrame (cobsEncode [0x03,0x61,0x62,0xC9]) 255 false = .error (.mismatch 3 2) := by
  have refused := burst_refused [0x61,0x62] (by decide) 255 false
  have shape : UInt8.ofNat ([0x61,0x62] : List UInt8).length :: corrupt ([0x61,0x62] ++ [crc8 [0x61,0x62]]) [0x00,0x01,0x80] =
      [0x02,0x61,0x63,0x49] := by decide +kernel
  have closed : ([0x61,0x62] : List UInt8) ++ [crc8 [0x61,0x62]] = [0x61,0x62,0xC9] := by decide +kernel
  have burst := refused.1 [0x00,0x01,0x80] rfl
  have length := refused.2 0x03 (by decide)
  rw [shape] at burst
  rw [closed] at length
  refine ⟨burst ⟨⟨15,by decide⟩,15,fun i set => ?_⟩,length⟩
  by_cases inside : i < 24
  · have every : ∀ j < 24, bitAt [0x00,0x01,0x80] j = true → 15 ≤ j ∧ j < 23 := by decide
    exact every i inside set
  · have beyond : bitAt [0x00,0x01,0x80] i = false := by
      rw [bitAt,List.getD_eq_getElem?_getD,List.getElem?_eq_none (by simp only [List.length_cons,List.length_nil]; omega)]
      exact Nat.zero_testBit _
    rw [beyond] at set
    cases set

end AmigaFleet.Lora
