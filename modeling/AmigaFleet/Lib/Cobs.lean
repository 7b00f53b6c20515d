import Mathlib.Data.List.Basic
import Mathlib.Tactic.Linarith

/-! Consistent overhead byte stuffing, as blocks. A block is a run of data bytes
without zeros, short enough for its code byte; a block that is not full stands
for its bytes and a zero, except at the end. -/
namespace Lib.Cobs

structure Block where
  bytes : List UInt8
  short : bytes.length ≤ 254 := by decide
  clean : 0 ∉ bytes := by decide
  deriving DecidableEq

namespace Block

def empty : Block := { bytes := [] }

def code (b : Block) : UInt8 := UInt8.ofNat (b.bytes.length + 1)

def full (b : Block) : Bool := b.bytes.length = 254

theorem code_toNat (b : Block) : b.code.toNat = b.bytes.length + 1 := by
  have short := b.short
  rw [code,UInt8.toNat_ofNat']
  omega

theorem code_ne_zero (b : Block) : b.code ≠ 0 := by
  intro zero
  have value := b.code_toNat
  rw [zero] at value
  cases value

theorem code_full (b : Block) : b.code = 0xFF ↔ b.full = true := by
  have value := b.code_toNat
  constructor
  · intro same
    rw [same] at value
    have length : b.bytes.length = 254 := by simpa using value.symm
    simp [full,length]
  · intro isFull
    have length : b.bytes.length = 254 := by simpa [full] using isFull
    rw [code,length]
    rfl

end Block

def stuff : List Block → List UInt8
  | [] => []
  | b::rest => b.code :: (b.bytes ++ stuff rest)

def content : List Block → List UInt8
  | [] => []
  | [b] => b.bytes
  | b::next::rest => b.bytes ++ ((if b.full then [] else [0]) ++ content (next::rest))

theorem stuff_append (first second : List Block) : stuff (first ++ second) = stuff first ++ stuff second := by
  induction first with
  | nil => rfl
  | cons b rest ih => simp [stuff,ih]

theorem stuff_clean (blocks : List Block) : 0 ∉ stuff blocks := by
  induction blocks with
  | nil => simp [stuff]
  | cons b rest ih =>
    simp only [stuff,List.mem_cons,List.mem_append,not_or]
    exact ⟨Ne.symm b.code_ne_zero,b.clean,ih⟩

theorem content_cons (b : Block) (rest : List Block) (more : rest ≠ []) :
    content (b::rest) = b.bytes ++ ((if b.full then [] else [0]) ++ content rest) := by
  cases rest with
  | nil => exact absurd rfl more
  | cons next rest => rfl

theorem content_code (b : Block) (rest : List Block) : content (b::rest) =
    b.bytes ++ ((if b.code ≠ 0xFF ∧ stuff rest ≠ [] then [0] else []) ++ content rest) := by
  cases rest with
  | nil => simp [stuff,content]
  | cons next more =>
    have further : stuff (next::more) ≠ [] := by simp [stuff]
    rw [content_cons b _ (by simp)]
    by_cases isFull : b.full = true
    · simp [isFull,(b.code_full).mpr isFull]
    · have other : b.code ≠ 0xFF := fun same => isFull ((b.code_full).mp same)
      simp [isFull,other,further]

theorem stuff_length (blocks : List Block) :
    (stuff blocks).length ≤ (content blocks).length + 1 + (content blocks).length / 254 := by
  have counted : (blocks ≠ [] → (stuff blocks).length + 1 ≤ (content blocks).length + 2 +
      (content blocks).length / 254) := by
    induction blocks with
    | nil => exact fun absent => absurd rfl absent
    | cons b rest ih =>
      intro _
      by_cases more : rest = []
      · subst more
        simp only [stuff,content,List.length_cons,List.length_append,List.length_nil]
        omega
      · have deeper := ih more
        rw [content_cons b rest more]
        cases isFull : b.full with
        | true =>
          have length : b.bytes.length = 254 := by simpa [Block.full] using isFull
          simp only [stuff,if_true,List.length_cons,List.length_append,List.length_nil,length]
          omega
        | false =>
          simp only [stuff,Bool.false_eq_true,if_false,List.length_cons,List.length_append,List.length_nil]
          omega
  by_cases absent : blocks = []
  · subst absent
    simp [stuff]
  · have bound := counted absent
    omega

/-- The blocks of the data that follows, the first of them begun already. -/
def splitFrom (b : Block) : List UInt8 → List Block
  | [] => [b]
  | byte::rest =>
    if zero : byte = 0 then b :: splitFrom .empty rest
    else if room : b.bytes.length + 1 ≤ 254 then
      let grown : Block := ⟨b.bytes ++ [byte],by simpa using room,by simp [b.clean,Ne.symm zero]⟩
      if grown.full then grown :: splitFrom .empty rest else splitFrom grown rest
    else b :: splitFrom .empty rest

def split (data : List UInt8) : List Block := splitFrom .empty data

theorem splitFrom_ne_nil (b : Block) (data : List UInt8) : splitFrom b data ≠ [] := by
  induction data generalizing b with
  | nil => simp [splitFrom]
  | cons byte rest ih =>
    unfold splitFrom
    split
    · simp
    · split
      · dsimp only
        split
        · simp
        · exact ih _
      · simp

theorem content_splitFrom (b : Block) (data : List UInt8) (room : b.full = false) :
    content (splitFrom b data) = b.bytes ++ data := by
  induction data generalizing b with
  | nil => simp [splitFrom,content]
  | cons byte rest ih =>
    have short : b.bytes.length + 1 ≤ 254 := by
      have most := b.short
      have other : b.bytes.length ≠ 254 := by simpa [Block.full] using room
      omega
    have fresh := ih .empty rfl
    unfold splitFrom
    split
    · rename_i zero
      rw [content_cons b _ (splitFrom_ne_nil _ _),room,fresh,zero]
      simp [Block.empty]
    · dsimp only
      split
      · rename_i isFull
        rw [content_cons _ _ (splitFrom_ne_nil _ _),isFull,fresh]
        simp [Block.empty]
      · rename_i partial_
        rw [ih _ (by simpa using partial_)]
        simp

@[simp] theorem content_split (data : List UInt8) : content (split data) = data := by
  rw [split,content_splitFrom .empty data rfl]
  simp [Block.empty]

theorem full_bytes (b c : Block) (same : b.bytes.length = c.bytes.length) : b.full = c.full := by
  simp [Block.full,same]

theorem content_change (first last : List Block) (b c : Block) (pre post : List UInt8) (x y : UInt8)
    (old : b.bytes = pre ++ x::post) (new : c.bytes = pre ++ y::post) : ∃ before after,
    content (first ++ b::last) = before ++ x::after ∧ content (first ++ c::last) = before ++ y::after := by
  have full := full_bytes b c (by simp [old,new])
  induction first with
  | nil =>
    cases last with
    | nil => exact ⟨pre,post,old,new⟩
    | cons next more =>
      refine ⟨pre,post ++ ((if b.full then [] else [0]) ++ content (next::more)),?_,?_⟩
      · simp [content,old]
      · simp [content,new,full]
  | cons d first ih =>
    obtain ⟨before,after,left,right⟩ := ih
    refine ⟨d.bytes ++ ((if d.full then [] else [0]) ++ before),after,?_,?_⟩
    · rw [List.cons_append,content_cons _ _ (by simp),left]
      simp
    · rw [List.cons_append,content_cons _ _ (by simp),right]
      simp

theorem content_prefix (first more : List Block) : content first <+: content (first ++ more) := by
  induction first with
  | nil => exact List.nil_prefix
  | cons b rest ih =>
    by_cases none : rest = []
    · subst none
      cases more with
      | nil => exact List.prefix_refl _
      | cons next others => exact List.prefix_append _ _
    · rw [List.cons_append,content_cons b _ none,content_cons b _ (by simp [none])]
      exact (List.prefix_append_right_inj _).mpr ((List.prefix_append_right_inj _).mpr ih)

/-- For each byte that is sent, whether it is carried data and not a code byte. -/
def carried : List Block → List Bool
  | [] => []
  | b::rest => false :: (b.bytes.map (fun _ => true) ++ carried rest)

theorem stuff_place (blocks : List Block) (before after : List UInt8) (byte : UInt8)
    (cut : stuff blocks = before ++ byte::after) : ∃ first b last, blocks = first ++ b::last ∧
    ((before = stuff first ∧ byte = b.code ∧ after = b.bytes ++ stuff last ∧
        (carried blocks)[before.length]? = some false) ∨
      ∃ pre post, b.bytes = pre ++ byte::post ∧ before = stuff first ++ b.code::pre ∧ after = post ++ stuff last ∧
        (carried blocks)[before.length]? = some true) := by
  induction blocks generalizing before with
  | nil => simp [stuff] at cut
  | cons b rest ih =>
    cases before with
    | nil =>
      injection cut with code others
      exact ⟨[],b,rest,rfl,.inl ⟨rfl,code.symm,others.symm,rfl⟩⟩
    | cons start before =>
      injection cut with code others
      obtain ⟨inside,same,split_⟩ | ⟨inside,same,split_⟩ := List.append_eq_append_iff.mp others
      · -- The byte stands in a later block.
        obtain ⟨first,c,last,rfl,place⟩ := ih inside split_
        refine ⟨b::first,c,last,rfl,?_⟩
        obtain ⟨at_,is,then_,mark⟩ | ⟨pre,post,is,at_,then_,mark⟩ := place
        · refine .inl ⟨by simp [stuff,code,same,at_],is,then_,?_⟩
          simpa [carried,same,List.getElem?_append] using mark
        · refine .inr ⟨pre,post,is,by simp [stuff,code,same,at_],then_,?_⟩
          simpa [carried,same,List.getElem?_append] using mark
      · cases inside with
        | nil =>
          obtain ⟨first,c,last,rfl,place⟩ := ih [] (by simpa using split_.symm)
          refine ⟨b::first,c,last,rfl,?_⟩
          simp only [List.append_nil] at same
          obtain ⟨at_,is,then_,mark⟩ | ⟨pre,post,is,at_,then_,mark⟩ := place
          · refine .inl ⟨by simp [stuff,code,same,← at_],is,then_,?_⟩
            simpa [carried,same,List.getElem?_append] using mark
          · simp at at_
        | cons head post =>
          injection split_ with is then_
          refine ⟨[],b,rest,rfl,.inr ⟨before,post,by rw [same,is],by simp [stuff,code],then_,?_⟩⟩
          simp [carried,same]

theorem splitFrom_last (b : Block) (data : List UInt8) (room : b.full = false) :
    ∃ first last, splitFrom b data = first ++ [last] ∧ last.full = false := by
  induction data generalizing b with
  | nil => exact ⟨[],b,rfl,room⟩
  | cons byte rest ih =>
    obtain ⟨first,last,same,open_⟩ := ih .empty rfl
    unfold splitFrom
    split
    · exact ⟨b::first,last,by rw [same]; rfl,open_⟩
    · split
      · dsimp only
        split
        · exact ⟨_::first,last,by rw [same]; rfl,open_⟩
        · rename_i partial_
          exact ih _ (by simpa using partial_)
      · exact ⟨b::first,last,by rw [same]; rfl,open_⟩

end Lib.Cobs
