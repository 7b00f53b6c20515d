import AmigaFleet.Reliability.Notes
import Mathlib.Data.Int.Interval

/-! What the reassembler hands up: pieces that were all heard under one key with
one count, one for each index. -/
namespace AmigaFleet.Reliability
open Lib AmigaFleet.Codec

abbrev FragmentKey : Type := Int × Int × Int

def fragmentKey (m : Freeform) : FragmentKey := (m.src,m.taskId,m.noteId)

/-- Which pieces may be heard under a key, by the count and the index they name. -/
abbrev Heardable : Type := FragmentKey → Int → Int → List UInt8 → Prop

namespace NoteReassembler
variable (heard : Heardable)

def PieceOf (key : FragmentKey) (p : Partial) : Prop :=
  ∀ index text, p.fragments.get? index = some text →
    (0 ≤ index ∧ index < p.fragCount) ∧ heard key p.fragCount index text

def Holds (r : NoteReassembler) : Prop := ∀ key p, r.partials.get? key = some p → PieceOf heard key p

def Whole (note : CompletedNote) : Prop :=
  ∃ (count : Int) (piece : Nat → List UInt8), 0 < count ∧
    (∀ i : Nat, (i : Int) < count → heard (note.src,note.taskId,note.noteId) count i (piece i)) ∧
      decodeUtf8 ((List.range count.toNat).flatMap piece) = some note.text

theorem prune_holds (r : NoteReassembler) (now : ℚ) (holds : r.Holds heard) : (r.prune now).Holds heard :=
  fun key p found => holds key p (Dict.get?_dropStale _ _ key p found)

theorem set_pieceOf (key : FragmentKey) (p : Partial) (index : Int) (text : List UInt8) (expiresAt : ℚ)
    (before : PieceOf heard key p) (within : 0 ≤ index ∧ index < p.fragCount)
    (spoken : heard key p.fragCount index text) :
    PieceOf heard key ⟨p.fragCount,p.fragments.set index text,expiresAt⟩ := by
  intro other piece found
  obtain ⟨rfl,rfl⟩ | ⟨_,found⟩ := Dict.get?_set_cases found
  · exact ⟨within,spoken⟩
  · exact before other piece found

theorem complete_piece (key : FragmentKey) (p : Partial) (pieces : PieceOf heard key p)
    (complete : p.complete = true) (i : Nat) (within : (i : Int) < p.fragCount) :
    heard key p.fragCount i ((p.fragments.get? (i : Int)).getD []) := by
  have full : (p.fragments.size : Int) = p.fragCount := by simpa [Partial.complete] using complete
  have present := p.fragments.contains_of_card (Finset.Ico 0 p.fragCount) (by
    intro index member
    obtain ⟨text,found⟩ := (p.fragments.mem_keys index).mp member
    exact Finset.mem_Ico.mpr (pieces index text found).1) (by rw [Int.card_Ico]; omega) (i : Int)
    (Finset.mem_Ico.mpr ⟨Int.natCast_nonneg i,within⟩)
  obtain ⟨text,found⟩ := (p.fragments.contains_iff _).mp present
  rw [found]
  exact (pieces i text found).2

/-- The partial a fragment joins: the one under its key, or a new one if there is
none or it names another count. -/
def joined (r : NoteReassembler) (msg : Freeform) (now : ℚ) : Partial :=
  let found := r.partials.get? (fragmentKey msg)
  let fresh : Partial := ⟨msg.fragCount,.empty,now + r.ttl⟩
  if found.any (fun p => p.fragCount ≠ msg.fragCount) then fresh else found.getD fresh

theorem joined_spec (r : NoteReassembler) (msg : Freeform) (now : ℚ) (holds : r.Holds heard) :
    (r.joined msg now).fragCount = msg.fragCount ∧ PieceOf heard (fragmentKey msg) (r.joined msg now) := by
  have empty : PieceOf heard (fragmentKey msg) ⟨msg.fragCount,.empty,now + r.ttl⟩ := by
    intro index text found
    cases found
  cases found : r.partials.get? (fragmentKey msg) with
  | none =>
    simp only [joined,found,Option.any_none,Bool.false_eq_true,if_false,Option.getD_none,true_and]
    exact empty
  | some p =>
    by_cases same : p.fragCount = msg.fragCount
    · simp only [joined,found,Option.any_some,same,ne_eq,not_true_eq_false,decide_false,Bool.false_eq_true,
        if_false,Option.getD_some,true_and]
      exact holds _ p found
    · simp only [joined,found,Option.any_some,same,ne_eq,not_false_eq_true,decide_true,if_true,true_and]
      exact empty

def extended (r : NoteReassembler) (msg : Freeform) (now : ℚ) : Partial :=
  ⟨(r.joined msg now).fragCount,(r.joined msg now).fragments.set msg.fragIndex msg.text,now + r.ttl⟩

def pieceAt (p : Partial) (index : Int) : List UInt8 := (p.fragments.get? index).getD []

theorem flatMap_indices (piece : Int → List UInt8) (count : Nat) :
    ((List.range count : List Nat) : List Int).flatMap piece = (List.range count).flatMap (fun i : Nat => piece i) := by
  change List.flatMap piece (List.flatMap (fun i : Nat => [(i : Int)]) (List.range count)) = _
  rw [← List.map_eq_flatMap,List.flatMap_map]

theorem add_cases (r : NoteReassembler) (msg : Freeform) (now : ℚ) :
    ((r.add msg now).1 = none ∧ (r.add msg now).2.partials = (r.prune now).partials) ∨
    (0 ≤ msg.fragIndex ∧ msg.fragIndex < msg.fragCount) ∧
      (((r.add msg now).1 = none ∧ (r.add msg now).2.partials = ((r.prune now).partials.place
          (fragmentKey msg) ((r.prune now).extended msg now)).trim r.maxPartial) ∨
        ((r.prune now).extended msg now).complete = true ∧
          (r.add msg now).2.partials = (((r.prune now).partials.place (fragmentKey msg)
            ((r.prune now).extended msg now)).trim r.maxPartial).pop (fragmentKey msg) ∧
          ∀ note, (r.add msg now).1 = some note →
            (note.src,note.taskId,note.noteId) = fragmentKey msg ∧ decodeUtf8 ((List.range msg.fragCount.toNat).flatMap
              (fun i : Nat => pieceAt ((r.prune now).extended msg now) i)) = some note.text) := by
  obtain ⟨answer,made⟩ : ∃ answer, answer = r.add msg now := ⟨_,rfl⟩
  rw [← made]
  unfold add at made
  simp only at made
  split at made
  · subst made
    exact .inl ⟨rfl,rfl⟩
  rename_i within
  refine .inr ⟨by tauto,?_⟩
  change answer = if ((r.prune now).extended msg now).complete = true then _ else _ at made
  split at made
  · rename_i complete
    refine .inr ⟨complete,?_⟩
    split at made
    · subst made
      exact ⟨rfl,fun note read => by cases read⟩
    · rename_i text decoded
      subst made
      refine ⟨rfl,fun note read => ?_⟩
      injection read with read
      subst read
      exact ⟨rfl,(congrArg decodeUtf8 (flatMap_indices _ _)).symm.trans decoded⟩
  · subst made
    exact .inl ⟨rfl,rfl⟩

theorem add_spec (r : NoteReassembler) (msg : Freeform) (now : ℚ) (holds : r.Holds heard)
    (spoken : 0 ≤ msg.fragIndex → msg.fragIndex < msg.fragCount →
      heard (fragmentKey msg) msg.fragCount msg.fragIndex msg.text) :
    (r.add msg now).2.Holds heard ∧ ∀ note, (r.add msg now).1 = some note → Whole heard note := by
  have pruned := prune_holds heard r now holds
  obtain ⟨count,pieces⟩ := joined_spec heard (r.prune now) msg now pruned
  have placed : ∀ within : 0 ≤ msg.fragIndex ∧ msg.fragIndex < msg.fragCount,
      PieceOf heard (fragmentKey msg) ((r.prune now).extended msg now) ∧
      ∀ key p, (((r.prune now).partials.place (fragmentKey msg) ((r.prune now).extended msg now)).trim
        r.maxPartial).get? key = some p → PieceOf heard key p := by
    intro within
    have joining : PieceOf heard (fragmentKey msg) ((r.prune now).extended msg now) :=
      set_pieceOf heard (fragmentKey msg) ((r.prune now).joined msg now) msg.fragIndex msg.text _ pieces
        (by rw [count]; exact within) (by rw [count]; exact spoken within.1 within.2)
    refine ⟨joining,fun key p found => ?_⟩
    have found := Dict.get?_trim _ _ key p found
    rw [Dict.get?_place] at found
    split at found
    · rename_i same
      injection found with found
      rw [same,← found]
      exact joining
    · exact pruned key p found
  obtain ⟨silent,same⟩ | ⟨within,⟨silent,kept⟩ | ⟨complete,kept,whole⟩⟩ := add_cases r msg now
  · refine ⟨?_,fun note made => by rw [silent] at made; cases made⟩
    intro key p found
    rw [same] at found
    exact pruned key p found
  · refine ⟨?_,fun note made => by rw [silent] at made; cases made⟩
    intro key p found
    rw [kept] at found
    exact (placed within).2 key p found
  · constructor
    · intro key p found
      rw [kept] at found
      exact (placed within).2 key p (Dict.get?_pop_cases found).2
    · intro note made
      obtain ⟨about,decoded⟩ := whole note made
      refine ⟨msg.fragCount,fun i => pieceAt ((r.prune now).extended msg now) i,by omega,?_,decoded⟩
      intro i inside
      rw [about]
      have whole := complete_piece heard (fragmentKey msg) _ (placed within).1 complete i (by
        change (i : Int) < ((r.prune now).joined msg now).fragCount
        rw [count]
        exact inside)
      rwa [show ((r.prune now).extended msg now).fragCount = msg.fragCount from count] at whole

theorem add_finished (r : NoteReassembler) (msg : Freeform) (now : ℚ) :
    ((r.add msg now).1 = none ∧ (r.add msg now).2.finished = (r.prune now).finished) ∨
    ∃ note, (r.add msg now).1 = some note ∧ note.src = msg.src ∧ note.taskId = msg.taskId ∧
      (r.add msg now).2.finished = ((r.prune now).remember note now).finished := by
  obtain ⟨answer,made⟩ : ∃ answer, answer = r.add msg now := ⟨_,rfl⟩
  rw [← made]
  unfold add at made
  simp only at made
  split at made
  · subst made
    exact .inl ⟨rfl,rfl⟩
  change answer = if ((r.prune now).extended msg now).complete = true then _ else _ at made
  split at made
  · split at made
    · subst made
      exact .inl ⟨rfl,rfl⟩
    · subst made
      exact .inr ⟨_,rfl,rfl,rfl,rfl⟩
  · subst made
    exact .inl ⟨rfl,rfl⟩

end NoteReassembler
end AmigaFleet.Reliability
