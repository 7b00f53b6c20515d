import Mathlib.Data.List.Chain
import Mathlib.Data.List.Basic
import Mathlib.Logic.Function.Basic

/-! What is offered is held back while the last of its kind that passed is near. What
passes of a kind is apart, and what is held back is near one that passed before it. -/
namespace Lib.Throttle
variable {α κ τ : Type} [DecidableEq κ] (kind : α → κ) (time : α → τ) (near : τ → τ → Bool)

def held (last : κ → Option τ) (a : α) : Bool := (last (kind a)).any (fun t => near t (time a))

def ofKind (k : κ) (items : List α) : List α := items.filter (fun a => kind a = k)

/-- Two lists that end in an item each. -/
theorem split_last (items front back : List α) (a b : α) (split : items ++ [b] = front ++ a::back) :
    (back = [] ∧ front = items ∧ a = b) ∨ ∃ rest, back = rest ++ [b] ∧ items = front ++ a::rest := by
  obtain empty | ⟨rest,c,whole⟩ := List.eq_nil_or_concat' back
  · rw [empty] at split
    obtain ⟨same,last⟩ := List.append_inj' split rfl
    injection last with last
    exact .inl ⟨empty,same.symm,last.symm⟩
  · rw [whole,← List.cons_append,← List.append_assoc] at split
    obtain ⟨same,last⟩ := List.append_inj' split rfl
    injection last with last
    exact .inr ⟨rest,by rw [whole,last],same⟩

/-- What was offered, what passed of it, and when the last of each kind passed. -/
structure Kept (offered passed : List α) (last : κ → Option τ) : Prop where
  sublist : passed.Sublist offered
  latest : ∀ k, last k = (ofKind kind k passed).getLast?.map time
  apart : ∀ k, (ofKind kind k passed).IsChain (fun a b => near (time a) (time b) = false)
  covered : ∀ front a back, offered = front ++ a::back → ∃ ahead, ahead <+: passed ∧
    ahead.Sublist (front ++ [a]) ∧ ∃ e ∈ ahead, kind e = kind a ∧ (e = a ∨ near (time e) (time a) = true)

namespace Kept
variable {kind time near} {offered passed : List α} {last : κ → Option τ} {a : α}

theorem start : Kept kind time near [] [] (fun _ => none) where
  sublist := List.Sublist.slnil
  latest := fun _ => rfl
  apart := fun _ => List.isChain_nil
  covered := fun front a back split => by simp at split

theorem hold (kept : Kept kind time near offered passed last) (close : held kind time near last a = true) :
    Kept kind time near (offered ++ [a]) passed last := by
  refine ⟨kept.sublist.trans (List.sublist_append_left _ _),kept.latest,kept.apart,?_⟩
  intro front b back split
  obtain ⟨_,whole,here⟩ | ⟨rest,_,before⟩ := split_last offered front back b a split
  · obtain ⟨t,found,near_⟩ := (Option.any_eq_true _ _).mp close
    rw [kept.latest] at found
    obtain ⟨e,final,when_⟩ := Option.map_eq_some_iff.mp found
    obtain ⟨inside,same⟩ := List.mem_filter.mp (List.mem_of_getLast? final)
    refine ⟨passed,List.prefix_refl passed,?_,e,inside,?_,.inr ?_⟩
    · rw [whole]
      exact kept.sublist.trans (List.sublist_append_left _ _)
    · rw [here]
      exact of_decide_eq_true same
    · rw [here,when_]
      exact near_
  · exact kept.covered front b rest before

theorem pass (kept : Kept kind time near offered passed last) (far : held kind time near last a = false) :
    Kept kind time near (offered ++ [a]) (passed ++ [a]) (Function.update last (kind a) (some (time a))) := by
  have ofSelf : ofKind kind (kind a) [a] = [a] := by simp [ofKind]
  have ofOther (k : κ) (other : k ≠ kind a) : ofKind kind k [a] = [] := by simp [ofKind,Ne.symm other]
  have ofAppend (k : κ) : ofKind kind k (passed ++ [a]) = ofKind kind k passed ++ ofKind kind k [a] :=
    List.filter_append ..
  refine ⟨kept.sublist.append (List.Sublist.refl _),?_,?_,?_⟩
  · intro k
    rw [ofAppend]
    by_cases same : k = kind a
    · rw [same,Function.update_self,ofSelf]
      simp
    · rw [Function.update_of_ne same,ofOther k same,List.append_nil]
      exact kept.latest k
  · intro k
    rw [ofAppend]
    by_cases same : k = kind a
    · rw [same,ofSelf]
      refine List.isChain_append.mpr ⟨kept.apart _,List.isChain_singleton a,?_⟩
      intro e final b only
      injection only with only
      have latest : last (kind a) = some (time e) := by rw [kept.latest,Option.mem_def.mp final]; rfl
      rw [held,latest] at far
      rw [← only]
      exact far
    · rw [ofOther k same,List.append_nil]
      exact kept.apart k
  · intro front b back split
    obtain ⟨_,whole,here⟩ | ⟨rest,_,before⟩ := split_last offered front back b a split
    · refine ⟨passed ++ [a],List.prefix_refl _,?_,a,by simp,by rw [here],.inl here.symm⟩
      rw [whole,here]
      exact kept.sublist.append (List.Sublist.refl _)
    · obtain ⟨ahead,isPrefix,sublist,there⟩ := kept.covered front b rest before
      exact ⟨ahead,isPrefix.trans (List.prefix_append _ _),sublist,there⟩

/-- Every kind that was offered passed. -/
theorem kinds (kept : Kept kind time near offered passed last) (member : a ∈ offered) :
    ∃ e ∈ passed, kind e = kind a := by
  obtain ⟨front,back,split⟩ := List.append_of_mem member
  obtain ⟨ahead,isPrefix,_,e,inside,same,_⟩ := kept.covered front a back split
  exact ⟨e,isPrefix.subset inside,same⟩

end Kept
end Lib.Throttle
