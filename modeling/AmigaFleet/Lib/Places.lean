import Mathlib.Data.List.Nodup
import Mathlib.Data.List.Count
import Mathlib.Data.List.Basic

/-! Lists as rows of places: what one place written to, or taken out, leaves of the
others. -/
namespace Lib

/-- What stands in a list where one place has been written to. -/
theorem set_placed {α : Type} (items : List α) (i : Nat) (x : α) (j : Nat) (y : α)
    (found : (items.set i x)[j]? = some y) : (j = i ∧ y = x) ∨ (j ≠ i ∧ items[j]? = some y) := by
  rw [List.getElem?_set] at found
  split at found
  · rename_i same
    split at found
    · exact .inl ⟨same.symm,(Option.some.inj found).symm⟩
    · cases found
  · rename_i other
    exact .inr ⟨fun same => other same.symm,found⟩

theorem mem_set_other {α : Type} (items : List α) (i : Nat) (x before other : α) (mine : items[i]? = some before)
    (member : other ∈ items) (different : other ≠ before) : other ∈ items.set i x := by
  obtain ⟨j,found⟩ := List.mem_iff_getElem?.mp member
  have apart : i ≠ j := by
    rintro rfl
    rw [mine] at found
    exact different (Option.some.inj found).symm
  exact List.mem_iff_getElem?.mpr ⟨j,by rw [List.getElem?_set_ne apart,found]⟩

/-- The place written to goes on under its key. -/
theorem map_set_key {α κ : Type} (key : α → κ) (items : List α) (i : Nat) (x after : α) (mine : items[i]? = some x)
    (same : key after = key x) : (items.set i after).map key = items.map key := by
  obtain ⟨bound,rfl⟩ := List.getElem?_eq_some_iff.mp mine
  refine List.ext_getElem? (fun j => ?_)
  rw [List.getElem?_map,List.getElem?_map,List.getElem?_set]
  split
  · rename_i here
    subst here
    simp [bound,same]
  · rfl

/-- Where keys are distinct, the others have other keys than the place written to. -/
theorem mem_set_key {α κ : Type} (key : α → κ) (items : List α) (i : Nat) (x after other : α)
    (distinct : (items.map key).Nodup) (mine : items[i]? = some x) (member : other ∈ items.set i after) :
    other = after ∨ (other ∈ items ∧ key other ≠ key x) := by
  obtain ⟨j,found⟩ := List.mem_iff_getElem?.mp member
  obtain ⟨-,rfl⟩ | ⟨apart,found⟩ := set_placed items i after j other found
  · exact .inl rfl
  · refine .inr ⟨List.mem_of_getElem? found,fun same => apart ?_⟩
    obtain ⟨bound,there⟩ := List.getElem?_eq_some_iff.mp found
    obtain ⟨here,mine⟩ := List.getElem?_eq_some_iff.mp mine
    have inside : j < (items.map key).length := by simpa using bound
    have within : i < (items.map key).length := by simpa using here
    have keys : (items.map key)[j] = (items.map key)[i] := by simpa [there,mine] using same
    exact distinct.getElem_inj_iff.mp keys

/-- How many there are after one was replaced. -/
theorem countP_replaced {α : Type} (p : α → Bool) (items : List α) (i : Nat) (x after : α) (mine : items[i]? = some x) :
    (items.set i after).countP p + (p x).toNat = items.countP p + (p after).toNat := by
  obtain ⟨bound,rfl⟩ := List.getElem?_eq_some_iff.mp mine
  have here := List.boole_getElem_le_countP (p := p) bound
  rw [List.countP_set bound]
  generalize p items[i] = before at here ⊢
  cases before <;> cases p after <;>
    simp only [reduceIte,Bool.false_eq_true,Bool.toNat_true,Bool.toNat_false] at here ⊢ <;> omega

/-- A list with one place written to, read so that nothing changes. -/
theorem filterMap_set {α β : Type} (before after : α → Option β) (items : List α) (k : Nat) (x y : α)
    (found : items[k]? = some x) (here : after y = before x)
    (others : ∀ j z, j ≠ k → items[j]? = some z → after z = before z) :
    (items.set k y).filterMap after = items.filterMap before := by
  have mapped : (items.set k y).map after = items.map before := by
    refine List.ext_getElem? (fun j => ?_)
    rw [List.getElem?_map,List.getElem?_map,List.getElem?_set]
    split
    · rename_i same
      subst same
      obtain ⟨inside,same⟩ := List.getElem?_eq_some_iff.mp found
      simp [inside,here,same]
    · rename_i other
      cases there : items[j]? with
      | none => rfl
      | some z => simp [others j z (fun same => other same.symm) there]
  have read := congrArg (List.filterMap id) mapped
  simpa only [List.filterMap_map,Function.id_comp] using read

/-- What is not looked for may be taken off the list. -/
theorem filter_eraseIdx {α : Type} (p : α → Bool) (items : List α) (k : Nat) (x : α) (found : items[k]? = some x)
    (fails : p x = false) : (items.eraseIdx k).filter p = items.filter p := by
  induction items generalizing k with
  | nil => rfl
  | cons head rest ih =>
    cases k with
    | zero =>
      obtain rfl : head = x := by simpa using found
      simp [fails]
    | succ k =>
      rw [List.eraseIdx_cons_succ,List.filter_cons,List.filter_cons,ih k (by simpa using found)]

end Lib
