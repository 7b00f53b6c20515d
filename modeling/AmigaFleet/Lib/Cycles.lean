import Mathlib.Data.List.Rotate
import Mathlib.Data.List.Zip

/-! The neighbours in a closed chain, and how often a property changes along it. -/
namespace Lib.Cycles
variable {α : Type}

/-- The neighbours in a list that closes on itself. -/
def pairs (items : List α) : List (α × α) := items.zip (items.rotate 1)

theorem pairs_cons (first : α) (rest : List α) : pairs (first::rest) = (first::rest).zip (rest ++ [first]) := by
  rw [pairs,List.rotate_cons_succ,List.rotate_zero]

theorem pairs_map {β : Type} (f : α → β) (items : List α) : pairs (items.map f) = (pairs items).map (Prod.map f f) := by
  rw [pairs,← List.map_rotate]
  exact List.zip_map

theorem chain_changes (p : α → Bool) (first last : α) (rest : List α) :
    ((first::rest).zip (rest ++ [last])).countP (fun e => p e.1 != p e.2) % 2 = (p first != p last).toNat := by
  induction rest generalizing first with
  | nil => cases one : p first <;> cases other : p last <;> simp [one,other]
  | cons next rest ih =>
    rw [List.cons_append,List.zip_cons_cons,List.countP_cons,Nat.add_mod,ih next]
    cases p first <;> cases p next <;> cases p last <;> rfl

/-- Going once around, a property changes an even number of times. -/
theorem changes_even (p : α → Bool) (items : List α) : (pairs items).countP (fun e => p e.1 != p e.2) % 2 = 0 := by
  cases items with
  | nil => rfl
  | cons first rest =>
    rw [pairs_cons,chain_changes]
    cases p first <;> rfl

theorem countP_bne (p q : α → Bool) (items : List α) :
    (items.countP p + items.countP q) % 2 = items.countP (fun e => p e != q e) % 2 := by
  induction items with
  | nil => rfl
  | cons item rest ih =>
    simp only [List.countP_cons]
    cases p item <;> cases q item <;> simp <;> omega

theorem pairs_rotate (items : List α) (n : Nat) : pairs (items.rotate n) = (pairs items).rotate n := by
  rw [pairs,List.rotate_rotate,Nat.add_comm,← List.rotate_rotate]
  exact (List.zipWith_rotate_distrib Prod.mk items (items.rotate 1) n (List.length_rotate items 1).symm).symm

/-- Where a closed chain begins does not change its neighbours. -/
theorem pairs_rotate_perm (items : List α) (n : Nat) : (pairs (items.rotate n)).Perm (pairs items) := by
  rw [pairs_rotate]
  exact List.rotate_perm _ n

/-- Backwards, each pair of neighbours is met from the other side. -/
theorem pairs_reverse_perm (items : List α) : (pairs items.reverse).Perm ((pairs items).map Prod.swap) := by
  cases items with
  | nil => exact List.Perm.refl _
  | cons first rest =>
    have turned : (first::rest).reverse = (first::rest.reverse).rotate 1 := by
      rw [List.rotate_cons_succ,List.rotate_zero,List.reverse_cons]
    have back : (first::rest.reverse).zip (rest.reverse ++ [first]) = ((rest ++ [first]).zip (first::rest)).reverse := by
      unfold List.zip
      rw [List.reverse_zipWith (by simp),List.reverse_append,List.reverse_singleton,List.singleton_append,List.reverse_cons]
    rw [turned]
    refine (pairs_rotate_perm _ 1).trans ?_
    rw [pairs_cons,pairs_cons,back,List.zip_swap]
    exact List.reverse_perm _

end Lib.Cycles
