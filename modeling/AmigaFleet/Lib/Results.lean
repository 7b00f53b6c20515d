import Mathlib.Logic.Basic

/-! What a computation that may fail went through when it did not. -/
namespace Lib
variable {ε α β : Type}

theorem bind_ok (first : Except ε α) (next : α → Except ε β) (result : β)
    (ok : (first >>= next) = .ok result) : ∃ value, first = .ok value ∧ next value = .ok result := by
  cases first with
  | error error => cases ok
  | ok value => exact ⟨value,rfl,ok⟩

theorem bind_returns (first : Except ε α) (next : α → Except ε β) :
    (∃ result, (first >>= next) = .ok result) ↔ ∃ value, first = .ok value ∧ ∃ result, next value = .ok result := by
  constructor
  · rintro ⟨result,ok⟩
    obtain ⟨value,here,there⟩ := bind_ok first next result ok
    exact ⟨value,here,result,there⟩
  · rintro ⟨value,rfl,result,there⟩
    exact ⟨result,there⟩

end Lib
