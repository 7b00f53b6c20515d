import Mathlib.Order.Basic
import Mathlib.Data.List.Basic

/-! Going up a row of sizes until one does not fit. Where whatever is below a size
that fits fits too, the last size taken parts those that fit from the others. -/
namespace Lib.Climb
variable {α : Type}

def last (fits : α → Bool) (best : α) : List α → α
  | [] => best
  | size::rest => if fits size then last fits size rest else best

theorem last_mem (fits : α → Bool) (best : α) (sizes : List α) : last fits best sizes ∈ best::sizes := by
  induction sizes generalizing best with
  | nil => simp [last]
  | cons size rest ih =>
    unfold last
    split
    · exact List.mem_cons_of_mem _ (ih size)
    · exact List.mem_cons_self

theorem last_fits (fits : α → Bool) (best : α) (sizes : List α) (start : fits best = true) :
    fits (last fits best sizes) = true := by
  induction sizes generalizing best with
  | nil => exact start
  | cons size rest ih =>
    unfold last
    split
    · rename_i taken
      exact ih size taken
    · exact start

variable [Preorder α]

/-- What comes before the first misfit is not larger than the last size taken. -/
theorem le_last (fits : α → Bool) (down : ∀ a b, a ≤ b → fits b = true → fits a = true) (best : α) (sizes : List α)
    (sorted : (best::sizes).Pairwise (· ≤ ·)) (size : α) (here : size ∈ best::sizes) (good : fits size = true) :
    size ≤ last fits best sizes := by
  induction sizes generalizing best size with
  | nil =>
    obtain rfl : size = best := by simpa using here
    exact le_rfl
  | cons next rest ih =>
    obtain ⟨above,upward⟩ := List.pairwise_cons.mp sorted
    have tail := (List.pairwise_cons.mp upward).1
    cases taken : fits next with
    | true =>
      rw [last,if_pos taken]
      obtain rfl | later := List.mem_cons.mp here
      · exact (above next List.mem_cons_self).trans (ih next upward next List.mem_cons_self taken)
      · exact ih next upward size later good
    | false =>
      rw [last,if_neg (by simp [taken])]
      obtain rfl | later := List.mem_cons.mp here
      · exact le_rfl
      -- A size behind the misfit that fitted would make the misfit fit.
      · have below : next ≤ size := by
          obtain rfl | later := List.mem_cons.mp later
          · exact le_rfl
          · exact tail size later
        rw [down next size below good] at taken
        cases taken

theorem fits_iff (fits : α → Bool) (down : ∀ a b, a ≤ b → fits b = true → fits a = true) (best : α) (sizes : List α)
    (sorted : (best::sizes).Pairwise (· ≤ ·)) (start : fits best = true) (size : α) (here : size ∈ best::sizes) :
    fits size = true ↔ size ≤ last fits best sizes := by
  constructor
  · exact le_last fits down best sizes sorted size here
  · intro small
    exact down size _ small (last_fits fits best sizes start)

end Lib.Climb
