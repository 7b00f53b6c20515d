import Mathlib.Data.List.Infix
import Mathlib.Data.List.Basic

/-! Where a text first stands in another, and what text appended behind does to it. -/
namespace Lib.Search
variable {α : Type} [DecidableEq α]

/-- `text.find(needle)`. -/
def find (needle : List α) : List α → Option Nat
  | [] => if needle = [] then some 0 else none
  | first::rest => if needle <+: first::rest then some 0 else (find needle rest).map (fun i => i + 1)

example : find ['b','a'] ['a','b','b','a'] = some 2 := by simp [find]

theorem find_some (needle text : List α) (i : Nat) (found : find needle text = some i) : needle <+: text.drop i := by
  induction text generalizing i with
  | nil =>
    simp only [find] at found
    split at found
    · rename_i empty
      rw [empty]
      exact List.nil_prefix
    · cases found
  | cons first rest ih =>
    simp only [find] at found
    split at found
    · rename_i here
      injection found with found
      rw [← found]
      exact here
    · obtain ⟨j,later,rfl⟩ := Option.map_eq_some_iff.mp found
      exact ih j later

theorem find_first (needle text : List α) (i : Nat) (found : find needle text = some i) (j : Nat)
    (before : j < i) : ¬needle <+: text.drop j := by
  induction text generalizing i j with
  | nil =>
    simp only [find] at found
    split at found
    · injection found with found
      omega
    · cases found
  | cons first rest ih =>
    simp only [find] at found
    split at found
    · injection found with found
      omega
    · rename_i elsewhere
      obtain ⟨k,later,rfl⟩ := Option.map_eq_some_iff.mp found
      cases j with
      | zero => exact elsewhere
      | succ j => exact ih k later j (by omega)

theorem find_le (needle text : List α) (i : Nat) (found : find needle text = some i) : i + needle.length ≤ text.length := by
  induction text generalizing i with
  | nil =>
    simp only [find] at found
    split at found
    · rename_i empty
      injection found with found
      simp [empty,← found]
    · cases found
  | cons first rest ih =>
    simp only [find] at found
    split at found
    · rename_i here
      injection found with found
      have shorter := here.length_le
      omega
    · obtain ⟨j,later,rfl⟩ := Option.map_eq_some_iff.mp found
      have inside := ih j later
      simp only [List.length_cons]
      omega

/-- The first place is the place found. -/
theorem find_eq (needle text : List α) (i : Nat) (inside : i ≤ text.length) (here : needle <+: text.drop i)
    (first : ∀ j, j < i → ¬needle <+: text.drop j) : find needle text = some i := by
  induction text generalizing i with
  | nil =>
    obtain rfl : i = 0 := by simpa using inside
    have empty : needle = [] := by simpa using here
    simp [find,empty]
  | cons head rest ih =>
    cases i with
    | zero =>
      simp only [find]
      have start : needle <+: head::rest := here
      rw [if_pos start]
    | succ i =>
      simp only [find]
      have later : ¬needle <+: head::rest := first 0 (by omega)
      rw [if_neg later,ih i (by simpa using inside) here (fun j before => first (j+1) (by omega))]
      rfl

theorem find_none (needle text : List α) (missing : find needle text = none) (j : Nat) (inside : j ≤ text.length) :
    ¬needle <+: text.drop j := by
  induction text generalizing j with
  | nil =>
    simp only [find] at missing
    split at missing
    · cases missing
    · rename_i some_
      simpa using some_
  | cons first rest ih =>
    simp only [find] at missing
    split at missing
    · cases missing
    · rename_i elsewhere
      cases j with
      | zero => exact elsewhere
      | succ j => exact ih (Option.map_eq_none_iff.mp missing) j (by simpa using inside)

/-- What was found is found there still when more text comes behind. -/
theorem find_append (needle text more : List α) (i : Nat) (found : find needle text = some i) :
    find needle (text ++ more) = some i := by
  have inside := find_le needle text i found
  apply find_eq
  · rw [List.length_append]
    omega
  · rw [List.drop_append_of_le_length (by omega)]
    exact (find_some needle text i found).trans (List.prefix_append _ _)
  · intro j before there
    rw [List.drop_append_of_le_length (by omega)] at there
    apply find_first needle text i found j before
    apply List.prefix_of_prefix_length_le there (List.prefix_append _ _)
    rw [List.length_drop]
    omega

end Lib.Search
