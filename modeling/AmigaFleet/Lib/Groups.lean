import Mathlib.Data.List.Basic

/-! A list cut into runs. A run has its aim once one of its items aims, and the
next item that moves after that begins another run. -/
namespace Lib.Groups
variable {α : Type} (moves aims : α → Bool)

/-- The runs, from the one that is open and whether it has its aim. -/
def cutFrom : List α → Bool → List α → List (List α)
  | current,_,[] => if current.isEmpty then [] else [current]
  | current,aimed,x::rest =>
    if moves x && aimed then current :: cutFrom [x] (aims x) rest
    else cutFrom (current ++ [x]) (aimed || aims x) rest

def cut (items : List α) : List (List α) := cutFrom moves aims [] false items

theorem cutFrom_flatten (current : List α) (aimed : Bool) (items : List α) :
    (cutFrom moves aims current aimed items).flatten = current ++ items := by
  induction items generalizing current aimed with
  | nil =>
    rw [cutFrom]
    split
    · rename_i none_
      simp [List.isEmpty_iff.mp none_]
    · simp
  | cons x rest ih =>
    rw [cutFrom]
    split
    · rw [List.flatten_cons,ih,List.singleton_append]
    · rw [ih,List.append_assoc,List.singleton_append]

/-- The runs hold the items, in order. -/
theorem cut_flatten (items : List α) : (cut moves aims items).flatten = items :=
  cutFrom_flatten moves aims [] false items

end Lib.Groups
