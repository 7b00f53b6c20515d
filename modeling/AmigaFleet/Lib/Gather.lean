import AmigaFleet.Lib.Dict
import Mathlib.Data.List.Basic

/-! Loops that read records one by one and keep what they read, in a list or under
a key. The first record that cannot be read ends the loop. -/
namespace Lib
variable {α β κ ν ε : Type}

/-- `[... for x in xs if ...]`. -/
def collect (read : α → Except ε (Option β)) : List α → Except ε (List β)
  | [] => .ok []
  | x::rest => do
    let kept ← read x
    return kept.toList ++ (← collect read rest)

theorem collect_cons (read : α → Except ε (Option β)) (x : α) (rest : List α) (kept : List β)
    (ok : collect read (x::rest) = .ok kept) :
    ∃ first others, read x = .ok first ∧ collect read rest = .ok others ∧ kept = first.toList ++ others := by
  cases first : read x with
  | error e => simp [collect,first,bind,Except.bind] at ok
  | ok value =>
    cases others : collect read rest with
    | error e => simp [collect,first,others,bind,Except.bind] at ok
    | ok values =>
      simp only [collect,first,others,bind,Except.bind,pure,Except.pure,Except.ok.injEq] at ok
      exact ⟨value,values,rfl,rfl,ok.symm⟩

theorem collect_ok_iff (read : α → Except ε (Option β)) (xs : List α) :
    (∃ kept, collect read xs = .ok kept) ↔ ∀ x ∈ xs, ∃ value, read x = .ok value := by
  induction xs with
  | nil => simp [collect]
  | cons x rest ih =>
    constructor
    · rintro ⟨kept,ok⟩ y member
      obtain ⟨first,others,here,later,_⟩ := collect_cons read x rest kept ok
      rcases List.mem_cons.mp member with same | inside
      · exact ⟨first,same ▸ here⟩
      · exact ih.mp ⟨others,later⟩ y inside
    · intro all
      obtain ⟨first,here⟩ := all x (List.mem_cons_self ..)
      obtain ⟨others,later⟩ := ih.mpr (fun y inside => all y (List.mem_cons_of_mem _ inside))
      exact ⟨first.toList ++ others,by simp [collect,here,later,bind,Except.bind,pure,Except.pure]⟩

theorem mem_collect (read : α → Except ε (Option β)) (xs : List α) (kept : List β) (ok : collect read xs = .ok kept)
    (value : β) : value ∈ kept ↔ ∃ x ∈ xs, read x = .ok (some value) := by
  induction xs generalizing kept with
  | nil =>
    cases ok
    simp
  | cons x rest ih =>
    obtain ⟨first,others,here,later,rfl⟩ := collect_cons read x rest kept ok
    simp only [List.mem_append,Option.mem_toList,ih others later,List.mem_cons,exists_eq_or_imp,here]
    simp

variable [DecidableEq κ]

/-- `for x in xs: d[key] = value`, where a record may have nothing to keep. -/
def gather (read : α → Except ε (Option (κ × ν))) : List α → Dict κ ν → Except ε (Dict κ ν)
  | [],d => .ok d
  | x::rest,d => do
    match ← read x with
    | none => gather read rest d
    | some (key,value) => gather read rest (d.set key value)

theorem gather_skip (read : α → Except ε (Option (κ × ν))) (x : α) (rest : List α) (d : Dict κ ν)
    (here : read x = .ok none) : gather read (x::rest) d = gather read rest d := by
  rw [gather,here]
  rfl

theorem gather_keep (read : α → Except ε (Option (κ × ν))) (x : α) (rest : List α) (d : Dict κ ν) (key : κ) (value : ν)
    (here : read x = .ok (some (key,value))) : gather read (x::rest) d = gather read rest (d.set key value) := by
  rw [gather,here]
  rfl

theorem gather_raise (read : α → Except ε (Option (κ × ν))) (x : α) (rest : List α) (d : Dict κ ν) (e : ε)
    (here : read x = .error e) : gather read (x::rest) d = .error e := by
  rw [gather,here]
  rfl

theorem gather_ok_iff (read : α → Except ε (Option (κ × ν))) (xs : List α) (d : Dict κ ν) :
    (∃ full, gather read xs d = .ok full) ↔ ∀ x ∈ xs, ∃ value, read x = .ok value := by
  induction xs generalizing d with
  | nil => simp [gather]
  | cons x rest ih =>
    rw [List.forall_mem_cons]
    cases here : read x with
    | error e => simp [gather_raise read x rest d e here]
    | ok value =>
      cases value with
      | none => simp [gather_skip read x rest d here,ih]
      | some entry => simp [gather_keep read x rest d entry.1 entry.2 here,ih]

/-- What no later record has is as it was. -/
theorem gather_frame (read : α → Except ε (Option (κ × ν))) (xs : List α) (d full : Dict κ ν)
    (ok : gather read xs d = .ok full) (key : κ) (none_ : ∀ x ∈ xs, ∀ value, read x ≠ .ok (some (key,value))) :
    full.get? key = d.get? key := by
  induction xs generalizing d with
  | nil =>
    cases ok
    rfl
  | cons x rest ih =>
    rw [List.forall_mem_cons] at none_
    cases here : read x with
    | error e =>
      rw [gather_raise read x rest d e here] at ok
      cases ok
    | ok value =>
      cases value with
      | none =>
        rw [gather_skip read x rest d here] at ok
        exact ih d ok none_.2
      | some entry =>
        rw [gather_keep read x rest d entry.1 entry.2 here] at ok
        rw [ih _ ok none_.2]
        refine Dict.get?_set_ne d entry.1 key entry.2 (fun same => ?_)
        exact none_.1 entry.2 (by rw [here,same])

/-- The last record with a key is the one kept, whatever stands before it. -/
theorem gather_last (read : α → Except ε (Option (κ × ν))) (first : List α) (x : α) (rest : List α) (d full : Dict κ ν)
    (ok : gather read (first ++ x::rest) d = .ok full) (key : κ) (value : ν) (here : read x = .ok (some (key,value)))
    (last : ∀ y ∈ rest, ∀ other, read y ≠ .ok (some (key,other))) : full.get? key = some value := by
  induction first generalizing d with
  | nil =>
    rw [List.nil_append,gather_keep read x rest d key value here] at ok
    rw [gather_frame read rest _ full ok key last]
    exact Dict.get?_set_self d key value
  | cons y first ih =>
    rw [List.cons_append] at ok
    cases found : read y with
    | error e =>
      rw [gather_raise read y _ d e found] at ok
      cases ok
    | ok kept =>
      cases kept with
      | none =>
        rw [gather_skip read y _ d found] at ok
        exact ih d ok
      | some entry =>
        rw [gather_keep read y _ d entry.1 entry.2 found] at ok
        exact ih _ ok

end Lib
