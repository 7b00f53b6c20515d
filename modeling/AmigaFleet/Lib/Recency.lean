import Mathlib.Data.List.Nodup
import Mathlib.Data.List.Basic
import Mathlib.Data.Finset.Card

/-! The latest event of each key in a history, newest first. Histories keep
the newest event at the head; what a bounded least-recently-used store may
still hold is a part of this list. -/
namespace Lib.Recency
variable {κ τ : Type} [DecidableEq κ]

def recency : List (κ × τ) → List (κ × τ)
  | [] => []
  | event::before => event::(recency before).filter (fun e => e.1 ≠ event.1)

/-- When `key` was last in the history. -/
def latest (key : κ) (history : List (κ × τ)) : Option τ :=
  (history.find? (fun e => e.1 = key)).map Prod.snd

/-- What came after `key` was last in the history. -/
def after (key : κ) (history : List (κ × τ)) : List (κ × τ) :=
  history.takeWhile (fun e => e.1 ≠ key)

def keys (history : List (κ × τ)) : Finset κ := (history.map Prod.fst).toFinset

theorem recency_sublist (history : List (κ × τ)) : (recency history).Sublist history := by
  induction history with
  | nil => exact .slnil
  | cons event before ih => exact (List.filter_sublist.trans ih).cons_cons event

theorem recency_distinct (history : List (κ × τ)) : ((recency history).map Prod.fst).Nodup := by
  induction history with
  | nil => exact List.nodup_nil
  | cons event before ih =>
    rw [recency,List.map_cons,List.nodup_cons]
    constructor
    · intro inside
      obtain ⟨e,member,same⟩ := List.mem_map.mp inside
      simp [same] at member
    · exact ih.sublist (List.Sublist.map Prod.fst List.filter_sublist)

theorem recency_keys (history : List (κ × τ)) (key : κ) :
    key ∈ (recency history).map Prod.fst ↔ key ∈ history.map Prod.fst := by
  induction history with
  | nil => rfl
  | cons event before ih =>
    rw [recency,List.map_cons,List.map_cons,List.mem_cons,List.mem_cons,← ih]
    by_cases same : key = event.1
    · simp [same]
    · apply or_congr Iff.rfl
      constructor
      · exact fun inside => (List.Sublist.map Prod.fst List.filter_sublist).subset inside
      · intro inside
        obtain ⟨e,member,equal⟩ := List.mem_map.mp inside
        apply List.mem_map.mpr ⟨e,List.mem_filter.mpr ⟨member,_⟩,equal⟩
        simpa [equal] using same

theorem mem_recency (history : List (κ × τ)) (key : κ) (time : τ) :
    (key,time) ∈ recency history ↔ latest key history = some time := by
  induction history with
  | nil => simp [recency,latest]
  | cons event before ih =>
    obtain ⟨k,t⟩ := event
    rw [recency,List.mem_cons,List.mem_filter,ih]
    by_cases same : k = key
    · simp [latest,same,eq_comm]
    · simp [latest,same,Ne.symm same]

theorem recency_length (history : List (κ × τ)) : (recency history).length = (keys history).card := by
  have same : keys history = ((recency history).map Prod.fst).toFinset := by
    ext key
    rw [keys,List.mem_toFinset,List.mem_toFinset,recency_keys]
  rw [same,List.toFinset_card_of_nodup (recency_distinct history),List.length_map]

theorem recency_after (key : κ) (history : List (κ × τ)) :
    (recency history).takeWhile (fun e => e.1 ≠ key) = recency (after key history) := by
  induction history with
  | nil => rfl
  | cons event before ih =>
    obtain ⟨k,t⟩ := event
    by_cases same : k = key
    · simp [recency,after,same]
    · have passes : ∀ e : κ × τ, (!decide (e.1 ≠ k) || decide (e.1 ≠ key)) = decide (e.1 ≠ key) := by
        intro e
        by_cases equal : e.1 = k <;> simp [equal,same]
      have kept : after key ((k,t)::before) = (k,t)::after key before := by simp [after,same]
      rw [kept,recency,recency,← ih,List.takeWhile_cons_of_pos (by simpa using same),List.takeWhile_filter]
      simp only [passes]

theorem take_filter {α : Type} (p : α → Bool) (n : Nat) (l : List α)
    (closed : l.Pairwise (fun a b => p b = true → p a = true)) : (l.take n).filter p = (l.filter p).take n := by
  induction l generalizing n with
  | nil => simp
  | cons a rest ih =>
    rw [List.pairwise_cons] at closed
    cases n with
    | zero => rfl
    | succ n =>
      rw [List.take_succ_cons]
      by_cases holds : p a = true
      · rw [List.filter_cons_of_pos holds,List.filter_cons_of_pos holds,List.take_succ_cons,ih n closed.2]
      · have none : rest.filter p = [] := List.filter_eq_nil_iff.mpr (fun b member => mt (closed.1 b member) holds)
        rw [List.filter_cons_of_neg holds,List.filter_cons_of_neg holds,ih n closed.2,none,List.take_nil,
          List.take_nil]

/-- Without one of its keys, a list of one entry a key has lost at most one entry. -/
theorem take_other (key : κ) (n : Nat) (l : List (κ × τ)) (distinct : (l.map Prod.fst).Nodup) :
    ((l.take (n + 1)).filter (fun e => e.1 ≠ key)).take n = (l.filter (fun e => e.1 ≠ key)).take n := by
  induction l generalizing n with
  | nil => rfl
  | cons event rest ih =>
    rw [List.map_cons,List.nodup_cons] at distinct
    rw [List.take_succ_cons]
    by_cases same : event.1 = key
    · have others : rest.filter (fun e => e.1 ≠ key) = rest := by
        apply List.filter_eq_self.mpr
        intro e member
        have away : e.1 ≠ key := fun equal =>
          distinct.1 (same ▸ equal ▸ List.mem_map_of_mem (f := Prod.fst) member)
        simpa using away
      have taken : (rest.take n).filter (fun e => e.1 ≠ key) = rest.take n := by
        apply List.filter_eq_self.mpr
        intro e member
        rw [← others] at member
        exact (List.mem_filter.mp (List.take_subset n _ member)).2
      rw [List.filter_cons_of_neg (by simpa using same),List.filter_cons_of_neg (by simpa using same),others,taken,
        List.take_take,Nat.min_self]
    · rw [List.filter_cons_of_pos (by simpa using same),List.filter_cons_of_pos (by simpa using same)]
      cases n with
      | zero => rfl
      | succ n => rw [List.take_succ_cons,List.take_succ_cons,ih n distinct.2]

theorem mem_take (key : κ) (time : τ) (n : Nat) (l : List (κ × τ)) (distinct : (l.map Prod.fst).Nodup) :
    (key,time) ∈ l.take n ↔ (key,time) ∈ l ∧ (l.takeWhile (fun e => e.1 ≠ key)).length < n := by
  induction l generalizing n with
  | nil => simp
  | cons event rest ih =>
    rw [List.map_cons,List.nodup_cons] at distinct
    cases n with
    | zero => simp
    | succ n =>
      rw [List.take_succ_cons,List.mem_cons,List.mem_cons,ih n distinct.2]
      by_cases same : event.1 = key
      · have away : (key,time) ∉ rest := fun inside =>
          distinct.1 (same ▸ List.mem_map_of_mem (f := Prod.fst) inside)
        simp [same,away]
      · have other : (key,time) ≠ event := fun equal => same (equal ▸ rfl)
        simp [same,other]

/-- The newest `n` entries hold `key` exactly when fewer than `n` other keys came after it. -/
theorem mem_take_recency (key : κ) (time : τ) (n : Nat) (history : List (κ × τ)) :
    (key,time) ∈ (recency history).take n ↔
      latest key history = some time ∧ (keys (after key history)).card < n := by
  rw [mem_take key time n _ (recency_distinct history),mem_recency,recency_after,recency_length]

end Lib.Recency
