import Mathlib.Logic.Basic

/-! Deterministic labelled machines, the states their runs reach, and the
induction over a run. A guard restricts the steps a run may take; the guard
that is always true gives every run. -/
namespace Lib

structure Machine (σ ℓ : Type) where
  initial : σ → Prop
  enabled : σ → ℓ → Prop
  next : σ → ℓ → σ

namespace Machine
variable {σ ℓ : Type} (m : Machine σ ℓ)

inductive Reaches (guard : σ → ℓ → Prop) : σ → Prop
  | start (s : σ) (initial : m.initial s) : Reaches guard s
  | step (s : σ) (label : ℓ) (before : Reaches guard s) (enabled : m.enabled s label)
      (allowed : guard s label) : Reaches guard (m.next s label)

def Reachable (s : σ) : Prop := m.Reaches (fun _ _ => True) s

/-- The run rule: an invariant of the guarded steps holds in every state reached. -/
theorem Reaches.invariant {m : Machine σ ℓ} {guard : σ → ℓ → Prop} (I : σ → Prop)
    (base : ∀ s, m.initial s → I s)
    (keeps : ∀ s label, m.Reaches guard s → I s → m.enabled s label → guard s label →
      I (m.next s label))
    (s : σ) (reached : m.Reaches guard s) : I s := by
  induction reached with
  | start s initial => exact base s initial
  | step s label before enabled allowed ih => exact keeps s label before ih enabled allowed

theorem Reaches.weaken {m : Machine σ ℓ} {guard other : σ → ℓ → Prop}
    (implies : ∀ s label, guard s label → other s label)
    (s : σ) (reached : m.Reaches guard s) : m.Reaches other s := by
  induction reached with
  | start s initial => exact .start s initial
  | step s label _ enabled allowed ih => exact .step s label ih enabled (implies s label allowed)

theorem Reaches.reachable {m : Machine σ ℓ} {guard : σ → ℓ → Prop}
    (s : σ) (reached : m.Reaches guard s) : m.Reachable s :=
  reached.weaken (fun _ _ _ => trivial)

/-- The state after a list of labels, whether or not they were enabled. -/
def runs (s : σ) (labels : List ℓ) : σ := labels.foldl m.next s

/-- Every label is enabled and allowed where the run takes it. -/
def Follows (guard : σ → ℓ → Prop) (s : σ) : List ℓ → Prop
  | [] => True
  | label::rest => m.enabled s label ∧ guard s label ∧ Follows guard (m.next s label) rest

/-- What the guarded steps keep, a list of labels that follows the guard keeps. -/
theorem Follows.keeps {m : Machine σ ℓ} {guard : σ → ℓ → Prop} (I : σ → Prop)
    (keeps : ∀ s label, I s → m.enabled s label → guard s label → I (m.next s label))
    (s : σ) (labels : List ℓ) (follows : m.Follows guard s labels) (holds : I s) : I (m.runs s labels) := by
  induction labels generalizing s with
  | nil => exact holds
  | cons label rest ih => exact ih _ follows.2.2 (keeps s label holds follows.1 follows.2.1)

instance decidableFollows (guard : σ → ℓ → Prop) [∀ s label, Decidable (m.enabled s label)]
    [∀ s label, Decidable (guard s label)] (s : σ) : (labels : List ℓ) → Decidable (m.Follows guard s labels)
  | [] => inferInstanceAs (Decidable True)
  | label::rest =>
    have := decidableFollows guard (m.next s label) rest
    inferInstanceAs (Decidable (_ ∧ _ ∧ _))

theorem reaches_runs (guard : σ → ℓ → Prop) (s : σ) (labels : List ℓ)
    (reached : m.Reaches guard s) (follows : m.Follows guard s labels) :
    m.Reaches guard (m.runs s labels) := by
  induction labels generalizing s with
  | nil => exact reached
  | cons label rest ih =>
    exact ih _ (.step s label reached follows.1 follows.2.1) follows.2.2

/-- A guard that holds of the labels in any state. -/
theorem Follows.guarded {m : Machine σ ℓ} {guard : σ → ℓ → Prop} (s : σ) (labels : List ℓ)
    (follows : m.Follows (fun _ _ => True) s labels) (allowed : ∀ label ∈ labels, ∀ s, guard s label) :
    m.Follows guard s labels := by
  induction labels generalizing s with
  | nil => exact follows
  | cons label rest ih =>
    exact ⟨follows.1,allowed label List.mem_cons_self s,
      ih _ follows.2.2 (fun other later => allowed other (List.mem_cons_of_mem label later))⟩

/-- A history kept beside the state: it sees every step and changes none. -/
def withHistory {ρ : Type} (start : ρ) (note : σ → ρ → ℓ → ρ) : Machine (σ × ρ) ℓ where
  initial := fun s => m.initial s.1 ∧ s.2 = start
  enabled := fun s label => m.enabled s.1 label
  next := fun s label => (m.next s.1 label,note s.1 s.2 label)

end Machine
end Lib
