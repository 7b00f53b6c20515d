import Mathlib.Data.List.Basic

/-! Control flow of statements that may raise. The state reached before the
exception is kept, as it is where the statements mutate objects in place. -/
namespace Lib

inductive Flow (σ : Type) where
  | returned (state : σ)
  | raised (state : σ)
  deriving DecidableEq, Repr

namespace Flow
variable {σ τ α κ : Type}

def state : Flow σ → σ
  | returned s => s
  | raised s => s

def finished : Flow σ → Bool
  | returned _ => true
  | raised _ => false

/-- The next statement runs unless this one raised. -/
def andThen (first : Flow σ) (next : σ → Flow σ) : Flow σ :=
  match first with
  | returned s => next s
  | raised s => raised s

/-- `try: ... except Exception: pass`. -/
def handled (first : Flow σ) : Flow σ := returned first.state

def map (f : σ → τ) : Flow σ → Flow τ
  | returned s => returned (f s)
  | raised s => raised (f s)

/-- A `for` loop; an exception in the body leaves the loop. -/
def forEach (body : α → σ → Flow σ) : List α → σ → Flow σ
  | [],s => returned s
  | item::rest,s => (body item s).andThen (forEach body rest)

@[simp] theorem state_returned (s : σ) : (returned s).state = s := rfl
@[simp] theorem state_raised (s : σ) : (raised s).state = s := rfl
@[simp] theorem andThen_returned (s : σ) (next : σ → Flow σ) : (returned s).andThen next = next s := rfl
@[simp] theorem andThen_raised (s : σ) (next : σ → Flow σ) : (raised s).andThen next = raised s := rfl
@[simp] theorem state_handled (first : Flow σ) : first.handled.state = first.state := rfl
@[simp] theorem state_map (f : σ → τ) (first : Flow σ) : (first.map f).state = f first.state := by
  cases first <;> rfl

/-- Sequencing rule: what both statements keep, their sequence keeps. -/
theorem andThen_keeps (P : σ → Prop) (first : Flow σ) (next : σ → Flow σ)
    (before : P first.state) (keeps : ∀ s, P s → P (next s).state) :
    P (first.andThen next).state := by
  cases first with
  | returned s => exact keeps s before
  | raised s => exact before

/-- Loop rule: what each round keeps, the loop keeps. -/
theorem forEach_keeps (P : σ → Prop) (body : α → σ → Flow σ) (items : List α) (s : σ)
    (before : P s) (keeps : ∀ item ∈ items, ∀ s, P s → P (body item s).state) :
    P (forEach body items s).state := by
  induction items generalizing s with
  | nil => exact before
  | cons item rest ih =>
    apply andThen_keeps P _ _ (keeps item (by simp) s before)
    intro next holds
    exact ih next holds (fun i member => keeps i (by simp [member]))

/-- The statements extend the trace, and an exception leaves a mark in what they add. -/
def Marks (trace : σ → List κ) (mark : κ → Prop) (base : List κ) (flow : Flow σ) : Prop :=
  ∃ added, trace flow.state = added ++ base ∧ ∀ s, flow = raised s → ∃ call ∈ added, mark call

theorem marks_returned (trace : σ → List κ) (mark : κ → Prop) (base : List κ) (s : σ) (grown : base <:+ trace s) :
    (returned s).Marks trace mark base := by
  obtain ⟨added,same⟩ := grown
  exact ⟨added,same.symm,nofun⟩

theorem Marks.grows {trace : σ → List κ} {mark : κ → Prop} {base : List κ} {flow : Flow σ}
    (marks : flow.Marks trace mark base) : base <:+ trace flow.state := by
  obtain ⟨added,same,-⟩ := marks
  exact ⟨added,same.symm⟩

/-- From an earlier point of the trace. -/
theorem Marks.since {trace : σ → List κ} {mark : κ → Prop} {base earlier : List κ} {flow : Flow σ}
    (marks : flow.Marks trace mark base) (grown : earlier <:+ base) : flow.Marks trace mark earlier := by
  obtain ⟨added,same,marked⟩ := marks
  obtain ⟨before,rfl⟩ := grown
  refine ⟨added ++ before,by rw [same,List.append_assoc],fun s raise => ?_⟩
  obtain ⟨call,member,holds⟩ := marked s raise
  exact ⟨call,List.mem_append_left _ member,holds⟩

theorem Marks.andThen {trace : σ → List κ} {mark : κ → Prop} {base : List κ} {first : Flow σ} {next : σ → Flow σ}
    (before : first.Marks trace mark base) (after : ∀ s, (next s).Marks trace mark (trace s)) :
    (first.andThen next).Marks trace mark base := by
  cases first with
  | returned s => exact (after s).since before.grows
  | raised s => exact before

theorem marks_forEach {trace : σ → List κ} {mark : κ → Prop} {body : α → σ → Flow σ}
    (each : ∀ item s, (body item s).Marks trace mark (trace s)) (items : List α) (s : σ) :
    (forEach body items s).Marks trace mark (trace s) := by
  induction items generalizing s with
  | nil => exact marks_returned _ _ _ _ (List.suffix_refl _)
  | cons item rest ih => exact (each item s).andThen ih

/-- Without a mark among what was added, nothing raised. -/
theorem Marks.unmarked {trace : σ → List κ} {mark : κ → Prop} {base : List κ} {flow : Flow σ}
    (marks : flow.Marks trace mark base)
    (clean : ∀ added, trace flow.state = added ++ base → ∀ call ∈ added, ¬ mark call) :
    flow = .returned flow.state := by
  cases flow with
  | returned s => rfl
  | raised s =>
    obtain ⟨added,same,marked⟩ := marks
    obtain ⟨call,member,holds⟩ := marked s rfl
    exact absurd holds (clean added same call member)

end Flow
end Lib
