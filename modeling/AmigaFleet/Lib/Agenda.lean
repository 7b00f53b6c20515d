import Mathlib.Data.List.Sort

/-! Timed entries: what is pushed waits in order and is taken from the front. Where
nothing is pushed before what was already taken, the entries taken are in order too,
each is taken once, and those of one source in the order they were pushed. -/
namespace Lib.Agenda
variable {α : Type} {r : α → α → Prop}

theorem pairwise_insert [IsTrans α r] (le : α → α → Prop) [DecidableRel le] (entry : α) (l : List α)
    (sorted : l.Pairwise r) (apart : ∀ e ∈ l, (le entry e → r entry e) ∧ (¬ le entry e → r e entry)) :
    (l.orderedInsert le entry).Pairwise r := by
  induction l with
  | nil => exact List.pairwise_singleton r entry
  | cons first rest ih =>
    obtain ⟨least,sorted'⟩ := List.pairwise_cons.mp sorted
    obtain ⟨here,later⟩ := List.forall_mem_cons.mp apart
    rw [List.orderedInsert_cons]
    split
    · rename_i before
      apply List.pairwise_cons.mpr ⟨_,sorted⟩
      intro e member
      obtain rfl | member := List.mem_cons.mp member
      · exact here.1 before
      · exact trans_of r (here.1 before) (least e member)
    · rename_i after
      apply List.pairwise_cons.mpr ⟨_,ih sorted' later⟩
      intro e member
      obtain rfl | member := (List.mem_orderedInsert le).mp member
      · exact here.2 after
      · exact least e member

/-- What was taken, what waits, and all that was pushed. -/
structure Timely (r : α → α → Prop) (taken pending pushed : List α) : Prop where
  sorted : (taken ++ pending).Pairwise r
  same : (taken ++ pending).Perm pushed

theorem Timely.start : Timely r [] [] [] := ⟨List.Pairwise.nil,List.Perm.refl _⟩

theorem Timely.push [IsTrans α r] (le : α → α → Prop) [DecidableRel le] (taken pending pushed : List α)
    (timely : Timely r taken pending pushed) (entry : α)
    (apart : ∀ e ∈ pending, (le entry e → r entry e) ∧ (¬ le entry e → r e entry)) (later : ∀ e ∈ taken, r e entry) :
    Timely r taken (pending.orderedInsert le entry) (pushed ++ [entry]) := by
  obtain ⟨before,after,across⟩ := List.pairwise_append.mp timely.sorted
  constructor
  · apply List.pairwise_append.mpr ⟨before,pairwise_insert le entry pending after apart,_⟩
    intro first inside second member
    obtain rfl | member := (List.mem_orderedInsert le).mp member
    · exact later first inside
    · exact across first inside second member
  · have inserted := (List.perm_orderedInsert le entry pending).append_left taken
    have moved := inserted.trans List.perm_middle
    have all := moved.trans (timely.same.cons entry)
    exact all.trans (List.perm_append_singleton entry pushed).symm

theorem Timely.pop (taken due pending pushed : List α) (timely : Timely r taken (due ++ pending) pushed) :
    Timely r (taken ++ due) pending pushed := by
  constructor
  · rw [List.append_assoc]
    exact timely.sorted
  · rw [List.append_assoc]
    exact timely.same

/-- Entries pushed in order come out as they were pushed. -/
theorem Timely.stream (asymmetric : ∀ a b, r a b → ¬ r b a) (taken pending pushed : List α)
    (timely : Timely r taken pending pushed) (p : α → Bool) (ordered : (pushed.filter p).Pairwise r) :
    (taken ++ pending).filter p = pushed.filter p := by
  apply List.Perm.eq_of_pairwise _ (timely.sorted.filter p) ordered (timely.same.filter p)
  intro a b _ _ first second
  exact absurd second (asymmetric a b first)

/-- So many entries of each source, and so many sources. -/
theorem length_sources {κ : Type} [DecidableEq κ] (source : α → κ) (sources : List κ) (most : Nat) (l : List α)
    (known : ∀ e ∈ l, source e ∈ sources)
    (few : ∀ k ∈ sources, (l.filter (fun e => source e = k)).length ≤ most) : l.length ≤ most * sources.length := by
  induction sources generalizing l with
  | nil =>
    cases l with
    | nil => exact Nat.zero_le _
    | cons e rest => exact absurd (known e List.mem_cons_self) List.not_mem_nil
  | cons k rest ih =>
    have others := ih (l.filter (fun e => !decide (source e = k)))
      (by
        intro e here
        obtain ⟨inside,differ⟩ := List.mem_filter.mp here
        obtain same | later := List.mem_cons.mp (known e inside)
        · simp [same] at differ
        · exact later)
      (by
        intro j inside
        exact ((List.filter_sublist.filter _).length_le).trans (few j (List.mem_cons_of_mem k inside)))
    have mine := few k List.mem_cons_self
    have split_ := List.length_eq_length_filter_add (l := l) (fun e => decide (source e = k))
    rw [List.length_cons,Nat.mul_succ]
    omega

end Lib.Agenda
