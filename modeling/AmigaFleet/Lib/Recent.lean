import AmigaFleet.Lib.Dict

/-! What a bounded dictionary with expiring entries is sure to hold: the
entries placed last, for as long as they are alive and there is room for the
keys placed since. -/
namespace Lib.Dict
variable {κ α : Type} [DecidableEq κ]

/-- The dictionary ends in these entries, each alive and under a key of the window. -/
structure Recent (alive : α → Prop) (window : Finset κ) (d : Dict κ α) (recent : List (κ × α)) : Prop where
  newest : recent <:+ d.entries
  within : ∀ e ∈ recent, e.1 ∈ window
  live : ∀ e ∈ recent, alive e.2

variable {alive : α → Prop} {window : Finset κ} {d : Dict κ α} {recent : List (κ × α)}

omit [DecidableEq κ] in
theorem Recent.nil (alive : α → Prop) (window : Finset κ) (d : Dict κ α) : Recent alive window d [] :=
  ⟨List.nil_suffix,fun _ member => absurd member List.not_mem_nil,fun _ member => absurd member List.not_mem_nil⟩

theorem Recent.get? (held : Recent alive window d recent) (key : κ) (value : α) (member : (key,value) ∈ recent) :
    d.get? key = some value :=
  (d.get?_eq_some key value).mpr (held.newest.subset member)

omit [DecidableEq κ] in
theorem Recent.length_le (held : Recent alive window d recent) : recent.length ≤ window.card := by
  have distinct : (recent.map Prod.fst).Nodup :=
    d.distinct.sublist (List.Sublist.map Prod.fst held.newest.sublist)
  classical
  calc recent.length = (recent.map Prod.fst).toFinset.card := by
        rw [List.toFinset_card_of_nodup distinct,List.length_map]
    _ ≤ window.card := by
        apply Finset.card_le_card
        intro key inside
        obtain ⟨e,member,rfl⟩ := List.mem_map.mp (List.mem_toFinset.mp inside)
        exact held.within e member

omit [DecidableEq κ] in
/-- Expired entries leave from the front, and stop at the first one alive. -/
theorem Recent.dropStale (held : Recent alive window d recent) (stale : α → Bool)
    (fresh : ∀ value, alive value → stale value = false) : Recent alive window (d.dropStale stale) recent := by
  constructor
  · obtain ⟨old,split⟩ := held.newest
    have kept : recent.dropWhile (fun e => stale e.2) = recent := by
      cases recent with
      | nil => rfl
      | cons e rest =>
        apply List.dropWhile_cons_of_neg
        rw [fresh e.2 (held.live e List.mem_cons_self)]
        exact Bool.false_ne_true
    simp only [Dict.dropStale,← split,List.dropWhile_append]
    split
    · rw [kept]
    · exact List.suffix_append _ _
  · exact held.within
  · exact held.live

/-- The entries under the other keys, in their order, and then the one placed. -/
def placedLast (recent : List (κ × α)) (key : κ) (value : α) : List (κ × α) :=
  recent.filter (fun e => e.1 ≠ key) ++ [(key,value)]

theorem Recent.pop (held : Recent alive window d recent) (key : κ) :
    Recent alive window (d.pop key) (recent.filter (fun e => e.1 ≠ key)) := by
  constructor
  · obtain ⟨old,split⟩ := held.newest
    simp only [Dict.pop,retain,← split,List.filter_append]
    exact List.suffix_append _ _
  · exact fun e member => held.within e (List.mem_filter.mp member).1
  · exact fun e member => held.live e (List.mem_filter.mp member).1

theorem Recent.place (held : Recent alive window d recent) (key : κ) (value : α) (inside : key ∈ window)
    (fresh : alive value) : Recent alive window (d.place key value) (placedLast recent key value) := by
  have others := held.pop key
  constructor
  · obtain ⟨old,split⟩ := others.newest
    simp only [Dict.place,placedLast,← split,List.append_assoc]
    exact List.suffix_append _ _
  · intro e member
    rcases List.mem_append.mp member with old | new
    · exact others.within e old
    · rw [List.mem_singleton.mp new]
      exact inside
  · intro e member
    rcases List.mem_append.mp member with old | new
    · exact others.live e old
    · rw [List.mem_singleton.mp new]
      exact fresh

omit [DecidableEq κ] in
/-- Room for every key of the window is room for what was placed last. -/
theorem Recent.trim (held : Recent alive window d recent) (most : Nat) (room : window.card ≤ most) :
    Recent alive window (d.trim most) recent := by
  have short := held.length_le
  constructor
  · obtain ⟨old,split⟩ := held.newest
    have size : d.size = old.length + recent.length := by rw [size,← split,List.length_append]
    simp only [Dict.trim,← split]
    rw [List.drop_append_of_le_length (by omega)]
    exact List.suffix_append _ _
  · exact held.within
  · exact held.live

theorem absent_dropStale (d : Dict κ α) (stale : α → Bool) (key : κ) (absent : d.get? key = none) :
    (d.dropStale stale).get? key = none := by
  apply Option.eq_none_iff_forall_ne_some.mpr
  intro value found
  rw [get?_dropStale d stale key value found] at absent
  cases absent

theorem absent_trim (d : Dict κ α) (most : Nat) (key : κ) (absent : d.get? key = none) :
    (d.trim most).get? key = none := by
  apply Option.eq_none_iff_forall_ne_some.mpr
  intro value found
  rw [get?_trim d most key value found] at absent
  cases absent

theorem mem_placedLast_self (recent : List (κ × α)) (key : κ) (value : α) : (key,value) ∈ placedLast recent key value :=
  List.mem_append_right _ (List.mem_singleton_self _)

theorem mem_placedLast_of_ne (recent : List (κ × α)) (key other : κ) (value held : α) (different : other ≠ key)
    (member : (other,held) ∈ recent) : (other,held) ∈ placedLast recent key value :=
  List.mem_append_left _ (List.mem_filter.mpr ⟨member,by simpa using different⟩)

theorem keys_placedLast (recent : List (κ × α)) (key other : κ) (value : α) :
    other ∈ (placedLast recent key value).map Prod.fst ↔ other = key ∨ other ∈ recent.map Prod.fst := by
  by_cases same : other = key
  · simp [placedLast,same]
  · simp [placedLast,same]

end Lib.Dict
