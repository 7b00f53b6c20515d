import Mathlib.Data.List.Nodup

/-! Workers with keys, at most one for a key at a time, and a trail of what they do. A
worker has its marks so far; what is on the trail about a key is then the visits of that
key that ended, one behind the other, and the marks of the one that is there. -/
namespace Lib

section
variable {κ μ τ : Type} [DecidableEq κ] (key : τ → κ) (about : μ → Option κ) (marks : τ → List μ)

/-- The part of a trail that is about one key. -/
def aboutKey (trail : List μ) (k : κ) : List μ := trail.filter (fun m => about m = some k)

structure Visits (Ended : κ → List μ → Prop) (trail : List μ) (live : List τ) : Prop where
  apart : (live.map key).Nodup
  visits : ∀ k, ∃ past : List (List μ), (∀ visit ∈ past, Ended k visit) ∧
    aboutKey about trail k = past.flatten ++ (live.filter (fun t => key t = k)).flatMap marks

variable {key about marks}

theorem aboutKey_append (trail new : List μ) (k : κ) :
    aboutKey about (trail ++ new) k = aboutKey about trail k ++ aboutKey about new k := List.filter_append _ _

theorem aboutKey_all (new : List μ) (k : κ) (all : ∀ m ∈ new, about m = some k) : aboutKey about new k = new :=
  List.filter_eq_self.mpr (fun m member => decide_eq_true (all m member))

theorem aboutKey_none (new : List μ) (k : κ) (none_ : ∀ m ∈ new, about m ≠ some k) : aboutKey about new k = [] :=
  List.filter_eq_nil_iff.mpr (fun m member => by simpa using none_ m member)

/-- The only worker with its key. -/
theorem filter_key (before later : List τ) (t : τ) (apart : ((before ++ t :: later).map key).Nodup) :
    before.filter (fun other => key other = key t) = [] ∧ later.filter (fun other => key other = key t) = [] := by
  rw [List.map_append,List.map_cons,List.nodup_append] at apart
  obtain ⟨-,behind,across⟩ := apart
  constructor
  · apply List.filter_eq_nil_iff.mpr
    intro other member same
    exact across _ (List.mem_map_of_mem member) _ List.mem_cons_self (of_decide_eq_true same)
  · apply List.filter_eq_nil_iff.mpr
    intro other member same
    exact (List.nodup_cons.mp behind).1 (of_decide_eq_true same ▸ List.mem_map_of_mem member)

theorem keys_without (before later : List τ) (t : τ) (apart : ((before ++ t :: later).map key).Nodup) :
    ((before ++ t :: later).map key).filter (fun k => k ≠ key t) = (before ++ later).map key := by
  obtain ⟨front,back⟩ := filter_key before later t apart
  have others (items : List τ) (none_ : items.filter (fun other => key other = key t) = []) :
      (items.map key).filter (fun k => k ≠ key t) = items.map key := by
    apply List.filter_eq_self.mpr
    intro k member
    obtain ⟨other,inside,rfl⟩ := List.mem_map.mp member
    simpa using List.filter_eq_nil_iff.mp none_ other inside
  rw [List.map_append,List.map_cons,List.filter_append,List.filter_cons_of_neg (by simp),others before front,
    others later back,List.map_append]

/-- A place of a list, what stands around it, and what of it is written to or taken out. -/
theorem split_place (items : List τ) (k : Nat) (t : τ) (found : items[k]? = some t) :
    ∃ before later, items = before ++ t :: later ∧ (∀ t', items.set k t' = before ++ t' :: later) ∧
      items.eraseIdx k = before ++ later := by
  induction items generalizing k with
  | nil => cases found
  | cons head rest ih =>
    cases k with
    | zero =>
      obtain rfl : head = t := by simpa using found
      exact ⟨[],rest,rfl,fun _ => rfl,rfl⟩
    | succ k =>
      obtain ⟨before,later,same,set,erase⟩ := ih k (by simpa using found)
      refine ⟨head::before,later,?_,fun t' => ?_,?_⟩
      · rw [same,List.cons_append]
      · rw [List.set_cons_succ,set,List.cons_append]
      · rw [List.eraseIdx_cons_succ,erase,List.cons_append]

namespace Visits
variable {Ended : κ → List μ → Prop} {trail : List μ}

theorem start : Visits key about marks Ended [] [] := ⟨List.nodup_nil,fun _ => ⟨[],nofun,rfl⟩⟩

/-- Marks that are about no key. -/
theorem pass {live : List τ} (visits : Visits key about marks Ended trail live) (new : List μ)
    (none_ : ∀ m ∈ new, about m = none) : Visits key about marks Ended (trail ++ new) live := by
  refine ⟨visits.apart,fun k => ?_⟩
  obtain ⟨past,ended,same⟩ := visits.visits k
  refine ⟨past,ended,?_⟩
  rw [aboutKey_append,aboutKey_none new k (fun m member => by rw [none_ m member]; exact nofun),List.append_nil,same]

/-- A worker comes in under a key that nobody has. -/
theorem enter {live : List τ} (visits : Visits key about marks Ended trail live) (t : τ) (free : key t ∉ live.map key)
    (own : ∀ m ∈ marks t, about m = some (key t)) : Visits key about marks Ended (trail ++ marks t) (live ++ [t]) := by
  constructor
  · rw [List.map_append]
    refine List.nodup_append.mpr ⟨visits.apart,List.nodup_singleton _,?_⟩
    intro k member other last same
    rw [same,List.mem_singleton.mp last] at member
    exact free member
  · intro k
    obtain ⟨past,ended,same⟩ := visits.visits k
    refine ⟨past,ended,?_⟩
    rw [aboutKey_append,same,List.filter_append,List.flatMap_append,List.append_assoc]
    by_cases here : key t = k
    · rw [aboutKey_all (marks t) k (fun m member => here ▸ own m member),List.filter_cons_of_pos (by simpa using here)]
      simp
    · rw [aboutKey_none (marks t) k (fun m member => by rw [own m member]; exact fun other => here (Option.some.inj other)),
        List.filter_cons_of_neg (by simpa using here)]
      simp

/-- A worker goes on. -/
theorem work {before later : List τ} {t : τ} (visits : Visits key about marks Ended trail (before ++ t :: later)) (t' : τ)
    (same : key t' = key t) (new : List μ) (more : marks t' = marks t ++ new) (own : ∀ m ∈ new, about m = some (key t)) :
    Visits key about marks Ended (trail ++ new) (before ++ t' :: later) := by
  constructor
  · have apart := visits.apart
    rw [List.map_append,List.map_cons] at apart ⊢
    rwa [same]
  · intro k
    obtain ⟨past,ended,shape⟩ := visits.visits k
    refine ⟨past,ended,?_⟩
    rw [aboutKey_append,shape]
    by_cases here : key t = k
    · obtain ⟨front,back⟩ := filter_key before later t visits.apart
      subst here
      rw [aboutKey_all new _ own]
      simp [List.filter_append,front,back,same,more]
    · rw [aboutKey_none new k (fun m member => by rw [own m member]; exact fun other => here (Option.some.inj other))]
      simp [List.filter_append,same,here]

/-- A worker leaves, and its visit has ended. -/
theorem leave {before later : List τ} {t : τ} (visits : Visits key about marks Ended trail (before ++ t :: later))
    (new : List μ) (own : ∀ m ∈ new, about m = some (key t)) (whole : Ended (key t) (marks t ++ new)) :
    Visits key about marks Ended (trail ++ new) (before ++ later) := by
  constructor
  · exact visits.apart.sublist ((List.Sublist.append_left (List.sublist_cons_self t later) before).map key)
  · intro k
    obtain ⟨past,ended,shape⟩ := visits.visits k
    by_cases here : key t = k
    · obtain ⟨front,back⟩ := filter_key before later t visits.apart
      subst here
      refine ⟨past ++ [marks t ++ new],?_,?_⟩
      · intro visit member
        obtain old | last := List.mem_append.mp member
        · exact ended visit old
        · rw [List.mem_singleton.mp last]
          exact whole
      · rw [aboutKey_append,shape,aboutKey_all new _ own]
        simp [List.filter_append,front,back]
    · refine ⟨past,ended,?_⟩
      rw [aboutKey_append,shape,
        aboutKey_none new k (fun m member => by rw [own m member]; exact fun other => here (Option.some.inj other))]
      simp [List.filter_append,here]

end Visits
end
end Lib
