import Mathlib.Data.List.Nodup
import Mathlib.Data.List.Count
import Mathlib.Data.List.Basic
import Mathlib.Data.Finset.Card

/-! Insertion-ordered dictionaries. Assigning to a present key keeps its place,
a new key goes to the end, and iteration follows the entries. Distinctness of
the keys is a field, so a dictionary with two values for one key cannot exist. -/
namespace Lib

structure Dict (κ α : Type) where
  entries : List (κ × α)
  distinct : (entries.map Prod.fst).Nodup

namespace Dict
variable {κ α : Type} [DecidableEq κ]

instance [DecidableEq α] : DecidableEq (Dict κ α) := fun a b =>
  decidable_of_iff (a.entries = b.entries) (by cases a; cases b; simp)

def empty : Dict κ α := ⟨[],List.nodup_nil⟩

instance : Inhabited (Dict κ α) := ⟨empty⟩

def keys (d : Dict κ α) : List κ := d.entries.map Prod.fst

def values (d : Dict κ α) : List α := d.entries.map Prod.snd

def size (d : Dict κ α) : Nat := d.entries.length

def find (key : κ) : List (κ × α) → Option α
  | [] => none
  | (k,v)::rest => if k = key then some v else find key rest

def get? (d : Dict κ α) (key : κ) : Option α := find key d.entries

def contains (d : Dict κ α) (key : κ) : Bool := (d.get? key).isSome

def assign (key : κ) (value : α) : List (κ × α) → List (κ × α)
  | [] => [(key,value)]
  | (k,v)::rest => if k = key then (key,value)::rest else (k,v)::assign key value rest

theorem assign_keys (key : κ) (value : α) (entries : List (κ × α)) :
    (assign key value entries).map Prod.fst =
      if key ∈ entries.map Prod.fst then entries.map Prod.fst else entries.map Prod.fst ++ [key] := by
  induction entries with
  | nil => simp [assign]
  | cons entry rest ih =>
    obtain ⟨k,v⟩ := entry
    by_cases same : k = key
    · simp [assign,same]
    · simp only [assign,same,if_false,List.map_cons,ih,List.mem_cons,Ne.symm same,false_or]
      split <;> simp

theorem assign_nodup (key : κ) (value : α) (entries : List (κ × α))
    (distinct : (entries.map Prod.fst).Nodup) : ((assign key value entries).map Prod.fst).Nodup := by
  rw [assign_keys]
  split
  · exact distinct
  · rename_i absent
    exact List.nodup_append.mpr ⟨distinct,by simp,by
      intro a member b single equal
      exact absent (by simpa [← List.mem_singleton.mp single,← equal] using member)⟩

/-- `d[key] = value`. -/
def set (d : Dict κ α) (key : κ) (value : α) : Dict κ α :=
  ⟨assign key value d.entries,assign_nodup key value d.entries d.distinct⟩

def retain (d : Dict κ α) (keep : κ → α → Bool) : Dict κ α :=
  ⟨d.entries.filter (fun e => keep e.1 e.2),
    List.Nodup.sublist (List.Sublist.map Prod.fst List.filter_sublist) d.distinct⟩

/-- `del d[key]`, or `d.pop(key, None)` with the value read beforehand. -/
def pop (d : Dict κ α) (key : κ) : Dict κ α := d.retain (fun k _ => k ≠ key)

theorem find_some_mem (key : κ) (value : α) (entries : List (κ × α))
    (found : find key entries = some value) : (key,value) ∈ entries := by
  induction entries with
  | nil => simp [find] at found
  | cons entry rest ih =>
    obtain ⟨k,v⟩ := entry
    by_cases same : k = key
    · simp only [find,same,if_true,Option.some.injEq] at found
      simp [same,found]
    · simp only [find,same,if_false] at found
      exact List.mem_cons_of_mem _ (ih found)

theorem mem_find (key : κ) (value : α) (entries : List (κ × α))
    (distinct : (entries.map Prod.fst).Nodup) (member : (key,value) ∈ entries) :
    find key entries = some value := by
  induction entries with
  | nil => simp at member
  | cons entry rest ih =>
    obtain ⟨k,v⟩ := entry
    simp only [List.map_cons,List.nodup_cons] at distinct
    rcases List.mem_cons.mp member with equal | inside
    · cases equal
      simp [find]
    · have other : k ≠ key := by
        intro same
        exact distinct.1 (same ▸ List.mem_map_of_mem (f := Prod.fst) inside)
      simpa [find,other] using ih distinct.2 inside

theorem get?_eq_some (d : Dict κ α) (key : κ) (value : α) :
    d.get? key = some value ↔ (key,value) ∈ d.entries :=
  ⟨find_some_mem key value d.entries,mem_find key value d.entries d.distinct⟩

theorem mem_values (d : Dict κ α) (value : α) :
    value ∈ d.values ↔ ∃ key, d.get? key = some value := by
  simp only [values,List.mem_map,get?_eq_some]
  constructor
  · rintro ⟨⟨k,v⟩,member,rfl⟩
    exact ⟨k,member⟩
  · rintro ⟨key,member⟩
    exact ⟨(key,value),member,rfl⟩

theorem mem_keys (d : Dict κ α) (key : κ) : key ∈ d.keys ↔ ∃ value, d.get? key = some value := by
  simp only [keys,List.mem_map,get?_eq_some]
  constructor
  · rintro ⟨⟨k,v⟩,member,rfl⟩
    exact ⟨v,member⟩
  · rintro ⟨value,member⟩
    exact ⟨(key,value),member,rfl⟩

theorem contains_iff (d : Dict κ α) (key : κ) : d.contains key = true ↔ ∃ value, d.get? key = some value := by
  simp [contains,Option.isSome_iff_exists]

@[simp] theorem get?_empty (key : κ) : (empty : Dict κ α).get? key = none := rfl

theorem find_assign (key other : κ) (value : α) (entries : List (κ × α)) :
    find other (assign key value entries) = if other = key then some value else find other entries := by
  induction entries with
  | nil => by_cases same : key = other <;> simp [assign,find,same,eq_comm]
  | cons entry rest ih =>
    obtain ⟨k,v⟩ := entry
    by_cases same : k = key
    · subst k
      by_cases equal : key = other <;> simp [assign,find,equal,eq_comm]
    · by_cases equal : k = other
      · subst k
        simp [assign,find,same]
      · simp [assign,find,same,equal,ih]

theorem get?_set (d : Dict κ α) (key other : κ) (value : α) :
    (d.set key value).get? other = if other = key then some value else d.get? other :=
  find_assign key other value d.entries

@[simp] theorem get?_set_self (d : Dict κ α) (key : κ) (value : α) :
    (d.set key value).get? key = some value := by simp [get?_set]

theorem get?_set_ne (d : Dict κ α) (key other : κ) (value : α) (different : other ≠ key) :
    (d.set key value).get? other = d.get? other := by simp [get?_set,different]

/-- A value found after an assignment is the value assigned, or was there before. -/
theorem get?_set_cases {d : Dict κ α} {key other : κ} {value found : α}
    (there : (d.set key value).get? other = some found) :
    other = key ∧ found = value ∨ other ≠ key ∧ d.get? other = some found := by
  rw [get?_set] at there
  split at there
  · rename_i same
    injection there with there
    exact .inl ⟨same,there.symm⟩
  · rename_i different
    exact .inr ⟨different,there⟩

theorem get?_retain (d : Dict κ α) (keep : κ → α → Bool) (key : κ) (value : α) :
    (d.retain keep).get? key = some value ↔ d.get? key = some value ∧ keep key value = true := by
  simp [get?_eq_some,retain]

theorem get?_pop (d : Dict κ α) (key other : κ) :
    (d.pop key).get? other = if other = key then none else d.get? other := by
  by_cases same : other = key
  · subst other
    rw [if_pos rfl,Option.eq_none_iff_forall_ne_some]
    intro value found
    simpa using ((get?_retain _ _ _ _).mp found).2
  · rw [if_neg same]
    ext value
    constructor
    · intro found
      exact ((get?_retain _ _ _ _).mp found).1
    · intro found
      exact (get?_retain _ _ _ _).mpr ⟨found,by simpa using same⟩

@[simp] theorem get?_pop_self (d : Dict κ α) (key : κ) : (d.pop key).get? key = none := by
  simp [get?_pop]

theorem get?_pop_ne (d : Dict κ α) (key other : κ) (different : other ≠ key) :
    (d.pop key).get? other = d.get? other := by simp [get?_pop,different]

theorem get?_pop_cases {d : Dict κ α} {key other : κ} {found : α}
    (there : (d.pop key).get? other = some found) : other ≠ key ∧ d.get? other = some found := by
  rw [get?_pop] at there
  split at there
  · cases there
  · rename_i different
    exact ⟨different,there⟩

theorem assign_length (key : κ) (value : α) (entries : List (κ × α)) :
    (assign key value entries).length =
      if (find key entries).isSome then entries.length else entries.length + 1 := by
  induction entries with
  | nil => rfl
  | cons entry rest ih =>
    obtain ⟨k,v⟩ := entry
    by_cases same : k = key
    · simp [assign,find,same]
    · simp only [assign,find,same,if_false,List.length_cons,ih]
      split <;> rfl

theorem size_set (d : Dict κ α) (key : κ) (value : α) :
    (d.set key value).size = if (d.get? key).isSome then d.size else d.size + 1 :=
  assign_length key value d.entries

theorem size_pop (d : Dict κ α) (key : κ) (value : α) (found : d.get? key = some value) :
    (d.pop key).size + 1 = d.size := by
  obtain ⟨entries,distinct⟩ := d
  simp only [pop,retain,get?,size] at found ⊢
  induction entries with
  | nil => cases found
  | cons entry rest ih =>
    obtain ⟨k,v⟩ := entry
    simp only [List.map_cons,List.nodup_cons] at distinct
    by_cases same : k = key
    · subst same
      have others : rest.filter (fun e => decide (e.1 ≠ k)) = rest := by
        refine List.filter_eq_self.mpr (fun e member => ?_)
        have other : e.1 ≠ k := fun equal => distinct.1 (equal ▸ List.mem_map_of_mem (f := Prod.fst) member)
        simpa using other
      rw [List.filter_cons_of_neg (by simp),others,List.length_cons]
    · simp only [find,same,if_false] at found
      have before := ih distinct.2 found
      rw [List.filter_cons_of_pos (by simpa using same),List.length_cons,List.length_cons,before]

def countValues (d : Dict κ α) (p : α → Bool) : Nat := d.values.countP p

def indicator (p : α → Bool) (value : Option α) : Nat :=
  match value with
  | none => 0
  | some v => if p v then 1 else 0

theorem countP_assign (p : α → Bool) (key : κ) (value : α) (entries : List (κ × α)) :
    ((assign key value entries).map Prod.snd).countP p + indicator p (find key entries) =
      (entries.map Prod.snd).countP p + indicator p (some value) := by
  induction entries with
  | nil => simp [assign,find,indicator,List.countP_cons]
  | cons entry rest ih =>
    obtain ⟨k,v⟩ := entry
    by_cases same : k = key
    · simp [assign,find,same,indicator,List.countP_cons]
      omega
    · simp only [assign,find,same,if_false,List.map_cons,List.countP_cons] at ih ⊢
      omega

theorem countValues_set (d : Dict κ α) (p : α → Bool) (key : κ) (value : α) :
    (d.set key value).countValues p + indicator p (d.get? key) =
      d.countValues p + indicator p (some value) :=
  countP_assign p key value d.entries

omit [DecidableEq κ] in
theorem countValues_retain (d : Dict κ α) (p : α → Bool) (keep : κ → α → Bool) :
    (d.retain keep).countValues p ≤ d.countValues p :=
  (List.Sublist.map Prod.snd List.filter_sublist).countP_le

def mapValues (d : Dict κ α) (f : α → α) : Dict κ α :=
  ⟨d.entries.map (fun e => (e.1,f e.2)),by
    have same : (Prod.fst ∘ fun e : κ × α => (e.1,f e.2)) = Prod.fst := rfl
    rw [List.map_map,same]
    exact d.distinct⟩

omit [DecidableEq κ] in
theorem countValues_mapValues (d : Dict κ α) (p : α → Bool) (f : α → α) (same : ∀ value, p (f value) = p value) :
    (d.mapValues f).countValues p = d.countValues p := by
  have swap : p ∘ f = p := funext same
  simp only [countValues,values,mapValues,List.map_map,List.countP_map,Function.comp_def] at swap ⊢
  simp only [same]

theorem find_map (key : κ) (f : α → α) (entries : List (κ × α)) :
    find key (entries.map (fun e => (e.1,f e.2))) = (find key entries).map f := by
  induction entries with
  | nil => rfl
  | cons entry rest ih =>
    obtain ⟨k,v⟩ := entry
    by_cases same : k = key <;> simp [find,same,ih]

@[simp] theorem get?_mapValues (d : Dict κ α) (f : α → α) (key : κ) :
    (d.mapValues f).get? key = (d.get? key).map f := find_map key f d.entries

/-- Assign and move the key to the end. -/
def place (d : Dict κ α) (key : κ) (value : α) : Dict κ α :=
  ⟨(d.pop key).entries ++ [(key,value)],by
    rw [List.map_append]
    refine List.nodup_append.mpr ⟨(d.pop key).distinct,by simp,?_⟩
    intro a member b single equal
    obtain ⟨entry,inside,rfl⟩ := List.mem_map.mp member
    rw [List.map_singleton,List.mem_singleton] at single
    simp [pop,retain,equal,single] at inside⟩

theorem find_append (key : κ) (first second : List (κ × α)) :
    find key (first ++ second) = (find key first).or (find key second) := by
  induction first with
  | nil => simp [find]
  | cons entry rest ih =>
    obtain ⟨k,v⟩ := entry
    by_cases same : k = key <;> simp [find,same,ih]

theorem get?_place (d : Dict κ α) (key other : κ) (value : α) :
    (d.place key value).get? other = if other = key then some value else d.get? other := by
  have split : (d.place key value).get? other =
      ((d.pop key).get? other).or (find other [(key,value)]) := find_append _ _ _
  rw [split,get?_pop]
  by_cases same : other = key
  · simp [same,find]
  · simp [same,find,Ne.symm same]

/-- `popitem(last=False)` until at most `most` entries are left. -/
def trim (d : Dict κ α) (most : Nat) : Dict κ α :=
  ⟨d.entries.drop (d.size - most),
    List.Nodup.sublist (List.Sublist.map Prod.fst (List.drop_sublist _ _)) d.distinct⟩

omit [DecidableEq κ] in
theorem trim_of_size (d : Dict κ α) (most : Nat) (within : d.size ≤ most) : d.trim most = d := by
  simp [trim,Nat.sub_eq_zero_of_le within]

/-- Remove entries from the front for as long as `stale` holds of them. -/
def dropStale (d : Dict κ α) (stale : α → Bool) : Dict κ α :=
  ⟨d.entries.dropWhile (fun e => stale e.2),
    List.Nodup.sublist (List.Sublist.map Prod.fst (List.dropWhile_sublist _)) d.distinct⟩

omit [DecidableEq κ] in
theorem dropStale_of_live (d : Dict κ α) (stale : α → Bool) (live : ∀ v ∈ d.values, stale v = false) :
    d.dropStale stale = d := by
  obtain ⟨entries,distinct⟩ := d
  cases entries with
  | nil => rfl
  | cons entry rest =>
    have first : stale entry.2 = false := live entry.2 (by simp [values])
    simp [dropStale,first]

theorem get?_dropStale (d : Dict κ α) (stale : α → Bool) (key : κ) (value : α)
    (found : (d.dropStale stale).get? key = some value) : d.get? key = some value := by
  rw [get?_eq_some] at found ⊢
  exact (List.dropWhile_sublist _).subset found

theorem get?_trim (d : Dict κ α) (most : Nat) (key : κ) (value : α)
    (found : (d.trim most).get? key = some value) : d.get? key = some value := by
  rw [get?_eq_some] at found ⊢
  exact (List.drop_sublist _ _).subset found

theorem contains_of_card (d : Dict κ α) (range : Finset κ) (within : ∀ key ∈ d.keys, key ∈ range)
    (full : range.card ≤ d.size) (key : κ) (member : key ∈ range) : d.contains key = true := by
  have distinct : d.keys.Nodup := d.distinct
  have counted : d.keys.toFinset.card = d.size := by
    rw [List.toFinset_card_of_nodup distinct,keys,List.length_map,size]
  have inside : d.keys.toFinset ⊆ range := fun k held => within k (List.mem_toFinset.mp held)
  have all := Finset.eq_of_subset_of_card_le inside (counted.symm ▸ full)
  rw [← all,List.mem_toFinset,mem_keys] at member
  exact (d.contains_iff key).mpr member

end Dict
end Lib
