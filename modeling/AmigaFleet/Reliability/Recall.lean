import AmigaFleet.Lib.Machine
import AmigaFleet.Lib.Recency
import AmigaFleet.Reliability.Dedup

/-! What the cache of seen ids remembers. Beside the cache stands the history
of what was presented to it and when, and the cache is the live part of the
newest `maxEntries` keys of that history. -/
namespace AmigaFleet.Reliability
open Lib Lib.Recency

/-- A cache in use: what was presented to it, newest first, and the last clock reading. -/
structure Recall where
  cache : DedupCache
  presented : List (Key × ℚ)
  clock : ℚ

namespace Recall

inductive Call where
  | firstSight (key : Key) (now : ℚ)
  | prune (now : ℚ)

def Call.now : Call → ℚ
  | .firstSight _ now => now
  | .prune now => now

def call (r : Recall) : Call → Recall
  | .firstSight key now => ⟨(r.cache.firstSight key now).2,(key,now)::r.presented,now⟩
  | .prune now => ⟨r.cache.prune now,r.presented,now⟩

/-- Any sequence of calls on a new cache, the clock never going back. -/
def calls : Machine Recall Call where
  initial := fun r => r.cache.seen = .empty ∧ r.presented = []
  enabled := fun r c => r.clock ≤ c.now
  next := call

instance (r : Recall) (c : Call) : Decidable (calls.enabled r c) := inferInstanceAs (Decidable (r.clock ≤ c.now))

def live (ttl now : ℚ) (event : Key × ℚ) : Bool := now < event.2 + ttl

def remembered (r : Recall) : List (Key × ℚ) :=
  ((recency r.presented).take r.cache.maxEntries).filter (live r.cache.ttl r.clock)

def expiring (ttl : ℚ) (event : Key × ℚ) : Key × ℚ := (event.1,event.2 + ttl)

structure Exact (r : Recall) : Prop where
  held : r.cache.seen.entries = (r.remembered.map (expiring r.cache.ttl)).reverse
  past : ∀ event ∈ r.presented, event.2 ≤ r.clock
  ordered : r.presented.Pairwise (fun a b => b.2 ≤ a.2)

theorem live_closed (ttl now : ℚ) (history : List (Key × ℚ)) (ordered : history.Pairwise (fun a b => b.2 ≤ a.2)) :
    history.Pairwise (fun a b => live ttl now b = true → live ttl now a = true) := by
  apply ordered.imp
  intro a b later alive
  rw [live,decide_eq_true_iff] at alive ⊢
  linarith

theorem remembered_ordered (r : Recall) (ordered : r.presented.Pairwise (fun a b => b.2 ≤ a.2)) :
    r.remembered.Pairwise (fun a b => b.2 ≤ a.2) := by
  apply List.Pairwise.sublist _ ordered
  exact List.filter_sublist.trans ((List.take_sublist _ _).trans (recency_sublist _))

/-- The expiries stand in order. -/
theorem Exact.sorted (r : Recall) (exact : r.Exact) :
    r.cache.seen.entries.Pairwise (fun a b => a.2 ≤ b.2) := by
  rw [exact.held,List.pairwise_reverse,List.pairwise_map]
  apply (r.remembered_ordered exact.ordered).imp
  intro a b later
  simpa [expiring] using later

theorem dropWhile_sorted (now : ℚ) (entries : List (Key × ℚ)) (sorted : entries.Pairwise (fun a b => a.2 ≤ b.2)) :
    entries.dropWhile (fun e => decide (e.2 ≤ now)) = entries.filter (fun e => decide (now < e.2)) := by
  induction entries with
  | nil => rfl
  | cons entry rest ih =>
    rw [List.pairwise_cons] at sorted
    by_cases stale : entry.2 ≤ now
    · rw [List.dropWhile_cons_of_pos (by simpa using stale),ih sorted.2,
        List.filter_cons_of_neg (by simpa using stale)]
    · have alive : ∀ e ∈ entry::rest, decide (now < e.2) = true := by
        intro e member
        rw [decide_eq_true_iff]
        rcases List.mem_cons.mp member with rfl | inside
        · exact not_le.mp stale
        · exact lt_of_lt_of_le (not_le.mp stale) (sorted.1 e inside)
      rw [List.dropWhile_cons_of_neg (by simpa using stale),List.filter_eq_self.mpr alive]

/-- The walk that stops at the first live entry removes exactly the expired ones. -/
theorem Exact.pruned (r : Recall) (exact : r.Exact) (now : ℚ) :
    (r.cache.prune now).seen.entries = r.cache.seen.entries.filter (fun e => decide (now < e.2)) :=
  dropWhile_sorted now _ (exact.sorted r)

theorem live_later (ttl before now : ℚ) (later : before ≤ now) (events : List (Key × ℚ)) :
    (events.filter (live ttl before)).filter (live ttl now) = events.filter (live ttl now) := by
  rw [List.filter_filter]
  apply List.filter_congr
  intro event member
  by_cases alive : live ttl now event = true
  · have earlier : live ttl before event = true := by
      rw [live,decide_eq_true_iff] at alive ⊢
      linarith
    rw [alive,earlier,Bool.and_self]
  · rw [Bool.eq_false_of_not_eq_true alive,Bool.false_and]

theorem Exact.prune_entries (r : Recall) (exact : r.Exact) (now : ℚ) (later : r.clock ≤ now) :
    (r.cache.prune now).seen.entries =
      ((((recency r.presented).take r.cache.maxEntries).filter (live r.cache.ttl now)).map
        (expiring r.cache.ttl)).reverse := by
  rw [exact.pruned r now,exact.held,List.filter_reverse,List.filter_map,← live_later _ _ _ later]
  rfl

theorem Exact.prune (r : Recall) (exact : r.Exact) (now : ℚ) (later : r.clock ≤ now) :
    (r.call (.prune now)).Exact where
  held := exact.prune_entries r now later
  past := fun event member => (exact.past event member).trans later
  ordered := exact.ordered

/-- Whether a key is new is read off the history. -/
theorem Exact.known (r : Recall) (exact : r.Exact) (key : Key) (now : ℚ) (later : r.clock ≤ now) :
    (r.cache.firstSight key now).1 = false ↔
      ∃ time, latest key r.presented = some time ∧ now < time + r.cache.ttl ∧
        (keys (after key r.presented)).card < r.cache.maxEntries := by
  have entries := exact.prune_entries r now later
  have known : (r.cache.firstSight key now).1 = false ↔ (r.cache.prune now).seen.contains key = true := by
    simp [DedupCache.firstSight]
  rw [known,Dict.contains_iff]
  constructor
  · intro held
    obtain ⟨expiry,found⟩ := held
    rw [Dict.get?_eq_some,entries,List.mem_reverse,List.mem_map] at found
    obtain ⟨⟨k,time⟩,member,same⟩ := found
    obtain ⟨rfl,rfl⟩ := Prod.mk.injEq .. ▸ same
    obtain ⟨inside,alive⟩ := List.mem_filter.mp member
    obtain ⟨last,few⟩ := (mem_take_recency k time _ _).mp inside
    exact ⟨time,last,of_decide_eq_true alive,few⟩
  · intro shown
    obtain ⟨time,last,alive,few⟩ := shown
    apply Exists.intro (time + r.cache.ttl)
    rw [Dict.get?_eq_some,entries,List.mem_reverse,List.mem_map]
    apply Exists.intro (key,time)
    exact ⟨List.mem_filter.mpr ⟨(mem_take_recency key time _ _).mpr ⟨last,few⟩,decide_eq_true alive⟩,rfl⟩

/-- A presentation changes what is remembered as it changes the entries. -/
theorem remembered_presented (r : Recall) (key : Key) (now : ℚ)
    (ordered : r.presented.Pairwise (fun a b => b.2 ≤ a.2)) :
    (r.call (.firstSight key now)).remembered =
      ((key,now)::(((recency r.presented).take r.cache.maxEntries).filter (live r.cache.ttl now)).filter
        (fun e => e.1 ≠ key)).take r.cache.maxEntries := by
  obtain ⟨n,size⟩ : ∃ n, r.cache.maxEntries = n + 1 := Nat.exists_eq_add_one.mpr r.cache.roomy
  have newest : live r.cache.ttl now (key,now) = true := by
    rw [live,decide_eq_true_iff]
    linarith [r.cache.lasting]
  have sorted : (recency r.presented).Pairwise (fun a b => b.2 ≤ a.2) :=
    List.Pairwise.sublist (recency_sublist _) ordered
  have others : ((recency r.presented).filter (fun e => e.1 ≠ key)).Pairwise (fun a b => b.2 ≤ a.2) :=
    List.Pairwise.sublist List.filter_sublist sorted
  have distinct : (((recency r.presented).filter (live r.cache.ttl now)).map Prod.fst).Nodup :=
    (recency_distinct r.presented).sublist (List.Sublist.map Prod.fst List.filter_sublist)
  change ((recency ((key,now)::r.presented)).take r.cache.maxEntries).filter (live r.cache.ttl now) = _
  rw [recency,size,List.take_succ_cons,List.take_succ_cons,List.filter_cons_of_pos newest,
    take_filter _ _ _ (live_closed _ _ _ others),take_filter _ _ _ (live_closed _ _ _ sorted),
    take_other key n _ distinct,List.filter_comm]

theorem Exact.firstSight (r : Recall) (exact : r.Exact) (key : Key) (now : ℚ) (later : r.clock ≤ now) :
    (r.call (.firstSight key now)).Exact where
  held := by
    have placed : ((r.cache.prune now).seen.place key (now + r.cache.ttl)).entries =
        (((key,now)::(((recency r.presented).take r.cache.maxEntries).filter (live r.cache.ttl now)).filter
          (fun e => e.1 ≠ key)).map (expiring r.cache.ttl)).reverse := by
      rw [List.map_cons,List.reverse_cons]
      change (r.cache.prune now).seen.entries.filter (fun e => decide (e.1 ≠ key)) ++ [_] = _
      rw [exact.prune_entries r now later,List.filter_reverse,List.filter_map]
      rfl
    rw [remembered_presented r key now exact.ordered]
    change ((r.cache.prune now).seen.place key (now + r.cache.ttl)).entries.drop
      (((r.cache.prune now).seen.place key (now + r.cache.ttl)).entries.length - r.cache.maxEntries) = _
    rw [placed,List.length_reverse,← List.reverse_take,← List.map_take]
    rfl
  past := by
    intro event member
    rcases List.mem_cons.mp member with rfl | inside
    · exact le_refl now
    · exact (exact.past event inside).trans later
  ordered := List.pairwise_cons.mpr ⟨fun event member => (exact.past event member).trans later,exact.ordered⟩

theorem call_exact (r : Recall) (c : Call) (exact : r.Exact) (later : r.clock ≤ c.now) : (r.call c).Exact := by
  cases c with
  | firstSight key now => exact exact.firstSight r key now later
  | prune now => exact exact.prune r now later

theorem reachable_exact (r : Recall) (reached : calls.Reachable r) : r.Exact := by
  apply reached.invariant Exact
  · intro r new
    constructor
    · simp [new.1,remembered,new.2,recency,Dict.empty]
    · simp [new.2]
    · simp [new.2]
  · exact fun r c _ exact later _ => r.call_exact c exact later

theorem Exact.bounded (r : Recall) (exact : r.Exact) : r.cache.seen.size ≤ r.cache.maxEntries := by
  rw [Dict.size,exact.held,List.length_reverse,List.length_map]
  exact (List.length_filter_le _ _).trans (List.length_take_le _ _)

/-- The cache is its time to live and its bound on the number of keys, and nothing else. -/
theorem cache_exact (r : Recall) (reached : calls.Reachable r) :
    (∀ key now, r.clock ≤ now →
      ((r.cache.firstSight key now).1 = false ↔
        ∃ time, latest key r.presented = some time ∧ now < time + r.cache.ttl ∧
          (keys (after key r.presented)).card < r.cache.maxEntries)) ∧
      r.cache.seen.size ≤ r.cache.maxEntries ∧
      r.cache.seen.entries.Pairwise (fun a b => a.2 ≤ b.2) ∧
      ∀ now, (r.cache.prune now).seen.entries = r.cache.seen.entries.filter (fun e => decide (now < e.2)) := by
  have exact := reachable_exact r reached
  constructor
  · exact fun key now later => exact.known r key now later
  · exact ⟨exact.bounded r,exact.sorted r,exact.pruned r⟩

theorem ten_lasting : 0 < (10 : ℚ) := by norm_num

theorem two_roomy : 1 ≤ 2 := by norm_num

def small : Recall := ⟨⟨10,2,.empty,0,0,ten_lasting,two_roomy⟩,[],0⟩

/-- Two other ids push the first one out, and the second is still known. -/
def crowded : Recall := calls.runs small [.firstSight (1,7) 0,.firstSight (2,7) 1,.prune 2,.firstSight (3,7) 3]

theorem crowded_reachable : calls.Reachable crowded :=
  calls.reaches_runs _ small _ (.start small ⟨rfl,rfl⟩) (by decide +kernel)

theorem cache_exact_crowded :
    (crowded.cache.firstSight (1,7) 4).1 = true ∧ (crowded.cache.firstSight (2,7) 4).1 = false := by
  have exact := (cache_exact crowded crowded_reachable).1
  constructor
  · rw [← Bool.not_eq_false,exact (1,7) 4 (by decide +kernel)]
    intro shown
    obtain ⟨time,last,alive,few⟩ := shown
    revert few
    decide +kernel
  · rw [exact (2,7) 4 (by decide +kernel)]
    exact ⟨1,by decide +kernel⟩

end Recall
end AmigaFleet.Reliability
