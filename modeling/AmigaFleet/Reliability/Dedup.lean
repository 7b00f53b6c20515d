import AmigaFleet.Lib.Dict
import Mathlib.Data.Rat.Defs
import Mathlib.Algebra.Order.Field.Rat
import Mathlib.Tactic.Linarith

/-! The cache of message ids already seen. Entries are ordered by expiry, so
expired ones leave from the front and so do those over capacity. -/
namespace AmigaFleet.Reliability
open Lib

abbrev Key : Type := Int × Int

structure DedupCache where
  ttl : ℚ
  maxEntries : Nat
  seen : Dict Key ℚ := .empty
  duplicates : Nat := 0
  evicted : Nat := 0
  lasting : 0 < ttl
  roomy : 1 ≤ maxEntries

namespace DedupCache

def prune (d : DedupCache) (now : ℚ) : DedupCache :=
  { d with seen := d.seen.dropStale (fun expiry => expiry ≤ now) }

/-- Record `key`. True the first time, false for a copy. -/
def firstSight (d : DedupCache) (key : Key) (now : ℚ) : Bool × DedupCache :=
  let d := d.prune now
  let known := d.seen.contains key
  let seen := d.seen.place key (now + d.ttl)
  (!known,{ d with
    duplicates := if known then d.duplicates + 1 else d.duplicates
    seen := seen.trim d.maxEntries
    evicted := d.evicted + (seen.size - d.maxEntries) })

def Unexpired (d : DedupCache) (now : ℚ) : Prop := ∀ expiry ∈ d.seen.values, now < expiry

instance (d : DedupCache) (now : ℚ) : Decidable (d.Unexpired now) :=
  inferInstanceAs (Decidable (∀ expiry ∈ d.seen.values, _))

theorem prune_unexpired (d : DedupCache) (now : ℚ) (unexpired : d.Unexpired now) : d.prune now = d := by
  have live : d.seen.dropStale (fun expiry => expiry ≤ now) = d.seen :=
    Dict.dropStale_of_live d.seen _ (fun expiry member => by simpa using unexpired expiry member)
  simp only [prune,live]

theorem firstSight_fst (d : DedupCache) (key : Key) (now : ℚ) (unexpired : d.Unexpired now) :
    (d.firstSight key now).1 = true ↔ d.seen.get? key = none := by
  simp [firstSight,prune_unexpired d now unexpired,Dict.contains]

theorem firstSight_get? (d : DedupCache) (key other : Key) (now : ℚ) (unexpired : d.Unexpired now)
    (kept : (d.firstSight key now).2.evicted = d.evicted) :
    ((d.firstSight key now).2.seen.get? other).isSome ↔
      other = key ∨ (d.seen.get? other).isSome := by
  simp only [firstSight,prune_unexpired d now unexpired] at kept ⊢
  have within : (d.seen.place key (now + d.ttl)).size ≤ d.maxEntries := by omega
  rw [Dict.trim_of_size _ _ within,Dict.get?_place]
  by_cases same : other = key <;> simp [same]

end DedupCache
end AmigaFleet.Reliability
