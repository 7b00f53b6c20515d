import Mathlib.Algebra.Order.Field.Basic
import Mathlib.Tactic.Linarith
import Mathlib.Tactic.Ring
import Mathlib.Data.List.Basic

/-! Polygons by the crossings of a ray, segments by samples, and what a sampled
segment can still pass through. -/
namespace AmigaFleet.Planners
variable {K : Type} [Field K]

abbrev Polygon (K : Type) := List (K × K)

/-- An id and its polygon, as the planners take them. -/
abbrev ObstaclePolygons (K : Type) := List (String × Polygon K)

def polygonEdges : Polygon K → List ((K × K) × (K × K))
  | [] => []
  | first::rest => (first::rest).zip (rest ++ [first])

/-- The point of a segment at a fraction of its length. -/
def along (a b : K × K) (t : K) : K × K := (a.1 + (b.1 - a.1)*t,a.2 + (b.2 - a.2)*t)

/-- The square of the distance. -/
def dist2 (a b : K × K) : K := (b.1 - a.1)^2 + (b.2 - a.2)^2

/-- One of the equal parts of a length. -/
def fraction (k n : Nat) : K := k/n

theorem along_zero (a b : K × K) : along a b 0 = a := by simp [along]

theorem along_one (a b : K × K) : along a b 1 = b := by simp [along]

variable [LinearOrder K]

def edgeCrosses (p a b : K × K) : Bool :=
  ((p.2 < a.2 && b.2 ≤ p.2) || (p.2 < b.2 && a.2 ≤ p.2)) && p.1 < a.1 + (p.2 - a.2)/(b.2 - a.2)*(b.1 - a.1)

def insidePolygon (p : K × K) (points : Polygon K) : Bool :=
  (polygonEdges points).countP (fun edge => edgeCrosses p edge.1 edge.2) % 2 = 1

def insideAny (p : K × K) (polygons : ObstaclePolygons K) : Bool :=
  polygons.any (fun polygon => insidePolygon p polygon.2)

def segmentCrossesAnyObstacle (a b : K × K) (polygons : ObstaclePolygons K) : Bool :=
  (List.range 7).any (fun k => insideAny (along a b (fraction k 6)) polygons)

theorem outside_of_any (p : K × K) (polygons : ObstaclePolygons K) (clear : insideAny p polygons = false) :
    ∀ polygon ∈ polygons, insidePolygon p polygon.2 = false := by
  intro polygon member
  exact Bool.eq_false_iff.mpr (fun inside => Bool.eq_false_iff.mp clear (List.any_eq_true.mpr ⟨polygon,member,inside⟩))

/-- What lies in a polygon from one fraction of a segment to another. -/
def Stretch (a b : K × K) (polygon : Polygon K) (s t : K) : Prop :=
  s ≤ t ∧ ∀ r, s ≤ r → r ≤ t → insidePolygon (along a b r) polygon = true

/-- A stretch does not reach a point that is outside. -/
theorem Stretch.misses {a b : K × K} {polygon : Polygon K} {s t : K} (stretch : Stretch a b polygon s t) (r : K)
    (outside : insidePolygon (along a b r) polygon = false) : r < s ∨ t < r := by
  rcases lt_or_ge r s with low | low
  · exact .inl low
  · rcases lt_or_ge t r with high | high
    · exact .inr high
    · rw [stretch.2 r low high] at outside
      cases outside

/-- Between two ends that are outside, a stretch reaches neither. -/
theorem Stretch.between {a b : K × K} {polygon : Polygon K} {s t : K} (stretch : Stretch a b polygon s t) (low : 0 ≤ s)
    (high : t ≤ 1) (first : insidePolygon a polygon = false) (last : insidePolygon b polygon = false) : 0 < s ∧ t < 1 := by
  rw [← along_zero a b] at first
  rw [← along_one a b] at last
  constructor
  · rcases stretch.misses 0 first with before | after
    · exact before
    · exact absurd (low.trans stretch.1) (not_le.mpr after)
  · rcases stretch.misses 1 last with before | after
    · exact absurd (stretch.1.trans high) (not_le.mpr before)
    · exact after

/-- The seven samples of a segment that does not count as crossing are outside. -/
theorem sample_outside (a b : K × K) (polygons : ObstaclePolygons K)
    (clear : segmentCrossesAnyObstacle a b polygons = false) (k : Nat) (le : k ≤ 6) :
    insideAny (along a b (fraction k 6)) polygons = false := by
  refine Bool.eq_false_iff.mpr (fun inside => Bool.eq_false_iff.mp clear ?_)
  exact List.any_eq_true.mpr ⟨k,List.mem_range.mpr (Nat.lt_succ_of_le le),inside⟩

variable [IsStrictOrderedRing K]

/-- Sampling a segment at its sixths leaves room for less than a sixth of it. -/
theorem Stretch.short {a b : K × K} {polygon : Polygon K} {s t : K} (stretch : Stretch a b polygon s t) (low : 0 ≤ s)
    (high : t ≤ 1) (outside : ∀ k : Nat, k ≤ 6 → insidePolygon (along a b (fraction k 6)) polygon = false) : t - s < 1/6 := by
  have missed (k : Nat) (le : k ≤ 6) : (k : K)/6 < s ∨ t < (k : K)/6 := by
    have missed := stretch.misses _ (outside k le)
    simpa [fraction] using missed
  -- The last sample before the stretch: all the samples up to it are before it.
  have upto (k : Nat) (le : k ≤ 6) : (k : K)/6 < s ∨ t - s < 1/6 := by
    induction k with
    | zero =>
      rcases missed 0 le with before | after
      · exact .inl before
      · have none_ : t < 0 := by simpa using after
        exact absurd (low.trans stretch.1) (not_le.mpr none_)
    | succ k ih =>
      rcases ih (by omega) with before | done
      · rcases missed (k + 1) le with before_ | after
        · exact .inl before_
        · refine .inr ?_
          push_cast at after
          linarith
      · exact .inr done
  rcases upto 6 le_rfl with before | done
  · have past : (1 : K) < s := by
      push_cast at before
      linarith
    linarith [stretch.1]
  · exact done

/-- What lies strictly between two points an eighth apart, squared, is shorter. -/
theorem Stretch.within {a b : K × K} {polygon : Polygon K} {s t : K} (stretch : Stretch a b polygon s t) (low : 0 < s)
    (high : t < 1) (near : dist2 a b ≤ 1/8) : dist2 (along a b s) (along a b t) < 1/8 := by
  have scaled : dist2 (along a b s) (along a b t) = (t - s)^2*dist2 a b := by
    simp only [dist2,along]
    ring
  have small : (t - s)^2 < 1 := by
    have up : t - s < 1 := by linarith
    have down : 0 ≤ t - s := sub_nonneg.mpr stretch.1
    nlinarith
  rw [scaled]
  have part : (t - s)^2*dist2 a b ≤ (t - s)^2*(1/8) := mul_le_mul_of_nonneg_left near (sq_nonneg _)
  linarith

end AmigaFleet.Planners
