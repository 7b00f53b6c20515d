import Mathlib.Algebra.Order.Field.Basic
import Mathlib.Data.Sign.Basic
import Mathlib.Tactic.FieldSimp
import Mathlib.Tactic.LinearCombination
import Mathlib.Tactic.Linarith
import Mathlib.Tactic.Ring

/-! Segments of the plane over an ordered field: when two of them have a point in
common, told by the sides their ends lie on. -/
namespace Lib.Plane
variable {K : Type} [Field K]

/-- The point of a segment at a fraction of its length. -/
def place (a b : K × K) (t : K) : K × K := (a.1 + (b.1 - a.1)*t,a.2 + (b.2 - a.2)*t)

/-- Twice the signed area of a triangle. -/
def turn (a b c : K × K) : K := (b.1 - a.1)*(c.2 - a.2) - (b.2 - a.2)*(c.1 - a.1)

@[simp] theorem place_zero (a b : K × K) : place a b 0 = a := by simp [place]

@[simp] theorem place_one (a b : K × K) : place a b 1 = b := by simp [place]

theorem place_flip (a b : K × K) (t : K) : place a b (1 - t) = place b a t := by
  simp only [place,Prod.mk.injEq]
  exact ⟨by ring,by ring⟩

/-- A place between two places of one segment. -/
theorem place_place (a b : K × K) (s t r : K) : place (place a b s) (place a b t) r = place a b (s + (t - s)*r) := by
  simp only [place,Prod.mk.injEq]
  exact ⟨by ring,by ring⟩

theorem turn_place (a b c d : K × K) (t : K) : turn a b (place c d t) = turn a b c + t*(turn a b d - turn a b c) := by
  simp only [turn,place]
  ring

theorem turn_along (a b : K × K) (t : K) : turn a b (place a b t) = 0 := by
  simp only [turn,place]
  ring

theorem turn_difference (a b c d : K × K) : turn a b d - turn a b c = turn c d a - turn c d b := by
  simp only [turn]
  ring

/-- On a line through two points there are the places of these two only. -/
theorem onLine (a b c : K × K) (apart : a ≠ b) (level : turn a b c = 0) : ∃ t, c = place a b t := by
  unfold turn at level
  by_cases upright : b.1 - a.1 = 0
  · have tall : b.2 - a.2 ≠ 0 := by
      intro flat
      exact apart (Prod.ext (sub_eq_zero.mp upright).symm (sub_eq_zero.mp flat).symm)
    have straight : c.1 - a.1 = 0 := by
      rw [upright,zero_mul,zero_sub,neg_eq_zero] at level
      exact (mul_eq_zero.mp level).resolve_left tall
    refine ⟨(c.2 - a.2)/(b.2 - a.2),Prod.ext ?_ ?_⟩
    · simp only [place,upright,zero_mul,add_zero]
      exact sub_eq_zero.mp straight
    · simp only [place,mul_div_cancel₀ _ tall]
      ring
  · refine ⟨(c.1 - a.1)/(b.1 - a.1),Prod.ext ?_ ?_⟩
    · simp only [place,mul_div_cancel₀ _ upright]
      ring
    · simp only [place]
      field_simp
      linear_combination level

theorem place_injective (a b : K × K) (apart : a ≠ b) (s t : K) (same : place a b s = place a b t) : s = t := by
  simp only [place,Prod.mk.injEq,add_right_inj] at same
  by_contra differ
  refine apart (Prod.ext ?_ ?_)
  · by_contra wide
    exact differ (mul_left_cancel₀ (sub_ne_zero.mpr (Ne.symm wide)) same.1)
  · by_contra tall
    exact differ (mul_left_cancel₀ (sub_ne_zero.mpr (Ne.symm tall)) same.2)

variable [LinearOrder K]

/-- Two segments have a point in common. -/
def Meet (a b c d : K × K) : Prop := ∃ s t, (0 ≤ s ∧ s ≤ 1) ∧ (0 ≤ t ∧ t ≤ 1) ∧ place a b s = place c d t

/-- A point lies between two others in each coordinate. -/
def Boxed (a b p : K × K) : Prop :=
  (min a.1 b.1 ≤ p.1 ∧ p.1 ≤ max a.1 b.1) ∧ min a.2 b.2 ≤ p.2 ∧ p.2 ≤ max a.2 b.2

/-- The test by sides: the ends of each segment on different sides of the other,
or one of the four ends on the other segment. -/
def Touch (a b c d : K × K) : Prop :=
  (SignType.sign (turn a b c) ≠ SignType.sign (turn a b d) ∧ SignType.sign (turn c d a) ≠ SignType.sign (turn c d b)) ∨
    (turn a b c = 0 ∧ Boxed a b c) ∨ (turn a b d = 0 ∧ Boxed a b d) ∨
    (turn c d a = 0 ∧ Boxed c d a) ∨ (turn c d b = 0 ∧ Boxed c d b)

theorem Meet.symm {a b c d : K × K} (meet : Meet a b c d) : Meet c d a b := by
  obtain ⟨s,t,first,second,same⟩ := meet
  exact ⟨t,s,second,first,same.symm⟩

variable [IsStrictOrderedRing K]

theorem Meet.flip {a b c d : K × K} (meet : Meet a b c d) : Meet b a c d := by
  obtain ⟨s,t,first,second,same⟩ := meet
  refine ⟨1 - s,t,⟨by linarith [first.2],by linarith [first.1]⟩,second,?_⟩
  rw [place_flip]
  exact same

/-- What a part of a segment meets, the segment meets. -/
theorem Meet.of_part {a b c d : K × K} (r : K) (low : 0 ≤ r) (high : r ≤ 1) (meet : Meet a (place a b r) c d) :
    Meet a b c d := by
  obtain ⟨s,t,first,second,same⟩ := meet
  refine ⟨r*s,t,⟨mul_nonneg low first.1,mul_le_one₀ high first.1 first.2⟩,second,?_⟩
  rw [← same]
  simp only [place,Prod.mk.injEq]
  exact ⟨by ring,by ring⟩

theorem between_of_place (x y t : K) (low : 0 ≤ t) (high : t ≤ 1) :
    min x y ≤ x + (y - x)*t ∧ x + (y - x)*t ≤ max x y := by
  rcases le_total x y with up | down
  · rw [min_eq_left up,max_eq_right up]
    constructor <;> nlinarith
  · rw [min_eq_right down,max_eq_left down]
    constructor <;> nlinarith

theorem boxed_place (a b : K × K) (t : K) (low : 0 ≤ t) (high : t ≤ 1) : Boxed a b (place a b t) :=
  ⟨between_of_place a.1 b.1 t low high,between_of_place a.2 b.2 t low high⟩

/-- Of the places on a line, those between the two ends are in the box. -/
theorem place_of_between (x y t : K) (apart : x ≠ y) (low : min x y ≤ x + (y - x)*t) (high : x + (y - x)*t ≤ max x y) :
    0 ≤ t ∧ t ≤ 1 := by
  rcases lt_or_gt_of_ne apart with up | down
  · rw [min_eq_left up.le] at low
    rw [max_eq_right up.le] at high
    have wide : 0 < y - x := sub_pos.mpr up
    constructor <;> by_contra! out <;> nlinarith
  · rw [min_eq_right down.le] at low
    rw [max_eq_left down.le] at high
    have wide : 0 < x - y := sub_pos.mpr down
    constructor <;> by_contra! out <;> nlinarith

theorem boxed_iff (a b c : K × K) : turn a b c = 0 ∧ Boxed a b c ↔ ∃ t, (0 ≤ t ∧ t ≤ 1) ∧ c = place a b t := by
  constructor
  · intro ⟨level,box⟩
    by_cases one : a = b
    · subst one
      simp only [Boxed,min_self,max_self] at box
      exact ⟨0,⟨le_rfl,zero_le_one⟩,by rw [place_zero]; exact Prod.ext (le_antisymm box.1.2 box.1.1) (le_antisymm box.2.2 box.2.1)⟩
    · obtain ⟨t,rfl⟩ := onLine a b c one level
      refine ⟨t,?_,rfl⟩
      by_cases wide : a.1 = b.1
      · have tall : a.2 ≠ b.2 := fun flat => one (Prod.ext wide flat)
        exact place_of_between a.2 b.2 t tall box.2.1 box.2.2
      · exact place_of_between a.1 b.1 t wide box.1.1 box.1.2
  · rintro ⟨t,inside,rfl⟩
    exact ⟨turn_along a b t,boxed_place a b t inside.1 inside.2⟩

/-- Ends on different sides: the place where the line is crossed is within the segment. -/
theorem share_of_sides (x y : K) (differ : SignType.sign x ≠ SignType.sign y) : x - y ≠ 0 ∧ 0 ≤ x/(x - y) ∧ x/(x - y) ≤ 1 := by
  have apart : x ≠ y := fun same => differ (by rw [same])
  refine ⟨sub_ne_zero.mpr apart,?_⟩
  rcases lt_or_gt_of_ne apart with up | down
  · have low : x ≤ 0 := by
      by_contra! positive
      exact differ (by rw [sign_pos positive,sign_pos (positive.trans up)])
    have high : 0 ≤ y := by
      by_contra! negative
      exact differ (by rw [sign_neg negative,sign_neg (up.trans negative)])
    have gap : x - y < 0 := sub_neg.mpr up
    exact ⟨div_nonneg_of_nonpos low gap.le,(div_le_one_of_neg gap).mpr (by linarith)⟩
  · have low : y ≤ 0 := by
      by_contra! positive
      exact differ (by rw [sign_pos positive,sign_pos (positive.trans down)])
    have high : 0 ≤ x := by
      by_contra! negative
      exact differ (by rw [sign_neg negative,sign_neg (down.trans negative)])
    have gap : 0 < x - y := sub_pos.mpr down
    exact ⟨div_nonneg high gap.le,(div_le_one₀ gap).mpr (by linarith)⟩

/-- A place of a segment that is on a line, the ends not both on it, has them on different sides. -/
theorem sides_of_share (x y t : K) (low : 0 ≤ t) (high : t ≤ 1) (zero : x + t*(y - x) = 0) (apart : x ≠ y) :
    SignType.sign x ≠ SignType.sign y := by
  have box := between_of_place x y t low high
  rw [mul_comm,zero] at box
  intro same
  rcases lt_trichotomy x 0 with negative | none_ | positive
  · rw [sign_neg negative] at same
    have below : y < 0 := sign_eq_neg_one_iff.mp same.symm
    exact absurd box.2 (not_le.mpr (max_lt negative below))
  · rw [none_,sign_zero] at same
    exact apart (none_.trans (sign_eq_zero_iff.mp same.symm).symm)
  · rw [sign_pos positive] at same
    have above : 0 < y := sign_eq_one_iff.mp same.symm
    exact absurd box.1 (not_le.mpr (lt_min positive above))

/-- Two segments of one line with a common place: an end of one is on the other. -/
theorem end_within (c d m : K) (low : 0 ≤ m) (high : m ≤ 1) (first : 0 ≤ c + (d - c)*m) (last : c + (d - c)*m ≤ 1) :
    (0 ≤ c ∧ c ≤ 1) ∨ (0 ≤ d ∧ d ≤ 1) ∨ (c - d ≠ 0 ∧ 0 ≤ c/(c - d) ∧ c/(c - d) ≤ 1) := by
  have box := between_of_place c d m low high
  by_cases apart : c - d = 0
  · have one : c = d := sub_eq_zero.mp apart
    subst one
    rw [sub_self,zero_mul,add_zero] at first last
    exact .inl ⟨first,last⟩
  · rcases lt_or_ge c 0 with before | after
    · rcases lt_or_ge d 0 with under | upper_
      · exact absurd (first.trans box.2) (not_le.mpr (max_lt before under))
      · have gap : c - d < 0 := by linarith
        exact .inr (.inr ⟨apart,div_nonneg_of_nonpos before.le gap.le,(div_le_one_of_neg gap).mpr (by linarith)⟩)
    · rcases le_or_gt c 1 with within | past
      · exact .inl ⟨after,within⟩
      · rcases lt_or_ge 1 d with under | upper_
        · exact absurd (box.1.trans last) (not_le.mpr (lt_min past under))
        · rcases lt_or_ge d 0 with low_ | inside
          · have gap : 0 < c - d := by linarith
            exact .inr (.inr ⟨apart,div_nonneg after gap.le,(div_le_one₀ gap).mpr (by linarith)⟩)
          · exact .inr (.inl ⟨inside,upper_⟩)

/-- The test by sides is exact. -/
theorem touch_iff (a b c d : K × K) : Touch a b c d ↔ Meet a b c d := by
  constructor
  · rintro (⟨first,second⟩ | one | one | one | one)
    · obtain ⟨gap,low,high⟩ := share_of_sides _ _ second
      obtain ⟨gap_,low_,high_⟩ := share_of_sides _ _ first
      refine ⟨_,_,⟨low,high⟩,⟨low_,high_⟩,?_⟩
      have back : turn a b c - turn a b d = -(turn c d a - turn c d b) := by linear_combination -turn_difference a b c d
      rw [back,div_neg]
      simp only [place,Prod.mk.injEq]
      constructor
      · field_simp
        simp only [turn]
        ring
      · field_simp
        simp only [turn]
        ring
    · obtain ⟨t,inside,same⟩ := (boxed_iff a b c).mp one
      exact ⟨t,0,inside,⟨le_rfl,zero_le_one⟩,by rw [place_zero,same]⟩
    · obtain ⟨t,inside,same⟩ := (boxed_iff a b d).mp one
      exact ⟨t,1,inside,⟨zero_le_one,le_rfl⟩,by rw [place_one,same]⟩
    · obtain ⟨t,inside,same⟩ := (boxed_iff c d a).mp one
      exact ⟨0,t,⟨le_rfl,zero_le_one⟩,inside,by rw [place_zero,same]⟩
    · obtain ⟨t,inside,same⟩ := (boxed_iff c d b).mp one
      exact ⟨1,t,⟨zero_le_one,le_rfl⟩,inside,by rw [place_one,same]⟩
  · rintro ⟨s,t,first,second,same⟩
    have across : turn a b c + t*(turn a b d - turn a b c) = 0 := by rw [← turn_place,← same,turn_along]
    have across_ : turn c d a + s*(turn c d b - turn c d a) = 0 := by rw [← turn_place,same,turn_along]
    by_cases apart : turn a b c = turn a b d
    · -- Parallel with a common point: on one line.
      have level : turn a b c = 0 := by rwa [apart,sub_self,mul_zero,add_zero,← apart] at across
      by_cases one : a = b
      · subst one
        refine .inr (.inr (.inr (.inl ((boxed_iff c d a).mpr ⟨t,second,?_⟩))))
        rw [← same]
        simp [place]
      · obtain ⟨m,rfl⟩ := onLine a b c one level
        obtain ⟨n,rfl⟩ := onLine a b d one (apart ▸ level)
        rw [place_place] at same
        have shared := place_injective a b one _ _ same
        rcases end_within m n t second.1 second.2 (shared ▸ first.1) (shared ▸ first.2) with inside | inside | ⟨gap,inside⟩
        · exact .inr (.inl ((boxed_iff _ _ _).mpr ⟨m,inside,rfl⟩))
        · exact .inr (.inr (.inl ((boxed_iff _ _ _).mpr ⟨n,inside,rfl⟩)))
        · refine .inr (.inr (.inr (.inl ((boxed_iff _ _ _).mpr ⟨_,inside,?_⟩))))
          rw [place_place]
          have start : m + (n - m)*(m/(m - n)) = 0 := by
            field_simp
            ring
          rw [start,place_zero]
    · have apart_ : turn c d a ≠ turn c d b := by
        intro level
        have gone := turn_difference a b c d
        rw [level,sub_self] at gone
        exact apart (sub_eq_zero.mp gone).symm
      exact .inl ⟨sides_of_share _ _ t second.1 second.2 across apart,sides_of_share _ _ s first.1 first.2 across_ apart_⟩

/-- Two pairs of places at equal heights, the second place to the right of the
first in one pair and not in the other: somewhere between, the segments meet. -/
theorem meet_of_swap (a b c d : K × K) (s₀ t₀ s₁ t₁ : K) (s₀in : 0 ≤ s₀ ∧ s₀ ≤ 1) (t₀in : 0 ≤ t₀ ∧ t₀ ≤ 1)
    (s₁in : 0 ≤ s₁ ∧ s₁ ≤ 1) (t₁in : 0 ≤ t₁ ∧ t₁ ≤ 1) (level₀ : (place a b s₀).2 = (place c d t₀).2)
    (level₁ : (place a b s₁).2 = (place c d t₁).2) (right : (place a b s₀).1 < (place c d t₀).1)
    (left : (place c d t₁).1 ≤ (place a b s₁).1) : Meet a b c d := by
  obtain ⟨x,hx⟩ : ∃ x, x = (place c d t₀).1 - (place a b s₀).1 := ⟨_,rfl⟩
  obtain ⟨y,hy⟩ : ∃ y, y = (place c d t₁).1 - (place a b s₁).1 := ⟨_,rfl⟩
  have positive : 0 < x := by rw [hx]; exact sub_pos.mpr right
  have negative : y ≤ 0 := by rw [hy]; exact sub_nonpos.mpr left
  have gap : 0 < x - y := by linarith
  obtain ⟨r,hr⟩ : ∃ r, r = x/(x - y) := ⟨_,rfl⟩
  have low : 0 ≤ r := by rw [hr]; exact div_nonneg positive.le gap.le
  have high : r ≤ 1 := by rw [hr]; exact (div_le_one₀ gap).mpr (by linarith)
  have zero : x + (y - x)*r = 0 := by
    rw [hr]
    field_simp
    ring
  have between (m n : K) (first : 0 ≤ m ∧ m ≤ 1) (second : 0 ≤ n ∧ n ≤ 1) : 0 ≤ m + (n - m)*r ∧ m + (n - m)*r ≤ 1 := by
    have box := between_of_place m n r low high
    exact ⟨(le_min first.1 second.1).trans box.1,box.2.trans (max_le first.2 second.2)⟩
  refine ⟨s₀ + (s₁ - s₀)*r,t₀ + (t₁ - t₀)*r,between _ _ s₀in s₁in,between _ _ t₀in t₁in,?_⟩
  simp only [place] at *
  refine Prod.ext ?_ ?_
  · subst hx hy
    linear_combination -zero
  · linear_combination (1 - r)*level₀ + r*level₁

end Lib.Plane
