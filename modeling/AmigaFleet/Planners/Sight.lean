import AmigaFleet.Lib.Cycles
import AmigaFleet.Lib.Plane
import AmigaFleet.Planners.Polygons
import Mathlib.Algebra.Order.Ring.Int
import Mathlib.Data.Int.Cast.Lemmas
import Mathlib.Data.Rat.Cast.Order

/-! The line of sight past a polygon: the test by orientations on each edge, and
the inside of one end for the whole segment. -/
namespace AmigaFleet.Planners
open Lib Lib.Plane
variable {K : Type}

theorem polygonEdges_pairs (polygon : Polygon K) : polygonEdges polygon = Cycles.pairs polygon := by
  cases polygon with
  | nil => rfl
  | cons first rest => exact (Cycles.pairs_cons first rest).symm

theorem parted {F : Type} [LinearOrder F] (y u v : F) (differ : (decide (y < u) != decide (y < v)) = true) : u ≠ v ∧ min u v ≤ y ∧ y ≤ max u v := by
  rcases lt_or_ge y u with above | below
  · rcases lt_or_ge y v with above_ | below_
    · simp [above,above_] at differ
    · exact ⟨(below_.trans_lt above).ne',min_le_of_right_le below_,le_max_of_le_left above.le⟩
  · rcases lt_or_ge y v with above_ | below_
    · exact ⟨(below.trans_lt above_).ne,min_le_of_left_le below,le_max_of_le_right above_.le⟩
    · simp [below.not_gt,below_.not_gt] at differ

theorem parted_over {F : Type} [LinearOrder F] (y u v : F) (differ : (decide (u < y) != decide (v < y)) = true) : u ≠ v ∧ min u v ≤ y ∧ y ≤ max u v := by
  rcases lt_or_ge u y with above | below
  · rcases lt_or_ge v y with above_ | below_
    · simp [above,above_] at differ
    · exact ⟨(above.trans_le below_).ne,min_le_of_left_le above.le,le_max_of_le_right below_⟩
  · rcases lt_or_ge v y with above_ | below_
    · exact ⟨(above_.trans_le below).ne',min_le_of_right_le above_.le,le_max_of_le_left below⟩
    · simp [below.not_gt,below_.not_gt] at differ

variable [Field K]

variable [LinearOrder K]

def tolerance : K := fraction 1 (10^12)

def orientation (p q r : K × K) : Int :=
  let val := (q.1 - p.1)*(r.2 - p.2) - (q.2 - p.2)*(r.1 - p.1)
  if |val| < tolerance then 0 else if 0 < val then 1 else -1

def onSegment (p q r : K × K) : Bool :=
  (min p.1 r.1 - tolerance ≤ q.1 && q.1 ≤ max p.1 r.1 + tolerance) &&
    (min p.2 r.2 - tolerance ≤ q.2 && q.2 ≤ max p.2 r.2 + tolerance)

def segmentsIntersect (a b c d : K × K) : Bool :=
  let o1 := orientation a b c
  let o2 := orientation a b d
  let o3 := orientation c d a
  let o4 := orientation c d b
  if o1 ≠ o2 ∧ o3 ≠ o4 then true
  else if o1 = 0 ∧ onSegment a c b then true
  else if o2 = 0 ∧ onSegment a d b then true
  else if o3 = 0 ∧ onSegment c a d then true
  else if o4 = 0 ∧ onSegment c b d then true
  else false

def segmentIntersectsPolygon (a b : K × K) (polygon : Polygon K) : Bool :=
  (polygonEdges polygon).any (fun edge => segmentsIntersect a b edge.1 edge.2) || insidePolygon a polygon

def lineOfSightClearPolygon (start goal : K × K) (polygon : Polygon K) : Bool :=
  !segmentIntersectsPolygon start goal polygon

/-- A point with integer coordinates. -/
def whole (p : Int × Int) : K × K := (p.1,p.2)

/-- What the line of sight is to tell: a point of the segment on an edge, or inside. -/
def Blocked (a b : K × K) (polygon : Polygon K) : Prop :=
  ∃ t, (0 ≤ t ∧ t ≤ 1) ∧
    ((∃ edge ∈ polygonEdges polygon, ∃ s, (0 ≤ s ∧ s ≤ 1) ∧ along a b t = along edge.1 edge.2 s) ∨
      insidePolygon (along a b t) polygon = true)

/-- The other half of a crossing: the segment passes to the left of a vertex. -/
def passesLeft (a b w : K × K) : Bool :=
  (decide (a.2 < w.2) != decide (b.2 < w.2)) && a.1 + (w.2 - a.2)/(b.2 - a.2)*(b.1 - a.1) < w.1

theorem edgeCrosses_eq (p u v : K × K) : edgeCrosses p u v =
    ((decide (p.2 < u.2) != decide (p.2 < v.2)) && decide (p.1 < u.1 + (p.2 - u.2)/(v.2 - u.2)*(v.1 - u.1))) := by
  unfold edgeCrosses
  congr 1
  rcases lt_or_ge p.2 u.2 with above | below
  · rcases lt_or_ge p.2 v.2 with above_ | below_
    · simp [above,above_,above_.not_ge,above.not_ge]
    · simp [above,below_,below_.not_gt]
  · rcases lt_or_ge p.2 v.2 with above_ | below_
    · simp [below,above_,below.not_gt]
    · simp [below_,below.not_gt,below_.not_gt]

theorem edgeCrosses_swap (p u v : K × K) : edgeCrosses p u v = edgeCrosses p v u := by
  rw [edgeCrosses_eq,edgeCrosses_eq,bne_comm]
  cases differ : decide (p.2 < v.2) != decide (p.2 < u.2) with
  | false => rfl
  | true =>
    have tall := (parted _ _ _ differ).1
    have one : u.1 + (p.2 - u.2)/(v.2 - u.2)*(v.1 - u.1) = v.1 + (p.2 - v.2)/(u.2 - v.2)*(u.1 - v.1) := by
      have gap : v.2 - u.2 ≠ 0 := sub_ne_zero.mpr tall
      have gap_ : u.2 - v.2 ≠ 0 := sub_ne_zero.mpr (Ne.symm tall)
      field_simp
      ring
    rw [one]

theorem inside_perm (p : K × K) (first second : Polygon K)
    (same : (polygonEdges first).Perm (polygonEdges second) ∨ (polygonEdges first).Perm ((polygonEdges second).map Prod.swap)) :
    insidePolygon p first = insidePolygon p second := by
  unfold insidePolygon
  rcases same with same | same
  · rw [same.countP_eq]
  · rw [same.countP_eq,List.countP_map]
    have swapped : (fun e : (K × K) × (K × K) => edgeCrosses p e.1 e.2) ∘ Prod.swap = fun e => edgeCrosses p e.1 e.2 :=
      funext (fun e => edgeCrosses_swap p e.2 e.1)
    rw [swapped]

variable [IsStrictOrderedRing K]

theorem tolerance_pos : (0 : K) < tolerance := by
  unfold tolerance fraction
  positivity

theorem tolerance_lt_one : (tolerance : K) < 1 := by
  unfold tolerance fraction
  rw [div_lt_one (by positivity)]
  exact_mod_cast (by norm_num : 1 < 10^12)

theorem le_of_tolerance (x y : Int) : (x : K) - tolerance ≤ y ↔ (x : K) ≤ y := by
  constructor
  · intro near
    by_contra! below
    have step : (y : K) + 1 ≤ x := by exact_mod_cast (Int.cast_lt.mp below : y < x)
    linarith [tolerance_lt_one (K := K)]
  · intro le
    linarith [tolerance_pos (K := K)]

theorem onSegment_whole (p q r : Int × Int) : onSegment (whole p : K × K) (whole q) (whole r) = true ↔
    Boxed (whole p : K × K) (whole r) (whole q) := by
  have low (x y z : Int) : min (x : K) y - tolerance ≤ z ↔ min (x : K) y ≤ z := by
    rw [← Int.cast_min]
    exact le_of_tolerance _ _
  have high (x y z : Int) : (z : K) ≤ max (x : K) y + tolerance ↔ (z : K) ≤ max (x : K) y := by
    rw [← Int.cast_max,← sub_le_iff_le_add]
    exact le_of_tolerance _ _
  simp only [onSegment,whole,Boxed,Bool.and_eq_true,decide_eq_true_eq,low,high]

theorem orientation_whole (p q r : Int × Int) : orientation (whole p : K × K) (whole q) (whole r) =
    (SignType.sign (turn (whole p : K × K) (whole q) (whole r)) : Int) := by
  have cast : turn (whole p : K × K) (whole q) (whole r) =
      ((q.1 - p.1)*(r.2 - p.2) - (q.2 - p.2)*(r.1 - p.1) : Int) := by
    simp only [turn,whole]
    push_cast
    ring
  have val : orientation (whole p : K × K) (whole q) (whole r) =
      if |turn (whole p : K × K) (whole q) (whole r)| < tolerance then 0
      else if 0 < turn (whole p : K × K) (whole q) (whole r) then 1 else -1 := rfl
  rw [val,cast]
  obtain ⟨n,hn⟩ : ∃ n : Int, n = (q.1 - p.1)*(r.2 - p.2) - (q.2 - p.2)*(r.1 - p.1) := ⟨_,rfl⟩
  rw [← hn]
  rcases lt_trichotomy n 0 with negative | none_ | positive
  · have far : (n : K) ≤ -1 := by exact_mod_cast Int.le_sub_one_of_lt negative
    have wide : ¬|(n : K)| < tolerance := by
      rw [abs_of_neg (by linarith),not_lt]
      linarith [tolerance_lt_one (K := K)]
    rw [if_neg wide,if_neg (by linarith),sign_neg (by linarith)]
    rfl
  · subst none_
    simp [tolerance_pos]
  · have far : (1 : K) ≤ n := by exact_mod_cast positive
    have wide : ¬|(n : K)| < tolerance := by
      rw [abs_of_pos (by linarith),not_lt]
      linarith [tolerance_lt_one (K := K)]
    rw [if_neg wide,if_pos (by linarith),sign_pos (by linarith)]
    rfl

theorem sign_cast (x y : SignType) : (x : Int) = (y : Int) ↔ x = y := by
  revert x y
  decide

/-- At integer points the test is exact. -/
theorem segmentsIntersect_iff (a b c d : Int × Int) : segmentsIntersect (whole a : K × K) (whole b) (whole c) (whole d) = true ↔
    Meet (whole a : K × K) (whole b) (whole c) (whole d) := by
  rw [← touch_iff]
  have none_ (x : SignType) : (x : Int) = 0 ↔ x = 0 := sign_cast x 0
  simp only [segmentsIntersect,Touch,orientation_whole,onSegment_whole,ne_eq,sign_cast,none_,sign_eq_zero_iff,
    Bool.if_true_left,Bool.or_eq_true,decide_eq_true_eq,Bool.false_eq_true,or_false]

/-- A height that parts the ends of a segment is the height of one of its places. -/
theorem level_share (y : K) (u v : K × K) (apart : u.2 ≠ v.2) (low : min u.2 v.2 ≤ y) (high : y ≤ max u.2 v.2) :
    (0 ≤ (y - u.2)/(v.2 - u.2) ∧ (y - u.2)/(v.2 - u.2) ≤ 1) ∧
      place u v ((y - u.2)/(v.2 - u.2)) = (u.1 + (y - u.2)/(v.2 - u.2)*(v.1 - u.1),y) := by
  have tall : v.2 - u.2 ≠ 0 := sub_ne_zero.mpr (Ne.symm apart)
  have same : u.2 + (v.2 - u.2)*((y - u.2)/(v.2 - u.2)) = y := by
    rw [mul_div_cancel₀ _ tall]
    ring
  refine ⟨place_of_between u.2 v.2 _ apart (by rwa [same]) (by rwa [same]),Prod.ext ?_ same⟩
  simp only [place]
  ring

/-- Places of two segments at one height, and whether the second is to the right. -/
def Level (a b c d : K × K) (right : Bool) : Prop :=
  ∃ s t, (0 ≤ s ∧ s ≤ 1) ∧ (0 ≤ t ∧ t ≤ 1) ∧ (place a b s).2 = (place c d t).2 ∧
    right = decide ((place a b s).1 < (place c d t).1)

theorem Level.agree {a b c d : K × K} {x y : Bool} (first : Level a b c d x) (second : Level a b c d y)
    (apart : ¬Meet a b c d) : x = y := by
  obtain ⟨s,t,sin,tin,level,rfl⟩ := first
  obtain ⟨s_,t_,sin_,tin_,level_,rfl⟩ := second
  rw [decide_eq_decide]
  constructor
  · intro right
    by_contra! left
    exact apart (meet_of_swap a b c d s t s_ t_ sin tin sin_ tin_ level level_ right left)
  · intro right
    by_contra! left
    exact apart (meet_of_swap a b c d s_ t_ s t sin_ tin_ sin tin level_ level right left)

/-- All the places at one height are on one side. -/
theorem one_side (a b c d : K × K) (apart : ¬Meet a b c d) : ∃ side, ∀ right, Level a b c d right → right = side := by
  by_cases some_ : ∃ right, Level a b c d right
  · obtain ⟨side,level⟩ := some_
    exact ⟨side,fun right other => other.agree level apart⟩
  · exact ⟨false,fun right level => absurd ⟨right,level⟩ some_⟩

/-- Past an edge that the segment does not meet: a crossing is gained or lost as
one end of the edge, and not the other, is passed on the left. -/
theorem crossings_apart (a b u v : K × K) (apart : ¬Meet a b u v) :
    (edgeCrosses a u v != edgeCrosses b u v) = (passesLeft a b u != passesLeft a b v) := by
  have first (differ : (decide (a.2 < u.2) != decide (a.2 < v.2)) = true) :
      Level a b u v (decide (a.1 < u.1 + (a.2 - u.2)/(v.2 - u.2)*(v.1 - u.1))) := by
    obtain ⟨wide,low,high⟩ := parted _ _ _ differ
    obtain ⟨inside,same⟩ := level_share a.2 u v wide low high
    exact ⟨0,_,⟨le_rfl,zero_le_one⟩,inside,by rw [same,place_zero],by rw [same,place_zero]⟩
  have second (differ : (decide (b.2 < u.2) != decide (b.2 < v.2)) = true) :
      Level a b u v (decide (b.1 < u.1 + (b.2 - u.2)/(v.2 - u.2)*(v.1 - u.1))) := by
    obtain ⟨wide,low,high⟩ := parted _ _ _ differ
    obtain ⟨inside,same⟩ := level_share b.2 u v wide low high
    exact ⟨1,_,⟨zero_le_one,le_rfl⟩,inside,by rw [same,place_one],by rw [same,place_one]⟩
  have third (differ : (decide (a.2 < u.2) != decide (b.2 < u.2)) = true) :
      Level a b u v (decide (a.1 + (u.2 - a.2)/(b.2 - a.2)*(b.1 - a.1) < u.1)) := by
    obtain ⟨wide,low,high⟩ := parted_over _ _ _ differ
    obtain ⟨inside,same⟩ := level_share u.2 a b wide low high
    exact ⟨_,0,inside,⟨le_rfl,zero_le_one⟩,by rw [same,place_zero],by rw [same,place_zero]⟩
  have fourth (differ : (decide (a.2 < v.2) != decide (b.2 < v.2)) = true) :
      Level a b u v (decide (a.1 + (v.2 - a.2)/(b.2 - a.2)*(b.1 - a.1) < v.1)) := by
    obtain ⟨wide,low,high⟩ := parted_over _ _ _ differ
    obtain ⟨inside,same⟩ := level_share v.2 a b wide low high
    exact ⟨_,1,inside,⟨zero_le_one,le_rfl⟩,by rw [same,place_one],by rw [same,place_one]⟩
  obtain ⟨side,same⟩ := one_side a b u v apart
  have shared (differ right : Bool) (level : differ = true → Level a b u v right) : (differ && right) = (differ && side) := by
    cases differ with
    | false => rfl
    | true => rw [same right (level rfl)]
  rw [edgeCrosses_eq,edgeCrosses_eq,passesLeft,passesLeft,shared _ _ first,shared _ _ second,shared _ _ third,shared _ _ fourth]
  cases decide (a.2 < u.2) <;> cases decide (a.2 < v.2) <;> cases decide (b.2 < u.2) <;> cases decide (b.2 < v.2) <;>
    cases side <;> rfl

/-- Along a segment that meets no edge, the inside does not change. -/
theorem inside_constant (a b : K × K) (polygon : Polygon K)
    (apart : ∀ edge ∈ polygonEdges polygon, ¬Meet a b edge.1 edge.2) : insidePolygon a polygon = insidePolygon b polygon := by
  have flips : (polygonEdges polygon).countP (fun e => edgeCrosses a e.1 e.2 != edgeCrosses b e.1 e.2) =
      (polygonEdges polygon).countP (fun e => passesLeft a b e.1 != passesLeft a b e.2) := by
    refine List.countP_congr (fun edge member => ?_)
    rw [crossings_apart a b edge.1 edge.2 (apart edge member)]
  have even := Cycles.changes_even (passesLeft a b) polygon
  rw [← polygonEdges_pairs,← flips,← Cycles.countP_bne] at even
  unfold insidePolygon
  rw [decide_eq_decide]
  omega

theorem intersects_iff (a b : Int × Int) (polygon : List (Int × Int)) :
    segmentIntersectsPolygon (whole a : K × K) (whole b) (polygon.map whole) = true ↔
      Blocked (whole a : K × K) (whole b) (polygon.map whole) := by
  have crossed : segmentIntersectsPolygon (whole a : K × K) (whole b) (polygon.map whole) = true ↔
      (∃ edge ∈ polygonEdges (polygon.map whole), Meet (whole a : K × K) (whole b) edge.1 edge.2) ∨
        insidePolygon (whole a : K × K) (polygon.map whole) = true := by
    rw [segmentIntersectsPolygon,Bool.or_eq_true,List.any_eq_true,polygonEdges_pairs,Cycles.pairs_map]
    simp only [List.mem_map,exists_exists_and_eq_and,Prod.map_fst,Prod.map_snd,segmentsIntersect_iff]
  rw [crossed]
  constructor
  · rintro (⟨edge,member,s,t,first,second,same⟩ | inside)
    · exact ⟨s,first,.inl ⟨edge,member,t,second,same⟩⟩
    · exact ⟨0,⟨le_rfl,zero_le_one⟩,.inr (by rwa [along_zero])⟩
  · rintro ⟨t,first,⟨edge,member,s,second,same⟩ | inside⟩
    · exact .inl ⟨edge,member,t,s,first,second,same⟩
    · by_cases met : ∃ edge ∈ polygonEdges (polygon.map whole), Meet (whole a : K × K) (place (whole a) (whole b) t) edge.1 edge.2
      · obtain ⟨edge,member,meet⟩ := met
        exact .inl ⟨edge,member,meet.of_part t first.1 first.2⟩
      · refine .inr ?_
        rw [inside_constant _ _ _ (fun edge member meet => met ⟨edge,member,meet⟩)]
        exact inside

theorem Blocked.flip {a b : K × K} {polygon : Polygon K} (blocked : Blocked a b polygon) : Blocked b a polygon := by
  obtain ⟨t,inside,point⟩ := blocked
  refine ⟨1 - t,⟨by linarith [inside.2],by linarith [inside.1]⟩,?_⟩
  have same : along b a (1 - t) = along a b t := place_flip b a t
  rw [same]
  exact point

theorem Blocked.perm {a b : K × K} {first second : Polygon K} (blocked : Blocked a b first)
    (same : (polygonEdges first).Perm (polygonEdges second) ∨ (polygonEdges first).Perm ((polygonEdges second).map Prod.swap)) :
    Blocked a b second := by
  obtain ⟨t,within,⟨edge,member,s,share,met⟩ | inside⟩ := blocked
  · refine ⟨t,within,.inl ?_⟩
    rcases same with same | same
    · exact ⟨edge,same.mem_iff.mp member,s,share,met⟩
    · obtain ⟨back,there,rfl⟩ := List.mem_map.mp (same.mem_iff.mp member)
      refine ⟨back,there,1 - s,⟨by linarith [share.2],by linarith [share.1]⟩,?_⟩
      have turned : along back.1 back.2 (1 - s) = along back.2 back.1 s := place_flip back.1 back.2 s
      rw [turned]
      exact met
  · refine ⟨t,within,.inr ?_⟩
    rw [← inside_perm _ first second same]
    exact inside

/-- The line of sight past a polygon is exact, and the same whichever end of the
segment comes first and however the vertices are listed around. -/
theorem sight_exact (a b : Int × Int) (polygon : List (Int × Int)) :
    (segmentIntersectsPolygon (whole a : K × K) (whole b) (polygon.map whole) = true ↔
      Blocked (whole a : K × K) (whole b) (polygon.map whole)) ∧
    (lineOfSightClearPolygon (whole a : K × K) (whole b) (polygon.map whole) = true ↔
      ¬Blocked (whole a : K × K) (whole b) (polygon.map whole)) ∧
    segmentIntersectsPolygon (whole b : K × K) (whole a) (polygon.map whole) =
      segmentIntersectsPolygon (whole a : K × K) (whole b) (polygon.map whole) ∧
    (∀ n, segmentIntersectsPolygon (whole a : K × K) (whole b) ((polygon.rotate n).map whole) =
      segmentIntersectsPolygon (whole a : K × K) (whole b) (polygon.map whole)) ∧
    segmentIntersectsPolygon (whole a : K × K) (whole b) (polygon.reverse.map whole) =
      segmentIntersectsPolygon (whole a : K × K) (whole b) (polygon.map whole) := by
  have turned (n : Nat) : (polygonEdges ((polygon.rotate n).map (whole (K := K)))).Perm (polygonEdges (polygon.map whole)) := by
    rw [polygonEdges_pairs,polygonEdges_pairs,List.map_rotate]
    exact Cycles.pairs_rotate_perm _ n
  have back (items : List (Int × Int)) : (polygonEdges (items.reverse.map (whole (K := K)))).Perm
      ((polygonEdges (items.map whole)).map Prod.swap) := by
    rw [polygonEdges_pairs,polygonEdges_pairs,List.map_reverse]
    exact Cycles.pairs_reverse_perm _
  refine ⟨intersects_iff a b polygon,?_,?_,fun n => ?_,?_⟩
  · rw [← intersects_iff a b polygon,lineOfSightClearPolygon,Bool.not_eq_true']
    exact (Bool.not_eq_true _).symm.to_iff
  · rw [Bool.eq_iff_iff,intersects_iff,intersects_iff]
    exact ⟨Blocked.flip,Blocked.flip⟩
  · rw [Bool.eq_iff_iff,intersects_iff,intersects_iff]
    exact ⟨fun blocked => blocked.perm (.inl (turned n)),fun blocked => blocked.perm (.inl (turned n).symm)⟩
  · rw [Bool.eq_iff_iff,intersects_iff,intersects_iff]
    refine ⟨fun blocked => blocked.perm (.inr (back polygon)),fun blocked => blocked.perm (.inr ?_)⟩
    have again := back polygon.reverse
    rwa [List.reverse_reverse] at again

/-- A square, a segment through it and one past it. -/
theorem sight_exact_square :
    Blocked (whole (-1,1) : ℚ × ℚ) (whole (3,1)) ([(0,0),(2,0),(2,2),(0,2)].map whole) ∧
    ¬Blocked (whole (-1,5) : ℚ × ℚ) (whole (3,5)) ([(0,0),(2,0),(2,2),(0,2)].map whole) :=
  ⟨(sight_exact (K := ℚ) (-1,1) (3,1) [(0,0),(2,0),(2,2),(0,2)]).1.mp (by decide +kernel),
    (sight_exact (K := ℚ) (-1,5) (3,5) [(0,0),(2,0),(2,2),(0,2)]).2.1.mp (by decide +kernel)⟩

end AmigaFleet.Planners
