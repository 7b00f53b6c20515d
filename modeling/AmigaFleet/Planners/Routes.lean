import AmigaFleet.Planners.Grid
import AmigaFleet.Planners.Roadmap
import Mathlib.Analysis.Real.Sqrt

/-! The two planners over polygons: what their routes have been checked against, and
what passes between the checks. -/
namespace AmigaFleet.Planners
open Lib BestFirst

section
variable {K : Type} [Field K]

def straightControlPoints (start goal : K × K) : List (K × K) :=
  [start,along start goal (fraction 1 3),along start goal (fraction 2 3),goal]

variable (fit : List (K × K) → Option (List (K × K)))

/-- `_fit_or_straight`. A fit that fails raises `ValueError`. -/
def fitOrStraight (path : List (K × K)) (start goal : K × K) : List (K × K) :=
  if path.length < 2 then List.replicate 4 start else (fit path).getD (straightControlPoints start goal)

variable [LinearOrder K] {W : Type} [Field W] [LinearOrder W] (hypot : K → K → W) (root2 : W)

def planAstarPointsPolygons [FloorRing K] (fuel : Nat) (polygons : ObstaclePolygons K) (start goal : K × K) :
    Option (Option (List (K × K))) :=
  let grid := buildPolygonGrid polygons start goal
  let first := grid.worldToGrid start
  let last := grid.worldToGrid goal
  if !grid.inBounds first || !grid.inBounds last then some none
  else if first = last then some (some (List.replicate 4 start))
  else (astar hypot root2 fuel grid first last).map (fun path =>
    path.map (fun cells => fitOrStraight fit (cells.map grid.gridToWorld) start goal))

variable (voronoi : List (K × K) → Option (Diagram K))

/-- The roadmap with the start and the goal in it. -/
def roadmap (ridges : List (Segment K)) (start goal : K × K) : Option (List (Segment K)) :=
  (insertPointIntoRoadmap ridges start).bind (fun edges => insertPointIntoRoadmap edges goal)

def planVoronoiPoints (fuel : Nat) (polygons : ObstaclePolygons K) (start goal : K × K) : Option (Option (List (K × K))) :=
  match voronoiRoadmapEdges voronoi polygons with
  | none | some [] => some (some (straightControlPoints start goal))
  | some ridges =>
    (roadmap ridges start goal).bind (fun edges =>
      (dijkstraShortestPath hypot fuel edges start goal).map (fun path =>
        path.map (fun points => fitOrStraight fit points start goal)))

end

section
variable {K : Type} [Field K] [LinearOrder K]

/-- Seven samples of the segment are outside every polygon, and no polygon holds a
sixth of it. -/
def Sampled (polygons : ObstaclePolygons K) (e : Segment K) : Prop :=
  (∀ k : Nat, k ≤ 6 → insideAny (along e.1 e.2 (fraction k 6)) polygons = false) ∧
    ∀ polygon ∈ polygons, ∀ s t, 0 ≤ s → t ≤ 1 → Stretch e.1 e.2 polygon.2 s t → t - s < fraction 1 6

/-- Both points are on one ridge, on the connector of the start, or on that of the goal. -/
def OnRoadmap (ridges : List (Segment K)) (start goal p q : K × K) : Prop :=
  (∃ e ∈ ridges, On e p ∧ On e q) ∨
    (∃ e ∈ ridges, ∃ c, On e c ∧ On (start,c) p ∧ On (start,c) q) ∨
    ∃ c, ((∃ e ∈ ridges, On e c) ∨ ∃ e ∈ ridges, ∃ d, On e d ∧ On (start,d) c) ∧ On (goal,c) p ∧ On (goal,c) q

theorem OnRoadmap.symm {ridges : List (Segment K)} {start goal p q : K × K} (on : OnRoadmap ridges start goal p q) :
    OnRoadmap ridges start goal q p := by
  rcases on with ⟨e,ridge,one,two⟩ | ⟨e,ridge,c,there,one,two⟩ | ⟨c,there,one,two⟩
  · exact .inl ⟨e,ridge,two,one⟩
  · exact .inr (.inl ⟨e,ridge,c,there,two,one⟩)
  · exact .inr (.inr ⟨c,there,two,one⟩)

variable [IsStrictOrderedRing K]

theorem ridges_sampled (voronoi : List (K × K) → Option (Diagram K)) (polygons : ObstaclePolygons K)
    (ridges : List (Segment K)) (ok : voronoiRoadmapEdges voronoi polygons = some ridges) :
    ∀ e ∈ ridges, Sampled polygons e := by
  intro e member
  unfold voronoiRoadmapEdges at ok
  split at ok
  · cases ok
  · obtain ⟨d,_,rfl⟩ := Option.map_eq_some_iff.mp ok
    have kept := (List.mem_filter.mp member).2
    rw [Bool.not_eq_true'] at kept
    have samples := sample_outside e.1 e.2 polygons kept
    exact ⟨samples,fun polygon inside s t low high stretch =>
      by simpa [fraction] using stretch.short low high (fun k le => outside_of_any _ _ (samples k le) polygon inside)⟩

theorem roadmap_parts (ridges edges : List (Segment K)) (start goal : K × K)
    (ok : roadmap ridges start goal = some edges) : ∀ f ∈ edges, OnRoadmap ridges start goal f.1 f.2 := by
  obtain ⟨mid,first,second⟩ := Option.bind_eq_some_iff.mp ok
  intro f member
  rcases insert_parts mid edges goal second f member with ⟨g,inside,one,two⟩ | ⟨g,inside,c,on,rfl⟩
  · rcases insert_parts ridges mid start first g inside with ⟨e,ridge,left,right⟩ | ⟨e,ridge,c,on,rfl⟩
    · exact .inl ⟨e,ridge,left.between right one,left.between right two⟩
    · exact .inr (.inl ⟨e,ridge,c,on,one,two⟩)
  · refine .inr (.inr ⟨c,?_,on_first _,on_second _⟩)
    rcases insert_parts ridges mid start first g inside with ⟨e,ridge,left,right⟩ | ⟨e,ridge,d,there,rfl⟩
    · exact .inl ⟨e,ridge,left.between right on⟩
    · exact .inr ⟨e,ridge,d,there,on⟩

variable [FloorRing K] {W : Type} [Field W] [LinearOrder W] [IsStrictOrderedRing W]

/-- What the planners make sure of. A path of A* goes from free centre to free centre, and
between two of them no polygon holds as much as the way from one to the other; a path over
the roadmap keeps to ridges that no polygon holds a sixth of, but for the two connectors. -/
theorem routes_clear (hypot : K → K → W) (root2 : W) (nonneg : ∀ x y, 0 ≤ hypot x y) (long : 0 ≤ root2)
    (voronoi : List (K × K) → Option (Diagram K)) (fuel : Nat) (polygons : ObstaclePolygons K) (start goal : K × K) :
    (∀ (first last : Cell) (path : List Cell),
      astar hypot root2 fuel (buildPolygonGrid polygons start goal) first last = some (some path) →
      path.head? = some first ∧ path.getLast? = some last ∧
      (∀ cell ∈ path, insideAny ((buildPolygonGrid polygons start goal).gridToWorld cell) polygons = false) ∧
      path.IsChain (fun a b => Step (buildPolygonGrid polygons start goal) a b ∧
        ∀ polygon ∈ polygons, ∀ s t, 0 ≤ s → t ≤ 1 →
          Stretch ((buildPolygonGrid polygons start goal).gridToWorld a)
            ((buildPolygonGrid polygons start goal).gridToWorld b) polygon.2 s t →
          dist2 (along ((buildPolygonGrid polygons start goal).gridToWorld a)
              ((buildPolygonGrid polygons start goal).gridToWorld b) s)
            (along ((buildPolygonGrid polygons start goal).gridToWorld a)
              ((buildPolygonGrid polygons start goal).gridToWorld b) t) < 1/8)) ∧
    (∀ (ridges edges : List (Segment K)) (path : List (K × K)), voronoiRoadmapEdges voronoi polygons = some ridges →
      roadmap ridges start goal = some edges → dijkstraShortestPath hypot fuel edges start goal = some (some path) →
      path.head? = some start ∧ path.getLast? = some goal ∧ (∀ e ∈ ridges, Sampled polygons e) ∧
      path.IsChain (OnRoadmap ridges start goal)) := by
  refine ⟨fun first last path ok => astar_clear hypot root2 long fuel polygons start goal first last path ok,
    fun ridges edges path kept inserted ok => ?_⟩
  obtain ⟨head,tail,chain⟩ := dijkstra_links hypot nonneg fuel edges start goal path ok
  refine ⟨head,tail,ridges_sampled voronoi polygons ridges kept,chain.imp (fun p q link => ?_)⟩
  obtain ⟨e,member,same | same⟩ := link
  · have parts := roadmap_parts ridges edges start goal inserted e member
    rw [same] at parts
    exact parts
  · have parts := roadmap_parts ridges edges start goal inserted e member
    rw [same] at parts
    exact parts.symm

end

/-- `math.hypot` over the reals. -/
noncomputable def realHypot (x y : ℚ) : ℝ := Real.sqrt ((x : ℝ)^2 + (y : ℝ)^2)

theorem realHypot_zero : realHypot 0 0 = 0 := by simp [realHypot]

theorem realHypot_positive (x y : ℚ) (away : x ≠ 0 ∨ y ≠ 0) : 0 < realHypot x y := by
  refine Real.sqrt_pos.mpr ?_
  rcases away with first | second
  · have := sq_pos_of_ne_zero (Rat.cast_ne_zero (α := ℝ).mpr first)
    positivity
  · have := sq_pos_of_ne_zero (Rat.cast_ne_zero (α := ℝ).mpr second)
    positivity

theorem root2_long : (1 : ℝ) ≤ Real.sqrt 2 := Real.one_le_sqrt.mpr one_le_two

/-- `math.hypot` on a segment along an axis. -/
def axisHypot (x y : ℚ) : ℚ := |x| + |y|

/-- A triangle with its centroid between the centres of two cells. -/
def thinTriangle : Polygon ℚ := [(6/25,0),(13/50,0),(1/4,3/8)]

/-- A triangle with its centroid between the first two samples of a ridge. -/
def slimTriangle : Polygon ℚ := [(2/5,-1),(3/5,-1),(1/2,2)]

def oneRidge (_ : List (ℚ × ℚ)) : Option (Diagram ℚ) := some ⟨[(0,0),(6,0)],[(0,1)]⟩

theorem thin_free : (buildPolygonGrid [("thin",thinTriangle)] (0,0) (3/8,0)).isFree (12,12) = true ∧
    (buildPolygonGrid [("thin",thinTriangle)] (0,0) (3/8,0)).isFree (12,13) = true := by
  decide +kernel

theorem thin_path : astar realHypot (Real.sqrt 2) 2 (buildPolygonGrid [("thin",thinTriangle)] (0,0) (3/8,0)) (12,12) (12,13) =
    some (some [(12,12),(12,13)]) :=
  astar_beside realHypot _ realHypot_zero realHypot_positive root2_long _ 12 12 thin_free.1 thin_free.2 0

theorem slim_path :
    (voronoiRoadmapEdges oneRidge [("slim",slimTriangle)] = some [((0,0),(6,0))]) ∧
    (roadmap [((0,0),(6,0))] (0,1) (6,1) =
      some [((0,0),(0,0)),((0,1),(0,0)),((0,0),(6,0)),((6,0),(6,0)),((6,1),((6 : ℚ),(0 : ℚ)))]) ∧
    dijkstraShortestPath axisHypot 20 [((0,0),(0,0)),((0,1),(0,0)),((0,0),(6,0)),((6,0),(6,0)),((6,1),(6,0))] (0,1) (6,1) =
      some (some [(0,1),(0,0),(6,0),(6,1)]) := by
  decide +kernel

theorem routes_clear_between :
    (insideAny ((buildPolygonGrid [("thin",thinTriangle)] (0,0) (3/8,0)).gridToWorld (12,13)) [("thin",thinTriangle)] = false ∧
      Step (buildPolygonGrid [("thin",thinTriangle)] (0,0) (3/8,0)) (12,12) (12,13)) ∧
    Sampled [("slim",slimTriangle)] ((0,0),(6,0)) ∧ OnRoadmap [((0,0),(6,0))] (0,1) (6,1) (0,0) ((6 : ℚ),(0 : ℚ)) := by
  have nonneg (x y : ℚ) : 0 ≤ realHypot x y := Real.sqrt_nonneg _
  have axis (x y : ℚ) : 0 ≤ axisHypot x y := add_nonneg (abs_nonneg x) (abs_nonneg y)
  obtain ⟨_,_,clear,chain⟩ := (routes_clear realHypot (Real.sqrt 2) nonneg (zero_le_one.trans root2_long) oneRidge 2
    [("thin",thinTriangle)] (0,0) (3/8,0)).1 (12,12) (12,13) _ thin_path
  obtain ⟨kept,inserted,found⟩ := slim_path
  obtain ⟨_,_,sampled,on⟩ := (routes_clear axisHypot 2 axis zero_le_two oneRidge 20 [("slim",slimTriangle)] (0,1) (6,1)).2
    _ _ _ kept inserted found
  refine ⟨⟨clear (12,13) (by simp),(List.isChain_cons_cons.mp chain).1.1⟩,sampled _ (List.mem_singleton_self _),?_⟩
  exact (List.isChain_cons_cons.mp (List.isChain_cons_cons.mp on).2).1

/-- The point in the middle of a triangle. -/
def centroid (a b c : ℚ × ℚ) : ℚ × ℚ := ((a.1 + b.1 + c.1)/3,(a.2 + b.2 + c.2)/3)

/-- A triangle across the way. -/
def wideTriangle : Polygon ℚ := [(4,-1),(6,-1),(5,2)]

def noRidge (_ : List (ℚ × ℚ)) : Option (Diagram ℚ) := some ⟨[(5,0)],[(-1,0)]⟩

def noFit (_ : List (ℚ × ℚ)) : Option (List (ℚ × ℚ)) := none

/-- Between two centres, between two samples of a ridge, and where no ridge is left, the
middle of a triangle is on the way. -/
theorem routes_not_clear :
    (astar realHypot (Real.sqrt 2) 2 (buildPolygonGrid [("thin",thinTriangle)] (0,0) (3/8,0)) (12,12) (12,13) =
        some (some [(12,12),(12,13)]) ∧
      along ((buildPolygonGrid [("thin",thinTriangle)] (0,0) (3/8,0)).gridToWorld (12,12))
          ((buildPolygonGrid [("thin",thinTriangle)] (0,0) (3/8,0)).gridToWorld (12,13)) (1/2) =
        centroid (6/25,0) (13/50,0) (1/4,3/8) ∧
      insidePolygon (centroid (6/25,0) (13/50,0) (1/4,3/8)) thinTriangle = true ∧
      insidePolygon (0,0) thinTriangle = false ∧ insidePolygon (3/8,0) thinTriangle = false) ∧
    ((voronoiRoadmapEdges oneRidge [("slim",slimTriangle)] = some [((0,0),(6,0))] ∧
      roadmap [((0,0),(6,0))] (0,1) (6,1) =
        some [((0,0),(0,0)),((0,1),(0,0)),((0,0),(6,0)),((6,0),(6,0)),((6,1),((6 : ℚ),(0 : ℚ)))] ∧
      dijkstraShortestPath axisHypot 20 [((0,0),(0,0)),((0,1),(0,0)),((0,0),(6,0)),((6,0),(6,0)),((6,1),(6,0))] (0,1) (6,1) =
        some (some [(0,1),(0,0),(6,0),(6,1)])) ∧
      along (0,0) (6,0) (1/12) = centroid (2/5,-1) (3/5,-1) (1/2,2) ∧
      insidePolygon (centroid (2/5,-1) (3/5,-1) (1/2,2)) slimTriangle = true ∧
      insidePolygon (0,1) slimTriangle = false ∧ insidePolygon (6,1) slimTriangle = false) ∧
    (planVoronoiPoints noFit axisHypot noRidge 0 [("wide",wideTriangle)] (0,0) (10,0) =
        some (some (straightControlPoints (0,0) (10,0))) ∧
      along (0,0) (10,0) (1/2) = centroid (4,-1) (6,-1) (5,2) ∧
      insidePolygon (centroid (4,-1) (6,-1) (5,2)) wideTriangle = true ∧
      insidePolygon (0,0) wideTriangle = false ∧ insidePolygon (10,0) wideTriangle = false) := by
  refine ⟨⟨thin_path,?_⟩,?_,?_⟩
  · decide +kernel
  · exact ⟨slim_path,by decide +kernel⟩
  · decide +kernel

end AmigaFleet.Planners
