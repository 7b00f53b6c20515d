import AmigaFleet.Planners.Polygons
import AmigaFleet.Lib.BestFirst
import Mathlib.Algebra.Order.Floor.Ring

/-! A* over a grid of cells that are free or not by their centres. -/
namespace AmigaFleet.Planners
open Lib BestFirst

abbrev Cell := Int × Int

structure OccupancyGridMap (K : Type) where
  data : Cell → Int
  height : Int
  width : Int
  resolution : K
  origin : K × K

section
variable {K : Type}

def OccupancyGridMap.inBounds (grid : OccupancyGridMap K) (cell : Cell) : Bool :=
  decide (0 ≤ cell.1) && decide (cell.1 < grid.height) && decide (0 ≤ cell.2) && decide (cell.2 < grid.width)

/-- `is_free`, with the threshold of `OCC_THRESH`. -/
def OccupancyGridMap.isFree (grid : OccupancyGridMap K) (cell : Cell) : Bool := grid.inBounds cell && decide (grid.data cell < 50)

/-- The eight directions; the cost of a diagonal step is the root of two. -/
def steps {W : Type} [One W] (root2 : W) : List (Cell × W) :=
  [((-1,-1),root2),((-1,0),1),((-1,1),root2),((0,-1),1),((0,1),1),((1,-1),root2),((1,0),1),((1,1),root2)]

/-- Whether A* may step from a cell in a direction: it lands on a free cell, and a
diagonal step passes between free ones. -/
def OccupancyGridMap.open_ (grid : OccupancyGridMap K) (current d : Cell) : Bool :=
  grid.isFree (current.1 + d.1,current.2 + d.2) &&
    (d.1 = 0 || d.2 = 0 || (grid.isFree (current.1 + d.1,current.2) && grid.isFree (current.1,current.2 + d.2)))

def OccupancyGridMap.neighbors {W : Type} [One W] (grid : OccupancyGridMap K) (root2 : W) (current : Cell) : List (Cell × W) :=
  ((steps root2).filter (fun step => grid.open_ current step.1)).map
    (fun step => ((current.1 + step.1.1,current.2 + step.1.2),step.2))

/-- The order of the tuples in the queue. -/
def cellBefore {W : Type} [LinearOrder W] (x y : W × W × Cell) : Bool :=
  x.1 < y.1 || x.1 = y.1 && (x.2.1 < y.2.1 || x.2.1 = y.2.1 &&
    (x.2.2.1 < y.2.2.1 || x.2.2.1 = y.2.2.1 && x.2.2.2 < y.2.2.2))

theorem neighbors_mem {W : Type} [One W] (grid : OccupancyGridMap K) (root2 : W) (a : Cell) (edge : Cell × W) :
    edge ∈ grid.neighbors root2 a ↔
      ∃ step ∈ steps root2, grid.open_ a step.1 = true ∧ edge = ((a.1 + step.1.1,a.2 + step.1.2),step.2) := by
  simp only [OccupancyGridMap.neighbors,List.mem_map,List.mem_filter]
  constructor
  · rintro ⟨step,⟨member,clear⟩,rfl⟩
    exact ⟨step,member,clear,rfl⟩
  · rintro ⟨step,member,clear,rfl⟩
    exact ⟨step,⟨member,clear⟩,rfl⟩

/-- One step of a route: to a neighbour that is free, past free cells. -/
structure Step (grid : OccupancyGridMap K) (a b : Cell) : Prop where
  rows : |b.1 - a.1| ≤ 1
  cols : |b.2 - a.2| ≤ 1
  free : grid.isFree b = true
  flanks : b.1 ≠ a.1 → b.2 ≠ a.2 → grid.isFree (b.1,a.2) = true ∧ grid.isFree (a.1,b.2) = true

section
variable {W : Type} [Field W] [LinearOrder W] [IsStrictOrderedRing W] (root2 : W)

theorem steps_unit (step : Cell × W) (member : step ∈ steps root2) (long : 0 ≤ root2) :
    |step.1.1| ≤ 1 ∧ |step.1.2| ≤ 1 ∧ 0 ≤ step.2 := by
  simp only [steps,List.mem_cons,List.not_mem_nil,or_false] at member
  rcases member with rfl | rfl | rfl | rfl | rfl | rfl | rfl | rfl
  · simp [long]
  · simp
  · simp [long]
  · simp
  · simp
  · simp [long]
  · simp
  · simp [long]

theorem neighbors_step (grid : OccupancyGridMap K) (long : 0 ≤ root2) (a : Cell) (edge : Cell × W)
    (member : edge ∈ grid.neighbors root2 a) : Step grid a edge.1 ∧ 0 ≤ edge.2 := by
  obtain ⟨step,inside,clear,rfl⟩ := (neighbors_mem grid root2 a edge).mp member
  obtain ⟨rows,cols,cost⟩ := steps_unit root2 step inside long
  simp only [OccupancyGridMap.open_,Bool.and_eq_true,Bool.or_eq_true,decide_eq_true_eq] at clear
  refine ⟨⟨by simpa using rows,by simpa using cols,clear.1,fun row col => ?_⟩,cost⟩
  rcases clear.2 with (none_ | none_) | flanks
  · exact absurd (by simp [none_]) row
  · exact absurd (by simp [none_]) col
  · exact flanks

end
end

section
variable {K : Type} [Field K]

def OccupancyGridMap.gridToWorld (grid : OccupancyGridMap K) (cell : Cell) : K × K :=
  (grid.origin.1 + (cell.2 + 1/2)*grid.resolution,grid.origin.2 + (cell.1 + 1/2)*grid.resolution)

variable {W : Type} [Field W] [LinearOrder W] (hypot : K → K → W) (root2 : W)

def heuristic (goal cell : Cell) : W := hypot (cell.1 - goal.1 : Int) (cell.2 - goal.2 : Int)

/-- `astar`, within some number of steps of each of its loops. -/
def astar (fuel : Nat) (grid : OccupancyGridMap K) (start goal : Cell) : Option (Option (List Cell)) :=
  if !grid.isFree start || !grid.isFree goal then some none
  else
    match search cellBefore (heuristic hypot goal) (grid.neighbors root2) goal fuel
        (begin (heuristic hypot goal start,0,start) start) with
    | none => none
    | some (false,_) => some none
    | some (true,s) => (backtrack s.prev (fun cell => (s.prev.get? cell).isNone) fuel goal []).map some

variable [IsStrictOrderedRing W]

/-- A path that A* returns goes from the start to the goal over free cells, step by step. -/
theorem astar_steps (fuel : Nat) (grid : OccupancyGridMap K) (start goal : Cell) (long : 0 ≤ root2) (path : List Cell)
    (ok : astar hypot root2 fuel grid start goal = some (some path)) :
    path.head? = some start ∧ path.getLast? = some goal ∧ path.IsChain (Step grid) ∧ ∀ cell ∈ path, grid.isFree cell = true := by
  unfold astar at ok
  split at ok
  · cases ok
  · rename_i ends
    split at ok
    · cases ok
    · cases ok
    · rename_i s found
      obtain ⟨result,back,same⟩ := Option.map_eq_some_iff.mp ok
      cases same
      obtain ⟨rooted,reached⟩ := search_rooted cellBefore (heuristic hypot goal) (grid.neighbors root2) goal
        (neighbors_step root2 grid long) fuel _ (begin_rooted _ start (Step grid)) true s found
      obtain ⟨d,known⟩ := reached rfl
      have atStart (v : Cell) (leads : Leads s.prev start v) (stop : (s.prev.get? v).isNone = true) : v = start := by
        cases leads with
        | root => rfl
        | next _ u step rest =>
          rw [step] at stop
          cases stop
      obtain ⟨chain,first,last⟩ := backtrack_chain s rooted _ atStart fuel goal [] path (rooted.leads goal d known)
        (List.isChain_singleton goal) back
      refine ⟨first,last,chain,chain.induction _ path (fun a b step _ => step.free) (fun some_ => ?_)⟩
      rw [List.head?_eq_some_head some_] at first
      rw [Option.some.inj first]
      simp only [Bool.or_eq_true,Bool.not_eq_true',not_or,Bool.not_eq_false] at ends
      exact ends.1

end

section
variable {K : Type} [Field K] [LinearOrder K]

def gridResolutionM : K := 1/4

def gridMarginM : K := 3

variable [FloorRing K]

def OccupancyGridMap.worldToGrid (grid : OccupancyGridMap K) (p : K × K) : Cell :=
  (⌊(p.2 - grid.origin.2)/grid.resolution⌋,⌊(p.1 - grid.origin.1)/grid.resolution⌋)

def buildPolygonGrid (polygons : ObstaclePolygons K) (start goal : K × K) : OccupancyGridMap K :=
  let xs := (polygons.flatMap Prod.snd).map Prod.fst
  let ys := (polygons.flatMap Prod.snd).map Prod.snd
  let minX := xs.foldl min (min start.1 goal.1) - gridMarginM
  let maxX := xs.foldl max (max start.1 goal.1) + gridMarginM
  let minY := ys.foldl min (min start.2 goal.2) - gridMarginM
  let maxY := ys.foldl max (max start.2 goal.2) + gridMarginM
  let empty : OccupancyGridMap K :=
    { data := fun _ => 0
      height := max 1 ⌈(maxY - minY)/gridResolutionM⌉
      width := max 1 ⌈(maxX - minX)/gridResolutionM⌉
      resolution := gridResolutionM
      origin := (minX,minY) }
  { empty with data := fun cell => if insideAny (empty.gridToWorld cell) polygons then 100 else 0 }

theorem buildPolygonGrid_free (polygons : ObstaclePolygons K) (start goal : K × K) (cell : Cell)
    (free : (buildPolygonGrid polygons start goal).isFree cell = true) :
    insideAny ((buildPolygonGrid polygons start goal).gridToWorld cell) polygons = false := by
  refine Bool.eq_false_iff.mpr (fun inside => ?_)
  simp only [OccupancyGridMap.isFree,Bool.and_eq_true,decide_eq_true_eq] at free
  have taken : (buildPolygonGrid polygons start goal).data cell = 100 := if_pos inside
  rw [taken] at free
  exact absurd free.2 (by decide)

variable [IsStrictOrderedRing K]

omit [FloorRing K] in
/-- Centres of neighbouring cells. -/
theorem Step.near {grid : OccupancyGridMap K} (fine : grid.resolution = 1/4) {a b : Cell} (step : Step grid a b) :
    dist2 (grid.gridToWorld a) (grid.gridToWorld b) ≤ 1/8 := by
  have unit (n : Int) (small : |n| ≤ 1) : ((n : K))^2 ≤ 1 := by
    have bound : |(n : K)| ≤ 1 := by exact_mod_cast small
    rw [← sq_abs]
    exact pow_le_one₀ (abs_nonneg _) bound
  have rows := unit _ step.rows
  have cols := unit _ step.cols
  have scaled : dist2 (grid.gridToWorld a) (grid.gridToWorld b) = (((b.2 - a.2 : Int) : K)^2 + ((b.1 - a.1 : Int) : K)^2)/16 := by
    simp only [dist2,OccupancyGridMap.gridToWorld,fine]
    push_cast
    ring
  rw [scaled]
  linarith

theorem step_near (polygons : ObstaclePolygons K) (start goal : K × K) (a b : Cell)
    (step : Step (buildPolygonGrid polygons start goal) a b) :
    dist2 ((buildPolygonGrid polygons start goal).gridToWorld a) ((buildPolygonGrid polygons start goal).gridToWorld b) ≤
      1/8 :=
  step.near rfl

/-- The centres on a path of A* are outside every polygon, and a polygon that lies
between two of them is passed in less than the way from one to the other. -/
theorem astar_clear {W : Type} [Field W] [LinearOrder W] [IsStrictOrderedRing W] (hypot : K → K → W) (root2 : W)
    (long : 0 ≤ root2) (fuel : Nat) (polygons : ObstaclePolygons K) (start goal : K × K) (first last : Cell) (path : List Cell)
    (ok : astar hypot root2 fuel (buildPolygonGrid polygons start goal) first last = some (some path)) :
    path.head? = some first ∧ path.getLast? = some last ∧
      (∀ cell ∈ path, insideAny ((buildPolygonGrid polygons start goal).gridToWorld cell) polygons = false) ∧
      path.IsChain (fun a b => Step (buildPolygonGrid polygons start goal) a b ∧
        ∀ polygon ∈ polygons, ∀ s t, 0 ≤ s → t ≤ 1 →
          Stretch ((buildPolygonGrid polygons start goal).gridToWorld a)
            ((buildPolygonGrid polygons start goal).gridToWorld b) polygon.2 s t →
          dist2 (along ((buildPolygonGrid polygons start goal).gridToWorld a)
              ((buildPolygonGrid polygons start goal).gridToWorld b) s)
            (along ((buildPolygonGrid polygons start goal).gridToWorld a)
              ((buildPolygonGrid polygons start goal).gridToWorld b) t) < 1/8) := by
  obtain ⟨head,tail,chain,free⟩ := astar_steps hypot root2 fuel _ first last long path ok
  have clear (cell : Cell) (member : cell ∈ path) := buildPolygonGrid_free polygons start goal cell (free cell member)
  refine ⟨head,tail,clear,?_⟩
  refine chain.imp_of_mem_imp (fun a b here there step => ⟨step,fun polygon member s t low high stretch => ?_⟩)
  have ends := stretch.between low high (outside_of_any _ _ (clear a here) polygon member)
    (outside_of_any _ _ (clear b there) polygon member)
  exact stretch.within ends.1 ends.2 (step_near polygons start goal a b step)

omit [FloorRing K] in
/-- To the free cell beside it A* goes straight, whatever the distances are. -/
theorem astar_beside {W : Type} [Field W] [LinearOrder W] [IsStrictOrderedRing W] (hypot : K → K → W) (root2 : W)
    (zero : hypot 0 0 = 0) (positive : ∀ x y, x ≠ 0 ∨ y ≠ 0 → 0 < hypot x y) (long : 1 ≤ root2) (grid : OccupancyGridMap K)
    (row col : Int) (here : grid.isFree (row,col) = true) (there : grid.isFree (row,col + 1) = true) (n : Nat) :
    astar hypot root2 (n + 2) grid (row,col) (row,col + 1) = some (some [(row,col),(row,col + 1)]) := by
  have away : (row,col) ≠ (row,col + 1) := by
    intro same
    have := congrArg Prod.snd same
    simp at this
  have goalward : heuristic hypot (row,col + 1) (row,col + 1) = 0 := by simp [heuristic,zero]
  have costs (step : Cell × W) (member : step ∈ steps root2) : 1 ≤ step.2 := by
    simp only [steps,List.mem_cons,List.not_mem_nil,or_false] at member
    rcases member with rfl | rfl | rfl | rfl | rfl | rfl | rfl | rfl
    all_goals first | exact long | exact le_refl 1
  have only (edge : Cell × W) (member : edge ∈ grid.neighbors root2 (row,col)) (same : edge.1 = (row,col + 1)) :
      edge.2 = 1 := by
    obtain ⟨step,inside,_,rfl⟩ := (neighbors_mem grid root2 _ edge).mp member
    simp only [Prod.mk.injEq,add_eq_left,add_right_inj] at same
    simp only [steps,List.mem_cons,List.not_mem_nil,or_false] at inside
    rcases inside with rfl | rfl | rfl | rfl | rfl | rfl | rfl | rfl
    all_goals first | rfl | exact absurd same (by simp)
  have after (edge : Cell × W) (member : edge ∈ grid.neighbors root2 (row,col)) (other : edge.1 ≠ (row,col + 1)) :
      (0 : W) + 1 + heuristic hypot (row,col + 1) (row,col + 1) < 0 + edge.2 + heuristic hypot (row,col + 1) edge.1 := by
    obtain ⟨step,inside,_,rfl⟩ := (neighbors_mem grid root2 _ edge).mp member
    have far : 0 < heuristic hypot (row,col + 1) (row + step.1.1,col + step.1.2) := by
      refine positive _ _ ?_
      by_contra none_
      rw [not_or,not_not,not_not] at none_
      refine other (Prod.ext ?_ ?_)
      · exact sub_eq_zero.mp (Int.cast_eq_zero.mp none_.1)
      · exact sub_eq_zero.mp (Int.cast_eq_zero.mp none_.2)
    have cost := costs step inside
    rw [goalward]
    linarith
  have earlier (edge : Cell × W) (member : edge ∈ grid.neighbors root2 (row,col)) (other : edge.1 ≠ (row,col + 1)) :
      cellBefore ((0 : W) + 1 + heuristic hypot (row,col + 1) (row,col + 1),0 + 1,(row,col + 1))
          (0 + edge.2 + heuristic hypot (row,col + 1) edge.1,0 + edge.2,edge.1) = true ∧
        cellBefore ((0 : W) + edge.2 + heuristic hypot (row,col + 1) edge.1,0 + edge.2,edge.1)
          (0 + 1 + heuristic hypot (row,col + 1) (row,col + 1),0 + 1,(row,col + 1)) = false := by
    have less := after edge member other
    simp only [cellBefore,less,less.not_gt,less.ne',decide_true,decide_false,Bool.true_or,Bool.false_and,Bool.or_self,
      and_self]
  have side : (((row,col + 1) : Cell),(1 : W)) ∈ grid.neighbors root2 (row,col) := by
    refine (neighbors_mem grid root2 _ _).mpr ⟨((0,1),1),by simp [steps],?_,by simp⟩
    simp [OccupancyGridMap.open_,there]
  have rooted : Rooted (row,col) (Step grid) (expand cellBefore (heuristic hypot (row,col + 1)) (grid.neighbors root2) 0
      (row,col) { begin (heuristic hypot (row,col + 1) (row,col),(0 : W),(row,col)) (row,col) with
        heap := [], closed := [(row,col)] }) := by
    refine expand_rooted _ _ _ _ ((begin_rooted _ _ _).sub [] _ (fun _ no => by cases no)) 0 (row,col) 0
      (Dict.get?_set_self _ _ _) le_rfl (neighbors_step root2 grid (zero_le_one.trans long) _)
  obtain ⟨rest,queue,back⟩ := expand_least cellBefore (heuristic hypot (row,col + 1)) 0 (row,col) (row,col + 1) 1
    (grid.neighbors root2 (row,col)) side only earlier
    { begin (heuristic hypot (row,col + 1) (row,col),(0 : W),(row,col)) (row,col) with heap := [], closed := [(row,col)] }
    (by rw [begin,Dict.get?_set_ne _ _ _ _ away.symm]; rfl) (fun _ no => by cases no)
  have fresh : (row,col + 1) ∉ (expand cellBefore (heuristic hypot (row,col + 1)) (grid.neighbors root2) 0
      (row,col) { begin (heuristic hypot (row,col + 1) (row,col),(0 : W),(row,col)) (row,col) with
        heap := [], closed := [(row,col)] }).closed := by
    rw [expand_closed]
    exact fun member => away (List.mem_singleton.mp member).symm
  have found : search cellBefore (heuristic hypot (row,col + 1)) (grid.neighbors root2) (row,col + 1) (n + 2)
      (begin (heuristic hypot (row,col + 1) (row,col),0,(row,col)) (row,col)) = _ :=
    (search_open cellBefore _ _ _ (n + 1) _ _ _ _ [] rfl (List.not_mem_nil) away).trans
      (search_goal cellBefore _ _ _ n _ _ _ rest queue fresh)
  rw [astar,here,there,found]
  simp only [Bool.not_true,Bool.or_self,Bool.false_eq_true,if_false]
  exact congrArg (Option.map some) (backtrack_pair _ (row,col) (row,col + 1) back rooted.top n)

end
end AmigaFleet.Planners
