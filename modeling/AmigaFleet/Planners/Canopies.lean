import AmigaFleet.Planners.Cheapest
import AmigaFleet.Planners.Routes
import Mathlib.Data.List.Sort
import Mathlib.Algebra.Order.Floor.Ring
import Mathlib.Tactic.NormNum
import Mathlib.Tactic.IntervalCases

/-! A* over the grid of the orchard: every way from centre to centre, and the chord
that stands in for a path too short to fit, passes outside every canopy. -/
namespace AmigaFleet.Planners
open Lib BestFirst

section
variable {K : Type} [Field K]

/-- What the grid reads of an obstacle. -/
structure Obstacle (K : Type) where
  x : K
  y : K
  radius : K

def planningInflateM : K := fraction 3 10

/-- A spline as scipy gives it: knots, coefficients and degree. -/
structure Tck (K : Type) where
  t : List K
  c : List K × List K
  k : Nat

/-- `fit_spline`; `splprep` is that of scipy. -/
def fitSpline (splprep : List K × List K → Nat → K → Option (Tck K)) (path : List (K × K)) (degree : Nat) (smoothing : K) :
    Option (Tck K) :=
  let n := path.length
  if n < 2 then none else splprep (path.map Prod.fst,path.map Prod.snd) (max 1 (min degree (n - 1))) smoothing

variable [LinearOrder K]

/-- `bspline_to_bezier_chain`; `insert` is that of scipy. -/
def bsplineToBezierChain (insert : K → Tck K → Nat → Tck K) (tck : Tck K) : Option (List (K × K)) :=
  if tck.k ≠ 3 then none
  else
    let interiorKnots := (((tck.t.take (tck.t.length - (tck.k + 1))).drop (tck.k + 1)).dedup).insertionSort (· ≤ ·)
    let final := interiorKnots.foldl (fun tck2 knot =>
      let needed := tck.k - tck2.t.count knot
      if 0 < needed then insert knot tck2 needed else tck2) tck
    let nCtrl := final.t.length - final.k - 1
    let controlPoints := (final.c.1.take nCtrl).zip (final.c.2.take nCtrl)
    if ((controlPoints.length : Int) - 1) % final.k ≠ 0 then none else some controlPoints

def occupied (obstacles : List (Obstacle K)) (world : K × K) : Bool :=
  obstacles.any (fun o => (world.1 - o.x)^2 + (world.2 - o.y)^2 ≤ (o.radius + planningInflateM)^2)

variable [FloorRing K]

def buildOccupancyGrid (obstacles : List (Obstacle K)) (start goal : K × K) : OccupancyGridMap K :=
  let minX := (obstacles.map (fun o => o.x - o.radius)).foldl min (min start.1 goal.1) - gridMarginM
  let maxX := (obstacles.map (fun o => o.x + o.radius)).foldl max (max start.1 goal.1) + gridMarginM
  let minY := (obstacles.map (fun o => o.y - o.radius)).foldl min (min start.2 goal.2) - gridMarginM
  let maxY := (obstacles.map (fun o => o.y + o.radius)).foldl max (max start.2 goal.2) + gridMarginM
  let empty : OccupancyGridMap K :=
    { data := fun _ => 0
      height := max 1 ⌈(maxY - minY)/gridResolutionM⌉
      width := max 1 ⌈(maxX - minX)/gridResolutionM⌉
      resolution := gridResolutionM
      origin := (minX,minY) }
  { empty with data := fun cell => if occupied obstacles (empty.gridToWorld cell) then 100 else 0 }

variable {W : Type} [Field W] [LinearOrder W] (hypot : K → K → W) (root2 : W)
  (splprep : List K × List K → Nat → K → Option (Tck K)) (insert : K → Tck K → Nat → Tck K)

def planAstarPoints (fuel : Nat) (start goal : K × K) (obstacles : List (Obstacle K)) (given : Option (OccupancyGridMap K)) :
    Option (Option (List (K × K))) :=
  let grid := given.getD (buildOccupancyGrid obstacles start goal)
  let first := grid.worldToGrid start
  let last := grid.worldToGrid goal
  if !grid.inBounds first || !grid.inBounds last then some none
  else if first = last then some (some (List.replicate 4 start))
  else (astar hypot root2 fuel grid first last).map (fun path =>
    path.map (fun cells => fitOrStraight (fun points => (fitSpline splprep points 3 0).bind (bsplineToBezierChain insert))
      (cells.map grid.gridToWorld) start goal))

end

section
variable {K : Type} [Field K] [LinearOrder K] [IsStrictOrderedRing K]

/-- The point is strictly outside the circle. -/
def Outside (o : Obstacle K) (p : K × K) : Prop := o.radius^2 < dist2 (o.x,o.y) p

omit [Field K] [IsStrictOrderedRing K] in
theorem foldl_min_le (items : List K) (x : K) : items.foldl min x ≤ x := by
  induction items generalizing x with
  | nil => exact le_refl x
  | cons item rest ih => exact (ih (min x item)).trans (min_le_left _ _)

omit [Field K] [IsStrictOrderedRing K] in
theorem le_foldl_max (items : List K) (x : K) : x ≤ items.foldl max x := by
  induction items generalizing x with
  | nil => exact le_refl x
  | cons item rest ih => exact (le_max_left _ _).trans (ih (max x item))

variable [FloorRing K]

theorem floor_within (low high x : K) (under : low ≤ x) (upper_ : x < high) :
    0 ≤ ⌊(x - low)/gridResolutionM⌋ ∧ ⌊(x - low)/gridResolutionM⌋ < max 1 ⌈(high - low)/gridResolutionM⌉ := by
  have fine : (0 : K) < gridResolutionM := by
    unfold gridResolutionM
    positivity
  refine ⟨Int.floor_nonneg.mpr (div_nonneg (sub_nonneg.mpr under) fine.le),lt_max_of_lt_right ?_⟩
  rw [Int.floor_lt]
  exact ((div_lt_div_iff_of_pos_right fine).mpr (sub_lt_sub_right upper_ low)).trans_le (Int.le_ceil _)

/-- The grid reaches around the start and the goal. -/
theorem built_inBounds (obstacles : List (Obstacle K)) (start goal p : K × K) (ends : p = start ∨ p = goal) :
    (buildOccupancyGrid obstacles start goal).inBounds ((buildOccupancyGrid obstacles start goal).worldToGrid p) = true := by
  have margin : (0 : K) < gridMarginM := by
    unfold gridMarginM
    positivity
  have low (items : List K) (x y z : K) (one : z = x ∨ z = y) : items.foldl min (min x y) - gridMarginM ≤ z := by
    have le := foldl_min_le items (min x y)
    rcases one with rfl | rfl
    · linarith [min_le_left z y]
    · linarith [min_le_right x z]
  have high (items : List K) (x y z : K) (one : z = x ∨ z = y) : z < items.foldl max (max x y) + gridMarginM := by
    have le := le_foldl_max items (max x y)
    rcases one with rfl | rfl
    · linarith [le_max_left z y]
    · linarith [le_max_right x z]
  have xs : p.1 = start.1 ∨ p.1 = goal.1 := ends.imp (congrArg Prod.fst) (congrArg Prod.fst)
  have ys : p.2 = start.2 ∨ p.2 = goal.2 := ends.imp (congrArg Prod.snd) (congrArg Prod.snd)
  have rows := floor_within _ _ p.2 (low (obstacles.map (fun o => o.y - o.radius)) _ _ _ ys)
    (high (obstacles.map (fun o => o.y + o.radius)) _ _ _ ys)
  have cols := floor_within _ _ p.1 (low (obstacles.map (fun o => o.x - o.radius)) _ _ _ xs)
    (high (obstacles.map (fun o => o.x + o.radius)) _ _ _ xs)
  simp only [OccupancyGridMap.inBounds,OccupancyGridMap.worldToGrid,buildOccupancyGrid,Bool.and_eq_true]
  exact ⟨⟨⟨decide_eq_true rows.1,decide_eq_true rows.2⟩,decide_eq_true cols.1⟩,decide_eq_true cols.2⟩

omit [IsStrictOrderedRing K] in
/-- The centre of a free cell is outside every circle, with the inflation. -/
theorem built_free (obstacles : List (Obstacle K)) (start goal : K × K) (cell : Cell)
    (free : (buildOccupancyGrid obstacles start goal).isFree cell = true) (o : Obstacle K) (member : o ∈ obstacles) :
    (o.radius + planningInflateM)^2 < dist2 (o.x,o.y) ((buildOccupancyGrid obstacles start goal).gridToWorld cell) := by
  by_contra! within
  have taken : (buildOccupancyGrid obstacles start goal).data cell = 100 :=
    if_pos (List.any_eq_true.mpr ⟨o,member,decide_eq_true within⟩)
  simp only [OccupancyGridMap.isFree,Bool.and_eq_true,decide_eq_true_eq,taken] at free
  exact absurd free.2 (by decide)

end

section
variable {K : Type} [Field K] [LinearOrder K] [IsStrictOrderedRing K]

/-- A point over a corner of the box around a path of three cells: it is near the
first cell, near the last one, or between the two in the middle of a long diagonal. -/
theorem corner_near (m n t e f : K) (ms : m = 1 ∨ m = 2) (ns : n = 1 ∨ n = 2) (low : 0 ≤ t) (high : t ≤ 1)
    (elow : -(1/2) ≤ e) (ehigh : e ≤ 1/2) (flow : -(1/2) ≤ f) (fhigh : f ≤ 1/2) (first : t*m + e ≤ 1/2)
    (last : n - 1/2 ≤ t*n + f) : (t*m + e)^2 + (t*n + f)^2 ≤ 5/4 ∨ (t*m + e - m)^2 + (t*n + f - n)^2 ≤ 5/4 ∨
      (m = 2 ∧ n = 2 ∧ (t*m + e - 1)^2 + (t*n + f - 1)^2 ≤ 5/4) := by
  have square (x y : K) (under : -y ≤ x) (upper_ : x ≤ y) : x^2 ≤ y^2 := sq_le_sq' under upper_
  rcases ms with rfl | rfl
  · rcases ns with rfl | rfl
    · have gap := square (f - e) 1 (by linarith) (by linarith)
      rcases le_total (t + e + (t + f)) 1 with lower | upper
      · have sum := square (t + e + (t + f)) 1 (by linarith) lower
        exact .inl (by linarith only [gap,sum])
      · have sum := square (t + e + (t + f) - 2) 1 (by linarith) (by linarith)
        exact .inr (.inl (by linarith only [gap,sum]))
    · have side := square (t*1 + e - 1) 1 (by linarith) (by linarith)
      have top := square (t*2 + f - 2) (1/2) (by linarith) (by linarith)
      exact .inr (.inl (by linarith only [side,top]))
  · rcases ns with rfl | rfl
    · have side := square (t*2 + e) (1/2) (by linarith) (by linarith)
      have top := square (t*1 + f) 1 (by linarith) (by linarith)
      exact .inl (by linarith only [side,top])
    · have side := square (t*2 + e - 1) (1/2) (by linarith) (by linarith)
      have top := square (t*2 + f - 1) (1/2) (by linarith) (by linarith)
      exact .inr (.inr ⟨rfl,rfl,by linarith only [side,top]⟩)

/-- A number from nothing to a whole number, give or take a half, is near one of those between. -/
theorem round_near (m : Int) (x : K) (whole : 0 ≤ m) (low : -(1/2) ≤ x) (high : x ≤ m + 1/2) :
    ∃ i : Int, (0 ≤ i ∧ i ≤ m) ∧ -(1/2) ≤ x - i ∧ x - i ≤ 1/2 := by
  obtain ⟨n,rfl⟩ := Int.eq_ofNat_of_zero_le whole
  clear whole
  induction n with
  | zero => exact ⟨0,⟨le_rfl,le_rfl⟩,by simpa using low,by simpa using high⟩
  | succ n ih =>
    rcases le_total x (n + 1/2) with below | above
    · obtain ⟨i,within,near⟩ := ih (by simpa using below)
      exact ⟨i,⟨within.1,within.2.trans (by simp)⟩,near⟩
    · push_cast at high
      refine ⟨n + 1,⟨by omega,by simp⟩,?_,?_⟩
      · push_cast
        linarith
      · push_cast
        linarith

/-- Of the box around a path of three cells, given in steps from the first one, all
cells are free but for the two corners beside the path. -/
theorem box_free (m n a b : Int) (ms : 0 ≤ m ∧ m ≤ 2) (ns : 0 ≤ n ∧ n ≤ 2) (first : |a| ≤ 1 ∧ |b| ≤ 1)
    (second : |m - a| ≤ 1 ∧ |n - b| ≤ 1) (Free : Int → Int → Prop) (here : Free 0 0) (mid : Free a b) (there : Free m n)
    (flanks : a ≠ 0 → b ≠ 0 → Free a 0 ∧ Free 0 b) (flanks_ : m ≠ a → n ≠ b → Free m b ∧ Free a n) (i j : Int)
    (is : 0 ≤ i ∧ i ≤ m) (js : 0 ≤ j ∧ j ≤ n) :
    Free i j ∨ ((m = 1 ∨ m = 2) ∧ (n = 1 ∨ n = 2) ∧ ((i = 0 ∧ j = n) ∨ (i = m ∧ j = 0))) := by
  simp only [abs_le] at first second
  have is_ : i = 0 ∨ i = m ∨ (i = 1 ∧ m = 2) := by omega
  have js_ : j = 0 ∨ j = n ∨ (j = 1 ∧ n = 2) := by omega
  have corner (corner : (i = 0 ∧ j = n) ∨ (i = m ∧ j = 0)) : Free i j ∨
      ((m = 1 ∨ m = 2) ∧ (n = 1 ∨ n = 2) ∧ ((i = 0 ∧ j = n) ∨ (i = m ∧ j = 0))) := by
    by_cases flat : m = 0
    · left
      rcases corner with ⟨rfl,rfl⟩ | ⟨rfl,rfl⟩
      · exact flat ▸ there
      · exact flat ▸ here
    · by_cases upright : n = 0
      · left
        rcases corner with ⟨rfl,rfl⟩ | ⟨rfl,rfl⟩
        · exact upright ▸ here
        · exact upright ▸ there
      · exact .inr ⟨by omega,by omega,corner⟩
  rcases is_ with rfl | rfl | ⟨rfl,rfl⟩
  · rcases js_ with rfl | rfl | ⟨rfl,rfl⟩
    · exact .inl here
    · exact corner (.inl ⟨rfl,rfl⟩)
    · left
      have one : b = 1 := by omega
      subst one
      by_cases straight : a = 0
      · exact straight ▸ mid
      · exact (flanks straight one_ne_zero).2
  · rcases js_ with rfl | rfl | ⟨rfl,rfl⟩
    · exact corner (.inr ⟨rfl,rfl⟩)
    · exact .inl there
    · left
      have one : b = 1 := by omega
      subst one
      by_cases straight : i = a
      · exact straight ▸ mid
      · exact (flanks_ straight (by decide)).1
  · left
    have one : a = 1 := by omega
    subst one
    rcases js_ with rfl | rfl | ⟨rfl,rfl⟩
    · by_cases straight : b = 0
      · exact straight ▸ mid
      · exact (flanks one_ne_zero straight).1
    · by_cases straight : j = b
      · exact straight ▸ mid
      · exact (flanks_ (by decide) straight).2
    · have one : b = 1 := by omega
      exact one ▸ mid

/-- Every point of a chord between the end cells of a path of three cells is near the
centre of a free cell; in steps from the centre of the first one. -/
theorem free_near (m n a b : Int) (ms : 0 ≤ m ∧ m ≤ 2) (ns : 0 ≤ n ∧ n ≤ 2) (first : |a| ≤ 1 ∧ |b| ≤ 1)
    (second : |m - a| ≤ 1 ∧ |n - b| ≤ 1) (Free : Int → Int → Prop) (here : Free 0 0) (mid : Free a b) (there : Free m n)
    (flanks : a ≠ 0 → b ≠ 0 → Free a 0 ∧ Free 0 b) (flanks_ : m ≠ a → n ≠ b → Free m b ∧ Free a n) (t e f : K)
    (low : 0 ≤ t) (high : t ≤ 1) (elow : -(1/2) ≤ e) (ehigh : e ≤ 1/2) (flow : -(1/2) ≤ f) (fhigh : f ≤ 1/2) :
    ∃ i j : Int, Free i j ∧ (t*m + e - i)^2 + (t*n + f - j)^2 ≤ 5/4 := by
  have share (k : Int) (whole : 0 ≤ k) (g : K) (glow : -(1/2) ≤ g) (ghigh : g ≤ 1/2) : -(1/2) ≤ t*k + g ∧ t*k + g ≤ k + 1/2 := by
    have none_ : (0 : K) ≤ k := by exact_mod_cast whole
    exact ⟨by linarith [mul_nonneg low none_],by linarith [mul_le_of_le_one_left none_ high]⟩
  obtain ⟨i,is,ilow,ihigh⟩ := round_near m (t*m + e) ms.1 (share m ms.1 e elow ehigh).1 (share m ms.1 e elow ehigh).2
  obtain ⟨j,js,jlow,jhigh⟩ := round_near n (t*n + f) ns.1 (share n ns.1 f flow fhigh).1 (share n ns.1 f flow fhigh).2
  have cast (k : Int) (one : k = 1 ∨ k = 2) : (k : K) = 1 ∨ (k : K) = 2 := by
    rcases one with rfl | rfl
    · exact .inl (by norm_num)
    · exact .inr (by norm_num)
  have middle (long : (m : K) = 2) (tall : (n : K) = 2) : Free 1 1 := by
    have two : m = 2 := by exact_mod_cast long
    have two_ : n = 2 := by exact_mod_cast tall
    simp only [abs_le] at first second
    have one : a = 1 := by omega
    have one_ : b = 1 := by omega
    rw [one,one_] at mid
    exact mid
  rcases box_free m n a b ms ns first second Free here mid there flanks flanks_ i j is js with free | ⟨mone,none_,corner⟩
  · refine ⟨i,j,free,?_⟩
    have row := sq_le_sq' ilow ihigh
    have col := sq_le_sq' jlow jhigh
    linarith only [row,col]
  · rcases corner with ⟨rfl,rfl⟩ | ⟨rfl,rfl⟩
    · rcases corner_near (m : K) j t e f (cast m mone) (cast j none_) low high elow ehigh flow fhigh (by simpa using ihigh)
          (by linarith) with near | near | ⟨long,tall,near⟩
      · exact ⟨0,0,here,by simpa using near⟩
      · exact ⟨m,j,there,near⟩
      · exact ⟨1,1,middle long tall,by simpa using near⟩
    · rcases corner_near (n : K) i t f e (cast n none_) (cast i mone) low high flow fhigh elow ehigh (by simpa using jhigh)
          (by linarith) with near | near | ⟨tall,long,near⟩
      · exact ⟨0,0,here,by simpa [add_comm] using near⟩
      · exact ⟨i,n,there,by simpa [add_comm] using near⟩
      · exact ⟨1,1,middle long tall,by simpa [add_comm] using near⟩

/-- A difference, by its direction and its size. -/
theorem directed (d : Int) : ∃ side size : Int, (side = 1 ∨ side = -1) ∧ 0 ≤ size ∧ d = side*size := by
  rcases le_total 0 d with up | down
  · exact ⟨1,d,.inl rfl,up,by omega⟩
  · exact ⟨-1,-d,.inr rfl,by omega,by omega⟩

/-- Over a path of three cells, wherever it turns. -/
theorem path_near {G : Type} (grid : OccupancyGridMap G) (first mid last : Cell) (free : grid.isFree first = true)
    (step : Step grid first mid) (step_ : Step grid mid last) (t e f : K) (low : 0 ≤ t) (high : t ≤ 1)
    (elow : -(1/2) ≤ e) (ehigh : e ≤ 1/2) (flow : -(1/2) ≤ f) (fhigh : f ≤ 1/2) :
    ∃ cell : Cell, grid.isFree cell = true ∧
      (first.1 + t*(last.1 - first.1) + e - cell.1)^2 + (first.2 + t*(last.2 - first.2) + f - cell.2)^2 ≤ 5/4 := by
  obtain ⟨p,m,pside,mpos,rows⟩ := directed (last.1 - first.1)
  obtain ⟨q,n,qside,npos,cols⟩ := directed (last.2 - first.2)
  have twice (side x : Int) (one : side = 1 ∨ side = -1) : side*(side*x) = x := by
    rcases one with rfl | rfl
    · omega
    · omega
  have same (side x : Int) (one : side = 1 ∨ side = -1) : |side*x| = |x| := by
    rcases one with rfl | rfl
    · rw [one_mul]
    · rw [neg_one_mul,abs_neg]
  have turned (side : Int) (one : side = 1 ∨ side = -1) (g : K) (glow : -(1/2) ≤ g) (ghigh : g ≤ 1/2) :
      -(1/2) ≤ side*g ∧ side*g ≤ 1/2 := by
    rcases one with rfl | rfl
    · push_cast
      exact ⟨by linarith,by linarith⟩
    · push_cast
      exact ⟨by linarith,by linarith⟩
  have square (side d k x : Int) (one : side = 1 ∨ side = -1) (along_ : d = side*k) (g : K) (o : Int) :
      (o + t*(d : K) + g - (o + side*x : Int))^2 = (t*k + side*g - x)^2 := by
    rcases one with rfl | rfl
    · rw [along_]
      push_cast
      ring
    · rw [along_]
      push_cast
      ring
  have a : first.1 + p*(p*(mid.1 - first.1)) = mid.1 := by rw [twice p _ pside]; omega
  have b : first.2 + q*(q*(mid.2 - first.2)) = mid.2 := by rw [twice q _ qside]; omega
  have c : first.1 + p*m = last.1 := by omega
  have d : first.2 + q*n = last.2 := by omega
  have rest : m - p*(mid.1 - first.1) = p*(last.1 - mid.1) := by
    rw [← twice p m pside,← rows]
    ring
  have rest_ : n - q*(mid.2 - first.2) = q*(last.2 - mid.2) := by
    rw [← twice q n qside,← cols]
    ring
  have small : |p*(mid.1 - first.1)| ≤ 1 ∧ |q*(mid.2 - first.2)| ≤ 1 :=
    ⟨by rw [same p _ pside]; exact step.rows,by rw [same q _ qside]; exact step.cols⟩
  have small_ : |m - p*(mid.1 - first.1)| ≤ 1 ∧ |n - q*(mid.2 - first.2)| ≤ 1 :=
    ⟨by rw [rest,same p _ pside]; exact step_.rows,by rw [rest_,same q _ qside]; exact step_.cols⟩
  have most : m ≤ 2 ∧ n ≤ 2 := by
    simp only [abs_le] at small small_
    exact ⟨by omega,by omega⟩
  have moved (side x : Int) (differ : side*x ≠ 0) : x ≠ 0 := fun none_ => differ (by rw [none_,mul_zero])
  obtain ⟨i,j,clear,near⟩ := free_near m n (p*(mid.1 - first.1)) (q*(mid.2 - first.2)) ⟨mpos,most.1⟩ ⟨npos,most.2⟩ small small_
    (fun i j => grid.isFree (first.1 + p*i,first.2 + q*j) = true) (by simpa using free) (by rw [a,b]; exact step.free)
    (by rw [c,d]; exact step_.free)
    (fun row col => by
      have flanks := step.flanks (sub_ne_zero.mp (moved _ _ row)) (sub_ne_zero.mp (moved _ _ col))
      rw [a,b,mul_zero,mul_zero,add_zero,add_zero]
      exact flanks)
    (fun row col => by
      have flanks := step_.flanks (sub_ne_zero.mp (moved _ _ (rest ▸ sub_ne_zero.mpr row)))
        (sub_ne_zero.mp (moved _ _ (rest_ ▸ sub_ne_zero.mpr col)))
      rw [a,b,c,d]
      exact flanks)
    t (p*e) (q*f) low high (turned p pside e elow ehigh).1 (turned p pside e elow ehigh).2 (turned q qside f flow fhigh).1
    (turned q qside f flow fhigh).2
  refine ⟨_,clear,?_⟩
  have row := square p (last.1 - first.1) m i pside rows e first.1
  have col := square q (last.2 - first.2) n j qside cols f first.2
  push_cast at row col near ⊢
  rw [row,col]
  exact near

variable [FloorRing K]

/-- A point within its cell, in steps from the centre of it. -/
theorem cell_offset (grid : OccupancyGridMap K) (fine : grid.resolution = 1/4) (p : K × K) :
    ∃ e f : K, (-(1/2) ≤ e ∧ e ≤ 1/2) ∧ (-(1/2) ≤ f ∧ f ≤ 1/2) ∧
      p = (grid.origin.1 + ((grid.worldToGrid p).2 + 1/2 + f)/4,grid.origin.2 + ((grid.worldToGrid p).1 + 1/2 + e)/4) := by
  have offset (x o : K) : -(1/2) ≤ (x - o)*4 - (⌊(x - o)*4⌋ : K) - 1/2 ∧ (x - o)*4 - (⌊(x - o)*4⌋ : K) - 1/2 ≤ 1/2 := by
    have low := Int.floor_le ((x - o)*4)
    have high := Int.lt_floor_add_one ((x - o)*4)
    exact ⟨by linarith,by linarith⟩
  have quarter (x : K) : x/(1/4) = x*4 := by ring
  refine ⟨(p.2 - grid.origin.2)*4 - (⌊(p.2 - grid.origin.2)*4⌋ : K) - 1/2,
    (p.1 - grid.origin.1)*4 - (⌊(p.1 - grid.origin.1)*4⌋ : K) - 1/2,offset _ _,offset _ _,Prod.ext ?_ ?_⟩
  · simp only [OccupancyGridMap.worldToGrid,fine,quarter]
    ring
  · simp only [OccupancyGridMap.worldToGrid,fine,quarter]
    ring

/-- Every point of the chord of a path of three cells is near the centre of a free cell. -/
theorem chord_near (grid : OccupancyGridMap K) (fine : grid.resolution = 1/4) (start goal : K × K) (mid : Cell)
    (free : grid.isFree (grid.worldToGrid start) = true) (step : Step grid (grid.worldToGrid start) mid)
    (step_ : Step grid mid (grid.worldToGrid goal)) (t : K) (low : 0 ≤ t) (high : t ≤ 1) :
    ∃ cell, grid.isFree cell = true ∧ dist2 (along start goal t) (grid.gridToWorld cell) ≤ 5/64 := by
  obtain ⟨e,f,ein,fin_,same⟩ := cell_offset grid fine start
  obtain ⟨g,h,gin,hin,same_⟩ := cell_offset grid fine goal
  have mix (x y : K) (xin : -(1/2) ≤ x ∧ x ≤ 1/2) (yin : -(1/2) ≤ y ∧ y ≤ 1/2) :
      -(1/2) ≤ x + (y - x)*t ∧ x + (y - x)*t ≤ 1/2 := by
    have back : 0 ≤ 1 - t := sub_nonneg.mpr high
    have one := mul_le_mul_of_nonneg_right xin.1 back
    have two := mul_le_mul_of_nonneg_right yin.1 low
    have three := mul_le_mul_of_nonneg_right xin.2 back
    have four := mul_le_mul_of_nonneg_right yin.2 low
    exact ⟨by linarith,by linarith⟩
  obtain ⟨cell,clear,near⟩ := path_near grid _ mid _ free step step_ t (e + (g - e)*t) (f + (h - f)*t) low high
    (mix e g ein gin).1 (mix e g ein gin).2 (mix f h fin_ hin).1 (mix f h fin_ hin).2
  refine ⟨cell,clear,?_⟩
  have scaled : dist2 (along start goal t) (grid.gridToWorld cell) =
      (((grid.worldToGrid start).1 + t*((grid.worldToGrid goal).1 - (grid.worldToGrid start).1) + (e + (g - e)*t) - cell.1)^2 +
        ((grid.worldToGrid start).2 + t*((grid.worldToGrid goal).2 - (grid.worldToGrid start).2) + (f + (h - f)*t) - cell.2)^2)/16 := by
    generalize grid.worldToGrid start = a at same ⊢
    generalize grid.worldToGrid goal = b at same_ ⊢
    subst same same_
    simp only [dist2,along,OccupancyGridMap.gridToWorld,fine]
    ring
  rw [scaled]
  linarith only [near]

omit [FloorRing K] in
/-- Between the centres of two neighbours, one of them is near. -/
theorem step_middle (grid : OccupancyGridMap K) (fine : grid.resolution = 1/4) (a b : Cell) (step : Step grid a b) (t : K)
    (low : 0 ≤ t) (high : t ≤ 1) :
    dist2 (along (grid.gridToWorld a) (grid.gridToWorld b) t) (grid.gridToWorld a) ≤ 5/64 ∨
      dist2 (along (grid.gridToWorld a) (grid.gridToWorld b) t) (grid.gridToWorld b) ≤ 5/64 := by
  have part (s : K) (under : 0 ≤ s) (upper_ : s ≤ 1/2) : s^2*dist2 (grid.gridToWorld a) (grid.gridToWorld b) ≤ 5/64 := by
    have square : s^2 ≤ (1/2)^2 := sq_le_sq' (by linarith) upper_
    have product := mul_le_mul square (step.near fine) (add_nonneg (sq_nonneg _) (sq_nonneg _)) (by norm_num)
    linarith
  rcases le_total t (1/2) with before | after
  · left
    have scaled : dist2 (along (grid.gridToWorld a) (grid.gridToWorld b) t) (grid.gridToWorld a) =
        t^2*dist2 (grid.gridToWorld a) (grid.gridToWorld b) := by
      simp only [dist2,along]
      ring
    rw [scaled]
    exact part t low before
  · right
    have scaled : dist2 (along (grid.gridToWorld a) (grid.gridToWorld b) t) (grid.gridToWorld b) =
        (1 - t)^2*dist2 (grid.gridToWorld a) (grid.gridToWorld b) := by
      simp only [dist2,along]
      ring
    rw [scaled]
    exact part (1 - t) (sub_nonneg.mpr high) (by linarith)

end

/-- What is near a point that keeps the inflation from a circle is outside the circle. -/
theorem outside_of_near (o : Obstacle ℝ) (round : 0 ≤ o.radius) (c p : ℝ × ℝ)
    (free : (o.radius + planningInflateM)^2 < dist2 (o.x,o.y) c) (near : dist2 p c ≤ 5/64) : Outside o p := by
  have inflate : (planningInflateM : ℝ) = 3/10 := by simp [planningInflateM,fraction]
  by_contra! within
  unfold Outside at within
  have first : exactHypot (p.1 - o.x) (p.2 - o.y) ≤ o.radius := Real.sqrt_le_iff.mpr ⟨round,not_lt.mp within⟩
  have second : exactHypot (c.1 - p.1) (c.2 - p.2) ≤ 3/10 := by
    refine Real.sqrt_le_iff.mpr ⟨by norm_num,?_⟩
    unfold dist2 at near
    linarith
  have whole := exactHypot_triangle (p.1 - o.x) (p.2 - o.y) (c.1 - p.1) (c.2 - p.2)
  rw [add_comm (p.1 - o.x),sub_add_sub_cancel,add_comm (p.2 - o.y),sub_add_sub_cancel] at whole
  have reach : exactHypot (c.1 - o.x) (c.2 - o.y) ≤ o.radius + planningInflateM := by
    rw [inflate]
    linarith
  exact absurd (Real.sqrt_le_iff.mp reach).2 (not_le.mpr free)

/-- A path of two or three points asks for a degree that the extraction refuses. -/
theorem short_straight {K : Type} [Field K] [LinearOrder K] (splprep : List K × List K → Nat → K → Option (Tck K))
    (insert : K → Tck K → Nat → Tck K)
    (lowered : ∀ points k smoothing tck, splprep points k smoothing = some tck → tck.k = k) (path : List (K × K))
    (some_ : 2 ≤ path.length) (short : path.length < 4) (start goal : K × K) :
    fitOrStraight (fun points => (fitSpline splprep points 3 0).bind (bsplineToBezierChain insert)) path start goal =
      straightControlPoints start goal := by
  have refused : (fitSpline splprep path 3 0).bind (bsplineToBezierChain insert) = none := by
    refine Option.bind_eq_none_iff.mpr (fun tck fitted => ?_)
    have degree : tck.k = max 1 (min 3 (path.length - 1)) := by
      rw [fitSpline] at fitted
      exact lowered _ _ _ tck (by simpa [not_lt.mpr some_] using fitted)
    rw [bsplineToBezierChain,if_pos (by omega)]
  rw [fitOrStraight,if_neg (by omega),refused]
  rfl

/-- A path of two or three cells has one in the middle; of two, the first one again. -/
theorem short_through {G : Type} (grid : OccupancyGridMap G) (first last : Cell) (apart : first ≠ last)
    (free : grid.isFree first = true) (path : List Cell) (short : path.length < 4) (head : path.head? = some first)
    (tail : path.getLast? = some last) (chain : path.IsChain (Step grid)) :
    2 ≤ path.length ∧ ∃ mid, Step grid first mid ∧ Step grid mid last := by
  match path with
  | [] => cases head
  | [a] =>
    have start : a = first := Option.some.inj head
    have goal : a = last := Option.some.inj tail
    exact absurd (start.symm.trans goal) apart
  | [a,b] =>
    have start : a = first := Option.some.inj head
    have goal : b = last := Option.some.inj tail
    subst start goal
    exact ⟨le_rfl,a,⟨by simp,by simp,free,fun no => absurd rfl no⟩,(List.isChain_cons_cons.mp chain).1⟩
  | [a,b,c] =>
    have start : a = first := Option.some.inj head
    have goal : c = last := Option.some.inj tail
    subst start goal
    obtain ⟨step,chain⟩ := List.isChain_cons_cons.mp chain
    exact ⟨by simp,b,step,(List.isChain_cons_cons.mp chain).1⟩
  | _::_::_::_::_ =>
    simp only [List.length_cons] at short
    omega

/-- What the planner gives over the grid of the orchard: four times the start where the
goal is in its cell; and else a path of A* that passes outside every canopy from centre
to centre, and, where it is too short to fit, a chord that does so too. -/
theorem orchard_clear (splprep : List ℝ × List ℝ → Nat → ℝ → Option (Tck ℝ)) (insert : ℝ → Tck ℝ → Nat → Tck ℝ)
    (lowered : ∀ points k smoothing tck, splprep points k smoothing = some tck → tck.k = k)
    (obstacles : List (Obstacle ℝ)) (round : ∀ o ∈ obstacles, 0 ≤ o.radius) (start goal : ℝ × ℝ)
    (grid : OccupancyGridMap ℝ) (built : grid = buildOccupancyGrid obstacles start goal) :
    ∃ result least, (∀ fuel, least ≤ fuel →
        planAstarPoints exactHypot √2 splprep insert fuel start goal obstacles none = some result) ∧
      ∀ points, result = some points →
        grid.inBounds (grid.worldToGrid start) = true ∧ grid.inBounds (grid.worldToGrid goal) = true ∧
        ((grid.worldToGrid start = grid.worldToGrid goal ∧ points = List.replicate 4 start) ∨
          ∃ path, (∀ fuel, least ≤ fuel →
              astar exactHypot √2 fuel grid (grid.worldToGrid start) (grid.worldToGrid goal) = some (some path)) ∧
            path.IsChain (fun a b => ∀ t, 0 ≤ t → t ≤ 1 → ∀ o ∈ obstacles,
              Outside o (along (grid.gridToWorld a) (grid.gridToWorld b) t)) ∧
            (path.length < 4 → points = straightControlPoints start goal ∧
              ∀ t, 0 ≤ t → t ≤ 1 → ∀ o ∈ obstacles, Outside o (along start goal t))) := by
  have fine : grid.resolution = 1/4 := by rw [built]; rfl
  have first : grid.inBounds (grid.worldToGrid start) = true := built ▸ built_inBounds obstacles start goal start (.inl rfl)
  have last : grid.inBounds (grid.worldToGrid goal) = true := built ▸ built_inBounds obstacles start goal goal (.inr rfl)
  have outside (o : Obstacle ℝ) (member : o ∈ obstacles) (cell : Cell) (free : grid.isFree cell = true) (p : ℝ × ℝ)
      (near : dist2 p (grid.gridToWorld cell) ≤ 5/64) : Outside o p := by
    refine outside_of_near o (round o member) _ p ?_ near
    rw [built] at free ⊢
    exact built_free obstacles start goal cell free o member
  obtain ⟨found,least,ran,_,_⟩ := astar_cheapest grid 50 8 (grid.worldToGrid start) (grid.worldToGrid goal)
  simp only [astar_default] at ran
  by_cases one : grid.worldToGrid start = grid.worldToGrid goal
  · refine ⟨some (List.replicate 4 start),least,fun fuel _ => ?_,?_⟩
    · simp only [planAstarPoints,Option.getD_none,← built,last,one,Bool.not_true,Bool.or_self,Bool.false_eq_true,
        if_false,if_true]
    · rintro _ ⟨rfl⟩
      exact ⟨first,last,.inl ⟨one,rfl⟩⟩
  · refine ⟨found.map (fun cells => fitOrStraight (fun points => (fitSpline splprep points 3 0).bind
      (bsplineToBezierChain insert)) (cells.map grid.gridToWorld) start goal),least,fun fuel le => ?_,?_⟩
    · simp only [planAstarPoints,Option.getD_none,← built,first,last,one,Bool.not_true,Bool.or_self,Bool.false_eq_true,
        if_false,ran fuel le,Option.map_some]
    · intro points made
      obtain ⟨path,rfl,rfl⟩ := Option.map_eq_some_iff.mp made
      obtain ⟨head,tail,chain,free⟩ := astar_steps exactHypot √2 least grid _ _ root2_pos.le path (ran least le_rfl)
      refine ⟨first,last,.inr ⟨path,ran,?_,fun short => ?_⟩⟩
      · refine chain.imp_of_mem_imp (fun a b here there step t low high o member => ?_)
        rcases step_middle grid fine a b step t low high with near | near
        · exact outside o member a (free a here) _ near
        · exact outside o member b (free b there) _ near
      · have free_ : grid.isFree (grid.worldToGrid start) = true := free _ (List.mem_of_mem_head? head)
        obtain ⟨two,mid,step,step_⟩ := short_through grid _ _ one free_ path short head tail chain
        refine ⟨short_straight splprep insert lowered _ (by simpa using two) (by simpa using short) start goal,?_⟩
        intro t low high o member
        obtain ⟨cell,clear,near⟩ := chord_near grid fine start goal mid free_ step step_ t low high
        exact outside o member cell clear _ near

/-- Two points are fitted by a straight piece, with the knots at its ends. -/
def clampedSplprep {K : Type} [Field K] (points : List K × List K) (k : Nat) (_ : K) : Option (Tck K) :=
  some ⟨List.replicate (k + 1) 0 ++ List.replicate (k + 1) 1,points,k⟩

noncomputable def tree : Obstacle ℝ := ⟨fraction 2 1,0,fraction 1 2⟩

noncomputable def plot : OccupancyGridMap ℝ := buildOccupancyGrid [tree] (0,0) (fraction 3 10,0)

theorem plot_eq : plot = buildOccupancyGrid [tree] (0,0) (3/10,0) := by norm_num [plot,fraction]

theorem plot_origin : plot.origin = (-3,-(7/2)) := by
  norm_num [plot_eq,buildOccupancyGrid,tree,fraction,gridMarginM,min_def]

theorem plot_start : plot.worldToGrid (0,0) = (14,12) := by
  have fine : plot.resolution = 1/4 := rfl
  rw [OccupancyGridMap.worldToGrid,plot_origin,fine]
  refine Prod.ext ?_ ?_
  · exact Int.floor_eq_iff.mpr (by norm_num)
  · exact Int.floor_eq_iff.mpr (by norm_num)

theorem plot_goal : plot.worldToGrid (3/10,0) = (14,13) := by
  have fine : plot.resolution = 1/4 := rfl
  rw [OccupancyGridMap.worldToGrid,plot_origin,fine]
  refine Prod.ext ?_ ?_
  · exact Int.floor_eq_iff.mpr (by norm_num)
  · exact Int.floor_eq_iff.mpr (by norm_num)

theorem plot_free (p : ℝ × ℝ) (ends : p = (0,0) ∨ p = (3/10,0)) : plot.isFree (plot.worldToGrid p) = true := by
  have clear : plot.data (plot.worldToGrid p) = 0 := by
    refine if_neg ?_
    have centre (cell : Cell) : (plot.gridToWorld cell) = (-3 + ((cell.2 : ℝ) + 1/2)*(1/4),-(7/2) + ((cell.1 : ℝ) + 1/2)*(1/4)) := by
      rw [OccupancyGridMap.gridToWorld,plot_origin]
      rfl
    change ¬occupied [tree] (plot.gridToWorld (plot.worldToGrid p)) = true
    rw [centre]
    rcases ends with rfl | rfl
    · rw [plot_start]
      norm_num [occupied,tree,planningInflateM,fraction]
    · rw [plot_goal]
      norm_num [occupied,tree,planningInflateM,fraction]
  rw [OccupancyGridMap.isFree,clear]
  simp only [plot_eq,built_inBounds [tree] (0,0) (3/10,0) p ends]
  rfl
/-- A start and a goal in two cells side by side, and a canopy ahead. -/
theorem orchard_clear_plot : ∃ least, (∀ fuel, least ≤ fuel →
    planAstarPoints exactHypot √2 clampedSplprep (fun _ tck _ => tck) fuel (0,0) (3/10,0) [tree] none =
      some (some (straightControlPoints (0,0) (3/10,0)))) ∧
    Outside tree (along (0,0) (3/10,0) (1/2)) := by
  obtain ⟨result,least,ran,clear⟩ := orchard_clear clampedSplprep (fun _ tck _ => tck)
    (fun _ _ _ _ fitted => by cases fitted; rfl) [tree] (by norm_num [tree,fraction]) (0,0) (3/10,0) plot plot_eq.symm
  have zero : exactHypot 0 0 = 0 := by norm_num [exactHypot]
  have positive (x y : ℝ) (away : x ≠ 0 ∨ y ≠ 0) : 0 < exactHypot x y := by
    refine Real.sqrt_pos.mpr ?_
    rcases away with other | other
    · exact add_pos_of_pos_of_nonneg (sq_pos_of_ne_zero other) (sq_nonneg y)
    · exact add_pos_of_nonneg_of_pos (sq_nonneg x) (sq_pos_of_ne_zero other)
  have here := plot_free (0,0) (.inl rfl)
  have there := plot_free (3/10,0) (.inr rfl)
  rw [plot_start] at here
  rw [plot_goal] at there
  have beside : astar exactHypot √2 (least + 2) plot (14,12) (14,13) = some (some [(14,12),(14,13)]) :=
    astar_beside exactHypot √2 zero positive (Real.one_le_sqrt.mpr one_le_two) plot 14 12 here there least
  have same := plot_eq.symm
  have first : plot.inBounds (14,12) = true := plot_start ▸ built_inBounds [tree] (0,0) (3/10,0) (0,0) (.inl rfl)
  have last : plot.inBounds (14,13) = true := plot_goal ▸ built_inBounds [tree] (0,0) (3/10,0) (3/10,0) (.inr rfl)
  have apart : ((14,12) : Cell) ≠ (14,13) := by decide
  have plan := ran (least + 2) (Nat.le_add_right _ _)
  simp only [planAstarPoints,Option.getD_none,same,plot_start,plot_goal,first,last,Bool.not_true,Bool.or_self,
    Bool.false_eq_true,if_false,if_neg apart,beside,Option.map_some] at plan
  obtain ⟨_,_,⟨one,_⟩ | ⟨path,routes,_,short⟩⟩ := clear _ (Option.some.inj plan).symm
  · rw [plot_start,plot_goal] at one
    exact absurd one apart
  · have route := routes (least + 2) (Nat.le_add_right _ _)
    rw [plot_start,plot_goal,beside] at route
    cases route
    obtain ⟨straight,outside⟩ := short (by decide)
    refine ⟨least,fun fuel le => ?_,outside (1/2) (by norm_num) (by norm_num) tree (List.mem_singleton_self _)⟩
    rw [ran fuel le,← straight]
    exact plan.symm

end AmigaFleet.Planners
