import AmigaFleet.Lib.Shortest
import AmigaFleet.Planners.Grid
import Mathlib.Analysis.Real.Sqrt
import Mathlib.Data.Finset.Prod
import Mathlib.Order.Interval.Finset.Basic
import Mathlib.Data.Int.Interval

/-! A* over every grid, with either connectivity: it finds a path where there is one,
and none is cheaper. -/
namespace AmigaFleet.Planners
open Lib BestFirst

section
variable {K : Type} (grid : OccupancyGridMap K) (occThresh : Int)

/-- `is_free` under the threshold it is given. -/
def OccupancyGridMap.isFreeUnder (cell : Cell) : Bool := grid.inBounds cell && decide (grid.data cell < occThresh)

def OccupancyGridMap.openUnder (current d : Cell) : Bool :=
  grid.isFreeUnder occThresh (current.1 + d.1,current.2 + d.2) &&
    (d.1 = 0 || d.2 = 0 || (grid.isFreeUnder occThresh (current.1 + d.1,current.2) &&
      grid.isFreeUnder occThresh (current.1,current.2 + d.2)))

variable {W : Type} [One W] (root2 : W) (connectivity : Nat)

/-- The eight directions, or the four. -/
def stepsFor : List (Cell × W) :=
  if connectivity = 8 then steps root2 else [((-1,0),1),((1,0),1),((0,-1),1),((0,1),1)]

def OccupancyGridMap.neighborsUnder (current : Cell) : List (Cell × W) :=
  ((stepsFor root2 connectivity).filter (fun step => grid.openUnder occThresh current step.1)).map
    (fun step => ((current.1 + step.1.1,current.2 + step.1.2),step.2))

end

/-- `astar` with the threshold and the connectivity it is given. -/
def astarWith {K W : Type} [Field K] [Field W] [LinearOrder W] (hypot : K → K → W) (root2 : W) (occThresh : Int)
    (connectivity : Nat) (fuel : Nat) (grid : OccupancyGridMap K) (start goal : Cell) : Option (Option (List Cell)) :=
  if !grid.isFreeUnder occThresh start || !grid.isFreeUnder occThresh goal then some none
  else
    match search cellBefore (heuristic hypot goal) (grid.neighborsUnder occThresh root2 connectivity) goal fuel
        (begin (heuristic hypot goal start,0,start) start) with
    | none => none
    | some (false,_) => some none
    | some (true,s) => (backtrack s.prev (fun cell => (s.prev.get? cell).isNone) fuel goal []).map some

/-- The planners call it with the defaults. -/
theorem astar_default {K W : Type} [Field K] [Field W] [LinearOrder W] (hypot : K → K → W) (root2 : W) (fuel : Nat)
    (grid : OccupancyGridMap K) (start goal : Cell) : astarWith hypot root2 50 8 fuel grid start goal = astar hypot root2 fuel grid start goal :=
  rfl

section
variable {K : Type}

/-- A step to a free cell: to one side, or across where both cells beside it are free. -/
structure Entered (grid : OccupancyGridMap K) (occThresh : Int) (connectivity : Nat) (a b : Cell) : Prop where
  last : grid.isFreeUnder occThresh b = true
  near : |b.1 - a.1| + |b.2 - a.2| = 1 ∨ (connectivity = 8 ∧ (|b.1 - a.1| = 1 ∧ |b.2 - a.2| = 1) ∧
    grid.isFreeUnder occThresh (b.1,a.2) = true ∧ grid.isFreeUnder occThresh (a.1,b.2) = true)

/-- An allowed step is between free cells. -/
structure Allowed (grid : OccupancyGridMap K) (occThresh : Int) (connectivity : Nat) (a b : Cell) : Prop
    extends Entered grid occThresh connectivity a b where
  first : grid.isFreeUnder occThresh a = true

/-- A path of allowed steps from the start to the goal. -/
def Way (grid : OccupancyGridMap K) (occThresh : Int) (connectivity : Nat) (start goal : Cell) (path : List Cell) : Prop :=
  Path (Allowed grid occThresh connectivity) start goal path

/-- One for a straight step, the root of two for a diagonal one. -/
def stepCost {W : Type} [One W] (root2 : W) (a b : Cell) : W := if a.1 = b.1 ∨ a.2 = b.2 then 1 else root2

theorem int_unit (x : Int) : |x| = 1 ↔ x = 1 ∨ x = -1 := by
  rw [abs_eq zero_le_one]

theorem stepsFor_mem {W : Type} [One W] (root2 : W) (connectivity : Nat) (step : Cell × W) :
    step ∈ stepsFor root2 connectivity ↔ (|step.1.1| + |step.1.2| = 1 ∧ step.2 = 1) ∨
      (connectivity = 8 ∧ (|step.1.1| = 1 ∧ |step.1.2| = 1) ∧ step.2 = root2) := by
  obtain ⟨⟨x,y⟩,w⟩ := step
  have straight : |x| + |y| = 1 ↔ (x = -1 ∧ y = 0) ∨ (x = 1 ∧ y = 0) ∨ (x = 0 ∧ y = -1) ∨ (x = 0 ∧ y = 1) := by
    constructor
    · intro one
      rcases abs_cases x with ⟨h,_⟩ | ⟨h,_⟩ <;> rcases abs_cases y with ⟨h',_⟩ | ⟨h',_⟩ <;> omega
    · rintro (⟨rfl,rfl⟩ | ⟨rfl,rfl⟩ | ⟨rfl,rfl⟩ | ⟨rfl,rfl⟩) <;> rfl
  unfold stepsFor
  split
  · rename_i eight
    simp only [steps,List.mem_cons,List.not_mem_nil,or_false,Prod.mk.injEq,straight,int_unit,eight,true_and]
    constructor
    · rintro (h | h | h | h | h | h | h | h) <;> simp [h]
    · rintro (⟨(h | h | h | h),w⟩ | ⟨⟨(h | h),(h' | h')⟩,w⟩) <;> simp [h,w] <;> simp [h']
  · rename_i other
    simp only [List.mem_cons,List.not_mem_nil,or_false,Prod.mk.injEq,straight,other,false_and]
    constructor
    · rintro (h | h | h | h) <;> simp [h]
    · rintro ⟨(h | h | h | h),w⟩ <;> simp [h,w]

theorem neighborsUnder_mem {W : Type} [One W] (grid : OccupancyGridMap K) (occThresh : Int) (root2 : W) (connectivity : Nat)
    (a b : Cell) (w : W) : (b,w) ∈ grid.neighborsUnder occThresh root2 connectivity a ↔
      Entered grid occThresh connectivity a b ∧ w = stepCost root2 a b := by
  have level (x y : Int) (one : |x| + |y| = 1) : x = 0 ∨ y = 0 := by
    rcases abs_cases x with ⟨h,_⟩ | ⟨h,_⟩ <;> rcases abs_cases y with ⟨h',_⟩ | ⟨h',_⟩ <;> omega
  have slant (x : Int) (one : |x| = 1) : x ≠ 0 := fun none_ => by simp [none_] at one
  simp only [OccupancyGridMap.neighborsUnder,List.mem_map,List.mem_filter,stepsFor_mem,OccupancyGridMap.openUnder,
    Bool.and_eq_true,Bool.or_eq_true,decide_eq_true_eq]
  constructor
  · rintro ⟨⟨⟨x,y⟩,w⟩,⟨inside,clear⟩,same⟩
    cases same
    have back : a.1 + x - a.1 = x ∧ a.2 + y - a.2 = y := ⟨by omega,by omega⟩
    rcases inside with ⟨one,cost⟩ | ⟨eight,one,cost⟩
    · refine ⟨⟨clear.1,.inl (by simpa only [back] using one)⟩,?_⟩
      rcases level x y one with none_ | none_
      · exact cost.trans (if_pos (.inl (by simp [none_]))).symm
      · exact cost.trans (if_pos (.inr (by simp [none_]))).symm
    · have flanks := clear.2.resolve_left (not_or.mpr ⟨slant x one.1,slant y one.2⟩)
      refine ⟨⟨clear.1,.inr ⟨eight,by simpa only [back] using one,flanks⟩⟩,?_⟩
      refine cost.trans (if_neg ?_).symm
      rintro (none_ | none_)
      · exact slant x one.1 (by simpa using none_)
      · exact slant y one.2 (by simpa using none_)
  · rintro ⟨⟨last,near⟩,rfl⟩
    have there : a.1 + (b.1 - a.1) = b.1 ∧ a.2 + (b.2 - a.2) = b.2 := ⟨by omega,by omega⟩
    refine ⟨((b.1 - a.1,b.2 - a.2),stepCost root2 a b),⟨?_,?_⟩,by simp [there]⟩
    · rcases near with one | ⟨eight,one,_⟩
      · refine .inl ⟨one,if_pos ?_⟩
        rcases level _ _ one with none_ | none_
        · exact .inl (sub_eq_zero.mp none_).symm
        · exact .inr (sub_eq_zero.mp none_).symm
      · refine .inr ⟨eight,one,if_neg ?_⟩
        rintro (none_ | none_)
        · exact slant _ one.1 (sub_eq_zero.mpr none_.symm)
        · exact slant _ one.2 (sub_eq_zero.mpr none_.symm)
    · dsimp only
      rw [there.1,there.2]
      refine ⟨last,?_⟩
      rcases near with one | ⟨_,_,flanks⟩
      · exact .inl (level _ _ one)
      · exact .inr flanks

/-- The cells that are in bounds. -/
noncomputable def OccupancyGridMap.cells (grid : OccupancyGridMap K) : Finset Cell := Finset.Ico 0 grid.height ×ˢ Finset.Ico 0 grid.width

theorem isFreeUnder_cells (grid : OccupancyGridMap K) (occThresh : Int) (cell : Cell)
    (free : grid.isFreeUnder occThresh cell = true) : cell ∈ grid.cells := by
  simp only [OccupancyGridMap.isFreeUnder,OccupancyGridMap.inBounds,Bool.and_eq_true,decide_eq_true_eq] at free
  exact Finset.mem_product.mpr ⟨Finset.mem_Ico.mpr ⟨free.1.1.1.1,free.1.1.1.2⟩,Finset.mem_Ico.mpr ⟨free.1.1.2,free.1.2⟩⟩

theorem cellBefore_ordered {W : Type} [LinearOrder W] : Ordered (cellBefore (W := W)) := ordered_first _

end

/-- `math.hypot` over the reals. -/
noncomputable def exactHypot (x y : ℝ) : ℝ := √(x^2 + y^2)

theorem exactHypot_triangle (x y u v : ℝ) : exactHypot (x + u) (y + v) ≤ exactHypot x y + exactHypot u v := by
  have first : 0 ≤ x^2 + y^2 := add_nonneg (sq_nonneg x) (sq_nonneg y)
  have second : 0 ≤ u^2 + v^2 := add_nonneg (sq_nonneg u) (sq_nonneg v)
  have product : x*u + y*v ≤ √(x^2 + y^2)*√(u^2 + v^2) := by
    rw [← Real.sqrt_mul first]
    refine Real.le_sqrt_of_sq_le ?_
    linarith [sq_nonneg (x*v - y*u),(by ring : (x^2 + y^2)*(u^2 + v^2) = (x*u + y*v)^2 + (x*v - y*u)^2)]
  refine Real.sqrt_le_iff.mpr ⟨add_nonneg (Real.sqrt_nonneg _) (Real.sqrt_nonneg _),?_⟩
  have square : (√(x^2 + y^2) + √(u^2 + v^2))^2 = x^2 + y^2 + (u^2 + v^2) + 2*(√(x^2 + y^2)*√(u^2 + v^2)) := by
    rw [add_sq,Real.sq_sqrt first,Real.sq_sqrt second]
    ring
  unfold exactHypot
  rw [square]
  linarith [(by ring : (x + u)^2 + (y + v)^2 = x^2 + y^2 + (u^2 + v^2) + 2*(x*u + y*v))]

variable {K : Type} {grid : OccupancyGridMap K} {occThresh : Int} {connectivity : Nat}

theorem root2_pos : (0 : ℝ) < √2 := Real.sqrt_pos.mpr two_pos

theorem stepCost_pos (a b : Cell) : 0 < stepCost √2 a b := by
  unfold stepCost
  split
  · exact one_pos
  · exact root2_pos

/-- A step costs its length. -/
theorem exactHypot_step {a b : Cell} (step : Entered grid occThresh connectivity a b) :
    exactHypot (a.1 - b.1 : Int) (a.2 - b.2 : Int) = stepCost √2 a b := by
  have square (x y : Int) (one : |y - x| = 1) : ((x - y : Int) : ℝ)^2 = 1 := by
    rw [← sq_abs,← Int.cast_abs,abs_sub_comm,one]
    norm_num
  have level (x y : Int) (none_ : x = y) : ((x - y : Int) : ℝ)^2 = 0 := by simp [none_]
  unfold exactHypot stepCost
  rcases step.near with one | ⟨_,one,_⟩
  · by_cases row : a.1 = b.1
    · have col : |b.2 - a.2| = 1 := by simpa [row] using one
      rw [if_pos (.inl row),level _ _ row,square _ _ col,zero_add,Real.sqrt_one]
    · have col : a.2 = b.2 := by
        have far : 0 < |b.1 - a.1| := abs_pos.mpr (sub_ne_zero.mpr (Ne.symm row))
        have none_ : |b.2 - a.2| = 0 := le_antisymm (by omega) (abs_nonneg _)
        exact (sub_eq_zero.mp (abs_eq_zero.mp none_)).symm
      have row_ : |b.1 - a.1| = 1 := by simpa [col] using one
      rw [if_pos (.inr col),level _ _ col,square _ _ row_,add_zero,Real.sqrt_one]
  · have row : a.1 ≠ b.1 := fun same => by simp [same] at one
    have col : a.2 ≠ b.2 := fun same => by simp [same] at one
    rw [if_neg (not_or.mpr ⟨row,col⟩),square _ _ one.1,square _ _ one.2,one_add_one_eq_two]

/-- No step brings the goal nearer, as the crow flies, than it costs. -/
theorem heuristic_slow (goal : Cell) {a b : Cell} (step : Entered grid occThresh connectivity a b) :
    heuristic exactHypot goal a ≤ stepCost √2 a b + heuristic exactHypot goal b := by
  rw [← exactHypot_step step]
  have rows : ((a.1 - goal.1 : Int) : ℝ) = ((a.1 - b.1 : Int) : ℝ) + ((b.1 - goal.1 : Int) : ℝ) := by push_cast; ring
  have cols : ((a.2 - goal.2 : Int) : ℝ) = ((a.2 - b.2 : Int) : ℝ) + ((b.2 - goal.2 : Int) : ℝ) := by push_cast; ring
  unfold heuristic
  rw [rows,cols]
  exact exactHypot_triangle _ _ _ _

/-- From a start that is free the paths of the search are the ways. -/
theorem way_iff_path (start goal : Cell) (free : grid.isFreeUnder occThresh start = true) (path : List Cell) :
    Way grid occThresh connectivity start goal path ↔ Path (Entered grid occThresh connectivity) start goal path := by
  constructor
  · rintro ⟨head,last,chain⟩
    exact ⟨head,last,chain.imp (fun a b step => step.toEntered)⟩
  · rintro ⟨head,last,entered⟩
    have clear : ∀ cell ∈ path, grid.isFreeUnder occThresh cell = true := by
      refine entered.induction _ path (fun a b step _ => step.last) (fun some_ => ?_)
      rw [List.head?_eq_some_head some_] at head
      rw [Option.some.inj head]
      exact free
    exact ⟨head,last,entered.imp_of_mem_imp (fun a b here _ step => ⟨step,clear a here⟩)⟩

theorem neighborsUnder_consistent (grid : OccupancyGridMap K) (occThresh : Int) (connectivity : Nat) (goal : Cell) :
    Consistent (Entered grid occThresh connectivity) (stepCost √2) (grid.neighborsUnder occThresh √2 connectivity)
      (heuristic exactHypot goal) :=
  ⟨neighborsUnder_mem grid occThresh √2 connectivity,fun a b _ => (stepCost_pos a b).le,fun _ _ step => heuristic_slow goal step⟩

/-- Both have a value, and the second a greater one. -/
def Higher (value : Cell → Option ℝ) (a b : Cell) : Prop := ∃ c d, value a = some c ∧ value b = some d ∧ c < d

theorem Higher.trans {value : Cell → Option ℝ} {x y z : Cell} (low : Higher value x y) (high : Higher value y z) :
    Higher value x z := by
  obtain ⟨c,d,first,second,less⟩ := low
  obtain ⟨d',e,again,third,less'⟩ := high
  have same : d' = d := Option.some.inj (again.symm.trans second)
  exact ⟨c,e,first,third,less.trans (same ▸ less')⟩

instance (value : Cell → Option ℝ) : Trans (Higher value) (Higher value) (Higher value) := ⟨Higher.trans⟩

/-- Where each step costs something, no cell comes again. -/
theorem rising_nodup (value : Cell → Option ℝ) (path : List Cell)
    (rises : path.IsChain (fun a b => ∃ c, value a = some c ∧ value b = some (c + stepCost √2 a b))) : path.Nodup := by
  have higher : path.IsChain (Higher value) := by
    refine rises.imp (fun a b step => ?_)
    obtain ⟨c,first,second⟩ := step
    exact ⟨c,_,first,second,lt_add_of_pos_right c (stepCost_pos a b)⟩
  refine higher.pairwise.imp (fun {a b} step same => ?_)
  obtain ⟨c,d,first,second,less⟩ := step
  rw [same,second] at first
  exact absurd less (Option.some.inj first ▸ lt_irrefl _)

/-- A* over any grid, with either connectivity and with as many rounds as it takes:
no path exactly where an end is not free or no way joins the two, and else a way from
the start to the goal that repeats no cell and costs no more than any other. -/
theorem astar_cheapest (grid : OccupancyGridMap ℝ) (occThresh : Int) (connectivity : Nat) (start goal : Cell) :
    ∃ result least, (∀ fuel, least ≤ fuel →
        astarWith exactHypot √2 occThresh connectivity fuel grid start goal = some result) ∧
      (result = none ↔ grid.isFreeUnder occThresh start = false ∨ grid.isFreeUnder occThresh goal = false ∨
        ∀ path, ¬Way grid occThresh connectivity start goal path) ∧
      ∀ path, result = some path → Way grid occThresh connectivity start goal path ∧ path.Nodup ∧
        ∀ other, Way grid occThresh connectivity start goal other → total (stepCost √2) path ≤ total (stepCost √2) other := by
  by_cases blocked : (!grid.isFreeUnder occThresh start || !grid.isFreeUnder occThresh goal) = true
  · refine ⟨none,0,fun fuel _ => by rw [astarWith,if_pos blocked],⟨fun _ => ?_,fun _ => rfl⟩,fun path no => by cases no⟩
    simp only [Bool.or_eq_true,Bool.not_eq_true'] at blocked
    rcases blocked with first | last
    · exact .inl first
    · exact .inr (.inl last)
  · have ends : grid.isFreeUnder occThresh start = true ∧ grid.isFreeUnder occThresh goal = true := by
      simpa only [Bool.or_eq_true,Bool.not_eq_true',not_or,Bool.not_eq_false] using blocked
    obtain ⟨stopped,t,least,ran,known,top,failed,arrived⟩ := search_solves
      (neighborsUnder_consistent grid occThresh connectivity goal) cellBefore_ordered start goal grid.cells
      (isFreeUnder_cells grid occThresh start ends.1)
      (fun _ cell step => isFreeUnder_cells grid occThresh cell step.last)
    cases stopped with
    | false =>
      refine ⟨none,least,fun fuel le => ?_,⟨fun _ => .inr (.inr fun path way => ?_),fun _ => rfl⟩,fun path no => by cases no⟩
      · rw [astarWith,if_neg blocked,ran fuel le]
      · exact failed rfl path ((way_iff_path start goal ends.1 path).mp way)
    | true =>
      obtain ⟨path,least_,read,valid,rises,best⟩ := arrived rfl (fun cell => (t.prev.get? cell).isNone) (by rw [top]; rfl) (by
        intro v leads stop
        cases leads with
        | root => rfl
        | next _ u step rest =>
          rw [step] at stop
          cases stop)
      have way := (way_iff_path start goal ends.1 path).mpr valid
      refine ⟨some path,max least least_,fun fuel le => ?_,⟨(fun no => by cases no),fun none_ => ?_⟩,?_⟩
      · rw [astarWith,if_neg blocked,ran fuel ((le_max_left _ _).trans le)]
        dsimp only
        rw [read fuel ((le_max_right _ _).trans le)]
        rfl
      · rcases none_ with first | last | never
        · rw [ends.1] at first
          cases first
        · rw [ends.2] at last
          cases last
        · exact absurd way (never path)
      · rintro _ ⟨rfl⟩
        exact ⟨way,rising_nodup _ path rises,fun other route => best other ((way_iff_path start goal ends.1 other).mp route)⟩

end AmigaFleet.Planners
