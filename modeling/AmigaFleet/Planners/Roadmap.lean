import AmigaFleet.Planners.Polygons
import AmigaFleet.Lib.BestFirst
import Mathlib.Tactic.FieldSimp

/-! The roadmap of the ridges between the polygons, with the start and the goal
connected to it, and Dijkstra over it. The diagram itself is a parameter. -/
namespace AmigaFleet.Planners
open Lib BestFirst

abbrev Segment (K : Type) := (K × K) × (K × K)

/-- What the planner reads of a diagram; a ridge to infinity has the vertex -1. -/
structure Diagram (K : Type) where
  vertices : List (K × K)
  ridgeVertices : List (Int × Int)

section
variable {K : Type} [Field K]

/-- The point is on the segment. -/
def On [LinearOrder K] (e : Segment K) (p : K × K) : Prop := ∃ t, 0 ≤ t ∧ t ≤ 1 ∧ p = along e.1 e.2 t

def voronoiSites (polygons : ObstaclePolygons K) : List (K × K) :=
  polygons.flatMap (fun polygon => (polygonEdges polygon.2).flatMap (fun edge =>
    (List.range 6).map (fun k => along edge.1 edge.2 (fraction k 6))))

/-- The ridges between two finite vertices. -/
def Diagram.ridges (d : Diagram K) : List (Segment K) :=
  d.ridgeVertices.filterMap (fun v =>
    if v.1 = -1 ∨ v.2 = -1 then none
    else (d.vertices[v.1.toNat]?).bind (fun p => (d.vertices[v.2.toNat]?).map (fun q => (p,q))))

variable [LinearOrder K]

def closestPointOnSegment (p a b : K × K) : K × K :=
  let len2 := (b.1 - a.1)*(b.1 - a.1) + (b.2 - a.2)*(b.2 - a.2)
  if len2 ≤ 1/10^9 then a
  else along a b (max 0 (min 1 (((p.1 - a.1)*(b.1 - a.1) + (p.2 - a.2)*(b.2 - a.2))/len2)))

/-- The first edge with the least distance so far, and its closest point. -/
def nearer (p : K × K) (best : Option (K × Nat × (K × K))) (entry : Segment K × Nat) : Option (K × Nat × (K × K)) :=
  let c := closestPointOnSegment p entry.1.1 entry.1.2
  let d2 := dist2 p c
  if best.all (fun b => d2 < b.1) then some (d2,entry.2,c) else best

def insertPointIntoRoadmap (edges : List (Segment K)) (p : K × K) : Option (List (Segment K)) :=
  match edges.zipIdx.foldl (nearer p) none with
  | none => none
  | some (_,i,c) =>
    (edges[i]?).map (fun e => edges.take i ++ edges.drop (i + 1) ++ [(e.1,c),(c,e.2),(p,c)])

def pointBefore {W : Type} [LinearOrder W] (x y : W × W × (K × K)) : Bool :=
  x.1 < y.1 || x.1 = y.1 && (x.2.1 < y.2.1 || x.2.1 = y.2.1 &&
    (x.2.2.1 < y.2.2.1 || x.2.2.1 = y.2.2.1 && x.2.2.2 < y.2.2.2))

variable {W : Type} [Field W] [LinearOrder W] (hypot : K → K → W)

/-- The edges at a point, each with its length. -/
def adjacent (edges : List (Segment K)) (u : K × K) : List ((K × K) × W) :=
  edges.flatMap (fun e =>
    let w := hypot (e.2.1 - e.1.1) (e.2.2 - e.1.2)
    (if e.1 = u then [(e.2,w)] else []) ++ (if e.2 = u then [(e.1,w)] else []))

/-- `_dijkstra_shortest_path`, within some number of steps of each of its loops. -/
def dijkstraShortestPath (fuel : Nat) (edges : List (Segment K)) (start goal : K × K) : Option (Option (List (K × K))) :=
  match search pointBefore (fun _ => (0 : W)) (adjacent hypot edges) goal fuel (begin (0,0,start) start) with
  | none => none
  | some (_,s) =>
    if (s.cost.get? goal).isNone then some none
    else (backtrack s.prev (fun p => p = start) fuel goal []).map some

variable (voronoi : List (K × K) → Option (Diagram K))

def voronoiRoadmapEdges (polygons : ObstaclePolygons K) : Option (List (Segment K)) :=
  if (voronoiSites polygons).length < 4 then none
  else (voronoi (voronoiSites polygons)).map (fun d =>
    d.ridges.filter (fun e => !segmentCrossesAnyObstacle e.1 e.2 polygons))

end

section
variable {K : Type} [Field K] [LinearOrder K] [IsStrictOrderedRing K]

theorem on_first (e : Segment K) : On e e.1 := ⟨0,le_refl 0,zero_le_one,(along_zero _ _).symm⟩

theorem on_second (e : Segment K) : On e e.2 := ⟨1,zero_le_one,le_refl 1,(along_one _ _).symm⟩

/-- A point between two points of a segment is on it. -/
theorem On.between {e : Segment K} {p q r : K × K} (first : On e p) (second : On e q) (mid : On (p,q) r) : On e r := by
  obtain ⟨s,s0,s1,rfl⟩ := first
  obtain ⟨t,t0,t1,rfl⟩ := second
  obtain ⟨u,u0,u1,rfl⟩ := mid
  refine ⟨s + (t - s)*u,?_,?_,?_⟩
  · have split : s + (t - s)*u = s*(1 - u) + t*u := by ring
    rw [split]
    exact add_nonneg (mul_nonneg s0 (sub_nonneg.mpr u1)) (mul_nonneg t0 u0)
  · have split : 1 - (s + (t - s)*u) = (1 - s)*(1 - u) + (1 - t)*u := by ring
    rw [← sub_nonneg,split]
    exact add_nonneg (mul_nonneg (sub_nonneg.mpr s1) (sub_nonneg.mpr u1)) (mul_nonneg (sub_nonneg.mpr t1) u0)
  · simp only [along,Prod.mk.injEq]
    constructor
    · ring
    · ring

theorem closest_on (p a b : K × K) : On (a,b) (closestPointOnSegment p a b) := by
  unfold closestPointOnSegment
  dsimp only
  split
  · exact on_first (a,b)
  · exact ⟨_,le_max_left _ _,max_le zero_le_one (min_le_left _ _),rfl⟩

theorem nearer_spec (p : K × K) (edges : List (Segment K)) (best : K × Nat × (K × K))
    (found : edges.zipIdx.foldl (nearer p) none = some best) : ∃ e, edges[best.2.1]? = some e ∧ On e best.2.2 := by
  suffices carried : ∀ (entries : List (Segment K × Nat)) (start : Option (K × Nat × (K × K))),
      (∀ entry ∈ entries, edges[entry.2]? = some entry.1) →
      (∀ b, start = some b → ∃ e, edges[b.2.1]? = some e ∧ On e b.2.2) →
      ∀ b, entries.foldl (nearer p) start = some b → ∃ e, edges[b.2.1]? = some e ∧ On e b.2.2 by
    refine carried edges.zipIdx none (fun entry member => ?_) (fun b no => by cases no) best found
    exact List.mk_mem_zipIdx_iff_getElem?.mp member
  intro entries
  induction entries with
  | nil => exact fun start _ known b same => known b same
  | cons entry rest ih =>
    intro start placed known b same
    rw [List.forall_mem_cons] at placed
    refine ih (nearer p start entry) placed.2 (fun b' here => ?_) b same
    unfold nearer at here
    dsimp only at here
    split at here
    · cases here
      exact ⟨entry.1,placed.1,closest_on p _ _⟩
    · exact known b' here

/-- An inserted point leaves parts of the edges, and its connector. -/
theorem insert_parts (edges new : List (Segment K)) (p : K × K) (ok : insertPointIntoRoadmap edges p = some new) :
    ∀ f ∈ new, (∃ e ∈ edges, On e f.1 ∧ On e f.2) ∨ ∃ e ∈ edges, ∃ c, On e c ∧ f = (p,c) := by
  intro f member
  unfold insertPointIntoRoadmap at ok
  split at ok
  · cases ok
  · rename_i d i c found
    obtain ⟨e,there,rfl⟩ := Option.map_eq_some_iff.mp ok
    obtain ⟨e',there',on⟩ := nearer_spec p edges (d,i,c) found
    rw [there] at there'
    cases there'
    have inside : e ∈ edges := List.mem_of_getElem? there
    rcases List.mem_append.mp member with old | added
    · have kept : f ∈ edges := by
        rcases List.mem_append.mp old with before | after
        · exact List.mem_of_mem_take before
        · exact List.mem_of_mem_drop after
      exact .inl ⟨f,kept,on_first f,on_second f⟩
    · simp only [List.mem_cons,List.not_mem_nil,or_false] at added
      rcases added with rfl | rfl | rfl
      · exact .inl ⟨e,inside,on_first e,on⟩
      · exact .inl ⟨e,inside,on,on_second e⟩
      · exact .inr ⟨e,inside,c,on,rfl⟩

end

section
variable {K : Type} [Field K] [LinearOrder K]

/-- The two ends of an edge, in either direction. -/
def Linked (edges : List (Segment K)) (u v : K × K) : Prop := ∃ e ∈ edges, e = (u,v) ∨ e = (v,u)

variable {W : Type} [Field W] [LinearOrder W] (hypot : K → K → W)

theorem adjacent_linked (edges : List (Segment K)) (long : ∀ x y, 0 ≤ hypot x y) (u : K × K) (edge : (K × K) × W)
    (member : edge ∈ adjacent hypot edges u) : Linked edges u edge.1 ∧ 0 ≤ edge.2 := by
  obtain ⟨e,inside,here⟩ := List.mem_flatMap.mp member
  rcases List.mem_append.mp here with out | back
  · split at out
    · rename_i same
      rw [List.mem_singleton.mp out]
      exact ⟨⟨e,inside,.inl (by rw [← same])⟩,long _ _⟩
    · cases out
  · split at back
    · rename_i same
      rw [List.mem_singleton.mp back]
      exact ⟨⟨e,inside,.inr (by rw [← same])⟩,long _ _⟩
    · cases back

variable [IsStrictOrderedRing W]

/-- A path that Dijkstra returns goes from the start to the goal over the edges. -/
theorem dijkstra_links (long : ∀ x y, 0 ≤ hypot x y) (fuel : Nat) (edges : List (Segment K)) (start goal : K × K)
    (path : List (K × K)) (ok : dijkstraShortestPath hypot fuel edges start goal = some (some path)) :
    path.head? = some start ∧ path.getLast? = some goal ∧ path.IsChain (Linked edges) := by
  unfold dijkstraShortestPath at ok
  split at ok
  · cases ok
  · rename_i stopped s found
    split at ok
    · cases ok
    · rename_i reached
      obtain ⟨result,back,same⟩ := Option.map_eq_some_iff.mp ok
      cases same
      have rooted := (search_rooted pointBefore (fun _ => (0 : W)) (adjacent hypot edges) goal
        (adjacent_linked hypot edges long) fuel _ (begin_rooted 0 start (Linked edges)) stopped s found).1
      rw [Option.isNone_iff_eq_none] at reached
      obtain ⟨d,known⟩ := Option.ne_none_iff_exists'.mp reached
      obtain ⟨chain,first,last⟩ := backtrack_chain s rooted _ (fun v _ stop => of_decide_eq_true stop) fuel goal [] path
        (rooted.leads goal d known) (List.isChain_singleton goal) back
      exact ⟨first,last,chain⟩

end
end AmigaFleet.Planners
