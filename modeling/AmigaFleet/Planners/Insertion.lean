import AmigaFleet.Lib.Subdivision
import AmigaFleet.Planners.Cheapest
import AmigaFleet.Planners.Roadmap
import Mathlib.Tactic.FieldSimp
import Mathlib.Tactic.NormNum

/-! The roadmap when points have been inserted, and Dijkstra over it: what was joined
stays joined, where distances stay the same, and that the path found is a shortest one. -/
namespace AmigaFleet.Planners
open Lib BestFirst

section
variable {K : Type} [Field K]

/-- The squared length up to which an edge is taken for its first end. -/
def tiny : K := fraction 1 (10^9)

variable [LinearOrder K]

/-- What of an edge counts for the closest point. -/
def Counted (e : Segment K) (q : K × K) : Prop :=
  (dist2 e.1 e.2 ≤ tiny ∧ q = e.1) ∨ (tiny < dist2 e.1 e.2 ∧ On e q)

variable [IsStrictOrderedRing K]

theorem clamp_least (x t : K) (low : 0 ≤ t) (high : t ≤ 1) : (max 0 (min 1 x) - x)^2 ≤ (t - x)^2 := by
  rcases le_total x 0 with under | upper_
  · rw [max_eq_left ((min_le_right 1 x).trans under)]
    nlinarith
  · rcases le_total x 1 with within | past
    · rw [min_eq_right within,max_eq_right upper_,sub_self]
      nlinarith [sq_nonneg (t - x)]
    · rw [min_eq_left past,max_eq_right zero_le_one]
      nlinarith

/-- The closest point of an edge, of what counts of it. -/
theorem closest_least (e : Segment K) (p : K × K) : Counted e (closestPointOnSegment p e.1 e.2) ∧
    ∀ q, Counted e q → dist2 p (closestPointOnSegment p e.1 e.2) ≤ dist2 p q := by
  obtain ⟨a,b⟩ := e
  have size : (b.1 - a.1)*(b.1 - a.1) + (b.2 - a.2)*(b.2 - a.2) = dist2 a b := by
    simp only [dist2]
    ring
  have edge : (1/10^9 : K) = tiny := by
    rw [tiny,fraction]
    norm_num
  unfold closestPointOnSegment Counted
  dsimp only
  rw [size,edge]
  split
  case isTrue short =>
    refine ⟨.inl ⟨short,rfl⟩,?_⟩
    rintro q (⟨_,rfl⟩ | ⟨long,_⟩)
    · exact le_refl _
    · exact absurd short (not_le.mpr long)
  case isFalse long =>
    have far : tiny < dist2 a b := not_le.mp long
    have positive : 0 < dist2 a b := by
      refine lt_of_le_of_lt ?_ far
      rw [← edge]
      positivity
    obtain ⟨x,hx⟩ : ∃ x, x = ((p.1 - a.1)*(b.1 - a.1) + (p.2 - a.2)*(b.2 - a.2))/dist2 a b := ⟨_,rfl⟩
    rw [← hx]
    have dot : x*dist2 a b = (p.1 - a.1)*(b.1 - a.1) + (p.2 - a.2)*(b.2 - a.2) := by
      rw [hx]
      field_simp
    -- The distance is least where the parameter is nearest to that of the foot.
    have spread (t : K) : dist2 p (along a b t) = dist2 a b*(t - x)^2 + (dist2 p a - dist2 a b*x^2) := by
      have square : dist2 p (along a b t) = dist2 a b*t^2 - 2*t*(x*dist2 a b) + dist2 p a := by
        rw [dot]
        simp only [dist2,along]
        ring
      rw [square]
      ring
    refine ⟨.inr ⟨far,_,le_max_left _ _,max_le zero_le_one (min_le_left _ _),rfl⟩,?_⟩
    rintro q (⟨short,_⟩ | ⟨_,t,low,high,rfl⟩)
    · exact absurd short long
    · dsimp only
      rw [spread,spread]
      have less := mul_le_mul_of_nonneg_left (clamp_least x t low high) positive.le
      linarith

omit [IsStrictOrderedRing K] in
/-- The first edge that is nearest, and its closest point. -/
theorem nearer_least (p : K × K) (edges : List (Segment K)) (some_ : edges ≠ []) :
    ∃ i e, edges[i]? = some e ∧
      edges.zipIdx.foldl (nearer p) none = some (dist2 p (closestPointOnSegment p e.1 e.2),i,closestPointOnSegment p e.1 e.2) ∧
      ∀ f ∈ edges, dist2 p (closestPointOnSegment p e.1 e.2) ≤ dist2 p (closestPointOnSegment p f.1 f.2) := by
  suffices carried : ∀ (entries : List (Segment K × Nat)) (i : Nat) (e : Segment K),
      (∀ entry ∈ entries, edges[entry.2]? = some entry.1) → edges[i]? = some e →
      ∃ j f, edges[j]? = some f ∧
        entries.foldl (nearer p) (some (dist2 p (closestPointOnSegment p e.1 e.2),i,closestPointOnSegment p e.1 e.2)) =
          some (dist2 p (closestPointOnSegment p f.1 f.2),j,closestPointOnSegment p f.1 f.2) ∧
        dist2 p (closestPointOnSegment p f.1 f.2) ≤ dist2 p (closestPointOnSegment p e.1 e.2) ∧
        ∀ entry ∈ entries, dist2 p (closestPointOnSegment p f.1 f.2) ≤
          dist2 p (closestPointOnSegment p entry.1.1 entry.1.2) by
    obtain ⟨first,rest,rfl⟩ := List.exists_cons_of_ne_nil some_
    have placed : ∀ entry ∈ (first::rest).zipIdx, (first::rest)[entry.2]? = some entry.1 :=
      fun entry member => List.mk_mem_zipIdx_iff_getElem?.mp member
    rw [List.zipIdx_cons] at placed ⊢
    rw [List.forall_mem_cons] at placed
    obtain ⟨j,f,there,folded,low,least⟩ := carried _ 0 first placed.2 rfl
    refine ⟨j,f,there,folded,?_⟩
    rw [List.forall_mem_cons]
    refine ⟨low,fun g member => ?_⟩
    rw [← List.zipIdx_map_fst 1 rest] at member
    obtain ⟨entry,inside,rfl⟩ := List.mem_map.mp member
    exact least entry (by simpa using inside)
  intro entries
  induction entries with
  | nil => exact fun i e _ here => ⟨i,e,here,rfl,le_refl _,fun _ no => by cases no⟩
  | cons entry rest ih =>
    intro i e placed here
    rw [List.forall_mem_cons] at placed
    rw [List.foldl_cons]
    by_cases less : dist2 p (closestPointOnSegment p entry.1.1 entry.1.2) < dist2 p (closestPointOnSegment p e.1 e.2)
    · obtain ⟨j,f,there,folded,low,least⟩ := ih entry.2 entry.1 placed.2 placed.1
      refine ⟨j,f,there,?_,low.trans less.le,List.forall_mem_cons.mpr ⟨low,least⟩⟩
      rw [← folded,nearer]
      simp [less]
    · obtain ⟨j,f,there,folded,low,least⟩ := ih i e placed.2 here
      refine ⟨j,f,there,?_,low,List.forall_mem_cons.mpr ⟨low.trans (not_lt.mp less),least⟩⟩
      rw [← folded,nearer]
      simp [less]

end

/-- The length of the segment between two points. -/
noncomputable def span (u v : ℝ × ℝ) : ℝ := exactHypot (v.1 - u.1) (v.2 - u.2)

theorem exactHypot_neg (x y : ℝ) : exactHypot (-x) (-y) = exactHypot x y := by
  unfold exactHypot
  rw [neg_sq,neg_sq]

theorem exactHypot_mul (x y t : ℝ) (low : 0 ≤ t) : exactHypot (x*t) (y*t) = exactHypot x y*t := by
  unfold exactHypot
  rw [mul_pow,mul_pow,← add_mul,Real.sqrt_mul (add_nonneg (sq_nonneg x) (sq_nonneg y)),Real.sqrt_sq low]

theorem span_lengths : Lengths span := by
  refine ⟨fun u v => ?_,fun u v => Real.sqrt_nonneg _⟩
  unfold span
  rw [← exactHypot_neg,neg_sub,neg_sub]

/-- The two parts of a segment are as long as the whole. -/
theorem span_parts (e : Segment ℝ) (c : ℝ × ℝ) (on : On e c) : span e.1 c + span e.2 c = span e.1 e.2 := by
  obtain ⟨t,low,high,rfl⟩ := on
  have first : span e.1 (along e.1 e.2 t) = span e.1 e.2*t := by
    unfold span along
    rw [← exactHypot_mul _ _ t low,add_sub_cancel_left,add_sub_cancel_left]
  have second : span e.2 (along e.1 e.2 t) = span e.1 e.2*(1 - t) := by
    rw [span_lengths.symm]
    unfold span along
    rw [← exactHypot_mul _ _ (1 - t) (sub_nonneg.mpr high)]
    congr 1 <;> ring
  rw [first,second]
  ring

/-- The point hangs on the roadmap at a nearest point of what counts of it. -/
def Attached (edges new : List (Segment ℝ)) (p : ℝ × ℝ) : Prop :=
  ∃ c, (p,c) ∈ new ∧ (∃ e ∈ edges, Counted e c) ∧ ∀ e ∈ edges, ∀ q, Counted e q → dist2 p c ≤ dist2 p q

/-- The closest point is an end of the edge it parts or not yet a node, and the point
itself is the closest point or not yet a node. -/
def Fresh (edges : List (Segment ℝ)) (p : ℝ × ℝ) : Prop :=
  ∀ i e d c, edges[i]? = some e → edges.zipIdx.foldl (nearer p) none = some (d,i,c) →
    (c = e.1 ∨ c = e.2 ∨ ¬Node (Linked edges) c) ∧ (p = c ∨ ¬Node (Linked edges) p)

theorem ends_iff {V : Type} {f : V × V} {u v : V} : f = (u,v) ∨ f = (v,u) ↔ Ends u v f.1 f.2 := by
  obtain ⟨x,y⟩ := f
  simp only [Ends,Prod.mk.injEq,eq_comm,and_comm]

theorem counted_on (e : Segment ℝ) (q : ℝ × ℝ) (counted : Counted e q) : On e q := by
  rcases counted with ⟨_,rfl⟩ | ⟨_,on⟩
  · exact on_first e
  · exact on

/-- What an insertion does to the roadmap. -/
theorem insert_parted (edges : List (Segment ℝ)) (some_ : edges ≠ []) (p : ℝ × ℝ) :
    ∃ (new : List (Segment ℝ)) (e : Segment ℝ) (c : ℝ × ℝ), insertPointIntoRoadmap edges p = some new ∧ Parted (Linked edges) (Linked new) span e.1 e.2 c p ∧
      Linked new p c ∧ Attached edges new p ∧
      (Fresh edges p → (c = e.1 ∨ c = e.2 ∨ ¬Node (Linked edges) c) ∧ (p = c ∨ ¬Node (Linked edges) p)) := by
  obtain ⟨i,e,there,folded,least⟩ := nearer_least p edges some_
  obtain ⟨c,hc⟩ : ∃ c, c = closestPointOnSegment p e.1 e.2 := ⟨_,rfl⟩
  have inside : e ∈ edges := List.mem_of_getElem? there
  have counted : Counted e c := hc ▸ (closest_least e p).1
  rw [← hc] at folded least
  have member (f : Segment ℝ) : f ∈ edges.take i ++ edges.drop (i + 1) ++ [(e.1,c),(c,e.2),(p,c)] ↔
      f ∈ edges.take i ∨ f ∈ edges.drop (i + 1) ∨ f = (e.1,c) ∨ f = (c,e.2) ∨ f = (p,c) := by
    simp only [List.mem_append,List.mem_cons,List.not_mem_nil,or_false,or_assoc]
  have whole (f : Segment ℝ) : f ∈ edges ↔ f ∈ edges.take i ∨ f = e ∨ f ∈ edges.drop (i + 1) := by
    obtain ⟨short,same⟩ := List.getElem?_eq_some_iff.mp there
    have split : edges = edges.take i ++ e::edges.drop (i + 1) := by
      rw [← same,← List.drop_eq_getElem_cons short,List.take_append_drop]
    conv_lhs => rw [split]
    rw [List.mem_append,List.mem_cons]
  refine ⟨edges.take i ++ edges.drop (i + 1) ++ [(e.1,c),(c,e.2),(p,c)],e,c,?_,?_,?_,?_,fun fresh => fresh i e _ c there folded⟩
  · rw [insertPointIntoRoadmap,folded]
    simp only [there,Option.map_some]
  · refine ⟨⟨e,inside,.inl rfl⟩,?_,?_,?_,?_,span_parts e c (counted_on e c counted)⟩
    · rintro u v ⟨f,here,ends⟩
      exact ⟨f,here,ends.symm⟩
    · rintro u v ⟨f,here,ends⟩
      rcases (whole f).mp here with first | rfl | last
      · exact .inl ⟨f,(member f).mpr (.inl first),ends⟩
      · exact .inr (ends_iff.mp ends)
      · exact .inl ⟨f,(member f).mpr (.inr (.inl last)),ends⟩
    · rintro u v (ends | ends)
      · exact ⟨(e.1,c),(member _).mpr (.inr (.inr (.inl rfl))),ends_iff.mpr ends⟩
      · exact ⟨(c,e.2),(member _).mpr (.inr (.inr (.inr (.inl rfl)))),ends_iff.mpr ends.swap⟩
    · rintro u v ⟨f,here,ends⟩
      rcases (member f).mp here with first | last | rfl | rfl | rfl
      · exact .inl ⟨f,(whole f).mpr (.inl first),ends⟩
      · exact .inl ⟨f,(whole f).mpr (.inr (.inr last)),ends⟩
      · exact .inr (.inl (ends_iff.mp ends))
      · exact .inr (.inr (.inl (ends_iff.mp ends).swap))
      · exact .inr (.inr (.inr (ends_iff.mp ends)))
  · exact ⟨_,(member _).mpr (.inr (.inr (.inr (.inr rfl)))),.inl rfl⟩
  · refine ⟨c,(member _).mpr (.inr (.inr (.inr (.inr rfl)))),⟨e,inside,counted⟩,fun f here q counts => ?_⟩
    exact (least f here).trans ((closest_least f p).2 q counts)

theorem pointBefore_ordered {K W : Type} [Field K] [LinearOrder K] [LinearOrder W] : Ordered (pointBefore (K := K) (W := W)) :=
  ordered_first _

theorem adjacent_consistent (edges : List (Segment ℝ)) :
    Consistent (Linked edges) span (adjacent exactHypot edges) (fun _ => 0) := by
  refine ⟨fun u v w => ?_,fun u v _ => span_lengths.nonneg u v,fun u v _ => ?_⟩
  · constructor
    · intro member
      obtain ⟨e,inside,here⟩ := List.mem_flatMap.mp member
      rcases List.mem_append.mp here with out | back
      · split at out
        · rename_i same
          cases List.mem_singleton.mp out
          exact ⟨⟨e,inside,.inl (by rw [← same])⟩,by rw [← same]; rfl⟩
        · cases out
      · split at back
        · rename_i same
          cases List.mem_singleton.mp back
          exact ⟨⟨e,inside,.inr (by rw [← same])⟩,by rw [span_lengths.symm,← same]; rfl⟩
        · cases back
    · rintro ⟨⟨e,inside,rfl | rfl⟩,rfl⟩
      · exact List.mem_flatMap.mpr ⟨_,inside,List.mem_append_left _ (by simp [span])⟩
      · refine List.mem_flatMap.mpr ⟨_,inside,List.mem_append_right _ ?_⟩
        rw [span_lengths.symm]
        simp [span]
  · rw [add_zero]
    exact span_lengths.nonneg u v

/-- Dijkstra over a roadmap ends, with no path exactly where the two points are not
joined, and else with a shortest one. -/
theorem dijkstra_shortest (roadmap : List (Segment ℝ)) (start goal : ℝ × ℝ) :
    ∃ result least, (∀ fuel, least ≤ fuel → dijkstraShortestPath exactHypot fuel roadmap start goal = some result) ∧
      (result = none ↔ ¬∃ path, Path (Linked roadmap) start goal path) ∧
      ∀ path, result = some path → Path (Linked roadmap) start goal path ∧
        ∀ other, Path (Linked roadmap) start goal other → total span path ≤ total span other := by
  have within (u v : ℝ × ℝ) (step : Linked roadmap u v) : v ∈ (start::roadmap.flatMap (fun e => [e.1,e.2])).toFinset := by
    obtain ⟨e,inside,ends⟩ := step
    refine List.mem_toFinset.mpr (List.mem_cons_of_mem _ (List.mem_flatMap.mpr ⟨e,inside,?_⟩))
    rcases ends with rfl | rfl
    · simp
    · simp
  obtain ⟨stopped,t,least,ran,known,_,failed,arrived⟩ := search_solves (adjacent_consistent roadmap) pointBefore_ordered
    start goal _ (List.mem_toFinset.mpr (List.mem_cons_self ..)) within
  cases stopped with
  | false =>
    refine ⟨none,least,fun fuel le => ?_,⟨fun _ => fun ⟨path,valid⟩ => failed rfl path valid,fun _ => rfl⟩,fun path no => by cases no⟩
    have absent : (t.cost.get? goal).isNone = true := by
      rw [Option.isNone_iff_eq_none]
      exact Option.isSome_eq_false_iff.mp known.symm |> Option.isNone_iff_eq_none.mp
    rw [dijkstraShortestPath,ran fuel le]
    simp only [absent,if_true]
  | true =>
    obtain ⟨path,least_,read,valid,_,best⟩ := arrived rfl (fun p => p = start) (by simp) (fun v _ stop => of_decide_eq_true stop)
    refine ⟨some path,max least least_,fun fuel le => ?_,⟨(fun no => by cases no),fun none_ => absurd ⟨path,valid⟩ none_⟩,?_⟩
    · have present : (t.cost.get? goal).isNone = false := by
        rw [← Option.not_isSome,← known]
        rfl
      rw [dijkstraShortestPath,ran fuel ((le_max_left _ _).trans le)]
      simp only [present,Bool.false_eq_true,if_false]
      rw [read fuel ((le_max_right _ _).trans le)]
      rfl
    · rintro _ ⟨rfl⟩
      exact ⟨valid,best⟩

theorem distance_of_joined {roadmap : List (Segment ℝ)} {u v : ℝ × ℝ} (joined : ∃ path, Path (Linked roadmap) u v path) :
    ∃ d, Distance (Linked roadmap) span u v d := by
  obtain ⟨result,_,_,none_,found⟩ := dijkstra_shortest roadmap u v
  cases result with
  | none => exact absurd joined (none_.mp rfl)
  | some path =>
    obtain ⟨valid,least⟩ := found path rfl
    exact ⟨_,⟨path,valid,rfl⟩,least⟩

theorem joined_of_joined {old new : List (Segment ℝ)} {a b c p : ℝ × ℝ}
    (parted : Parted (Linked old) (Linked new) span a b c p) {u v : ℝ × ℝ} (joined : ∃ path, Path (Linked old) u v path) :
    ∃ path, Path (Linked new) u v path := by
  obtain ⟨path,valid⟩ := joined
  obtain ⟨path_,valid_,_⟩ := reach_path (parted.reach span_lengths u v (total span path) (path_reach valid))
  exact ⟨path_,valid_⟩

/-- With the start and the goal inserted both are nodes, each hung on at a nearest
point, and what was joined is joined no farther apart, and just as far where the
points that came in were fresh; and Dijkstra finds a shortest path over any roadmap. -/
theorem roadmap_shortest (edges : List (Segment ℝ)) (some_ : edges ≠ []) (start goal : ℝ × ℝ) :
    (∃ one two, insertPointIntoRoadmap edges start = some one ∧ insertPointIntoRoadmap one goal = some two ∧
      Node (Linked two) start ∧ Node (Linked two) goal ∧ Attached edges one start ∧ Attached one two goal ∧
      ∀ u v, (∃ path, Path (Linked edges) u v path) →
        ∃ d d', Distance (Linked edges) span u v d ∧ Distance (Linked two) span u v d' ∧ d' ≤ d ∧
          (Fresh edges start → Fresh one goal → d' = d)) ∧
    ∀ (roadmap : List (Segment ℝ)) (u v : ℝ × ℝ), ∃ result least,
      (∀ fuel, least ≤ fuel → dijkstraShortestPath exactHypot fuel roadmap u v = some result) ∧
      (result = none ↔ ¬∃ path, Path (Linked roadmap) u v path) ∧
      ∀ path, result = some path → Path (Linked roadmap) u v path ∧
        ∀ other, Path (Linked roadmap) u v other → total span path ≤ total span other := by
  refine ⟨?_,dijkstra_shortest⟩
  obtain ⟨one,e,c,first,parted,hung,attached,fresh⟩ := insert_parted edges some_ start
  have rest : one ≠ [] := by
    rintro rfl
    obtain ⟨f,no,_⟩ := hung
    cases no
  obtain ⟨two,e_,c_,second,parted_,hung_,attached_,fresh_⟩ := insert_parted one rest goal
  refine ⟨one,two,first,second,parted_.node start ⟨c,hung⟩,⟨c_,hung_⟩,attached,attached_,fun u v joined => ?_⟩
  have joined_ := joined_of_joined parted joined
  obtain ⟨d,distance⟩ := distance_of_joined joined
  obtain ⟨mid,between⟩ := distance_of_joined joined_
  obtain ⟨d',last⟩ := distance_of_joined (joined_of_joined parted_ joined_)
  refine ⟨d,d',distance,last,?_,fun new new_ => ?_⟩
  · exact (parted_.distance_le span_lengths between last).trans (parted.distance_le span_lengths distance between)
  · rw [parted_.distance_eq span_lengths (fresh_ new_).1 (fresh_ new_).2 between last]
    exact parted.distance_eq span_lengths (fresh new).1 (fresh new).2 distance between

/-- A roadmap of one edge, with both points beside it. -/
theorem roadmap_shortest_one : ∃ one two, insertPointIntoRoadmap [((0,0),(1,0))] ((0,1) : ℝ × ℝ) = some one ∧
    insertPointIntoRoadmap one (1,1) = some two ∧ Node (Linked two) (0,1) ∧ Node (Linked two) (1,1) ∧
    Attached [((0,0),(1,0))] one (0,1) ∧ Attached one two (1,1) := by
  obtain ⟨one,two,first,second,start,goal,attached,attached_,_⟩ :=
    (roadmap_shortest [((0,0),(1,0))] (List.cons_ne_nil _ _) (0,1) (1,1)).1
  exact ⟨one,two,first,second,start,goal,attached,attached_⟩

/-- Hung on at a nearest point of the roadmap, whatever the lengths of its edges. -/
def AttachedNearest (edges new : List (Segment ℝ)) (p : ℝ × ℝ) : Prop :=
  ∃ c, (p,c) ∈ new ∧ (∃ e ∈ edges, On e c) ∧ ∀ e ∈ edges, ∀ q, On e q → dist2 p c ≤ dist2 p q

theorem span_rise (u v : ℝ × ℝ) : v.2 - u.2 ≤ span u v := by
  refine Real.le_sqrt_of_sq_le ?_
  linarith [sq_nonneg (v.1 - u.1)]

/-- Away from a point that is far from its neighbours, heights tell distances. -/
theorem far_apart (edges : List (Segment ℝ)) (t : ℝ × ℝ) (bound : ℝ)
    (others : ∀ u, Linked edges u t → u ≠ t ∧ bound ≤ u.2 + span u t ∧ u.2 ≤ bound + span u t) (x v : ℝ × ℝ) (other : x ≠ t)
    (d : ℝ) (reach : Reach (Linked edges) span x v d) : (if v = t then bound else v.2) ≤ x.2 + d := by
  induction reach with
  | here =>
    rw [if_neg other]
    linarith
  | step u v d before edge ih =>
    by_cases arrives : v = t
    · subst arrives
      obtain ⟨away,rise,_⟩ := others u edge
      rw [if_neg away] at ih
      rw [if_pos rfl]
      linarith
    · rw [if_neg arrives]
      by_cases leaves : u = t
      · subst leaves
        obtain ⟨e,inside,ends⟩ := edge
        obtain ⟨_,_,fall⟩ := others v ⟨e,inside,ends.symm⟩
        rw [if_pos rfl] at ih
        rw [span_lengths.symm] at fall
        linarith
      · rw [if_neg leaves] at ih
        linarith [span_rise u v]

/-- Two points that were far apart and have an edge between them after an insertion. -/
theorem brought_nearer (edges one : List (Segment ℝ)) (p q u t : ℝ × ℝ) (bound : ℝ) (other : u ≠ t)
    (inserted : insertPointIntoRoadmap edges p = some one) (joined : ∃ path, Path (Linked edges) u t path)
    (others : ∀ v, Linked edges v t → v ≠ t ∧ bound ≤ v.2 + span v t ∧ v.2 ≤ bound + span v t)
    (edge : Linked one u t) (near : u.2 + span u t < bound) :
    ∃ two, insertPointIntoRoadmap one q = some two ∧
      ∃ d d', Distance (Linked edges) span u t d ∧ Distance (Linked two) span u t d' ∧ d' < d := by
  have rest : one ≠ [] := by
    rintro rfl
    obtain ⟨f,no,_⟩ := edge
    cases no
  obtain ⟨two,_,_,second,parted,_⟩ := insert_parted one rest q
  have step : Reach (Linked one) span u t (0 + span u t) := .step u t 0 .here edge
  have there := parted.reach span_lengths u t _ step
  obtain ⟨path,valid,_⟩ := reach_path there
  obtain ⟨d,distance⟩ := distance_of_joined joined
  obtain ⟨d',after⟩ := distance_of_joined ⟨path,valid⟩
  refine ⟨two,second,d,d',distance,after,?_⟩
  have far := far_apart edges t bound others u t other d (distance_iff.mp distance).1
  have low := (distance_iff.mp after).2 _ there
  rw [if_pos rfl] at far
  rw [zero_add] at low
  linarith

noncomputable def bypass : List (Segment ℝ) := [((0,0),(fraction 4 1,0)),((fraction 2 1,0),(fraction 2 1,fraction 5 1)),
  ((fraction 2 1,fraction 5 1),(0,0))]

theorem bypass_eq : bypass = [((0,0),(4,0)),((2,0),(2,5)),((2,5),(0,0))] := by norm_num [bypass,fraction]

theorem bypass_insert : insertPointIntoRoadmap bypass (2,-1) =
    some [((2,0),(2,5)),((2,5),(0,0)),((0,0),(2,0)),((2,0),(4,0)),((2,-1),(2,0))] := by
  have one : closestPointOnSegment ((2,-1) : ℝ × ℝ) (0,0) (4,0) = (2,0) := by norm_num [closestPointOnSegment,along]
  have two : closestPointOnSegment ((2,-1) : ℝ × ℝ) (2,0) (2,5) = (2,0) := by norm_num [closestPointOnSegment,along]
  have three : closestPointOnSegment ((2,-1) : ℝ × ℝ) (2,5) (0,0) = (0,0) := by norm_num [closestPointOnSegment,along]
  norm_num [insertPointIntoRoadmap,bypass_eq,List.zipIdx,nearer,one,two,three,dist2]

noncomputable def hair : List (Segment ℝ) := [((0,0),(fraction 2 (10^5),0)),
  ((fraction 2 (10^5),fraction 1 (10^5)),(fraction 2 (10^5),fraction 5 1)),((fraction 2 (10^5),fraction 5 1),(0,0))]

theorem hair_eq : hair = [((0,0),(2/10^5,0)),((2/10^5,1/10^5),(2/10^5,5)),((2/10^5,5),(0,0))] := by
  norm_num [hair,fraction]

theorem hair_insert : insertPointIntoRoadmap hair (2/10^5,0) = some [((0,0),(2/10^5,0)),((2/10^5,5),(0,0)),
    ((2/10^5,1/10^5),(2/10^5,1/10^5)),((2/10^5,1/10^5),(2/10^5,5)),((2/10^5,0),(2/10^5,1/10^5))] := by
  have one : closestPointOnSegment ((2/10^5,0) : ℝ × ℝ) (0,0) (2/10^5,0) = (0,0) := by norm_num [closestPointOnSegment,along]
  have two : closestPointOnSegment ((2/10^5,0) : ℝ × ℝ) (2/10^5,1/10^5) (2/10^5,5) = (2/10^5,1/10^5) := by
    norm_num [closestPointOnSegment,along]
  norm_num [insertPointIntoRoadmap,hair_eq,List.zipIdx,nearer,one,two,dist2]
  norm_num [closestPointOnSegment,along]

/-- An end of one edge that lies within another becomes a crossing when a point is hung
on there; and an edge short enough is missed by a point that lies on it. -/
theorem roadmap_bypassed :
    (∃ one, insertPointIntoRoadmap bypass (2,-1) = some one ∧ ∃ two, insertPointIntoRoadmap one (2,-1) = some two ∧
      ∃ d d', Distance (Linked bypass) span (0,0) (2,0) d ∧ Distance (Linked two) span (0,0) (2,0) d' ∧ d' < d) ∧
    ∃ one, insertPointIntoRoadmap hair (2/10^5,0) = some one ∧ ¬AttachedNearest hair one (2/10^5,0) ∧
      ∃ two, insertPointIntoRoadmap one (2/10^5,0) = some two ∧
        ∃ d d', Distance (Linked hair) span (2/10^5,0) (2/10^5,1/10^5) d ∧
          Distance (Linked two) span (2/10^5,0) (2/10^5,1/10^5) d' ∧ d' < d := by
  constructor
  · refine ⟨_,bypass_insert,?_⟩
    refine brought_nearer bypass _ (2,-1) (2,-1) (0,0) (2,0) 10 (by norm_num) bypass_insert ?_ ?_ ?_ ?_
    · refine ⟨[(0,0),(2,5),(2,0)],rfl,rfl,List.isChain_cons_cons.mpr ⟨?_,List.isChain_pair.mpr ?_⟩⟩
      · exact ⟨((2,5),(0,0)),by simp [bypass_eq],.inr rfl⟩
      · exact ⟨((2,0),(2,5)),by simp [bypass_eq],.inr rfl⟩
    · rintro v ⟨e,inside,ends⟩
      simp only [bypass_eq,List.mem_cons,List.not_mem_nil,or_false] at inside
      rcases inside with rfl | rfl | rfl
      · norm_num at ends
      · have top : v = (2,5) := by
          rcases ends with same | same
          · norm_num at same
          · exact (congrArg Prod.snd same).symm
        subst top
        have rise := span_rise (2,0) (2,5)
        rw [span_lengths.symm] at rise
        norm_num at rise ⊢
        exact ⟨by linarith,by linarith⟩
      · norm_num at ends
    · exact ⟨((0,0),(2,0)),by simp,.inl rfl⟩
    · have short : span (0,0) (2,0) < 10 := by
        refine (Real.sqrt_lt' (by norm_num)).mpr ?_
        norm_num
      linarith
  · refine ⟨_,hair_insert,?_,?_⟩
    · rintro ⟨c,hung,_,least⟩
      have zero := least ((0,0),(2/10^5,0)) (by simp [hair_eq]) (2/10^5,0) (on_second _)
      norm_num at hung
      rw [hung] at zero
      norm_num [dist2] at zero
    · refine brought_nearer hair _ (2/10^5,0) (2/10^5,0) (2/10^5,0) (2/10^5,1/10^5) 9 (by norm_num) hair_insert ?_ ?_ ?_ ?_
      · refine ⟨[(2/10^5,0),(0,0),(2/10^5,5),(2/10^5,1/10^5)],rfl,rfl,List.isChain_cons_cons.mpr ⟨?_,
          List.isChain_cons_cons.mpr ⟨?_,List.isChain_pair.mpr ?_⟩⟩⟩
        · exact ⟨((0,0),(2/10^5,0)),by simp [hair_eq],.inr rfl⟩
        · exact ⟨((2/10^5,5),(0,0)),by simp [hair_eq],.inr rfl⟩
        · exact ⟨((2/10^5,1/10^5),(2/10^5,5)),by simp [hair_eq],.inr rfl⟩
      · rintro v ⟨e,inside,ends⟩
        simp only [hair_eq,List.mem_cons,List.not_mem_nil,or_false] at inside
        rcases inside with rfl | rfl | rfl
        · norm_num at ends
        · have top : v = (2/10^5,5) := by
            rcases ends with same | same
            · norm_num at same
            · exact (congrArg Prod.snd same).symm
          subst top
          have rise := span_rise (2/10^5,1/10^5) (2/10^5,5)
          rw [span_lengths.symm] at rise
          norm_num at rise ⊢
          exact ⟨by linarith,by linarith⟩
        · norm_num at ends
      · exact ⟨((2/10^5,0),(2/10^5,1/10^5)),by simp,.inl rfl⟩
      · have short : span (2/10^5,0) (2/10^5,1/10^5) < 9 := by
          refine (Real.sqrt_lt' (by norm_num)).mpr ?_
          norm_num
        linarith

end AmigaFleet.Planners
