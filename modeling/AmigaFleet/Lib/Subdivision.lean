import AmigaFleet.Lib.Shortest
import Mathlib.Algebra.Order.Group.Defs
import Mathlib.Tactic.Abel

/-! A graph with lengths in which one edge is parted at a point and another point is
hung on there: what was joined stays joined at the same length, and no way between
the old nodes gets shorter, as long as the new points are new to the graph. -/
namespace Lib.BestFirst
variable {V W : Type}

/-- The two ends of an edge, either way around. -/
def Ends (u v x y : V) : Prop := (u = x ∧ v = y) ∨ (u = y ∧ v = x)

/-- Some edge ends at the node. -/
def Node (Step : V → V → Prop) (v : V) : Prop := ∃ u, Step v u

variable [AddCommGroup W]

/-- The edge of `a` and `b` is parted at `c`, and `p` is joined to `c`. -/
structure Parted (Old New : V → V → Prop) (weigh : V → V → W) (a b c p : V) : Prop where
  edge : Old a b
  symm : ∀ u v, Old u v → Old v u
  kept : ∀ u v, Old u v → New u v ∨ Ends u v a b
  made : ∀ u v, Ends u v a c ∨ Ends u v b c → New u v
  only : ∀ u v, New u v → Old u v ∨ Ends u v a c ∨ Ends u v b c ∨ Ends u v p c
  sum : weigh a c + weigh b c = weigh a b

/-- Lengths that are the same both ways and not negative. -/
structure Lengths [LE W] (weigh : V → V → W) : Prop where
  symm : ∀ u v, weigh u v = weigh v u
  nonneg : ∀ u v, 0 ≤ weigh u v

theorem Ends.swap {u v x y : V} (ends : Ends u v x y) : Ends u v y x := Or.symm ends

variable {Old New : V → V → Prop} {weigh : V → V → W} {a b c p : V}

theorem Parted.swap (parted : Parted Old New weigh a b c p) (same : weigh a b = weigh b a) :
    Parted Old New weigh b a c p :=
  ⟨parted.symm a b parted.edge,parted.symm,(fun u v old => (parted.kept u v old).imp_right Ends.swap),
    (fun u v made => parted.made u v made.symm),
    (fun u v new => (parted.only u v new).imp_right (fun made => or_left_comm.mp made)),
    by rw [add_comm,parted.sum,same]⟩

/-- Every way is still there, over the two parts where it took the edge. -/
theorem Parted.reach [LE W] (parted : Parted Old New weigh a b c p) (lengths : Lengths weigh) (x v : V) (d : W)
    (reach : Reach Old weigh x v d) : Reach New weigh x v d := by
  induction reach with
  | here => exact .here
  | step u v d before edge ih =>
    rcases parted.kept u v edge with still | ⟨rfl,rfl⟩ | ⟨rfl,rfl⟩
    · exact .step u v d ih still
    · have first := Reach.step u c d ih (parted.made u c (.inl (.inl ⟨rfl,rfl⟩)))
      have second := Reach.step c v _ first (parted.made c v (.inr (.inr ⟨rfl,rfl⟩)))
      rwa [add_assoc,lengths.symm c v,parted.sum] at second
    · have first := Reach.step u c d ih (parted.made u c (.inr (.inl ⟨rfl,rfl⟩)))
      have second := Reach.step c v _ first (parted.made c v (.inl (.inr ⟨rfl,rfl⟩)))
      rwa [add_assoc,lengths.symm c v,add_comm (weigh u c),parted.sum,lengths.symm v u] at second

variable [LinearOrder W]

/-- The node is reached within a length. -/
def Within (Step : V → V → Prop) (weigh : V → V → W) (x v : V) (most : W) : Prop := ∃ d, d ≤ most ∧ Reach Step weigh x v d

/-- What a way to the parting point within a length says of the old graph. -/
def Beside (Old : V → V → Prop) (weigh : V → V → W) (x a b c : V) (most : W) : Prop :=
  (Node Old c ∧ Within Old weigh x c most) ∨
    (¬Node Old c ∧ (Within Old weigh x a (most - weigh a c) ∨ Within Old weigh x b (most - weigh b c)))

/-- What a way to the point hung on says of it. -/
def Hung (Old : V → V → Prop) (weigh : V → V → W) (x a b c p : V) (most : W) : Prop :=
  (p = c ∧ Beside Old weigh x a b c most) ∨ (p ≠ c ∧ Beside Old weigh x a b c (most - weigh p c))

theorem Within.mono {Step : V → V → Prop} {x v : V} {most more : W} (within : Within Step weigh x v most) (le : most ≤ more) :
    Within Step weigh x v more := by
  obtain ⟨d,low,reach⟩ := within
  exact ⟨d,low.trans le,reach⟩

variable [IsOrderedAddMonoid W]

theorem Within.step {Step : V → V → Prop} {x u v : V} {most : W} (within : Within Step weigh x u most) (edge : Step u v) :
    Within Step weigh x v (most + weigh u v) := by
  obtain ⟨d,low,reach⟩ := within
  exact ⟨d + weigh u v,add_le_add_left low _,.step u v d reach edge⟩

theorem Beside.mono {x : V} {most more : W} (beside : Beside Old weigh x a b c most) (le : most ≤ more) :
    Beside Old weigh x a b c more := by
  rcases beside with ⟨node,within⟩ | ⟨none_,within | within⟩
  · exact .inl ⟨node,within.mono le⟩
  · exact .inr ⟨none_,.inl (within.mono (sub_le_sub_right le _))⟩
  · exact .inr ⟨none_,.inr (within.mono (sub_le_sub_right le _))⟩

omit [IsOrderedAddMonoid W] in
theorem Beside.swap {x : V} {most : W} (beside : Beside Old weigh x a b c most) : Beside Old weigh x b a c most :=
  beside.imp_right (fun other => ⟨other.1,other.2.symm⟩)

/-- From an end of the edge to the parting point. -/
theorem Within.beside (parted : Parted Old New weigh a b c p) (lengths : Lengths weigh) (new : c = a ∨ c = b ∨ ¬Node Old c) {x : V}
    {most : W} (within : Within Old weigh x a most) : Beside Old weigh x a b c (most + weigh a c) := by
  rcases new with rfl | rfl | none_
  · exact .inl ⟨⟨b,parted.edge⟩,within.mono (le_add_of_nonneg_right (lengths.nonneg _ _))⟩
  · exact .inl ⟨⟨a,parted.symm _ _ parted.edge⟩,within.step parted.edge⟩
  · exact .inr ⟨none_,.inl (by rwa [add_sub_cancel_right])⟩

/-- From the parting point to an end of the edge. -/
theorem Beside.within (parted : Parted Old New weigh a b c p) (lengths : Lengths weigh) (new : c = a ∨ c = b ∨ ¬Node Old c) {x : V}
    {most : W} (beside : Beside Old weigh x a b c most) : Within Old weigh x a (most + weigh a c) := by
  rcases beside with ⟨node,within⟩ | ⟨none_,within | within⟩
  · rcases new with rfl | rfl | none_
    · exact within.mono (le_add_of_nonneg_right (lengths.nonneg _ _))
    · rw [lengths.symm]
      exact within.step (parted.symm _ _ parted.edge)
    · exact absurd node none_
  · refine within.mono ?_
    rw [sub_eq_add_neg]
    exact add_le_add_right ((neg_nonpos.mpr (lengths.nonneg _ _)).trans (lengths.nonneg _ _)) most
  · have back := within.step (parted.symm _ _ parted.edge)
    have same : most - weigh b c + weigh b a = most + weigh a c := by
      rw [lengths.symm b a,← parted.sum]
      abel
    rwa [same] at back

/-- Between nodes of the old graph no way gets shorter, if the parting point is an end
of the edge or new, and the point hung on is the parting point or new. -/
theorem Parted.within (parted : Parted Old New weigh a b c p) (lengths : Lengths weigh) (new : c = a ∨ c = b ∨ ¬Node Old c)
    (fresh : p = c ∨ ¬Node Old p) (x : V) (start : Node Old x) (v : V) (d : W) (reach : Reach New weigh x v d) :
    (Node Old v ∧ Within Old weigh x v d) ∨ (v = c ∧ Beside Old weigh x a b c d) ∨ (v = p ∧ Hung Old weigh x a b c p d) := by
  have back := parted.swap (lengths.symm a b)
  have new_ : c = b ∨ c = a ∨ ¬Node Old c := or_left_comm.mp new
  have aNode : Node Old a := ⟨b,parted.edge⟩
  have bNode : Node Old b := ⟨a,parted.symm a b parted.edge⟩
  induction reach with
  | here => exact .inl ⟨start,0,le_refl _,.here⟩
  | step u v d before edge ih =>
    have atPoint (same : u = c) : Beside Old weigh x a b c d := by
      rcases ih with ⟨node,within⟩ | ⟨_,beside⟩ | ⟨hung,⟨_,beside⟩ | ⟨other,_⟩⟩
      · exact .inl (same ▸ ⟨node,within⟩)
      · exact beside
      · exact beside
      · exact absurd (hung.symm.trans same) other
    have atOld (node : Node Old u) : Within Old weigh x u d := by
      have through (same : u = c) : Within Old weigh x u d := by
        rcases atPoint same with ⟨_,within⟩ | ⟨none_,_⟩
        · exact same ▸ within
        · exact absurd (same ▸ node) none_
      rcases ih with ⟨_,within⟩ | ⟨same,_⟩ | ⟨hung,_⟩
      · exact within
      · exact through same
      · rcases fresh with one | none_
        · exact through (hung.trans one)
        · exact absurd (hung ▸ node) none_
    have atHung (same : u = p) : Hung Old weigh x a b c p d := by
      by_cases one : p = c
      · exact .inl ⟨one,atPoint (same.trans one)⟩
      · rcases ih with ⟨node,_⟩ | ⟨other,_⟩ | ⟨_,hung⟩
        · exact absurd (same ▸ node) (fresh.resolve_left one)
        · exact absurd (same.symm.trans other) one
        · exact hung
    rcases parted.only u v edge with old | (⟨rfl,rfl⟩ | ⟨rfl,rfl⟩) | (⟨rfl,rfl⟩ | ⟨rfl,rfl⟩) | ⟨rfl,rfl⟩ | ⟨rfl,rfl⟩
    · exact .inl ⟨⟨u,parted.symm u v old⟩,(atOld ⟨v,old⟩).step old⟩
    · exact .inr (.inl ⟨rfl,(atOld aNode).beside parted lengths new⟩)
    · rw [lengths.symm]
      exact .inl ⟨aNode,(atPoint rfl).within parted lengths new⟩
    · exact .inr (.inl ⟨rfl,((atOld bNode).beside back lengths new_).swap⟩)
    · rw [lengths.symm]
      exact .inl ⟨bNode,(atPoint rfl).swap.within back lengths new_⟩
    · refine .inr (.inl ⟨rfl,?_⟩)
      rcases atHung rfl with ⟨_,beside⟩ | ⟨_,beside⟩
      · exact beside.mono (le_add_of_nonneg_right (lengths.nonneg _ _))
      · refine beside.mono ?_
        rw [sub_eq_add_neg]
        exact add_le_add_right ((neg_nonpos.mpr (lengths.nonneg _ _)).trans (lengths.nonneg _ _)) d
    · refine .inr (.inr ⟨rfl,?_⟩)
      by_cases one : v = u
      · exact .inl ⟨one,(atPoint rfl).mono (le_add_of_nonneg_right (lengths.nonneg _ _))⟩
      · refine .inr ⟨one,?_⟩
        rw [lengths.symm u v,add_sub_cancel_right]
        exact atPoint rfl

/-- The nodes of the old graph are as far from one another as they were. -/
theorem Parted.shortest (parted : Parted Old New weigh a b c p) (lengths : Lengths weigh) (new : c = a ∨ c = b ∨ ¬Node Old c)
    (fresh : p = c ∨ ¬Node Old p) (x v : V) (start : Node Old x) (goal : Node Old v) (d : W) (reach : Reach New weigh x v d) :
    Within Old weigh x v d := by
  have atPoint (node : Node Old c) (beside : Beside Old weigh x a b c d) : Within Old weigh x c d := by
    rcases beside with ⟨_,within⟩ | ⟨none_,_⟩
    · exact within
    · exact absurd node none_
  rcases parted.within lengths new fresh x start v d reach with ⟨_,within⟩ | ⟨rfl,beside⟩ | ⟨rfl,⟨rfl,beside⟩ | ⟨other,_⟩⟩
  · exact within
  · exact atPoint goal beside
  · exact atPoint goal beside
  · exact absurd goal (fresh.resolve_left other)

omit [LinearOrder W] [IsOrderedAddMonoid W] in
theorem Parted.node (parted : Parted Old New weigh a b c p) (v : V) (node : Node Old v) : Node New v := by
  obtain ⟨u,edge⟩ := node
  rcases parted.kept v u edge with still | ⟨rfl,rfl⟩ | ⟨rfl,rfl⟩
  · exact ⟨u,still⟩
  · exact ⟨c,parted.made v c (.inl (.inl ⟨rfl,rfl⟩))⟩
  · exact ⟨c,parted.made v c (.inr (.inl ⟨rfl,rfl⟩))⟩

/-- The length of a shortest path. -/
def Distance (Step : V → V → Prop) (weigh : V → V → W) (u v : V) (d : W) : Prop :=
  (∃ path, Path Step u v path ∧ total weigh path = d) ∧ ∀ path, Path Step u v path → d ≤ total weigh path

omit [IsOrderedAddMonoid W] in
/-- It is the least cost of a way. -/
theorem distance_iff {Step : V → V → Prop} {u v : V} {d : W} : Distance Step weigh u v d ↔
    Reach Step weigh u v d ∧ ∀ c, Reach Step weigh u v c → d ≤ c := by
  constructor
  · rintro ⟨⟨path,valid,rfl⟩,least⟩
    refine ⟨path_reach valid,fun c reach => ?_⟩
    obtain ⟨other,valid_,rfl⟩ := reach_path reach
    exact least other valid_
  · rintro ⟨reach,least⟩
    exact ⟨reach_path reach,fun path valid => least _ (path_reach valid)⟩

omit [LinearOrder W] [IsOrderedAddMonoid W] in
theorem reach_nodes {Step : V → V → Prop} (symm : ∀ u v, Step u v → Step v u) {x v : V} {d : W}
    (reach : Reach Step weigh x v d) : v = x ∨ (Node Step x ∧ Node Step v) := by
  induction reach with
  | here => exact .inl rfl
  | step u v d before edge ih =>
    right
    rcases ih with rfl | ⟨node,_⟩
    · exact ⟨⟨v,edge⟩,u,symm u v edge⟩
    · exact ⟨node,u,symm u v edge⟩

theorem distance_self {Step : V → V → Prop} (lengths : Lengths weigh) {u : V} {d : W} (distance : Distance Step weigh u u d) :
    d = 0 := by
  obtain ⟨reach,least⟩ := distance_iff.mp distance
  refine le_antisymm (least 0 .here) ?_
  have nonneg {v : V} {c : W} (reach : Reach Step weigh u v c) : 0 ≤ c := by
    induction reach with
    | here => exact le_refl 0
    | step x y c before edge ih => exact add_nonneg ih (lengths.nonneg x y)
  exact nonneg reach

omit [IsOrderedAddMonoid W] in
/-- A shortest path does not get longer. -/
theorem Parted.distance_le (parted : Parted Old New weigh a b c p) (lengths : Lengths weigh) {u v : V} {d d' : W}
    (old : Distance Old weigh u v d) (new : Distance New weigh u v d') : d' ≤ d :=
  (distance_iff.mp new).2 d (parted.reach lengths u v d (distance_iff.mp old).1)

/-- And no shorter, where the points that come in are not in the way. -/
theorem Parted.distance_eq (parted : Parted Old New weigh a b c p) (lengths : Lengths weigh)
    (apart : c = a ∨ c = b ∨ ¬Node Old c) (fresh : p = c ∨ ¬Node Old p) {u v : V} {d d' : W}
    (old : Distance Old weigh u v d) (new : Distance New weigh u v d') : d' = d := by
  refine le_antisymm (parted.distance_le lengths old new) ?_
  obtain ⟨reach,least⟩ := distance_iff.mp old
  rcases reach_nodes parted.symm reach with rfl | ⟨start,goal⟩
  · rw [distance_self lengths old,distance_self lengths new]
  · obtain ⟨e,low,within⟩ := parted.shortest lengths apart fresh u v start goal d' (distance_iff.mp new).1
    exact (least e within).trans low

end Lib.BestFirst
