import AmigaFleet.Lib.BestFirst
import Mathlib.Data.Finset.Card
import Mathlib.Algebra.Order.Group.Basic

/-! Best-first search with an estimate that no edge outdoes: a node taken out of the
queue for the first time has its least cost, the search ends, and the path read back
from the predecessors costs no more than any other. -/
namespace Lib.BestFirst
variable {V W : Type}

section
variable [Add W] [Zero W]

/-- What a list of nodes costs from each to the next. -/
def total (weigh : V → V → W) : List V → W
  | [] => 0
  | [_] => 0
  | a::b::rest => weigh a b + total weigh (b::rest)

/-- A chain of steps from the start to the goal. -/
def Path (Step : V → V → Prop) (start goal : V) (path : List V) : Prop :=
  path.head? = some start ∧ path.getLast? = some goal ∧ path.IsChain Step

/-- The costs of the ways from the start. -/
inductive Reach (Step : V → V → Prop) (weigh : V → V → W) (start : V) : V → W → Prop
  | here : Reach Step weigh start start 0
  | step (u v : V) (c : W) (before : Reach Step weigh start u c) (edge : Step u v) : Reach Step weigh start v (c + weigh u v)

end

/-- What the search takes of a graph: steps that cost something or nothing, and an
estimate that does not fall by more than a step costs. -/
structure Consistent [Add W] [Zero W] [LE W] (Step : V → V → Prop) (weigh : V → V → W) (neighbors : V → List (V × W))
    (estimate : V → W) : Prop where
  edges : ∀ u v w, (v,w) ∈ neighbors u ↔ Step u v ∧ w = weigh u v
  nonneg : ∀ u v, Step u v → 0 ≤ weigh u v
  slow : ∀ u v, Step u v → estimate u ≤ weigh u v + estimate v

theorem Consistent.steps [Add W] [Zero W] [LE W] {Step : V → V → Prop} {weigh : V → V → W} {neighbors : V → List (V × W)}
    {estimate : V → W} (consistent : Consistent Step weigh neighbors estimate) (u : V) (edge : V × W)
    (member : edge ∈ neighbors u) : Step u edge.1 ∧ 0 ≤ edge.2 := by
  obtain ⟨step,price⟩ := (consistent.edges u edge.1 edge.2).mp member
  rw [price]
  exact ⟨step,consistent.nonneg u edge.1 step⟩

/-- The order of the queue goes by the first component. -/
def Ordered [LE W] (before : W × W × V → W × W × V → Bool) : Prop :=
  ∀ x y, (before x y = true → x.1 ≤ y.1) ∧ (before x y = false → y.1 ≤ x.1)

theorem ordered_first [LinearOrder W] (rest : W × W × V → W × W × V → Bool) :
    Ordered (fun x y => decide (x.1 < y.1) || (decide (x.1 = y.1) && rest x y)) := by
  intro x y
  constructor
  · intro earlier
    simp only [Bool.or_eq_true,Bool.and_eq_true,decide_eq_true_eq] at earlier
    rcases earlier with less | ⟨same,_⟩
    · exact less.le
    · exact same.le
  · intro later
    by_contra! less
    simp [less] at later

variable [DecidableEq V] [AddCommGroup W] [LinearOrder W]

/-- What holds between two rounds of the loop, where no entry left in the queue is
under the level; of the nodes to skip not all edges have been followed yet. -/
structure Best (Step : V → V → Prop) (weigh : V → V → W) (estimate : V → W) (skip : List V) (level : W)
    (s : Search V W) : Prop where
  sorted : s.heap.Pairwise (fun x y => x.1 ≤ y.1)
  above : ∀ entry ∈ s.heap, level ≤ entry.1
  priced : ∀ entry ∈ s.heap, entry.1 = entry.2.1 + estimate entry.2.2
  waiting : ∀ v d, s.cost.get? v = some d → v ∉ s.closed → (d + estimate v,d,v) ∈ s.heap
  settled : ∀ u ∈ s.closed, ∃ c, s.cost.get? u = some c ∧ c + estimate u ≤ level
  spread : ∀ u ∈ s.closed, u ∉ skip → ∀ v, Step u v → ∀ c, s.cost.get? u = some c →
    ∃ d, s.cost.get? v = some d ∧ d ≤ c + weigh u v
  exact : ∀ v u, s.prev.get? v = some u → u ∈ s.closed ∧ Step u v ∧
    ∃ c, s.cost.get? u = some c ∧ s.cost.get? v = some (c + weigh u v)

omit [DecidableEq V] [AddCommGroup W] in
theorem push_sorted (before : W × W × V → W × W × V → Bool) (ordered : Ordered before) (entry : W × W × V)
    (heap : List (W × W × V)) (sorted : heap.Pairwise (fun x y => x.1 ≤ y.1)) :
    (push before entry heap).Pairwise (fun x y => x.1 ≤ y.1) := by
  induction heap with
  | nil => exact List.pairwise_singleton _ _
  | cons first rest ih =>
    have parts := List.pairwise_cons.mp sorted
    unfold push
    split
    · rename_i earlier
      refine List.pairwise_cons.mpr ⟨?_,ih parts.2⟩
      intro other member
      rcases (mem_push before entry other rest).mp member with rfl | old
      · exact (ordered first other).1 earlier
      · exact parts.1 other old
    · rename_i later
      have least : entry.1 ≤ first.1 := (ordered first entry).2 (Bool.eq_false_iff.mpr later)
      refine List.pairwise_cons.mpr ⟨?_,sorted⟩
      intro other member
      rcases List.mem_cons.mp member with rfl | old
      · exact least
      · exact least.trans (parts.1 other old)

variable [IsOrderedAddMonoid W] {Step : V → V → Prop} {weigh : V → V → W} {neighbors : V → List (V × W)} {estimate : V → W}
  {before : W × W × V → W × W × V → Bool}

/-- Following one edge out of the node that has just been closed. -/
theorem Best.relax (consistent : Consistent Step weigh neighbors estimate) (ordered : Ordered before) {s : Search V W} {u : V}
    {d : W} (best : Best Step weigh estimate [u] (d + estimate u) s) (inside : u ∈ s.closed) (known : s.cost.get? u = some d)
    (v : V) (step : Step u v) :
    Best Step weigh estimate [u] (d + estimate u) (relax before estimate d u s (v,weigh u v)) ∧
      ∃ c, (relax before estimate d u s (v,weigh u v)).cost.get? v = some c ∧ c ≤ d + weigh u v := by
  unfold BestFirst.relax
  split
  case isFalse kept =>
    refine ⟨best,?_⟩
    cases found : s.cost.get? v with
    | none => simp [found] at kept
    | some old => exact ⟨old,rfl,by simpa [found] using kept⟩
  case isTrue better =>
    have less (old : W) (found : s.cost.get? v = some old) : d + weigh u v < old := by
      rw [found] at better
      simpa using better
    have rise : d + estimate u ≤ d + weigh u v + estimate v := by
      rw [add_assoc]
      exact add_le_add_right (consistent.slow u v step) d
    have fresh : v ∉ s.closed := by
      intro closed
      obtain ⟨c,there,low⟩ := best.settled v closed
      exact absurd (le_of_add_le_add_right (low.trans rise)) (not_le.mpr (less c there))
    have apart (x : V) (closed : x ∈ s.closed) : x ≠ v := fun same => fresh (same ▸ closed)
    refine ⟨⟨push_sorted before ordered _ _ best.sorted,?_,?_,?_,?_,?_,?_⟩,d + weigh u v,Dict.get?_set_self _ _ _,le_refl _⟩
    · intro entry inside_
      rcases (mem_push before _ _ _).mp inside_ with rfl | old
      · exact rise
      · exact best.above entry old
    · intro entry inside_
      rcases (mem_push before _ _ _).mp inside_ with rfl | old
      · rfl
      · exact best.priced entry old
    · intro x c found out
      refine (mem_push before _ _ _).mpr ?_
      rcases Dict.get?_set_cases found with ⟨rfl,rfl⟩ | ⟨_,old⟩
      · exact .inl rfl
      · exact .inr (best.waiting x c old out)
    · intro x closed
      rw [Dict.get?_set_ne _ _ _ _ (apart x closed)]
      exact best.settled x closed
    · intro x closed out y follow c here
      rw [Dict.get?_set_ne _ _ _ _ (apart x closed)] at here
      obtain ⟨old,there,low⟩ := best.spread x closed out y follow c here
      by_cases same : y = v
      · refine ⟨d + weigh u v,by rw [same]; exact Dict.get?_set_self _ _ _,?_⟩
        exact (less old (same ▸ there)).le.trans low
      · exact ⟨old,by rw [Dict.get?_set_ne _ _ _ _ same]; exact there,low⟩
    · intro x y found
      rcases Dict.get?_set_cases found with ⟨rfl,rfl⟩ | ⟨other,old⟩
      · refine ⟨inside,step,d,?_,Dict.get?_set_self _ _ _⟩
        rw [Dict.get?_set_ne _ _ _ _ (apart _ inside)]
        exact known
      · obtain ⟨closed,follow,c,first,second⟩ := best.exact x y old
        refine ⟨closed,follow,c,?_,?_⟩
        · rw [Dict.get?_set_ne _ _ _ _ (apart y closed)]
          exact first
        · rw [Dict.get?_set_ne _ _ _ _ other]
          exact second

omit [IsOrderedAddMonoid W] in
/-- Costs only fall. -/
theorem relax_falls (before : W × W × V → W × W × V → Bool) (estimate : V → W) (s : Search V W) (d : W) (u : V) (edge : V × W) (v : V) (c : W) (known : s.cost.get? v = some c) :
    ∃ c', (BestFirst.relax before estimate d u s edge).cost.get? v = some c' ∧ c' ≤ c := by
  unfold BestFirst.relax
  split
  · rename_i better
    by_cases same : v = edge.1
    · subst same
      rw [known] at better
      exact ⟨_,Dict.get?_set_self _ _ _,(by simpa using better : d + edge.2 < c).le⟩
    · exact ⟨c,by rw [Dict.get?_set_ne _ _ _ _ same]; exact known,le_refl _⟩
  · exact ⟨c,known,le_refl _⟩

/-- Once all its edges have been followed, the closed node is like the others. -/
theorem Best.expand (consistent : Consistent Step weigh neighbors estimate) (ordered : Ordered before) {s : Search V W} {u : V}
    {d : W} (best : Best Step weigh estimate [u] (d + estimate u) s) (inside : u ∈ s.closed) (known : s.cost.get? u = some d) :
    Best Step weigh estimate [] (d + estimate u) (expand before estimate neighbors d u s) := by
  suffices carried : ∀ (edges : List (V × W)) (s : Search V W), (∀ edge ∈ edges, edge ∈ neighbors u) →
      Best Step weigh estimate [u] (d + estimate u) s → u ∈ s.closed → s.cost.get? u = some d →
      (Best Step weigh estimate [u] (d + estimate u) (edges.foldl (BestFirst.relax before estimate d u) s) ∧
        (edges.foldl (BestFirst.relax before estimate d u) s).cost.get? u = some d) ∧
      (∀ edge ∈ edges, ∃ c, (edges.foldl (BestFirst.relax before estimate d u) s).cost.get? edge.1 = some c ∧
        c ≤ d + weigh u edge.1) ∧
      ∀ v c, s.cost.get? v = some c → ∃ c', (edges.foldl (BestFirst.relax before estimate d u) s).cost.get? v = some c' ∧ c' ≤ c by
    obtain ⟨⟨kept,still⟩,followed,_⟩ := carried (neighbors u) s (fun _ member => member) best inside known
    refine ⟨kept.sorted,kept.above,kept.priced,kept.waiting,kept.settled,?_,kept.exact⟩
    intro x closed _ y step c here
    by_cases same : x = u
    · subst same
      have one : c = d := Option.some.inj (here.symm.trans still)
      rw [one]
      exact followed (y,weigh x y) ((consistent.edges x y _).mpr ⟨step,rfl⟩)
    · exact kept.spread x closed (fun only => same (List.mem_singleton.mp only)) y step c here
  intro edges
  induction edges with
  | nil => exact fun s _ best _ known => ⟨⟨best,known⟩,(fun _ no => by cases no),fun v c found => ⟨c,found,le_refl _⟩⟩
  | cons edge rest ih =>
    obtain ⟨v,w⟩ := edge
    intro s out best inside known
    rw [List.forall_mem_cons] at out
    obtain ⟨step,rfl⟩ := (consistent.edges u v w).mp out.1
    obtain ⟨next,c,found,low⟩ := best.relax consistent ordered inside known v step
    have closed := relax_closed before estimate d u s (v,weigh u v)
    have still := relax_known before estimate s d u (v,weigh u v) d known (le_refl _) (consistent.nonneg u v step)
    obtain ⟨done,followed,falls⟩ := ih _ out.2 next (by rw [closed]; exact inside) still
    refine ⟨done,?_,?_⟩
    · rw [List.forall_mem_cons]
      refine ⟨?_,followed⟩
      obtain ⟨c',there,less⟩ := falls v c found
      exact ⟨c',there,less.trans low⟩
    · intro x e here
      obtain ⟨y,mid,le⟩ := relax_falls before estimate s d u (v,weigh u v) x e here
      obtain ⟨z,last,le_⟩ := falls x y mid
      exact ⟨z,last,le_.trans le⟩

/-- A node that is reached is closed at no greater cost, or some node still waiting
is on the way to it. -/
theorem Best.frontier (consistent : Consistent Step weigh neighbors estimate) {s : Search V W} {level : W} {start : V}
    (best : Best Step weigh estimate [] level s) (zero : s.cost.get? start = some 0) (v : V) (c : W)
    (reach : Reach Step weigh start v c) : (v ∈ s.closed ∧ ∃ d, s.cost.get? v = some d ∧ d ≤ c) ∨
      ∃ x d, x ∉ s.closed ∧ s.cost.get? x = some d ∧ d + estimate x ≤ c + estimate v := by
  induction reach with
  | here =>
    by_cases closed : start ∈ s.closed
    · exact .inl ⟨closed,0,zero,le_refl _⟩
    · exact .inr ⟨start,0,closed,zero,le_refl _⟩
  | step u v c before edge ih =>
    rcases ih with ⟨closed,d,known,low⟩ | ⟨x,d,out,known,low⟩
    · obtain ⟨d',there,le⟩ := best.spread u closed List.not_mem_nil v edge d known
      have total : d' ≤ c + weigh u v := le.trans (add_le_add_left low _)
      by_cases closed_ : v ∈ s.closed
      · exact .inl ⟨closed_,d',there,total⟩
      · exact .inr ⟨v,d',closed_,there,add_le_add_left total _⟩
    · refine .inr ⟨x,d,out,known,low.trans ?_⟩
      rw [add_assoc]
      exact add_le_add_right (consistent.slow u v edge) c

/-- What the loop ends with: predecessors by exact costs, and at the goal, if it
stopped there, no more than any way to it. -/
structure Answer (Step : V → V → Prop) (weigh : V → V → W) (start goal : V) (stopped : Bool) (t : Search V W) : Prop where
  exact : ∀ v u, t.prev.get? v = some u → Step u v ∧ ∃ c, t.cost.get? u = some c ∧ t.cost.get? v = some (c + weigh u v)
  known : stopped = (t.cost.get? goal).isSome
  least : ∀ c, Reach Step weigh start goal c → ∃ d, t.cost.get? goal = some d ∧ d ≤ c

theorem search_answer (consistent : Consistent Step weigh neighbors estimate) (ordered : Ordered before) (start goal : V)
    (n : Nat) (s : Search V W)
    (rooted : Rooted start Step s) (level : W) (best : Best Step weigh estimate [] level s) (open_ : goal ∉ s.closed)
    (stopped : Bool) (t : Search V W) (ok : search before estimate neighbors goal n s = some (stopped,t)) :
    Answer Step weigh start goal stopped t := by
  induction n generalizing s level with
  | zero => cases ok
  | succ n ih =>
    have exact_ (v u : V) (found : s.prev.get? v = some u) := (best.exact v u found).2
    unfold search at ok
    split at ok
    · rename_i none_
      -- Nothing waits, so every node with a cost is closed, and the goal has none.
      have closed (x : V) (d : W) (found : s.cost.get? x = some d) : x ∈ s.closed := by
        by_contra out
        have entry := best.waiting x d found out
        rw [none_] at entry
        cases entry
      have absent : s.cost.get? goal = none := by
        cases found : s.cost.get? goal with
        | none => rfl
        | some d => exact absurd (closed goal d found) open_
      cases ok
      refine ⟨exact_,by rw [absent]; rfl,fun c reach => ?_⟩
      rcases best.frontier consistent rooted.zero goal c reach with ⟨inside,_⟩ | ⟨x,d,out,found,_⟩
      · exact absurd inside open_
      · exact absurd (closed x d found) out
    · rename_i f d u rest queue
      have fewer : ∀ entry ∈ rest, entry ∈ s.heap := fun entry member => queue ▸ List.mem_cons_of_mem _ member
      have head : (f,d,u) ∈ s.heap := queue ▸ List.mem_cons_self ..
      obtain ⟨ordered_,sorted⟩ := List.pairwise_cons.mp (queue ▸ best.sorted)
      obtain ⟨c,known,le⟩ := rooted.queued (f,d,u) head
      have price : f = d + estimate u := best.priced (f,d,u) head
      have first (entry : W × W × V) (member : entry ∈ s.heap) : f ≤ entry.1 := by
        rw [queue] at member
        rcases List.mem_cons.mp member with rfl | old
        · exact le_refl _
        · exact ordered_ entry old
      split at ok
      · rename_i stale
        refine ih _ (rooted.sub rest s.closed fewer) level ⟨sorted,?_,?_,?_,best.settled,best.spread,best.exact⟩ open_ ok
        · exact fun entry member => best.above entry (fewer entry member)
        · exact fun entry member => best.priced entry (fewer entry member)
        · intro v e found out
          have entry := best.waiting v e found out
          rw [queue] at entry
          rcases List.mem_cons.mp entry with same | old
          · exact absurd (by rw [(Prod.mk.inj (Prod.mk.inj same).2).2]; exact stale) out
          · exact old
      · rename_i fresh
        split at ok
        · rename_i arrived
          cases ok
          subst arrived
          refine ⟨exact_,by simp [known],fun x reach => ⟨c,known,le.trans ?_⟩⟩
          rcases best.frontier consistent rooted.zero u x reach with ⟨inside,_⟩ | ⟨y,e,out,found,low⟩
          · exact absurd inside fresh
          · have under := (first _ (best.waiting y e found out)).trans low
            rw [price] at under
            exact le_of_add_le_add_right under
        · rename_i other
          -- The entry taken is the one with the cost of its node.
          have same : c = d := by
            have under := first _ (best.waiting u c known fresh)
            rw [price] at under
            exact le_antisymm le (le_of_add_le_add_right under)
          subst same
          have step : Best Step weigh estimate [u] (c + estimate u) { s with heap := rest, closed := u::s.closed } := by
            refine ⟨sorted,?_,?_,?_,?_,?_,?_⟩
            · exact fun entry member => price ▸ ordered_ entry member
            · exact fun entry member => best.priced entry (fewer entry member)
            · intro v e found out
              have entry := best.waiting v e found (fun inside => out (List.mem_cons_of_mem _ inside))
              rw [queue] at entry
              rcases List.mem_cons.mp entry with same | old
              · exact absurd (by rw [(Prod.mk.inj (Prod.mk.inj same).2).2]; exact List.mem_cons_self ..) out
              · exact old
            · intro v closed
              rcases List.mem_cons.mp closed with rfl | old
              · exact ⟨c,known,le_refl _⟩
              · obtain ⟨e,found,low⟩ := best.settled v old
                exact ⟨e,found,low.trans (price ▸ best.above _ head)⟩
            · intro v closed out
              rcases List.mem_cons.mp closed with rfl | old
              · exact absurd (List.mem_singleton_self _) out
              · exact best.spread v old List.not_mem_nil
            · intro v y found
              obtain ⟨closed,rest_⟩ := best.exact v y found
              exact ⟨List.mem_cons_of_mem _ closed,rest_⟩
          refine ih _ ?_ _ (step.expand consistent ordered (List.mem_cons_self ..) known) ?_ ok
          · exact expand_rooted before estimate neighbors _ (rooted.sub rest _ fewer) c u c known (le_refl _)
              (consistent.steps u)
          · rw [expand_closed]
            intro inside
            rcases List.mem_cons.mp inside with rfl | old
            · exact other rfl
            · exact open_ old

omit [IsOrderedAddMonoid W] in
theorem expand_nodes (nodes : V → Prop) (u : V) (d : W) (edges : List (V × W)) (within : ∀ edge ∈ edges, nodes edge.1)
    (s : Search V W) (queued : ∀ entry ∈ s.heap, nodes entry.2.2) :
    ∀ entry ∈ (edges.foldl (BestFirst.relax before estimate d u) s).heap, nodes entry.2.2 := by
  induction edges generalizing s with
  | nil => exact queued
  | cons edge rest ih =>
    rw [List.forall_mem_cons] at within
    refine ih within.2 _ ?_
    unfold BestFirst.relax
    split
    · intro entry member
      rcases (mem_push before _ _ _).mp member with rfl | old
      · exact within.1
      · exact queued entry old
    · exact queued

omit [IsOrderedAddMonoid W] in
/-- Over finitely many nodes the loop ends: each round closes a node or shortens the queue. -/
theorem search_ends (goal : V) (nodes : Finset V) (within : ∀ u ∈ nodes, ∀ edge ∈ neighbors u, edge.1 ∈ nodes) (s : Search V W)
    (queued : ∀ entry ∈ s.heap, entry.2.2 ∈ nodes) :
    ∃ answer least, ∀ n, least ≤ n → search before estimate neighbors goal n s = some answer := by
  obtain ⟨k,size⟩ : ∃ k, k = (nodes.filter (fun v => v ∉ s.closed)).card := ⟨_,rfl⟩
  induction k using Nat.strong_induction_on generalizing s with
  | _ k ih =>
    obtain ⟨heap,hh⟩ : ∃ heap, heap = s.heap := ⟨_,rfl⟩
    induction heap generalizing s with
    | nil =>
      refine ⟨(false,s),1,fun n le => ?_⟩
      obtain ⟨m,rfl⟩ : ∃ m, n = m + 1 := ⟨n - 1,by omega⟩
      rw [search,← hh]
    | cons entry rest ih_ =>
      obtain ⟨f,d,u⟩ := entry
      rw [← hh,List.forall_mem_cons] at queued
      have later (next : Search V W) (answer : Bool × Search V W) (least : Nat)
          (ends : ∀ n, least ≤ n → search before estimate neighbors goal n next = some answer)
          (step : ∀ n, search before estimate neighbors goal (n + 1) s = search before estimate neighbors goal n next) :
          ∃ answer least, ∀ n, least ≤ n → search before estimate neighbors goal n s = some answer := by
        refine ⟨answer,least + 1,fun n le => ?_⟩
        obtain ⟨m,rfl⟩ : ∃ m, n = m + 1 := ⟨n - 1,by omega⟩
        rw [step m]
        exact ends m (by omega)
      by_cases stale : u ∈ s.closed
      · obtain ⟨answer,least,ends⟩ := ih_ { s with heap := rest } queued.2 size rfl
        exact later _ answer least ends (fun n => by rw [search,← hh]; simp only [if_pos stale])
      · by_cases arrived : u = goal
        · refine ⟨(true,{ s with heap := rest }),1,fun n le => ?_⟩
          obtain ⟨m,rfl⟩ : ∃ m, n = m + 1 := ⟨n - 1,by omega⟩
          exact arrived ▸ search_goal before estimate neighbors u m s f d rest hh.symm stale
        · have fewer : (nodes.filter (fun v => v ∉ u::s.closed)).card < k := by
            rw [size]
            refine Finset.card_lt_card (Finset.ssubset_iff_of_subset ?_ |>.mpr ⟨u,?_,?_⟩)
            · intro v member
              rw [Finset.mem_filter] at member ⊢
              exact ⟨member.1,fun inside => member.2 (List.mem_cons_of_mem _ inside)⟩
            · exact Finset.mem_filter.mpr ⟨queued.1,stale⟩
            · exact fun member => (Finset.mem_filter.mp member).2 (List.mem_cons_self ..)
          obtain ⟨answer,least,ends⟩ := ih _ fewer
            (expand before estimate neighbors d u { s with heap := rest, closed := u::s.closed })
            (expand_nodes (· ∈ nodes) u d (neighbors u) (within u queued.1) _ queued.2) (by rw [expand_closed])
          exact later _ answer least ends (fun n => search_open before estimate neighbors goal n s f d u rest hh.symm stale arrived)

omit [DecidableEq V] [LinearOrder W] [IsOrderedAddMonoid W] in
/-- A path is a way to the goal that costs its total. -/
theorem path_reach {start goal : V} {path : List V} (valid : Path Step start goal path) :
    Reach Step weigh start goal (total weigh path) := by
  suffices carried : ∀ (path : List V) (u : V) (c : W), Reach Step weigh start u c → path.head? = some u →
      path.getLast? = some goal → path.IsChain Step → Reach Step weigh start goal (c + total weigh path) by
    have reach := carried path start 0 .here valid.1 valid.2.1 valid.2.2
    rwa [zero_add] at reach
  intro path
  induction path with
  | nil => exact fun u c _ head => by cases head
  | cons a rest ih =>
    intro u c reach head last chain
    have same : a = u := Option.some.inj head
    subst same
    cases rest with
    | nil =>
      have arrived : a = goal := Option.some.inj last
      rw [total,add_zero,← arrived]
      exact reach
    | cons b rest =>
      obtain ⟨edge,chain⟩ := List.isChain_cons_cons.mp chain
      have next := ih b (c + weigh a b) (.step a b c reach edge) rfl (by simpa using last) chain
      rwa [total,← add_assoc]

omit [DecidableEq V] [LinearOrder W] [IsOrderedAddMonoid W] in
theorem total_append (path : List V) (u v : V) (last : path.getLast? = some u) :
    total weigh (path ++ [v]) = total weigh path + weigh u v := by
  induction path with
  | nil => cases last
  | cons a rest ih =>
    cases rest with
    | nil =>
      have same : a = u := Option.some.inj last
      rw [same]
      exact (add_zero _).trans (zero_add _).symm
    | cons b rest =>
      have later := ih (by simpa using last)
      rw [List.cons_append,List.cons_append,total,total,add_assoc]
      exact congrArg (weigh a b + ·) later

omit [DecidableEq V] [LinearOrder W] [IsOrderedAddMonoid W] in
/-- Every way is along some path. -/
theorem reach_path {start v : V} {c : W} (reach : Reach Step weigh start v c) :
    ∃ path, Path Step start v path ∧ total weigh path = c := by
  induction reach with
  | here => exact ⟨[start],⟨rfl,rfl,List.isChain_singleton start⟩,rfl⟩
  | step u v c before edge ih =>
    obtain ⟨path,⟨head,last,chain⟩,rfl⟩ := ih
    refine ⟨path ++ [v],⟨by rw [List.head?_append,head]; rfl,by simp,?_⟩,total_append path u v last⟩
    refine List.isChain_append.mpr ⟨chain,List.isChain_singleton v,?_⟩
    intro x here y there
    rw [last] at here
    cases here
    cases there
    exact edge

omit [DecidableEq V] [LinearOrder W] [IsOrderedAddMonoid W] in
/-- Where each step raises a value by its cost, a list costs the difference of its ends. -/
theorem total_rises (value : V → Option W) (path : List V)
    (rises : path.IsChain (fun a b => ∃ c, value a = some c ∧ value b = some (c + weigh a b))) (u v : V)
    (head : path.head? = some u) (last : path.getLast? = some v) (c d : W) (first : value u = some c) (second : value v = some d) :
    c + total weigh path = d := by
  induction path generalizing u c with
  | nil => cases head
  | cons a rest ih =>
    have same : a = u := Option.some.inj head
    subst same
    cases rest with
    | nil =>
      have arrived : a = v := Option.some.inj last
      subst arrived
      rw [total,add_zero]
      exact Option.some.inj (first.symm.trans second)
    | cons b rest =>
      obtain ⟨⟨e,here,there⟩,chain⟩ := List.isChain_cons_cons.mp rises
      have one : e = c := Option.some.inj (here.symm.trans first)
      subst one
      rw [total,← add_assoc]
      exact ih chain b rfl (by simpa using last) (e + weigh a b) there

omit [AddCommGroup W] [LinearOrder W] [IsOrderedAddMonoid W] in
/-- Reading back ends. -/
theorem backtrack_ends (prev : Dict V V) (start v : V) (done : V → Bool) (stop : done start = true) (leads : Leads prev start v)
    (path : List V) : ∃ result least, ∀ n, least ≤ n → backtrack prev done n v path = some result := by
  induction leads generalizing path with
  | root =>
    refine ⟨start::path,1,fun n le => ?_⟩
    obtain ⟨m,rfl⟩ : ∃ m, n = m + 1 := ⟨n - 1,by omega⟩
    rw [backtrack,if_pos stop]
  | next v u step rest ih =>
    by_cases here : done v = true
    · refine ⟨v::path,1,fun n le => ?_⟩
      obtain ⟨m,rfl⟩ : ∃ m, n = m + 1 := ⟨n - 1,by omega⟩
      rw [backtrack,if_pos here]
    · obtain ⟨result,least,ends⟩ := ih (v::path)
      refine ⟨result,least + 1,fun n le => ?_⟩
      obtain ⟨m,rfl⟩ : ∃ m, n = m + 1 := ⟨n - 1,by omega⟩
      rw [backtrack,if_neg here,step]
      exact ends m (by omega)

omit [IsOrderedAddMonoid W] in
/-- The queue holds the start alone. -/
theorem begin_best (Step : V → V → Prop) (weigh : V → V → W) (estimate : V → W) (start : V) :
    Best Step weigh estimate [] (estimate start) (begin (estimate start,(0 : W),start) start) := by
  refine ⟨List.pairwise_singleton _ _,?_,?_,?_,(fun _ no => by cases no),(fun _ no => by cases no),fun _ _ no => by cases no⟩
  · intro entry member
    rw [List.mem_singleton.mp member]
  · intro entry member
    rw [List.mem_singleton.mp member]
    exact (zero_add _).symm
  · intro v d found _
    rcases Dict.get?_set_cases found with ⟨rfl,rfl⟩ | ⟨_,no⟩
    · rw [zero_add]
      exact List.mem_singleton_self _
    · cases no

/-- The search over finitely many nodes comes to one answer, whatever more rounds it is
given: no path where there is none, and else one that costs no more than any other. -/
theorem search_solves (consistent : Consistent Step weigh neighbors estimate) (ordered : Ordered before) (start goal : V)
    (nodes : Finset V) (inside : start ∈ nodes) (within : ∀ u v, Step u v → v ∈ nodes) :
    ∃ stopped t least, (∀ n, least ≤ n →
        search before estimate neighbors goal n (begin (estimate start,0,start) start) = some (stopped,t)) ∧
      stopped = (t.cost.get? goal).isSome ∧ t.prev.get? start = none ∧
      (stopped = false → ∀ path, ¬Path Step start goal path) ∧
      (stopped = true → ∀ done : V → Bool, done start = true → (∀ v, Leads t.prev start v → done v = true → v = start) →
        ∃ path least_, (∀ n, least_ ≤ n → backtrack t.prev done n goal [] = some path) ∧ Path Step start goal path ∧
          path.IsChain (fun a b => ∃ c, t.cost.get? a = some c ∧ t.cost.get? b = some (c + weigh a b)) ∧
          ∀ other, Path Step start goal other → total weigh path ≤ total weigh other) := by
  have ended : ∃ answer least, ∀ n, least ≤ n →
      search before estimate neighbors goal n (begin (estimate start,(0 : W),start) start) = some answer := by
    refine search_ends goal nodes (fun u _ edge member => within u edge.1 (consistent.steps u edge member).1) _
      (fun entry member => ?_)
    rw [List.mem_singleton.mp member]
    exact inside
  obtain ⟨⟨stopped,t⟩,least,ends⟩ := ended
  have ran := ends least le_rfl
  have answer := search_answer consistent ordered start goal least _ (begin_rooted (estimate start) start _)
    (estimate start) (begin_best Step weigh estimate start) List.not_mem_nil stopped t ran
  have rooted := (search_rooted before estimate neighbors goal consistent.steps least _
    (begin_rooted (estimate start) start _) stopped t ran).1
  refine ⟨stopped,t,least,ends,answer.known,rooted.top,?_,?_⟩
  · intro failed path valid
    obtain ⟨d,found,_⟩ := answer.least _ (path_reach valid)
    rw [answer.known,found] at failed
    cases failed
  · intro arrived done stop only
    rw [answer.known,Option.isSome_iff_exists] at arrived
    obtain ⟨d,found⟩ := arrived
    obtain ⟨path,least_,back⟩ := backtrack_ends t.prev start goal done stop (rooted.leads goal d found) []
    -- Along the predecessors each node costs what the one before it does and the step.
    have exact_ : Rooted start (fun a b => Step a b ∧
        ∃ c, t.cost.get? a = some c ∧ t.cost.get? b = some (c + weigh a b)) t :=
      ⟨rooted.zero,rooted.positive,rooted.leads,(fun v u step => ⟨answer.exact v u step,(rooted.down v u step).2⟩),rooted.top,
        rooted.queued⟩
    obtain ⟨chain,head,last⟩ := backtrack_chain t exact_ done only least_ goal [] path (rooted.leads goal d found)
      (List.isChain_singleton goal) (back least_ le_rfl)
    have rises := chain.imp (fun a b both => both.2)
    refine ⟨path,least_,back,⟨head,last,chain.imp (fun a b both => both.1)⟩,rises,fun other valid => ?_⟩
    obtain ⟨d',there,low⟩ := answer.least _ (path_reach valid)
    have same := total_rises (fun v => t.cost.get? v) path rises start goal head last 0 d' rooted.zero there
    rw [zero_add] at same
    rw [same]
    exact low

end Lib.BestFirst
