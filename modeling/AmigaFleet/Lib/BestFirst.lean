import AmigaFleet.Lib.Dict
import Mathlib.Algebra.Order.Group.Defs
import Mathlib.Data.List.Chain

/-! Best-first search with a queue that keeps its stale entries, and the path read back
from the predecessors. No cost is negative; the estimates may be anything. -/
namespace Lib.BestFirst
variable {V W : Type} [DecidableEq V]

/-- The nodes seen, what they cost and where they were reached from; a queue
entry has its estimate, its cost and its node. -/
structure Search (V W : Type) where
  heap : List (W × W × V)
  cost : Dict V W
  prev : Dict V V
  closed : List V

section
variable (before : W × W × V → W × W × V → Bool)

/-- `heappush`, where the queue is kept in order. -/
def push (entry : W × W × V) : List (W × W × V) → List (W × W × V)
  | [] => [entry]
  | first::rest => if before first entry then first::push entry rest else entry::first::rest

omit [DecidableEq V] in
theorem mem_push (entry other : W × W × V) (heap : List (W × W × V)) :
    other ∈ push before entry heap ↔ other = entry ∨ other ∈ heap := by
  induction heap with
  | nil => simp [push]
  | cons first rest ih =>
    simp only [push]
    split
    · simp only [List.mem_cons,ih]
      exact or_left_comm
    · simp only [List.mem_cons]

variable [AddCommGroup W] [LinearOrder W] (estimate : V → W)

/-- One edge out of a node of cost `d`. -/
def relax (d : W) (u : V) (s : Search V W) (edge : V × W) : Search V W :=
  if (s.cost.get? edge.1).all (fun old => d + edge.2 < old) then
    { s with
      heap := push before (d + edge.2 + estimate edge.1,d + edge.2,edge.1) s.heap
      cost := s.cost.set edge.1 (d + edge.2)
      prev := s.prev.set edge.1 u }
  else s

variable (neighbors : V → List (V × W)) (goal : V)

def expand (d : W) (u : V) (s : Search V W) : Search V W := (neighbors u).foldl (relax before estimate d u) s

/-- The loop, and whether it stopped at the goal. -/
def search : Nat → Search V W → Option (Bool × Search V W)
  | 0,_ => none
  | n + 1,s =>
    match s.heap with
    | [] => some (false,s)
    | (_,d,u)::rest =>
      if u ∈ s.closed then search n { s with heap := rest }
      else if u = goal then some (true,{ s with heap := rest })
      else search n (expand before estimate neighbors d u { s with heap := rest, closed := u::s.closed })

end

/-- From node to node by predecessors to where `done` says to stop. -/
def backtrack (prev : Dict V V) (done : V → Bool) : Nat → V → List V → Option (List V)
  | 0,_,_ => none
  | n + 1,v,path => if done v then some (v::path) else (prev.get? v).bind (fun u => backtrack prev done n u (v::path))

theorem backtrack_pair (prev : Dict V V) (u v : V) (second : prev.get? v = some u) (first : prev.get? u = none) (n : Nat) :
    backtrack prev (fun w => (prev.get? w).isNone) (n + 2) v [] = some [u,v] := by
  simp only [backtrack,second,first,Option.isNone_some,Option.isNone_none,Bool.false_eq_true,if_false,if_true,
    Option.bind_some]

/-- The predecessors of the node lead to the start. -/
inductive Leads (prev : Dict V V) (start : V) : V → Prop
  | root : Leads prev start start
  | next (v u : V) (step : prev.get? v = some u) (rest : Leads prev start u) : Leads prev start v

section
variable [AddCommGroup W] [LinearOrder W]

/-- The predecessors form a tree over the start, along which costs do not fall. -/
structure Rooted (start : V) (Step : V → V → Prop) (s : Search V W) : Prop where
  zero : s.cost.get? start = some 0
  positive : ∀ v d, s.cost.get? v = some d → 0 ≤ d
  leads : ∀ v d, s.cost.get? v = some d → Leads s.prev start v
  down : ∀ v u, s.prev.get? v = some u → Step u v ∧ ∃ c d, s.cost.get? u = some c ∧ s.cost.get? v = some d ∧ c ≤ d
  top : s.prev.get? start = none
  queued : ∀ entry ∈ s.heap, ∃ d, s.cost.get? entry.2.2 = some d ∧ d ≤ entry.2.1

variable {start : V} {Step : V → V → Prop}

/-- A node keeps its way to the start when `v` is given another way to it. -/
theorem Leads.set {prev : Dict V V} (v u : V) (anew : Leads (prev.set v u) start v) (x : V) (leads : Leads prev start x) :
    Leads (prev.set v u) start x := by
  induction leads with
  | root => exact .root
  | next x y step rest ih =>
    by_cases same : x = v
    · rw [same]
      exact anew
    · exact .next x y (by rw [Dict.get?_set_ne _ _ _ _ same,step]) ih

omit [AddCommGroup W] in
/-- A node that costs less than `v` did is reached without `v`. -/
theorem Leads.cheaper {s : Search V W} (down : ∀ v u, s.prev.get? v = some u →
      Step u v ∧ ∃ c d, s.cost.get? u = some c ∧ s.cost.get? v = some d ∧ c ≤ d) (v u : V) (x : V)
    (leads : Leads s.prev start x) (c : W) (known : s.cost.get? x = some c)
    (less : ∀ d, s.cost.get? v = some d → c < d) : Leads (s.prev.set v u) start x := by
  induction leads generalizing c with
  | root => exact .root
  | next x y step rest ih =>
    have other : x ≠ v := fun same => absurd (less c (same ▸ known)) (lt_irrefl c)
    obtain ⟨_,e,d,reached,here,le⟩ := down x y step
    have same : d = c := Option.some.inj (here.symm.trans known)
    refine .next x y (by rw [Dict.get?_set_ne _ _ _ _ other,step]) (ih e reached fun d' found => ?_)
    exact lt_of_le_of_lt (same ▸ le) (less d' found)

theorem Rooted.sub {s : Search V W} (rooted : Rooted start Step s) (heap : List (W × W × V)) (closed : List V)
    (fewer : ∀ entry ∈ heap, entry ∈ s.heap) : Rooted start Step { s with heap := heap, closed := closed } :=
  ⟨rooted.zero,rooted.positive,rooted.leads,rooted.down,rooted.top,fun entry member => rooted.queued entry (fewer entry member)⟩

/-- The search before its first step. -/
def begin (entry : W × W × V) (start : V) : Search V W :=
  { heap := [entry], cost := Dict.empty.set start 0, prev := .empty, closed := [] }

theorem begin_rooted (estimate : W) (start : V) (Step : V → V → Prop) :
    Rooted start Step (begin (estimate,(0 : W),start) start) := by
  have only (v : V) (d : W) (found : (begin (estimate,(0 : W),start) start).cost.get? v = some d) : v = start ∧ d = 0 := by
    rcases Dict.get?_set_cases found with ⟨here,same⟩ | ⟨_,no⟩
    · exact ⟨here,same⟩
    · cases no
  refine ⟨Dict.get?_set_self _ _ _,?_,?_,?_,rfl,?_⟩
  · intro v d found
    rw [(only v d found).2]
  · intro v d found
    rw [(only v d found).1]
    exact .root
  · intro v u found
    cases found
  · intro entry member
    rw [List.mem_singleton.mp member]
    exact ⟨0,Dict.get?_set_self _ _ _,le_refl _⟩

/-- Where reading back ends at the start alone, it gives a chain of steps from the
start to the node. -/
theorem backtrack_chain (s : Search V W) (rooted : Rooted start Step s) (done : V → Bool)
    (atStart : ∀ v, Leads s.prev start v → done v = true → v = start) (n : Nat) (v : V) (path result : List V)
    (leads : Leads s.prev start v) (chain : (v::path).IsChain Step)
    (ok : backtrack s.prev done n v path = some result) :
    result.IsChain Step ∧ result.head? = some start ∧ result.getLast? = (v::path).getLast? := by
  induction n generalizing v path with
  | zero => cases ok
  | succ n ih =>
    unfold backtrack at ok
    split at ok
    · rename_i stop
      cases ok
      exact ⟨chain,congrArg some (atStart v leads stop),rfl⟩
    · obtain ⟨u,before,ok⟩ := Option.bind_eq_some_iff.mp ok
      have up : Leads s.prev start u := by
        cases leads with
        | root =>
          rw [rooted.top] at before
          cases before
        | next _ u' step rest =>
          rw [step] at before
          cases before
          exact rest
      obtain ⟨kept,first,last⟩ := ih u (v::path) up (.cons_cons (rooted.down v u before).1 chain) ok
      exact ⟨kept,first,last.trans (by simp)⟩

variable [IsOrderedAddMonoid W]

theorem relax_rooted (before : W × W × V → W × W × V → Bool) (estimate : V → W) (s : Search V W)
    (rooted : Rooted start Step s) (d : W) (u : V) (edge : V × W) (c : W) (known : s.cost.get? u = some c) (le : c ≤ d)
    (step : Step u edge.1) (positive : 0 ≤ edge.2) : Rooted start Step (relax before estimate d u s edge) := by
  obtain ⟨v,w⟩ := edge
  unfold relax
  split
  case isFalse => exact rooted
  case isTrue better =>
    have up : c ≤ d + w := le.trans (le_add_of_nonneg_right positive)
    have less (old : W) (found : s.cost.get? v = some old) : d + w < old := by
      rw [found] at better
      simpa using better
    have away : v ≠ start := by
      intro same
      have below := less 0 (same ▸ rooted.zero)
      exact absurd (lt_of_le_of_lt ((rooted.positive u c known).trans up) below) (lt_irrefl 0)
    have anew : Leads (s.prev.set v u) start v := by
      refine .next v u (Dict.get?_set_self _ _ _) ?_
      exact (rooted.leads u c known).cheaper rooted.down v u u c known (fun old found => lt_of_le_of_lt up (less old found))
    refine ⟨?_,?_,?_,?_,?_,?_⟩
    · rw [Dict.get?_set_ne _ _ _ _ away.symm]
      exact rooted.zero
    · intro x e found
      rcases Dict.get?_set_cases found with ⟨_,same⟩ | ⟨_,old⟩
      · rw [same]
        exact ((rooted.positive u c known).trans up)
      · exact rooted.positive x e old
    · intro x e found
      rcases Dict.get?_set_cases found with ⟨same,_⟩ | ⟨_,old⟩
      · rw [same]
        exact anew
      · exact Leads.set v u anew x (rooted.leads x e old)
    · intro x y found
      rcases Dict.get?_set_cases found with ⟨here,same⟩ | ⟨other,old⟩
      · rw [here,same]
        refine ⟨step,?_⟩
        by_cases loop : u = v
        · rw [loop]
          exact ⟨d + w,d + w,Dict.get?_set_self _ _ _,Dict.get?_set_self _ _ _,le_refl _⟩
        · exact ⟨c,d + w,by rw [Dict.get?_set_ne _ _ _ _ loop,known],Dict.get?_set_self _ _ _,up⟩
      · obtain ⟨kept,e,f,first,second,below⟩ := rooted.down x y old
        refine ⟨kept,?_⟩
        by_cases here : y = v
        · refine ⟨d + w,f,?_,?_,?_⟩
          · rw [here]
            exact Dict.get?_set_self _ _ _
          · rw [Dict.get?_set_ne _ _ _ _ other,second]
          · exact (less e (here ▸ first)).le.trans below
        · exact ⟨e,f,by rw [Dict.get?_set_ne _ _ _ _ here,first],by rw [Dict.get?_set_ne _ _ _ _ other,second],below⟩
    · rw [Dict.get?_set_ne _ _ _ _ away.symm]
      exact rooted.top
    · intro entry member
      rcases (mem_push before _ _ _).mp member with same | old
      · rw [same]
        exact ⟨d + w,Dict.get?_set_self _ _ _,le_refl _⟩
      · obtain ⟨e,found,below⟩ := rooted.queued entry old
        by_cases here : entry.2.2 = v
        · refine ⟨d + w,?_,(less e (here ▸ found)).le.trans below⟩
          rw [here]
          exact Dict.get?_set_self _ _ _
        · exact ⟨e,by rw [Dict.get?_set_ne _ _ _ _ here,found],below⟩

theorem relax_known (before : W × W × V → W × W × V → Bool) (estimate : V → W) (s : Search V W) (d : W) (u : V)
    (edge : V × W) (c : W) (known : s.cost.get? u = some c) (le : c ≤ d) (positive : 0 ≤ edge.2) :
    (relax before estimate d u s edge).cost.get? u = some c := by
  unfold relax
  split
  · rename_i better
    rw [Dict.get?_set]
    split
    · rename_i loop
      rw [← loop,known] at better
      have below : d + edge.2 < c := by simpa using better
      exact absurd (lt_of_le_of_lt (le.trans (le_add_of_nonneg_right positive)) below) (lt_irrefl c)
    · exact known
  · exact known

theorem expand_rooted (before : W × W × V → W × W × V → Bool) (estimate : V → W) (neighbors : V → List (V × W))
    (s : Search V W) (rooted : Rooted start Step s) (d : W) (u : V) (c : W) (known : s.cost.get? u = some c) (le : c ≤ d)
    (edges : ∀ edge ∈ neighbors u, Step u edge.1 ∧ 0 ≤ edge.2) :
    Rooted start Step (expand before estimate neighbors d u s) := by
  unfold expand
  generalize neighbors u = edges_ at edges
  induction edges_ generalizing s with
  | nil => exact rooted
  | cons edge rest ih =>
    rw [List.forall_mem_cons] at edges
    exact ih _ (relax_rooted before estimate s rooted d u edge c known le edges.1.1 edges.1.2)
      (relax_known before estimate s d u edge c known le edges.1.2) edges.2

/-- What the loop ends with is rooted, and the goal has been reached where it stopped there. -/
theorem search_rooted (before : W × W × V → W × W × V → Bool) (estimate : V → W) (neighbors : V → List (V × W)) (goal : V)
    (edges : ∀ u, ∀ edge ∈ neighbors u, Step u edge.1 ∧ 0 ≤ edge.2) (n : Nat) (s : Search V W)
    (rooted : Rooted start Step s) (stopped : Bool) (t : Search V W)
    (ok : search before estimate neighbors goal n s = some (stopped,t)) :
    Rooted start Step t ∧ (stopped = true → ∃ d, t.cost.get? goal = some d) := by
  induction n generalizing s with
  | zero => cases ok
  | succ n ih =>
    unfold search at ok
    split at ok
    · cases ok
      exact ⟨rooted,fun no => by cases no⟩
    · rename_i f d u rest queue
      have fewer : ∀ entry ∈ rest, entry ∈ s.heap := fun entry member => queue ▸ List.mem_cons_of_mem _ member
      obtain ⟨c,known,le⟩ := rooted.queued (f,d,u) (queue ▸ List.mem_cons_self ..)
      split at ok
      · exact ih _ (rooted.sub rest s.closed fewer) ok
      · split at ok
        · rename_i found
          cases ok
          exact ⟨rooted.sub rest s.closed fewer,fun _ => ⟨c,found ▸ known⟩⟩
        · exact ih _ (expand_rooted before estimate neighbors _ (rooted.sub rest (u::s.closed) fewer) d u c known le
            (edges u)) ok

omit [DecidableEq V] [AddCommGroup W] [LinearOrder W] [IsOrderedAddMonoid W] in
/-- A least entry stays at the head of the queue, or comes to it. -/
theorem push_least (before : W × W × V → W × W × V → Bool) (least entry : W × W × V) (heap : List (W × W × V))
    (lower : before least entry = true) : push before entry (least::heap) = least::push before entry heap := by
  rw [push,if_pos lower]

omit [DecidableEq V] [AddCommGroup W] [LinearOrder W] [IsOrderedAddMonoid W] in
theorem push_first (before : W × W × V → W × W × V → Bool) (least : W × W × V) (heap : List (W × W × V))
    (lower : ∀ entry ∈ heap, before entry least = false) : push before least heap = least::heap := by
  cases heap with
  | nil => rfl
  | cons first rest => rw [push,lower first (List.mem_cons_self ..)]; rfl

omit [IsOrderedAddMonoid W] in
/-- Expanding a node puts its cheapest neighbour at the head of an empty queue, when
that neighbour has not been seen and every other entry made comes after it. -/
theorem expand_least (before : W × W × V → W × W × V → Bool) (estimate : V → W) (d : W) (u v : V) (w : W)
    (edges : List (V × W)) (there : (v,w) ∈ edges)
    (only : ∀ edge ∈ edges, edge.1 = v → edge.2 = w)
    (after : ∀ edge ∈ edges, edge.1 ≠ v →
      before (d + w + estimate v,d + w,v) (d + edge.2 + estimate edge.1,d + edge.2,edge.1) = true ∧
        before (d + edge.2 + estimate edge.1,d + edge.2,edge.1) (d + w + estimate v,d + w,v) = false)
    (s : Search V W) (new : s.cost.get? v = none) (empty : ∀ entry ∈ s.heap, before entry (d + w + estimate v,d + w,v) = false) :
    ∃ rest, (edges.foldl (relax before estimate d u) s).heap = (d + w + estimate v,d + w,v)::rest ∧
      (edges.foldl (relax before estimate d u) s).prev.get? v = some u := by
  -- Once the neighbour is at the head, no later edge moves it.
  have settled (edges : List (V × W)) (only : ∀ edge ∈ edges, edge.1 = v → edge.2 = w)
      (after : ∀ edge ∈ edges, edge.1 ≠ v →
        before (d + w + estimate v,d + w,v) (d + edge.2 + estimate edge.1,d + edge.2,edge.1) = true) (s : Search V W)
      (known : s.cost.get? v = some (d + w)) (back : s.prev.get? v = some u)
      (head : ∃ rest, s.heap = (d + w + estimate v,d + w,v)::rest) :
      ∃ rest, (edges.foldl (relax before estimate d u) s).heap = (d + w + estimate v,d + w,v)::rest ∧
        (edges.foldl (relax before estimate d u) s).prev.get? v = some u := by
    induction edges generalizing s with
    | nil =>
      obtain ⟨rest,here⟩ := head
      exact ⟨rest,here,back⟩
    | cons edge edges ih =>
      rw [List.forall_mem_cons] at only after
      obtain ⟨rest,here⟩ := head
      rw [List.foldl_cons]
      by_cases same : edge.1 = v
      · have kept : relax before estimate d u s edge = s := by
          rw [relax,same,known,only.1 same]
          simp
        rw [kept]
        exact ih only.2 after.2 s known back ⟨rest,here⟩
      · refine ih only.2 after.2 _ ?_ ?_ ?_
        · unfold relax
          split
          · rw [Dict.get?_set_ne _ _ _ _ (Ne.symm same)]
            exact known
          · exact known
        · unfold relax
          split
          · rw [Dict.get?_set_ne _ _ _ _ (Ne.symm same)]
            exact back
          · exact back
        · unfold relax
          split
          · exact ⟨_,by rw [here,push_least before _ _ _ (after.1 same)]⟩
          · exact ⟨rest,here⟩
  induction edges generalizing s with
  | nil => cases there
  | cons edge edges ih =>
    rw [List.forall_mem_cons] at only after
    rw [List.foldl_cons]
    by_cases same : edge.1 = v
    · have opened : relax before estimate d u s edge =
          { s with
            heap := push before (d + w + estimate v,d + w,v) s.heap
            cost := s.cost.set v (d + w)
            prev := s.prev.set v u } := by
        rw [relax,same,new,only.1 same]
        rfl
      rw [opened]
      refine settled edges only.2 (fun e member other => (after.2 e member other).1) _ (Dict.get?_set_self _ _ _)
        (Dict.get?_set_self _ _ _) ⟨s.heap,push_first before _ _ empty⟩
    · have later : (v,w) ∈ edges := by
        rcases List.mem_cons.mp there with here | inside
        · exact absurd (congrArg Prod.fst here).symm same
        · exact inside
      refine ih later only.2 after.2 _ ?_ ?_
      · unfold relax
        split
        · rw [Dict.get?_set_ne _ _ _ _ (Ne.symm same)]
          exact new
        · exact new
      · unfold relax
        split
        · intro entry member
          rcases (mem_push before _ _ _).mp member with here | old
          · rw [here]
            exact (after.1 same).2
          · exact empty entry old
        · exact empty

omit [IsOrderedAddMonoid W] in
theorem search_open (before : W × W × V → W × W × V → Bool) (estimate : V → W) (neighbors : V → List (V × W)) (goal : V)
    (n : Nat) (s : Search V W) (f d : W) (u : V) (rest : List (W × W × V)) (queue : s.heap = (f,d,u)::rest)
    (fresh : u ∉ s.closed) (other : u ≠ goal) :
    search before estimate neighbors goal (n + 1) s =
      search before estimate neighbors goal n
        (expand before estimate neighbors d u { s with heap := rest, closed := u::s.closed }) := by
  rw [search,queue]
  simp only [if_neg fresh,if_neg other]

omit [IsOrderedAddMonoid W] in
theorem search_goal (before : W × W × V → W × W × V → Bool) (estimate : V → W) (neighbors : V → List (V × W)) (goal : V)
    (n : Nat) (s : Search V W) (f d : W) (rest : List (W × W × V)) (queue : s.heap = (f,d,goal)::rest)
    (fresh : goal ∉ s.closed) :
    search before estimate neighbors goal (n + 1) s = some (true,{ s with heap := rest }) := by
  rw [search,queue]
  simp only [if_neg fresh,if_true]

omit [IsOrderedAddMonoid W] in
theorem relax_closed (before : W × W × V → W × W × V → Bool) (estimate : V → W) (d : W) (u : V) (s : Search V W)
    (edge : V × W) : (relax before estimate d u s edge).closed = s.closed := by
  unfold relax
  split
  · rfl
  · rfl

omit [IsOrderedAddMonoid W] in
theorem expand_closed (before : W × W × V → W × W × V → Bool) (estimate : V → W) (neighbors : V → List (V × W)) (d : W)
    (u : V) (s : Search V W) : (expand before estimate neighbors d u s).closed = s.closed := by
  unfold expand
  induction neighbors u generalizing s with
  | nil => rfl
  | cons edge rest ih =>
    rw [List.foldl_cons,ih]
    exact relax_closed before estimate d u s edge

end
end Lib.BestFirst
