import AmigaFleet.Lora.RingQueue

/-! The inbound queue, first in first out, and what closing and looking into either
queue means: a snapshot is what the next calls to `get` return. -/
namespace AmigaFleet.Lora
open Lib

inductive QueueError where
  | capacity (value : Int)
  | policy (name : String)
  | levels (value : Int)
  deriving DecidableEq, Repr

def Policy.name : Policy → String
  | .dropOldest => "drop_oldest"
  | .dropNewest => "drop_newest"

/-- Membership in `POLICIES`. -/
def Policy.ofName? (name : String) : Option Policy :=
  [Policy.dropOldest,.dropNewest].find? (fun policy => policy.name = name)

structure BoundedRingQueue (α : Type) where
  capacity : Nat
  policy : Policy
  items : List α
  closed : Bool
  dropped : Nat
  roomy : 1 ≤ capacity

namespace BoundedRingQueue
variable {α : Type}

def create (capacity : Nat) (policy : Policy) (roomy : 1 ≤ capacity) : BoundedRingQueue α :=
  ⟨capacity,policy,[],false,0,roomy⟩

theorem roomy_toNat (capacity : Int) (enough : ¬ capacity < 1) : 1 ≤ capacity.toNat := by omega

/-- The constructor with its checks. -/
def build (capacity : Int) (policy : String) : Except QueueError (BoundedRingQueue α) :=
  if small : capacity < 1 then .error (.capacity capacity)
  else
    match Policy.ofName? policy with
    | none => .error (.policy policy)
    | some policy => .ok (create capacity.toNat policy (roomy_toNat capacity small))

/-- True when nothing was discarded. -/
def put (q : BoundedRingQueue α) (item : α) : Bool × BoundedRingQueue α :=
  if q.closed then (false,q)
  else if q.capacity ≤ q.items.length then
    match q.policy with
    | .dropNewest => (false,{ q with dropped := q.dropped + 1 })
    | .dropOldest => (false,{ q with dropped := q.dropped + 1, items := q.items.tail ++ [item] })
  else (true,{ q with items := q.items ++ [item] })

def get (q : BoundedRingQueue α) : Option α × BoundedRingQueue α :=
  match q.items with
  | [] => (none,q)
  | item::rest => (some item,{ q with items := rest })

def snapshot (q : BoundedRingQueue α) : List α := q.items

def close (q : BoundedRingQueue α) : BoundedRingQueue α := { q with closed := true }

theorem put_closed (q : BoundedRingQueue α) (item : α) (closed : q.closed = true) : q.put item = (false,q) :=
  if_pos closed

/-- All a `put` on an open queue can do. -/
theorem put_cases (q : BoundedRingQueue α) (item : α) (opened : q.closed = false) :
    (q.items.length < q.capacity ∧ q.put item = (true,{ q with items := q.items ++ [item] })) ∨
      (q.capacity ≤ q.items.length ∧ q.policy = .dropNewest ∧
        q.put item = (false,{ q with dropped := q.dropped + 1 })) ∨
      (q.capacity ≤ q.items.length ∧ q.policy = .dropOldest ∧
        q.put item = (false,{ q with dropped := q.dropped + 1, items := q.items.tail ++ [item] })) := by
  unfold put
  rw [if_neg (by simp [opened])]
  by_cases full : q.capacity ≤ q.items.length
  · rw [if_pos full]
    cases policy : q.policy with
    | dropNewest => exact .inr (.inl ⟨full,rfl,rfl⟩)
    | dropOldest => exact .inr (.inr ⟨full,rfl,rfl⟩)
  · rw [if_neg full]
    exact .inl ⟨Nat.lt_of_not_le full,rfl⟩

theorem get_cases (q : BoundedRingQueue α) : (q.items = [] ∧ q.get = (none,q)) ∨
    ∃ item rest, q.items = item::rest ∧ q.get = (some item,{ q with items := rest }) := by
  unfold get
  cases items : q.items with
  | nil => exact .inl ⟨rfl,rfl⟩
  | cons item rest => exact .inr ⟨item,rest,rfl,rfl⟩

/-- The queue after so many calls to `get`. -/
def drained (q : BoundedRingQueue α) : Nat → BoundedRingQueue α
  | 0 => q
  | n + 1 => q.get.2.drained n

theorem drained_snapshot (q : BoundedRingQueue α) (n : Nat) :
    (q.drained n).get.1 = q.snapshot[n]? ∧ (q.drained n).snapshot = q.snapshot.drop n := by
  induction n generalizing q with
  | zero =>
    obtain ⟨items,same⟩ | ⟨item,rest,items,same⟩ := q.get_cases
    · simp [drained,same,snapshot,items]
    · simp [drained,same,snapshot,items]
  | succ n ih =>
    obtain ⟨items,same⟩ | ⟨item,rest,items,same⟩ := q.get_cases
    · simpa [drained,same,snapshot,items] using ih q
    · simpa [drained,same,snapshot,items] using ih { q with items := rest }

/-- A queue in use: what was put in it while it was open, and what it returned. -/
structure Usage (α : Type) where
  queue : BoundedRingQueue α
  puts : List α
  returned : List α

inductive Call (α : Type) where
  | put (item : α)
  | get
  | close

namespace Usage

def call (u : Usage α) : Call α → Usage α
  | .put item => ⟨(u.queue.put item).2,if u.queue.closed then u.puts else u.puts ++ [item],u.returned⟩
  | .get => ⟨u.queue.get.2,u.puts,u.returned ++ u.queue.get.1.toList⟩
  | .close => ⟨u.queue.close,u.puts,u.returned⟩

/-- Any sequence of calls on a new queue. -/
def calls (α : Type) : Machine (Usage α) (Call α) where
  initial := fun u => (∃ capacity policy roomy, u.queue = create capacity policy roomy) ∧ u.puts = [] ∧ u.returned = []
  enabled := fun _ _ => True
  next := call

structure Accounted (u : Usage α) : Prop where
  within : u.queue.items.length ≤ u.queue.capacity
  ordered : (u.returned ++ u.queue.items).Sublist u.puts
  counted : u.puts.length = u.returned.length + u.queue.items.length + u.queue.dropped
  newest : u.queue.policy = .dropOldest → u.queue.items <:+ u.puts

theorem Accounted.put (u : Usage α) (account : u.Accounted) (item : α) : (u.call (.put item)).Accounted := by
  obtain ⟨within,ordered,counted,newest⟩ := account
  rw [call]
  cases closed : u.queue.closed with
  | true =>
    rw [u.queue.put_closed item closed]
    exact ⟨within,ordered,counted,newest⟩
  | false =>
    rw [if_neg (by simp)]
    obtain ⟨room,same⟩ | ⟨full,policy,same⟩ | ⟨full,policy,same⟩ := u.queue.put_cases item closed
    · rw [same]
      constructor
      · simp only [List.length_append,List.length_singleton]
        exact room
      · simpa using ordered.append (List.Sublist.refl [item])
      · simp only [List.length_append,List.length_singleton]
        omega
      · intro oldest
        obtain ⟨front,before⟩ := newest oldest
        exact ⟨front,by rw [← List.append_assoc,before]⟩
    · rw [same]
      constructor
      · exact within
      · exact ordered.trans (List.sublist_append_left _ _)
      · simp only [List.length_append,List.length_singleton]
        omega
      · intro oldest
        rw [policy] at oldest
        cases oldest
    · -- The oldest item makes room.
      have roomy := u.queue.roomy
      have shorter := List.length_tail (l := u.queue.items)
      rw [same]
      constructor
      · simp only [List.length_append,List.length_singleton]
        omega
      · have fewer := (List.Sublist.append (List.Sublist.refl u.returned) (List.tail_sublist u.queue.items)).trans ordered
        simpa using fewer.append (List.Sublist.refl [item])
      · simp only [List.length_append,List.length_singleton]
        omega
      · intro oldest
        obtain ⟨front,before⟩ := (List.tail_suffix u.queue.items).trans (newest oldest)
        exact ⟨front,by rw [← List.append_assoc,before]⟩

theorem Accounted.get (u : Usage α) (account : u.Accounted) : (u.call .get).Accounted := by
  obtain ⟨within,ordered,counted,newest⟩ := account
  rw [call]
  obtain ⟨items,same⟩ | ⟨item,rest,items,same⟩ := u.queue.get_cases
  · rw [same]
    exact ⟨within,by simpa using ordered,by simpa using counted,newest⟩
  · rw [items] at within ordered counted newest
    rw [same]
    constructor
    · exact Nat.le_of_succ_le within
    · simpa using ordered
    · simp only [List.length_cons] at counted
      simp only [Option.toList_some,List.length_append,List.length_cons,List.length_nil]
      omega
    · exact fun oldest => (List.suffix_cons item rest).trans (newest oldest)

theorem Accounted.call (u : Usage α) (account : u.Accounted) (c : Call α) : (u.call c).Accounted := by
  cases c with
  | put item => exact account.put u item
  | get => exact account.get u
  | close => exact ⟨account.within,account.ordered,account.counted,account.newest⟩

theorem reachable_accounted (u : Usage α) (reached : (calls α).Reachable u) : u.Accounted := by
  apply reached.invariant Accounted
  · rintro u ⟨⟨capacity,policy,roomy,same⟩,none,nothing⟩
    constructor
    · simp [same,create]
    · simp [same,create,none,nothing]
    · simp [same,create,none,nothing]
    · intro _
      simp [same,create,none]
  · exact fun u c _ account _ _ => account.call u c

/-- Under `drop_newest` what was taken in stays: a call returns it or adds behind it. -/
theorem call_extends (u : Usage α) (newest : u.queue.policy = .dropNewest) (c : Call α) :
    (u.call c).queue.policy = .dropNewest ∧ (u.returned ++ u.queue.items) <+: (u.call c).returned ++ (u.call c).queue.items := by
  cases c with
  | put item =>
    rw [call]
    cases closed : u.queue.closed with
    | true =>
      rw [u.queue.put_closed item closed]
      exact ⟨newest,List.prefix_refl _⟩
    | false =>
      obtain ⟨_,same⟩ | ⟨_,_,same⟩ | ⟨_,policy,_⟩ := u.queue.put_cases item closed
      · rw [same]
        exact ⟨newest,[item],List.append_assoc _ _ _⟩
      · rw [same]
        exact ⟨newest,List.prefix_refl _⟩
      · rw [newest] at policy
        cases policy
  | get =>
    rw [call]
    obtain ⟨items,same⟩ | ⟨item,rest,items,same⟩ := u.queue.get_cases
    · rw [same]
      exact ⟨newest,by simp⟩
    · rw [same]
      exact ⟨newest,by simp [items]⟩
  | close => exact ⟨newest,List.prefix_refl _⟩

theorem runs_extends (u : Usage α) (newest : u.queue.policy = .dropNewest) (later : List (Call α)) :
    (u.returned ++ u.queue.items) <+: ((calls α).runs u later).returned ++ ((calls α).runs u later).queue.items := by
  induction later generalizing u with
  | nil => exact List.prefix_refl _
  | cons c rest ih =>
    obtain ⟨still,more⟩ := u.call_extends newest c
    exact more.trans (ih (u.call c) still)

/-- The inbound queue in any run: bounded, in order, every item counted; under
`drop_oldest` it holds the newest, under `drop_newest` nothing taken in is ever
given up; and the calls to `get` that follow return its snapshot, closed or not. -/
theorem fifo_kept (u : Usage α) (reached : (calls α).Reachable u) :
    u.queue.items.length ≤ u.queue.capacity ∧
      (u.returned ++ u.queue.items).Sublist u.puts ∧
      u.puts.length = u.returned.length + u.queue.items.length + u.queue.dropped ∧
      (u.queue.policy = .dropOldest → u.queue.items <:+ u.puts) ∧
      (u.queue.policy = .dropNewest → ∀ later, (u.returned ++ u.queue.items) <+:
        ((calls α).runs u later).returned ++ ((calls α).runs u later).queue.items) ∧
      ∀ n, (u.queue.drained n).get.1 = u.queue.snapshot[n]? := by
  have account := reachable_accounted u reached
  refine ⟨account.within,account.ordered,account.counted,account.newest,?_,?_⟩
  · exact fun newest later => u.runs_extends newest later
  · exact fun n => (u.queue.drained_snapshot n).1

def overflowing : Usage Nat := ⟨create 2 .dropOldest Nat.two_pos,[],[]⟩

/-- Three items in a queue of two, one of them taken, and the queue closed. -/
def overflown : Usage Nat := (calls Nat).runs overflowing [.put 10,.put 11,.put 12,.get,.close,.put 13]

theorem overflown_reachable : (calls Nat).Reachable overflown := by
  apply (calls Nat).reaches_runs _ overflowing _ (.start overflowing ⟨⟨2,.dropOldest,Nat.two_pos,rfl⟩,rfl,rfl⟩)
  exact ⟨trivial,trivial,trivial,trivial,trivial,trivial,trivial,trivial,trivial,trivial,trivial,trivial,trivial⟩

theorem fifo_kept_overflown : overflown.returned = [11] ∧ overflown.queue.items = [12] ∧
    overflown.queue.items <:+ [10,11,12] ∧ (overflown.queue.drained 0).get.1 = some 12 := by
  have kept := fifo_kept overflown overflown_reachable
  exact ⟨rfl,rfl,kept.2.2.2.1 rfl,kept.2.2.2.2.2 0⟩

end Usage
end BoundedRingQueue

/-! ### The outbound queue, looked into and closed -/

namespace BoundedPriorityRingQueue
variable {α : Type}

/-- The constructor with its checks. -/
def build (capacity : Int) (policy : String) (levels : Int) : Except QueueError (BoundedPriorityRingQueue α) :=
  if small : capacity < 1 then .error (.capacity capacity)
  else
    match Policy.ofName? policy with
    | none => .error (.policy policy)
    | some policy =>
      if few : levels < 1 then .error (.levels levels)
      else .ok (create capacity.toNat policy levels.toNat (BoundedRingQueue.roomy_toNat capacity small)
        (BoundedRingQueue.roomy_toNat levels few))

/-- Flattened, the most urgent band first. -/
def snapshot (q : BoundedPriorityRingQueue α) : List α := q.bands.flatten

def close (q : BoundedPriorityRingQueue α) : BoundedPriorityRingQueue α := { q with closed := true }

theorem put_closed (q : BoundedPriorityRingQueue α) (item : α) (priority : Int) (closed : q.closed = true) :
    q.put item priority = (false,q) := if_pos closed

theorem flatten_empty (bands : List (List α)) (empty : ∀ c, bands.getD c [] = []) : bands.flatten = [] := by
  apply List.flatten_eq_nil_iff.mpr
  intro items member
  obtain ⟨c,bound,rfl⟩ := List.mem_iff_getElem.mp member
  simpa [List.getElem?_eq_getElem bound] using empty c

theorem flatten_set (bands : List (List α)) (index : Nat) (item : α) (rest : List α)
    (first : bands.getD index [] = item::rest) (before : ∀ c < index, bands.getD c [] = []) :
    bands.flatten = item :: (bands.set index rest).flatten := by
  induction bands generalizing index with
  | nil => simp at first
  | cons items later ih =>
    cases index with
    | zero =>
      rw [List.getD_cons_zero] at first
      simp [first]
    | succ index =>
      have empty := before 0 (Nat.succ_pos index)
      rw [List.getD_cons_zero] at empty
      rw [List.getD_cons_succ] at first
      have deeper := ih index first (fun c below => before (c + 1) (Nat.succ_lt_succ below))
      simp [empty,deeper]

/-- A `get` takes the head of the snapshot. -/
theorem get_snapshot (q : BoundedPriorityRingQueue α) :
    q.get.1 = q.snapshot.head? ∧ q.get.2.snapshot = q.snapshot.tail := by
  obtain ⟨empty,same⟩ | ⟨index,item,rest,items,before,same⟩ := q.get_oldest
  · have nothing : q.snapshot = [] := flatten_empty q.bands empty
    rw [same,nothing]
    exact ⟨rfl,rfl⟩
  · have taken : q.snapshot = item :: (q.withBand index rest).snapshot :=
      flatten_set q.bands index item rest items before
    rw [same,taken]
    exact ⟨rfl,rfl⟩

def drained (q : BoundedPriorityRingQueue α) : Nat → BoundedPriorityRingQueue α
  | 0 => q
  | n + 1 => q.get.2.drained n

theorem drained_snapshot (q : BoundedPriorityRingQueue α) (n : Nat) : (q.drained n).snapshot = q.snapshot.drop n := by
  induction n generalizing q with
  | zero => rfl
  | succ n ih => rw [drained,ih,q.get_snapshot.2,List.drop_tail]

theorem get_closed (q : BoundedPriorityRingQueue α) : q.get.2.closed = q.closed := by
  obtain ⟨_,same⟩ | ⟨index,item,rest,_,_,same⟩ := q.get_oldest
  · rw [same]
  · rw [same]
    rfl

theorem get_close (q : BoundedPriorityRingQueue α) : q.close.get = (q.get.1,q.get.2.close) := by
  have found : q.close.highestOccupied = q.highestOccupied := rfl
  unfold get
  rw [found]
  cases q.highestOccupied with
  | none => rfl
  | some index => rfl

theorem returns_snd (q : BoundedPriorityRingQueue α) : (q.returns.map Prod.snd) = q.get.1.toList := by
  unfold returns
  cases found : q.highestOccupied with
  | none =>
    rw [get,found]
    rfl
  | some index =>
    obtain ⟨_,some_,_⟩ := q.highestOccupied_some index found
    obtain ⟨item,rest,items⟩ := List.exists_cons_of_ne_nil some_
    rw [get,found]
    simp [items]

/-- Closed, a queue gives out what it holds and takes nothing in. -/
theorem call_closed (u : Usage α) (closed : u.queue.closed = true) (c : Call α) :
    (u.call c).queue.closed = true ∧ (u.call c).queue.dropped = u.queue.dropped ∧
      (u.call c).returned.map Prod.snd ++ (u.call c).queue.snapshot = u.returned.map Prod.snd ++ u.queue.snapshot := by
  cases c with
  | put item priority =>
    rw [Usage.call,u.queue.put_closed item priority closed]
    exact ⟨closed,rfl,rfl⟩
  | get =>
    obtain ⟨head,tail⟩ := u.queue.get_snapshot
    have counted : u.queue.get.2.dropped = u.queue.dropped := by
      obtain ⟨_,same⟩ | ⟨index,item,rest,_,_,same⟩ := u.queue.get_oldest
      · rw [same]
      · rw [same]
        rfl
    refine ⟨u.queue.get_closed.trans closed,counted,?_⟩
    simp only [Usage.call,List.map_append,returns_snd,head,tail,List.append_assoc]
    cases u.queue.snapshot with
    | nil => rfl
    | cons item rest => rfl

theorem runs_closed (u : Usage α) (closed : u.queue.closed = true) (later : List (Call α)) :
    ((Usage.calls α).runs u later).queue.dropped = u.queue.dropped ∧
      ((Usage.calls α).runs u later).returned.map Prod.snd ++ ((Usage.calls α).runs u later).queue.snapshot =
        u.returned.map Prod.snd ++ u.queue.snapshot := by
  induction later generalizing u with
  | nil => exact ⟨rfl,rfl⟩
  | cons c rest ih =>
    obtain ⟨still,counted,same⟩ := call_closed u closed c
    obtain ⟨counted',same'⟩ := ih (u.call c) still
    exact ⟨counted'.trans counted,same'.trans same⟩

/-- A snapshot is the drain order: the calls to `get` that follow return it item by
item; and once closed the queue returns its snapshot in that order and nothing
else, whatever is put in it. -/
theorem snapshot_drains (q : BoundedPriorityRingQueue α) :
    (∀ n, (q.drained n).get.1 = q.snapshot[n]?) ∧ q.close.snapshot = q.snapshot ∧
      ∀ later : List (Call α),
        ((Usage.calls α).runs ⟨q.close,[],[]⟩ later).returned.map Prod.snd ++
            ((Usage.calls α).runs ⟨q.close,[],[]⟩ later).queue.snapshot = q.snapshot ∧
          ((Usage.calls α).runs ⟨q.close,[],[]⟩ later).queue.dropped = q.dropped := by
  refine ⟨?_,rfl,?_⟩
  · intro n
    rw [(q.drained n).get_snapshot.1,q.drained_snapshot,List.head?_drop]
  · intro later
    obtain ⟨counted,same⟩ := runs_closed ⟨q.close,[],[]⟩ rfl later
    exact ⟨same,counted⟩

end BoundedPriorityRingQueue
end AmigaFleet.Lora
