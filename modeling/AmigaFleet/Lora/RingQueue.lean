import AmigaFleet.Lib.Machine
import Mathlib.Data.List.Basic
import Mathlib.Algebra.GroupWithZero.Nat

/-! The outbound queue. One capacity shared by the bands, band 0 the most
urgent, first in first out within a band, and the least urgent band pays for
an overflow. Waiting is left out: a `get` that finds nothing returns none. -/
namespace AmigaFleet.Lora
open Lib

inductive Policy where
  | dropOldest
  | dropNewest
  deriving DecidableEq

structure BoundedPriorityRingQueue (α : Type) where
  capacity : Nat
  policy : Policy
  levels : Nat
  bands : List (List α)
  closed : Bool
  dropped : Nat
  droppedByBand : List Nat
  roomy : 1 ≤ capacity
  leveled : 1 ≤ levels
  banded : bands.length = levels
  counted : droppedByBand.length = levels

namespace BoundedPriorityRingQueue
variable {α : Type}

def create (capacity : Nat) (policy : Policy) (levels : Nat) (roomy : 1 ≤ capacity) (leveled : 1 ≤ levels) :
    BoundedPriorityRingQueue α :=
  ⟨capacity,policy,levels,.replicate levels [],false,0,.replicate levels 0,roomy,leveled,by simp,by simp⟩

def band (q : BoundedPriorityRingQueue α) (index : Nat) : List α := q.bands.getD index []

def withBand (q : BoundedPriorityRingQueue α) (index : Nat) (items : List α) : BoundedPriorityRingQueue α :=
  { q with bands := q.bands.set index items, banded := by rw [List.length_set,q.banded] }

def size (q : BoundedPriorityRingQueue α) : Nat := (q.bands.map List.length).sum

/-- Clamp any number onto a band. -/
def bandIndex (q : BoundedPriorityRingQueue α) (priority : Int) : Nat := (max 0 (min priority (q.levels - 1))).toNat

def occupied (q : BoundedPriorityRingQueue α) (index : Nat) : Bool := !(q.band index).isEmpty

def lastOccupied (q : BoundedPriorityRingQueue α) : Nat → Option Nat
  | 0 => none
  | index + 1 => if q.occupied index then some index else q.lastOccupied index

def lowestOccupied (q : BoundedPriorityRingQueue α) : Option Nat := q.lastOccupied q.levels

def highestOccupied (q : BoundedPriorityRingQueue α) : Option Nat := (List.range q.levels).find? q.occupied

def discard (q : BoundedPriorityRingQueue α) (index : Nat) : BoundedPriorityRingQueue α :=
  { q with
    dropped := q.dropped + 1
    droppedByBand := q.droppedByBand.set index (q.droppedByBand.getD index 0 + 1)
    counted := by rw [List.length_set,q.counted] }

def append (q : BoundedPriorityRingQueue α) (index : Nat) (item : α) : BoundedPriorityRingQueue α :=
  q.withBand index (q.band index ++ [item])

/-- What the victim band keeps when it gives one item up. -/
def spared (policy : Policy) (items : List α) : List α :=
  match policy with
  | .dropNewest => items.dropLast
  | .dropOldest => items.tail

/-- True when nothing was discarded. -/
def put (q : BoundedPriorityRingQueue α) (item : α) (priority : Int) : Bool × BoundedPriorityRingQueue α :=
  if q.closed then (false,q)
  else
    let band := q.bandIndex priority
    if q.size < q.capacity then (true,q.append band item)
    else
      match q.lowestOccupied with
      | none => (true,q.append band item)
      | some victim =>
        if victim < band then (false,q.discard band)
        else if victim = band ∧ q.policy = .dropNewest then (false,q.discard band)
        else (false,((q.withBand victim (spared q.policy (q.band victim))).discard victim).append band item)

def get (q : BoundedPriorityRingQueue α) : Option α × BoundedPriorityRingQueue α :=
  match q.highestOccupied with
  | none => (none,q)
  | some index => ((q.band index).head?,q.withBand index (q.band index).tail)

def droppedIn (q : BoundedPriorityRingQueue α) (index : Nat) : Nat := q.droppedByBand.getD index 0

theorem bandIndex_lt (q : BoundedPriorityRingQueue α) (priority : Int) : q.bandIndex priority < q.levels := by
  have leveled := q.leveled
  unfold bandIndex
  omega

theorem band_withBand (q : BoundedPriorityRingQueue α) (index other : Nat) (items : List α) (inside : index < q.levels) :
    (q.withBand index items).band other = if other = index then items else q.band other := by
  have bound : index < q.bands.length := q.banded.symm ▸ inside
  simp only [band,withBand,List.getD_eq_getElem?_getD,List.getElem?_set]
  by_cases same : index = other
  · rw [if_pos same,if_pos bound,if_pos same.symm]
    rfl
  · rw [if_neg same,if_neg (Ne.symm same)]

@[simp] theorem band_discard (q : BoundedPriorityRingQueue α) (index other : Nat) :
    (q.discard index).band other = q.band other := rfl

@[simp] theorem size_discard (q : BoundedPriorityRingQueue α) (index : Nat) : (q.discard index).size = q.size := rfl

@[simp] theorem droppedIn_withBand (q : BoundedPriorityRingQueue α) (index other : Nat) (items : List α) :
    (q.withBand index items).droppedIn other = q.droppedIn other := rfl

theorem band_append (q : BoundedPriorityRingQueue α) (index other : Nat) (item : α) (inside : index < q.levels) :
    (q.append index item).band other = if other = index then q.band index ++ [item] else q.band other :=
  q.band_withBand index other _ inside

@[simp] theorem droppedIn_append (q : BoundedPriorityRingQueue α) (index other : Nat) (item : α) :
    (q.append index item).droppedIn other = q.droppedIn other := rfl

theorem droppedIn_discard (q : BoundedPriorityRingQueue α) (index other : Nat) (inside : index < q.levels) :
    (q.discard index).droppedIn other = if other = index then q.droppedIn index + 1 else q.droppedIn other := by
  have bound : index < q.droppedByBand.length := q.counted.symm ▸ inside
  simp only [droppedIn,discard,List.getD_eq_getElem?_getD,List.getElem?_set]
  by_cases same : index = other
  · rw [if_pos same,if_pos bound,if_pos same.symm]
    rfl
  · rw [if_neg same,if_neg (Ne.symm same)]

theorem sum_set (numbers : List Nat) (index value : Nat) (inside : index < numbers.length) :
    (numbers.set index value).sum + numbers.getD index 0 = numbers.sum + value := by
  induction numbers generalizing index with
  | nil => cases inside
  | cons n rest ih =>
    cases index with
    | zero =>
      simp only [List.set_cons_zero,List.sum_cons,List.getD_cons_zero]
      omega
    | succ index =>
      have smaller := ih index (Nat.lt_of_succ_lt_succ inside)
      simp only [List.set_cons_succ,List.sum_cons,List.getD_cons_succ]
      omega

theorem size_withBand (q : BoundedPriorityRingQueue α) (index : Nat) (items : List α) (inside : index < q.levels) :
    (q.withBand index items).size + (q.band index).length = q.size + items.length := by
  have bound : index < (q.bands.map List.length).length := by rw [List.length_map,q.banded]; exact inside
  have counted := sum_set (q.bands.map List.length) index items.length bound
  have old : (q.bands.map List.length).getD index 0 = (q.band index).length := by
    rw [band,List.getD_eq_getElem?_getD,List.getD_eq_getElem?_getD,List.getElem?_map]
    cases q.bands[index]? <;> rfl
  rw [old,← List.map_set] at counted
  exact counted

theorem size_append (q : BoundedPriorityRingQueue α) (index : Nat) (item : α) (inside : index < q.levels) :
    (q.append index item).size = q.size + 1 := by
  have counted := q.size_withBand index (q.band index ++ [item]) inside
  rw [List.length_append,List.length_singleton] at counted
  rw [append]
  omega

theorem dropped_discard (q : BoundedPriorityRingQueue α) (index : Nat) (inside : index < q.levels)
    (total : q.dropped = q.droppedByBand.sum) : (q.discard index).dropped = (q.discard index).droppedByBand.sum := by
  have counted := sum_set q.droppedByBand index (q.droppedByBand.getD index 0 + 1) (q.counted.symm ▸ inside)
  simp only [discard]
  omega

theorem occupied_iff (q : BoundedPriorityRingQueue α) (index : Nat) : q.occupied index = true ↔ q.band index ≠ [] := by
  simp [occupied]

theorem band_beyond (q : BoundedPriorityRingQueue α) (index : Nat) (beyond : q.levels ≤ index) : q.band index = [] := by
  rw [band,List.getD_eq_getElem?_getD,List.getElem?_eq_none (q.banded.symm ▸ beyond)]
  rfl

theorem lastOccupied_some (q : BoundedPriorityRingQueue α) (bound victim : Nat)
    (found : q.lastOccupied bound = some victim) :
    victim < bound ∧ q.band victim ≠ [] ∧ ∀ c, victim < c → c < bound → q.band c = [] := by
  induction bound with
  | zero => cases found
  | succ index ih =>
    rw [lastOccupied] at found
    split at found
    · rename_i here
      obtain rfl : index = victim := Option.some.inj found
      exact ⟨Nat.lt_succ_self _,(q.occupied_iff _).mp here,fun c above below => by omega⟩
    · rename_i empty
      obtain ⟨below,some,none⟩ := ih found
      constructor
      · omega
      · apply And.intro some
        intro c above within
        rcases Nat.lt_or_ge c index with inside | top
        · exact none c above inside
        · obtain rfl : c = index := by omega
          rw [q.occupied_iff,not_not] at empty
          exact empty

theorem lastOccupied_none (q : BoundedPriorityRingQueue α) (bound : Nat) (none : q.lastOccupied bound = none) :
    ∀ c < bound, q.band c = [] := by
  induction bound with
  | zero => exact fun c impossible => absurd impossible (Nat.not_lt_zero c)
  | succ index ih =>
    rw [lastOccupied] at none
    split at none
    · cases none
    · rename_i empty
      intro c within
      rcases Nat.lt_or_ge c index with inside | top
      · exact ih none c inside
      · obtain rfl : c = index := by omega
        rw [q.occupied_iff,not_not] at empty
        exact empty

theorem lowestOccupied_some (q : BoundedPriorityRingQueue α) (victim : Nat) (found : q.lowestOccupied = some victim) :
    victim < q.levels ∧ q.band victim ≠ [] ∧ ∀ c, victim < c → q.band c = [] := by
  obtain ⟨inside,some,none⟩ := q.lastOccupied_some q.levels victim found
  apply And.intro inside (And.intro some _)
  intro c above
  rcases Nat.lt_or_ge c q.levels with within | beyond
  · exact none c above within
  · exact q.band_beyond c beyond

theorem size_empty (q : BoundedPriorityRingQueue α) (none : q.lowestOccupied = none) : q.size = 0 := by
  have empty := q.lastOccupied_none q.levels none
  apply List.sum_eq_zero_iff_forall_eq_nat.mpr
  intro n member
  obtain ⟨items,inside,rfl⟩ := List.mem_map.mp member
  obtain ⟨index,bound,rfl⟩ := List.mem_iff_getElem.mp inside
  have same : q.band index = q.bands[index] := by simp [band,List.getElem?_eq_getElem bound]
  rw [← same,empty index (q.banded ▸ bound),List.length_nil]

theorem highestOccupied_some (q : BoundedPriorityRingQueue α) (index : Nat) (found : q.highestOccupied = some index) :
    index < q.levels ∧ q.band index ≠ [] ∧ ∀ c < index, q.band c = [] := by
  rw [highestOccupied,List.find?_range_eq_some] at found
  obtain ⟨here,inside,before⟩ := found
  apply And.intro (List.mem_range.mp inside) (And.intro ((q.occupied_iff index).mp here) _)
  intro c below
  have empty := before c below
  rw [Bool.not_eq_true',← Bool.not_eq_true,q.occupied_iff,not_not] at empty
  exact empty

theorem highestOccupied_none (q : BoundedPriorityRingQueue α) (none : q.highestOccupied = none) (index : Nat) :
    q.band index = [] := by
  rcases Nat.lt_or_ge index q.levels with inside | beyond
  · have empty := List.find?_eq_none.mp none index (List.mem_range.mpr inside)
    rw [q.occupied_iff,not_not] at empty
    exact empty
  · exact q.band_beyond index beyond

theorem spared_sublist (policy : Policy) (items : List α) : (spared policy items).Sublist items := by
  cases policy with
  | dropOldest => exact List.tail_sublist items
  | dropNewest => exact List.dropLast_sublist items

theorem spared_length (policy : Policy) (items : List α) (some : items ≠ []) :
    (spared policy items).length + 1 = items.length := by
  have positive := List.length_pos_iff.mpr some
  cases policy with
  | dropOldest =>
    rw [spared,List.length_tail]
    omega
  | dropNewest =>
    rw [spared,List.length_dropLast]
    omega

/-- All a `put` can do: take the item in, refuse it, or take it in for one of the least urgent. -/
theorem put_cases (q : BoundedPriorityRingQueue α) (item : α) (priority : Int) (opened : q.closed = false) :
    (q.size < q.capacity ∧ q.put item priority = (true,q.append (q.bandIndex priority) item)) ∨
      (q.capacity ≤ q.size ∧ (∀ c, q.bandIndex priority < c → q.band c = []) ∧
        q.put item priority = (false,q.discard (q.bandIndex priority))) ∨
      ∃ victim, q.capacity ≤ q.size ∧ victim < q.levels ∧ q.bandIndex priority ≤ victim ∧ q.band victim ≠ [] ∧
        (∀ c, victim < c → q.band c = []) ∧
        q.put item priority = (false,((q.withBand victim (spared q.policy (q.band victim))).discard victim).append
          (q.bandIndex priority) item) := by
  unfold put
  rw [if_neg (by simp [opened])]
  by_cases room : q.size < q.capacity
  · exact .inl ⟨room,if_pos room⟩
  · have full : q.capacity ≤ q.size := Nat.le_of_not_lt room
    rw [if_neg room]
    cases found : q.lowestOccupied with
    | none =>
      have nothing := q.size_empty found
      have roomy := q.roomy
      omega
    | some victim =>
      obtain ⟨inside,some,none⟩ := q.lowestOccupied_some victim found
      by_cases urgent : victim < q.bandIndex priority
      · exact .inr (.inl ⟨full,fun c above => none c (by omega),if_pos urgent⟩)
      · simp only [if_neg urgent]
        by_cases refused : victim = q.bandIndex priority ∧ q.policy = .dropNewest
        · exact .inr (.inl ⟨full,fun c above => none c (by omega),if_pos refused⟩)
        · rw [if_neg refused]
          exact .inr (.inr ⟨victim,full,inside,Nat.le_of_not_lt urgent,some,none,rfl⟩)

/-- A queue in use: what was put in it and what it returned, each with its band and in order. -/
structure Usage (α : Type) where
  queue : BoundedPriorityRingQueue α
  puts : List (Nat × α)
  returned : List (Nat × α)

inductive Call (α : Type) where
  | put (item : α) (priority : Int)
  | get

/-- What a `get` returns, with the band it leaves. -/
def returns (q : BoundedPriorityRingQueue α) : List (Nat × α) :=
  match q.highestOccupied,q.get.1 with
  | some index,some item => [(index,item)]
  | _,_ => []

def inBand (index : Nat) (items : List (Nat × α)) : List α := (items.filter (fun e => e.1 = index)).map Prod.snd

namespace Usage

def call (u : Usage α) : Call α → Usage α
  | .put item priority =>
    ⟨(u.queue.put item priority).2,u.puts ++ [(u.queue.bandIndex priority,item)],u.returned⟩
  | .get => ⟨u.queue.get.2,u.puts,u.returned ++ u.queue.returns⟩

/-- Any sequence of calls on a new queue that is never closed. -/
def calls (α : Type) : Machine (Usage α) (Call α) where
  initial := fun u => (∃ capacity policy levels roomy leveled,
    u.queue = create capacity policy levels roomy leveled) ∧ u.puts = [] ∧ u.returned = []
  enabled := fun _ _ => True
  next := call

structure Accounted (u : Usage α) : Prop where
  opened : u.queue.closed = false
  within : u.queue.size ≤ u.queue.capacity
  ordered : ∀ index, (inBand index u.returned ++ u.queue.band index).Sublist (inBand index u.puts)
  counted : ∀ index, (inBand index u.puts).length =
    (inBand index u.returned).length + (u.queue.band index).length + u.queue.droppedIn index
  total : u.queue.dropped = u.queue.droppedByBand.sum

end Usage

theorem inBand_append (index : Nat) (first second : List (Nat × α)) :
    inBand index (first ++ second) = inBand index first ++ inBand index second := by
  rw [inBand,List.filter_append,List.map_append]
  rfl

theorem inBand_single (index other : Nat) (item : α) :
    inBand index [(other,item)] = if index = other then [item] else [] := by
  by_cases same : index = other
  · simp [inBand,same]
  · simp [inBand,same,Ne.symm same]

theorem Usage.Accounted.taken (u : Usage α) (account : u.Accounted) (item : α) (index : Nat)
    (inside : index < u.queue.levels) (room : u.queue.size < u.queue.capacity) :
    Usage.Accounted ⟨u.queue.append index item,u.puts ++ [(index,item)],u.returned⟩ where
  opened := account.opened
  within := by
    change (u.queue.append index item).size ≤ u.queue.capacity
    rw [u.queue.size_append index item inside]
    exact room
  ordered := by
    intro other
    rw [inBand_append,inBand_single,u.queue.band_append index other item inside]
    have before := account.ordered other
    by_cases same : other = index
    · rw [if_pos same,if_pos same,← same,← List.append_assoc]
      exact before.append (List.Sublist.refl _)
    · rw [if_neg same,if_neg same,List.append_nil]
      exact before
  counted := by
    intro other
    have before := account.counted other
    dsimp only
    rw [inBand_append,inBand_single,u.queue.band_append index other item inside,droppedIn_append]
    by_cases same : other = index
    · rw [same] at before
      rw [if_pos same,if_pos same,same,List.length_append,List.length_append,List.length_singleton]
      omega
    · rw [if_neg same,if_neg same,List.append_nil]
      exact before
  total := account.total

theorem Usage.Accounted.refused (u : Usage α) (account : u.Accounted) (item : α) (index : Nat)
    (inside : index < u.queue.levels) :
    Usage.Accounted ⟨u.queue.discard index,u.puts ++ [(index,item)],u.returned⟩ where
  opened := account.opened
  within := account.within
  ordered := by
    intro other
    rw [inBand_append,band_discard]
    exact (account.ordered other).trans (List.sublist_append_left _ _)
  counted := by
    intro other
    have before := account.counted other
    dsimp only
    rw [inBand_append,inBand_single,band_discard,u.queue.droppedIn_discard index other inside]
    by_cases same : other = index
    · rw [same] at before
      rw [if_pos same,if_pos same,same,List.length_append,List.length_singleton]
      omega
    · rw [if_neg same,if_neg same,List.append_nil]
      exact before
  total := u.queue.dropped_discard index inside account.total

/-- The victim band gives up one item, which is counted against it. -/
theorem Usage.Accounted.shed (u : Usage α) (account : u.Accounted) (victim : Nat) (inside : victim < u.queue.levels)
    (some : u.queue.band victim ≠ []) :
    Usage.Accounted ⟨(u.queue.withBand victim (spared u.queue.policy (u.queue.band victim))).discard victim,
      u.puts,u.returned⟩ ∧
      ((u.queue.withBand victim (spared u.queue.policy (u.queue.band victim))).discard victim).size + 1 =
        u.queue.size := by
  have size := u.queue.size_withBand victim (spared u.queue.policy (u.queue.band victim)) inside
  have fewer := spared_length u.queue.policy (u.queue.band victim) some
  have smaller : (u.queue.withBand victim (spared u.queue.policy (u.queue.band victim))).size + 1 = u.queue.size := by
    omega
  constructor
  · constructor
    · exact account.opened
    · have within := account.within
      change (u.queue.withBand victim (spared u.queue.policy (u.queue.band victim))).size ≤ u.queue.capacity
      omega
    · intro other
      rw [band_discard,u.queue.band_withBand victim other _ inside]
      apply List.Sublist.trans _ (account.ordered other)
      apply List.Sublist.append (List.Sublist.refl _)
      split
      · rename_i same
        rw [same]
        exact spared_sublist _ _
      · exact List.Sublist.refl _
    · intro other
      have before := account.counted other
      dsimp only
      have inside' : victim < (u.queue.withBand victim (spared u.queue.policy (u.queue.band victim))).levels := inside
      rw [band_discard,u.queue.band_withBand victim other _ inside,
        droppedIn_discard _ victim other inside',droppedIn_withBand,droppedIn_withBand]
      by_cases same : other = victim
      · rw [same] at before
        rw [if_pos same,if_pos same,same]
        omega
      · rw [if_neg same,if_neg same]
        exact before
    · exact dropped_discard (u.queue.withBand victim _) victim inside account.total
  · exact smaller

theorem Usage.Accounted.put (u : Usage α) (account : u.Accounted) (item : α) (priority : Int) :
    (u.call (.put item priority)).Accounted := by
  have inside := u.queue.bandIndex_lt priority
  rcases u.queue.put_cases item priority account.opened with
    ⟨room,same⟩ | ⟨full,none,same⟩ | ⟨victim,full,there,urgent,some,none,same⟩
  · rw [Usage.call,same]
    exact account.taken u item _ inside room
  · rw [Usage.call,same]
    exact account.refused u item _ inside
  · rw [Usage.call,same]
    obtain ⟨left,smaller⟩ := account.shed u victim there some
    have within := account.within
    apply left.taken _ item (u.queue.bandIndex priority) inside
    change ((u.queue.withBand victim _).discard victim).size < u.queue.capacity
    omega

theorem Usage.Accounted.get (u : Usage α) (account : u.Accounted) : (u.call .get).Accounted := by
  rw [Usage.call]
  cases found : u.queue.highestOccupied with
  | none =>
    have same : u.queue.get = (none,u.queue) := by rw [BoundedPriorityRingQueue.get,found]
    rw [same,returns,found,List.append_nil]
    exact account
  | some index =>
    obtain ⟨inside,some,none⟩ := u.queue.highestOccupied_some index found
    obtain ⟨item,rest,items⟩ := List.exists_cons_of_ne_nil some
    have same : u.queue.get = (Option.some item,u.queue.withBand index rest) := by
      rw [BoundedPriorityRingQueue.get,found]
      simp only [items,List.head?_cons,List.tail_cons]
    have size := u.queue.size_withBand index rest inside
    have within := account.within
    rw [items,List.length_cons] at size
    rw [returns,found,same]
    constructor
    · exact account.opened
    · change (u.queue.withBand index rest).size ≤ u.queue.capacity
      omega
    · intro other
      have before := account.ordered other
      rw [inBand_append,inBand_single,u.queue.band_withBand index other rest inside]
      by_cases here : other = index
      · rw [here,items] at before
        rw [if_pos here,if_pos here,here,List.append_assoc]
        exact before
      · rw [if_neg here,if_neg here,List.append_nil]
        exact before
    · intro other
      have before := account.counted other
      dsimp only
      rw [inBand_append,inBand_single,u.queue.band_withBand index other rest inside,droppedIn_withBand]
      by_cases here : other = index
      · rw [here,items,List.length_cons] at before
        rw [if_pos here,if_pos here,here,List.length_append,List.length_singleton]
        omega
      · rw [if_neg here,if_neg here,List.append_nil]
        exact before
    · exact account.total

theorem Usage.create_accounted (u : Usage α) (new : (Usage.calls α).initial u) : u.Accounted := by
  obtain ⟨⟨capacity,policy,levels,roomy,leveled,same⟩,none,nothing⟩ := new
  have empty : ∀ index, u.queue.band index = [] := by
    intro index
    rw [same,band,create,List.getD_eq_getElem?_getD,List.getElem?_replicate]
    split <;> rfl
  have clear : ∀ index, u.queue.droppedIn index = 0 := by
    intro index
    rw [same,droppedIn,create,List.getD_eq_getElem?_getD,List.getElem?_replicate]
    split <;> rfl
  constructor
  · rw [same]
    rfl
  · have zero : u.queue.size = 0 := by simp [same,size,create]
    omega
  · intro index
    rw [empty,none,nothing]
    exact List.Sublist.refl _
  · intro index
    rw [empty,clear,none,nothing]
    rfl
  · simp [same,create]

theorem Usage.reachable_accounted (u : Usage α) (reached : (Usage.calls α).Reachable u) : u.Accounted := by
  apply reached.invariant Usage.Accounted
  · exact fun u new => u.create_accounted new
  · intro u c _ account _ _
    cases c with
    | put item priority => exact account.put u item priority
    | get => exact account.get u

/-- Only a full queue discards, and nothing less urgent than what it discards stays in it. -/
theorem Usage.Accounted.discards (u : Usage α) (account : u.Accounted) (item : α) (priority : Int) (index : Nat)
    (discarded : (u.queue.put item priority).2.droppedIn index ≠ u.queue.droppedIn index) :
    u.queue.size = u.queue.capacity ∧ (u.queue.put item priority).2.size = u.queue.capacity ∧
      ∀ c, index < c → (u.queue.put item priority).2.band c = [] := by
  have inside := u.queue.bandIndex_lt priority
  have within := account.within
  rcases u.queue.put_cases item priority account.opened with
    ⟨room,same⟩ | ⟨full,none,same⟩ | ⟨victim,full,there,urgent,some,none,same⟩
  · rw [same] at discarded
    exact absurd (u.queue.droppedIn_append _ index item) discarded
  · rw [same,u.queue.droppedIn_discard _ index inside] at discarded
    have here : index = u.queue.bandIndex priority := by
      by_contra other
      exact discarded (if_neg other)
    rw [same,here]
    exact ⟨Nat.le_antisymm within full,Nat.le_antisymm within full,none⟩
  · obtain ⟨left,smaller⟩ := account.shed u victim there some
    have levels : victim < (u.queue.withBand victim (spared u.queue.policy (u.queue.band victim))).levels := there
    rw [same,droppedIn_append,droppedIn_discard _ victim index levels,droppedIn_withBand,droppedIn_withBand] at discarded
    have here : index = victim := by
      by_contra other
      exact discarded (if_neg other)
    rw [same,here]
    apply And.intro (Nat.le_antisymm within full) (And.intro _ _)
    · have grown := size_append ((u.queue.withBand victim (spared u.queue.policy (u.queue.band victim))).discard victim)
        (u.queue.bandIndex priority) item inside
      exact grown.trans (smaller.trans (Nat.le_antisymm within full))
    · intro c above
      have placed := band_append ((u.queue.withBand victim (spared u.queue.policy (u.queue.band victim))).discard victim)
        (u.queue.bandIndex priority) c item inside
      rw [if_neg (by omega),band_discard,u.queue.band_withBand victim c _ there,if_neg (by omega)] at placed
      exact placed.trans (none c above)

theorem get_oldest (q : BoundedPriorityRingQueue α) :
    ((∀ c, q.band c = []) ∧ q.get = (none,q)) ∨
      ∃ index item rest, q.band index = item::rest ∧ (∀ c < index, q.band c = []) ∧
        q.get = (some item,q.withBand index rest) := by
  cases found : q.highestOccupied with
  | none => exact .inl ⟨q.highestOccupied_none found,by rw [BoundedPriorityRingQueue.get,found]⟩
  | some index =>
    obtain ⟨inside,some,none⟩ := q.highestOccupied_some index found
    obtain ⟨item,rest,items⟩ := List.exists_cons_of_ne_nil some
    apply Or.inr
    apply Exists.intro index
    refine ⟨item,rest,items,none,?_⟩
    rw [BoundedPriorityRingQueue.get,found]
    simp only [items,List.head?_cons,List.tail_cons]

/-- Bulk never displaces urgent, and nothing vanishes. -/
theorem bands_kept (u : Usage α) (reached : (Usage.calls α).Reachable u) :
    u.queue.size ≤ u.queue.capacity ∧
      (∀ index, (inBand index u.returned ++ u.queue.band index).Sublist (inBand index u.puts) ∧
        (inBand index u.puts).length =
          (inBand index u.returned).length + (u.queue.band index).length + u.queue.droppedIn index) ∧
      u.queue.dropped = u.queue.droppedByBand.sum ∧
      (∀ item priority index, (u.queue.put item priority).2.droppedIn index ≠ u.queue.droppedIn index →
        u.queue.size = u.queue.capacity ∧ (u.queue.put item priority).2.size = u.queue.capacity ∧
          ∀ c, index < c → (u.queue.put item priority).2.band c = []) ∧
      (((∀ c, u.queue.band c = []) ∧ u.queue.get = (none,u.queue)) ∨
        ∃ index item rest, u.queue.band index = item::rest ∧ (∀ c < index, u.queue.band c = []) ∧
          u.queue.get = (some item,u.queue.withBand index rest)) := by
  have account := Usage.reachable_accounted u reached
  refine ⟨account.within,fun index => ⟨account.ordered index,account.counted index⟩,account.total,?_,
    u.queue.get_oldest⟩
  exact fun item priority index discarded => account.discards u item priority index discarded

def pair : Usage Nat := ⟨create 2 .dropOldest 2 (by decide) (by decide),[],[]⟩

/-- An urgent item takes the place of the older of two bulk items. -/
def squeezed : Usage Nat := (Usage.calls Nat).runs pair [.put 10 1,.put 11 200,.put 12 (-3)]

theorem squeezed_reachable : (Usage.calls Nat).Reachable squeezed := by
  apply (Usage.calls Nat).reaches_runs _ pair _ (.start pair ⟨⟨2,.dropOldest,2,by decide,by decide,rfl⟩,rfl,rfl⟩)
  exact ⟨trivial,trivial,trivial,trivial,trivial,trivial,trivial⟩

theorem bands_kept_squeezed : squeezed.queue.bands = [[12],[11]] ∧ squeezed.queue.droppedByBand = [0,1] ∧
    squeezed.queue.size ≤ squeezed.queue.capacity ∧ squeezed.queue.dropped = squeezed.queue.droppedByBand.sum := by
  have kept := bands_kept squeezed squeezed_reachable
  exact ⟨by decide,by decide,kept.1,kept.2.2.1⟩

end BoundedPriorityRingQueue
end AmigaFleet.Lora
