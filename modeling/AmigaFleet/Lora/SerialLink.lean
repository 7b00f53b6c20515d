import AmigaFleet.Lib.Machine
import Mathlib.Data.Rat.Defs
import Mathlib.Algebra.Order.Ring.Rat
import Mathlib.Tactic.Linarith

/-! A serial port that reopens itself. What the device answers to an attempt to open
it is an input: a handle, or the text of the exception. -/
namespace AmigaFleet.Lora
open Lib

inductive LinkEvent where
  | cannotOpen (reason : String)
  | opened
  | dropping (reason : String)
  deriving DecidableEq, Repr

def LinkEvent.level : LinkEvent → String
  | cannotOpen _ | dropping _ => "warn"
  | opened => "info"

def LinkEvent.message (port : String) (baud : Int) : LinkEvent → String
  | cannotOpen reason => "cannot open " ++ port ++ ": " ++ reason
  | opened => "opened " ++ port ++ " at " ++ toString baud ++ " baud"
  | dropping reason => "dropping " ++ port ++ ": " ++ reason

structure SerialLink (H : Type) where
  port : String
  baud : Int
  reconnectPeriod : ℚ
  serial : Option H := none
  nextAttempt : ℚ := 0
  closed : Bool := false

namespace SerialLink
variable {H : Type}

def isOpen (l : SerialLink H) : Bool := l.serial.isSome

/-- A call to `get` that tries to open the device. -/
def due (l : SerialLink H) (now : ℚ) : Bool := !l.closed && l.serial.isNone && !(now < l.nextAttempt)

def get (l : SerialLink H) (now : ℚ) (opens : Except String H) : Option H × SerialLink H × List LinkEvent :=
  if l.closed then (none,l,[])
  else
    match l.serial with
    | some handle => (some handle,l,[])
    | none =>
      if now < l.nextAttempt then (none,l,[])
      else
        let l := { l with nextAttempt := now + l.reconnectPeriod }
        match opens with
        | .error reason => (none,l,[.cannotOpen reason])
        | .ok handle => (some handle,{ l with serial := some handle },[.opened])

def drop (l : SerialLink H) (now : ℚ) (reason : String) : SerialLink H × List LinkEvent :=
  match l.serial with
  | none => (l,[])
  | some _ => ({ l with serial := none, nextAttempt := now + l.reconnectPeriod },[.dropping reason])

def close (l : SerialLink H) : SerialLink H := { l with closed := true, serial := none }

theorem get_closed (l : SerialLink H) (now : ℚ) (opens : Except String H) (closed : l.closed = true) :
    l.get now opens = (none,l,[]) := if_pos closed

/-- All a `get` can do. -/
theorem get_cases (l : SerialLink H) (now : ℚ) (opens : Except String H) :
    l.get now opens = (if l.closed then none else l.serial,l,[]) ∨
      (l.closed = false ∧ l.serial = none ∧ l.nextAttempt ≤ now ∧
        ((∃ reason, opens = .error reason ∧
            l.get now opens = (none,{ l with nextAttempt := now + l.reconnectPeriod },[.cannotOpen reason])) ∨
          ∃ handle, opens = .ok handle ∧ l.get now opens =
            (some handle,{ l with nextAttempt := now + l.reconnectPeriod, serial := some handle },[.opened]))) := by
  unfold get
  cases closed : l.closed with
  | true => exact .inl rfl
  | false =>
    cases serial : l.serial with
    | some handle => exact .inl rfl
    | none =>
      by_cases early : now < l.nextAttempt
      · exact .inl (by simp [early])
      · apply Or.inr
        cases opens with
        | error reason => exact ⟨rfl,rfl,not_lt.mp early,.inl ⟨reason,rfl,by simp [early]⟩⟩
        | ok handle => exact ⟨rfl,rfl,not_lt.mp early,.inr ⟨handle,rfl,by simp [early]⟩⟩

/-- A link in use: the last time read, what happened when, and the handles opened and shut. -/
structure Life (H : Type) where
  link : SerialLink H
  clock : ℚ
  events : List (ℚ × LinkEvent)
  opened : List H
  shut : List H

inductive Call (H : Type) where
  | get (now : ℚ) (opens : Except String H)
  | drop (now : ℚ) (reason : String)
  | close

def openedBy : List LinkEvent → Except String H → List H
  | [.opened],.ok handle => [handle]
  | _,_ => []

namespace Life

def call (u : Life H) : Call H → Life H
  | .get now opens =>
    let (_,link,events) := u.link.get now opens
    ⟨link,now,u.events ++ events.map (fun e => (now,e)),u.opened ++ openedBy events opens,u.shut⟩
  | .drop now reason =>
    let (link,events) := u.link.drop now reason
    ⟨link,now,u.events ++ events.map (fun e => (now,e)),u.opened,u.shut ++ u.link.serial.toList⟩
  | .close => ⟨u.link.close,u.clock,u.events,u.opened,u.shut ++ u.link.serial.toList⟩

/-- Any calls of any threads, at times that do not go back. -/
def calls (H : Type) : Machine (Life H) (Call H) where
  initial := fun u => (∃ port baud period, u.link = { port := port, baud := baud, reconnectPeriod := period }) ∧
    u.clock = 0 ∧ u.events = [] ∧ u.opened = [] ∧ u.shut = []
  enabled := fun u c =>
    match c with
    | .get now _ | .drop now _ => u.clock ≤ now
    | .close => True
  next := call

/-- An attempt comes a period after whatever happened before it. -/
def Spaced (period : ℚ) (first second : ℚ × LinkEvent) : Prop :=
  (∀ reason, second.2 ≠ .dropping reason) → first.1 + period ≤ second.1

structure Kept (u : Life H) : Prop where
  handles : u.opened = u.shut ++ u.link.serial.toList
  dead : u.link.closed = true → u.link.serial = none
  counted : (u.events.filter (fun e => e.2 = .opened)).length = u.opened.length
  past : ∀ e ∈ u.events, e.1 ≤ u.clock
  waits : 0 ≤ u.link.reconnectPeriod → ∀ e ∈ u.events, e.1 + u.link.reconnectPeriod ≤ u.link.nextAttempt
  spaced : 0 ≤ u.link.reconnectPeriod → u.events.Pairwise (Spaced u.link.reconnectPeriod)

theorem past_append (events : List (ℚ × LinkEvent)) (clock now : ℚ) (event : LinkEvent) (later : clock ≤ now)
    (past : ∀ e ∈ events, e.1 ≤ clock) : ∀ e ∈ events ++ [(now,event)], e.1 ≤ now := by
  intro e here
  obtain before | last := List.mem_append.mp here
  · exact (past e before).trans later
  · obtain rfl := List.mem_singleton.mp last
    exact le_rfl

/-- An attempt that was due keeps the distance, and puts the next one off. -/
theorem spaced_attempt (events : List (ℚ × LinkEvent)) (period next now : ℚ) (event : LinkEvent) (due : next ≤ now)
    (waits : ∀ e ∈ events, e.1 + period ≤ next) (spaced : events.Pairwise (Spaced period)) :
    (events ++ [(now,event)]).Pairwise (Spaced period) := by
  apply List.pairwise_append.mpr ⟨spaced,List.pairwise_singleton _ _,_⟩
  intro e here last member _
  obtain rfl := List.mem_singleton.mp member
  exact (waits e here).trans due

theorem waits_past (events : List (ℚ × LinkEvent)) (period now : ℚ) (past : ∀ e ∈ events, e.1 ≤ now) :
    ∀ e ∈ events, e.1 + period ≤ now + period := by
  intro e here
  have before := past e here
  linarith

theorem Kept.get (u : Life H) (kept : u.Kept) (now : ℚ) (opens : Except String H) (later : u.clock ≤ now) :
    (u.call (.get now opens)).Kept := by
  obtain ⟨handles,dead,counted,past,waits,spaced⟩ := kept
  rw [call]
  obtain same | ⟨opened,none,due,⟨reason,rfl,same⟩ | ⟨handle,rfl,same⟩⟩ := u.link.get_cases now opens
  · rw [same]
    simp only [List.map_nil,List.append_nil,openedBy]
    exact ⟨handles,dead,counted,fun e here => (past e here).trans later,waits,spaced⟩
  · have reached := past_append u.events u.clock now (.cannotOpen reason) later past
    rw [same]
    constructor
    · simpa [openedBy] using handles
    · exact dead
    · simpa [openedBy] using counted
    · exact reached
    · exact fun _ => waits_past _ _ now reached
    · exact fun positive => spaced_attempt _ _ _ now _ due (waits positive) (spaced positive)
  · have reached := past_append u.events u.clock now .opened later past
    rw [same]
    constructor
    · rw [handles,none]
      simp [openedBy]
    · intro closed
      rw [opened] at closed
      cases closed
    · simpa [openedBy] using counted
    · exact reached
    · exact fun _ => waits_past _ _ now reached
    · exact fun positive => spaced_attempt _ _ _ now _ due (waits positive) (spaced positive)

theorem Kept.drop (u : Life H) (kept : u.Kept) (now : ℚ) (reason : String) (later : u.clock ≤ now) :
    (u.call (.drop now reason)).Kept := by
  obtain ⟨handles,dead,counted,past,waits,spaced⟩ := kept
  rw [call,SerialLink.drop]
  cases serial : u.link.serial with
  | none =>
    simp only [List.map_nil,List.append_nil,Option.toList_none]
    exact ⟨handles,dead,counted,fun e here => (past e here).trans later,waits,spaced⟩
  | some handle =>
    have reached := past_append u.events u.clock now (.dropping reason) later past
    constructor
    · simpa [serial] using handles
    · exact fun _ => rfl
    · simpa using counted
    · exact reached
    · exact fun _ => waits_past _ _ now reached
    · intro positive
      apply List.pairwise_append.mpr ⟨spaced positive,List.pairwise_singleton _ _,_⟩
      intro e here last member attempt
      obtain rfl := List.mem_singleton.mp member
      exact absurd rfl (attempt reason)

theorem Kept.close (u : Life H) (kept : u.Kept) : (u.call .close).Kept := by
  obtain ⟨handles,dead,counted,past,waits,spaced⟩ := kept
  constructor
  · simpa [call,SerialLink.close] using handles
  · exact fun _ => rfl
  · exact counted
  · exact past
  · exact waits
  · exact spaced

theorem reachable_kept (u : Life H) (reached : (calls H).Reachable u) : u.Kept := by
  apply reached.invariant Kept
  · rintro u ⟨⟨port,baud,period,same⟩,_,events,opened,shut⟩
    constructor
    · simp [same,opened,shut]
    · exact fun _ => by rw [same]
    · simp [events,opened]
    · simp [events]
    · simp [events]
    · simp [events]
  · intro u c _ kept enabled _
    cases c with
    | get now opens => exact kept.get u now opens enabled
    | drop now reason => exact kept.drop u now reason enabled
    | close => exact kept.close u

/-- Every handle opened is shut once, before the next is opened; after `close` no handle
is open and none is opened again; and attempts keep the period from each other and
from every drop, whichever thread makes them. -/
theorem link_kept (u : Life H) (reached : (calls H).Reachable u) :
    u.opened = u.shut ++ u.link.serial.toList ∧
      (u.events.filter (fun e => e.2 = .opened)).length = u.opened.length ∧
      (u.link.closed = true → u.link.serial = none ∧ ∀ now opens, u.link.get now opens = (none,u.link,[])) ∧
      (0 ≤ u.link.reconnectPeriod → u.events.Pairwise (Spaced u.link.reconnectPeriod)) := by
  have kept := reachable_kept u reached
  refine ⟨kept.handles,kept.counted,?_,kept.spaced⟩
  exact fun closed => ⟨kept.dead closed,fun now opens => u.link.get_closed now opens closed⟩

def unplugged : Life Nat := ⟨{ port := "/dev/ttyUSB0", baud := 115200, reconnectPeriod := 2 },0,[],[],[]⟩

/-- A cable pulled and put back: refused once, opened, dropped, and opened again. -/
def replugged : Life Nat := (calls Nat).runs unplugged
  [.get 1 (.error "no such file"),.get 2 (.ok 7),.get 3 (.ok 7),.drop 4 "read failed",.get 5 (.ok 8),.get 6 (.ok 8)]

theorem replugged_reachable : (calls Nat).Reachable replugged := by
  apply (calls Nat).reaches_runs _ unplugged _ (.start unplugged ⟨⟨_,_,2,rfl⟩,rfl,rfl,rfl,rfl⟩)
  simp only [Machine.Follows,calls,unplugged,call]
  norm_num [SerialLink.get,SerialLink.drop]

theorem link_kept_replugged : replugged.opened = [7,8] ∧ replugged.shut = [7] ∧
    replugged.opened = replugged.shut ++ replugged.link.serial.toList ∧ replugged.events.Pairwise (Spaced replugged.link.reconnectPeriod) := by
  have kept := link_kept replugged replugged_reachable
  exact ⟨by decide +kernel,by decide +kernel,kept.1,kept.2.2.2 (by decide +kernel)⟩

end Life
end SerialLink
end AmigaFleet.Lora
