import AmigaFleet.Lib.Json
import AmigaFleet.Lib.Dict
import AmigaFleet.Lib.Throttle
import Mathlib.Algebra.Order.Ring.Rat

/-! The fault reporter: which status changes of a tree's nodes are published, and as
what. One map holds back failures and another successes. -/
namespace AmigaFleet.Runner
open Lib

inductive NodeStatus where
  | idle
  | running
  | success
  | failure
  | skipped
  deriving DecidableEq

/-- `BT::toStr`. -/
def NodeStatus.name : NodeStatus → String
  | idle => "IDLE"
  | running => "RUNNING"
  | success => "SUCCESS"
  | failure => "FAILURE"
  | skipped => "SKIPPED"

inductive NodeType where
  | undefined
  | action
  | condition
  | control
  | decorator
  | subtree
  deriving DecidableEq

def NodeType.name : NodeType → String
  | undefined => "Undefined"
  | action => "Action"
  | condition => "Condition"
  | control => "Control"
  | decorator => "Decorator"
  | subtree => "SubTree"

structure TreeNode where
  uid : UInt16
  name : String
  registrationName : String
  path : String
  type : NodeType
  deriving DecidableEq

/-- A status change, with the clock of the reporter's node when it is told. -/
structure Transition where
  now : ℚ
  node : TreeNode
  prevStatus : NodeStatus
  status : NodeStatus
  deriving DecidableEq

namespace Transition

/-- A leaf failed. A control node that fails reports its child's. -/
def isFailure (t : Transition) : Bool :=
  (t.node.type = .action || t.node.type = .condition) && t.status = .failure

/-- An action succeeded. -/
def isSuccess (t : Transition) : Bool := t.node.type = .action && t.status = .success

def notable (t : Transition) : Bool := t.isFailure || t.isSuccess

theorem not_both (t : Transition) (failed : t.isFailure = true) : t.isSuccess = false := by
  simp only [isFailure,Bool.and_eq_true,decide_eq_true_eq] at failed
  simp [isSuccess,failed.2]

def timestampMs (now : ℚ) : Int := (now*1000).num.tdiv (now*1000).den

/-- The event, its keys in the order that the dump prints them in. -/
def event (t : Transition) : List (String × Json) :=
  [("node",.str t.node.name),("node_type",.str t.node.type.name),("path",.str t.node.path),
    ("prev_status",.str t.prevStatus.name),("reason",.str ""),
    ("registration_name",.str t.node.registrationName),("source",.str "leaf"),
    ("status",.str t.status.name),("timestamp_ms",.int (timestampMs t.now)),("uid",.int t.node.uid.toNat)]

end Transition

structure FaultReporter where
  minIntervalSec : ℚ
  lastFailureReported : Dict UInt16 ℚ := .empty
  lastSuccessReported : Dict UInt16 ℚ := .empty

/-- What goes out when the tree has returned. -/
def treeOutcome (now : ℚ) (status : NodeStatus) : List (String × Json) :=
  [("node",.str "<tree>"),("node_type",.str "TREE"),
    ("reason",.str (if status = .failure then "the behaviour tree returned FAILURE"
      else "the behaviour tree returned SUCCESS")),
    ("source",.str "tree"),("status",.str status.name),("timestamp_ms",.int (Transition.timestampMs now))]

namespace FaultReporter

/-- `throttle_map[uid] = now`. -/
def note (r : FaultReporter) (t : Transition) : FaultReporter :=
  if t.isFailure then { r with lastFailureReported := r.lastFailureReported.set t.node.uid t.now }
  else { r with lastSuccessReported := r.lastSuccessReported.set t.node.uid t.now }

/-- `callback`: whether the change is published. -/
def callback (r : FaultReporter) (t : Transition) : Bool × FaultReporter :=
  if !t.isFailure && !t.isSuccess then (false,r)
  else
    let throttleMap := if t.isFailure then r.lastFailureReported else r.lastSuccessReported
    if (throttleMap.get? t.node.uid).any (fun last => t.now - last < r.minIntervalSec) then (false,r)
    else (true,r.note t)

/-- The changes of a tick, one after another, and those published. -/
def callbacks (r : FaultReporter) : List Transition → List Transition × FaultReporter
  | [] => ([],r)
  | t::rest =>
    let (told,r) := r.callback t
    let (later,r) := callbacks r rest
    (if told then t::later else later,r)

def near (interval last now : ℚ) : Bool := now - last < interval

/-- A node with the map that a change of it is throttled by. -/
def kind (t : Transition) : Bool × UInt16 := (t.isFailure,t.node.uid)

/-- Both maps as one. -/
def last (r : FaultReporter) (k : Bool × UInt16) : Option ℚ :=
  (if k.1 then r.lastFailureReported else r.lastSuccessReported).get? k.2

def held (r : FaultReporter) (t : Transition) : Bool :=
  Throttle.held kind Transition.now (near r.minIntervalSec) r.last t

theorem callback_eq (r : FaultReporter) (t : Transition) :
    r.callback t = if t.notable && !r.held t then (true,r.note t) else (false,r) := by
  have quiet : (!t.isFailure && !t.isSuccess) = !t.notable := by simp [Transition.notable]
  have apart : ((if t.isFailure then r.lastFailureReported else r.lastSuccessReported).get? t.node.uid).any
      (fun last => t.now - last < r.minIntervalSec) = r.held t := rfl
  simp only [callback,quiet,apart]
  cases t.notable <;> cases r.held t <;> rfl

theorem note_last (r : FaultReporter) (t : Transition) :
    (r.note t).last = Function.update r.last (kind t) (some t.now) := by
  ext1 k
  obtain ⟨failed,uid⟩ := k
  simp only [Function.update_apply,kind,Prod.mk.injEq,last,note]
  cases status : t.isFailure <;> cases failed <;> simp [Dict.get?_set]

theorem note_interval (r : FaultReporter) (t : Transition) : (r.note t).minIntervalSec = r.minIntervalSec := by
  rw [note]
  split_ifs <;> rfl

/-- The changes told so far and those published, against the two maps. -/
def Faithful (changes told : List Transition) (r : FaultReporter) : Prop :=
  Throttle.Kept kind Transition.now (near r.minIntervalSec) (changes.filter Transition.notable) told r.last

namespace Faithful
variable {changes told : List Transition} {r : FaultReporter}

theorem start (interval : ℚ) : Faithful [] [] { minIntervalSec := interval } := by
  have fresh : ({ minIntervalSec := interval } : FaultReporter).last = fun _ => none := by
    ext1 k
    rw [last]
    cases k.1 <;> rfl
  rw [Faithful,fresh]
  exact Throttle.Kept.start

theorem callback (faithful : Faithful changes told r) (t : Transition) :
    Faithful (changes ++ [t]) (if (r.callback t).1 then told ++ [t] else told) (r.callback t).2 := by
  rw [callback_eq]
  cases notable : t.notable with
  | false => simpa [Faithful,List.filter_append,notable] using faithful
  | true =>
    have offered : (changes ++ [t]).filter Transition.notable = changes.filter Transition.notable ++ [t] := by
      rw [List.filter_append,List.filter_singleton,notable]
      rfl
    rw [Faithful,offered]
    cases close : r.held t with
    | true => exact Throttle.Kept.hold faithful close
    | false =>
      have passed := Throttle.Kept.pass faithful close
      rw [← note_last] at passed
      simp only [Bool.not_false,Bool.and_self,if_true,note_interval]
      exact passed

theorem callbacks (faithful : Faithful changes told r) (ticked : List Transition) :
    Faithful (changes ++ ticked) (told ++ (r.callbacks ticked).1) (r.callbacks ticked).2 := by
  induction ticked generalizing changes told r with
  | nil => simpa [FaultReporter.callbacks] using faithful
  | cons t rest ih =>
    have later := ih (faithful.callback t)
    rw [FaultReporter.callbacks]
    generalize r.callback t = answer at later ⊢
    obtain ⟨passed,after⟩ := answer
    cases passed <;> simpa using later

/-- A notable change is published, or one of its kind that came before it within the interval is. -/
theorem covered (faithful : Faithful changes told r) (front back : List Transition) (t : Transition)
    (split : changes = front ++ t::back) (notable : t.notable = true) :
    ∃ ahead, ahead <+: told ∧ ahead.Sublist (front ++ [t]) ∧
      ∃ e ∈ ahead, kind e = kind t ∧ (e = t ∨ t.now - e.now < r.minIntervalSec) := by
  have offered : changes.filter Transition.notable =
      front.filter Transition.notable ++ t::back.filter Transition.notable := by
    rw [split,List.filter_append,List.filter_cons_of_pos notable]
  obtain ⟨ahead,isPrefix,sublist,e,inside,same,close⟩ := Throttle.Kept.covered faithful _ t _ offered
  refine ⟨ahead,isPrefix,sublist.trans (List.filter_sublist.append_right _),e,inside,same,?_⟩
  exact close.imp_right of_decide_eq_true

theorem spaced (faithful : Faithful changes told r) (k : Bool × UInt16) :
    (told.filter (fun t => kind t = k)).IsChain (fun a b => r.minIntervalSec ≤ b.now - a.now) :=
  (Throttle.Kept.apart faithful k).imp (fun a b far => by simpa [near] using far)

end Faithful
end FaultReporter
end AmigaFleet.Runner
