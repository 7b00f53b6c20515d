import AmigaFleet.Lib.Tree
import AmigaFleet.Lib.Text

/-! The elements of a mission: the four control nodes, the nine actions and the
text their attributes carry. -/
namespace AmigaFleet.Mission
open Lib

abbrev Attributes : Type := List (String × String)

inductive ControlTag where
  | sequence
  | reactiveSequence
  | fallback
  | retryUntilSuccessful
  deriving DecidableEq, Repr

def ControlTag.name : ControlTag → String
  | sequence => "Sequence"
  | reactiveSequence => "ReactiveSequence"
  | fallback => "Fallback"
  | retryUntilSuccessful => "RetryUntilSuccessful"

/-- What a robot can do, in the order of the capability bits. -/
inductive Capability where
  | moveToTreeID
  | moveToAisleHead
  | moveToGPSLocation
  | approachGPSWaypoint
  | moveToRelativeLocation
  | orientRobotHeading
  | followPerson
  | sampleLeaf
  | moveArmToPosition
  deriving DecidableEq, Repr

namespace Capability

def all : List Capability :=
  [moveToTreeID,moveToAisleHead,moveToGPSLocation,approachGPSWaypoint,moveToRelativeLocation,orientRobotHeading,
    followPerson,sampleLeaf,moveArmToPosition]

def xmlElement : Capability → String
  | moveToTreeID => "MoveToTreeID"
  | moveToAisleHead => "MoveToAisleHead"
  | moveToGPSLocation => "MoveToGPSLocation"
  | approachGPSWaypoint => "ApproachGPSWaypoint"
  | moveToRelativeLocation => "MoveToRelativeLocation"
  | orientRobotHeading => "OrientRobotHeading"
  | followPerson => "FollowPerson"
  | sampleLeaf => "SampleLeaf"
  | moveArmToPosition => "MoveArmToPosition"

end Capability

structure Control where
  tag : ControlTag
  attributes : Attributes := []
  deriving DecidableEq, Repr

structure Action where
  tag : Capability
  attributes : Attributes := []
  deriving DecidableEq, Repr

def Control.get (control : Control) (key : String) : Option String := control.attributes.lookup key

def Action.get (action : Action) (key : String) : Option String := action.attributes.lookup key

abbrev Element : Type := Tree Control Action

/-- An action leaf: which element it is, and what it says. -/
abbrev Leaf : Type := Nat × Action

namespace Action

/-- `(element.get(key) or "").strip()`. -/
def text (action : Action) (key : String) : String := Text.strip ((action.get key).getD "")

/-- `(element.get("approach_tree") or "").strip().lower() == "true"`. -/
def approach (action : Action) : Bool := Text.isTrue ((action.get "approach_tree").getD "")

/-- The name, for a message. -/
def shown (action : Action) : String :=
  match action.get "name" with
  | none => "<unnamed>"
  | some name => if name = "" then "<unnamed>" else name

end Action

/-- A plan: the one control node a behaviour tree holds. -/
structure Plan where
  ref : Nat
  control : Control
  children : List Element
  distinct : Tree.Distinct (.node ref control children)

def Plan.root (plan : Plan) : Element := .node plan.ref plan.control plan.children

/-- `actions_in`: every action leaf, in document order. -/
def actionsIn (root : Element) : List Leaf := root.leaves

@[simp] theorem actionsIn_leaf (ref : Nat) (a : Action) : actionsIn (.leaf ref a) = [(ref,a)] := rfl
@[simp] theorem actionsIn_node (ref : Nat) (control : Control) (children : List Element) :
    actionsIn (.node ref control children) = children.flatMap actionsIn := Tree.leaves_node ref control children

end AmigaFleet.Mission
