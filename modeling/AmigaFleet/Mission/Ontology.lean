import AmigaFleet.Mission.Element
import AmigaFleet.Lib.Dict

/-! What the actions mean: what each one needs and what it leaves true. A move
retracts where the robot was; having sampled a tree is permanent. -/
namespace AmigaFleet.Mission
open Lib

inductive FactKind where
  | atTree
  | atWaypoint
  | atGps
  | inAisle
  | sampledTree
  | armPositioned
  deriving DecidableEq, Repr

def FactKind.text : FactKind → String
  | atTree => "at_tree"
  | atWaypoint => "at_waypoint"
  | atGps => "at_gps"
  | inAisle => "in_aisle"
  | sampledTree => "sampled_tree"
  | armPositioned => "arm_positioned"

def whereKinds : List FactKind := [.atTree,.atWaypoint,.atGps]
def travelKinds : List FactKind := whereKinds ++ [.inAisle]

structure Fact where
  kind : FactKind
  arg : String := ""
  deriving DecidableEq, Repr

inductive Strength where
  | required
  | expected
  deriving DecidableEq, Repr

structure Need where
  kind : FactKind
  strength : Strength := .required
  arg : String := ""
  deriving DecidableEq, Repr

namespace Need

/-- An empty argument asks for any binding. -/
def metBy (need : Need) (fact : Fact) : Bool :=
  fact.kind = need.kind && (need.arg = "" || fact.arg = need.arg)

def text (need : Need) : String :=
  if need.arg = "" then need.kind.text ++ "(?)" else need.kind.text ++ "(" ++ need.arg ++ ")"

def phrase (need : Need) : String :=
  match need.kind with
  | .atTree => "a preceding <MoveToTreeID approach_tree=\"true\">"
  | .atWaypoint => "a preceding <MoveToTreeID>"
  | .atGps => "a preceding <MoveToGPSLocation> or <ApproachGPSWaypoint>"
  | .inAisle => "a preceding <MoveToAisleHead>"
  | .armPositioned => "a preceding <MoveArmToPosition>"
  | .sampledTree => need.text

end Need

inductive Proposition where
  | objective
  | achievement
  | done
  | silent
  deriving DecidableEq, Repr

/-- One action, resolved against the state it would run in. -/
structure Step where
  tag : Capability
  name : String
  needs : List Need
  establishes : List Fact
  clears : List FactKind
  proposition : Proposition
  unmet : List Need := []
  defect : Option String := none

/-- Why the step must be refused, if it must. -/
def Step.violation (step : Step) : Option String :=
  match step.defect with
  | some reason => some reason
  | none => (step.unmet.find? (fun need => need.strength = .required)).map (fun need =>
      "<" ++ step.tag.xmlElement ++ "> '" ++ step.name ++ "' requires " ++ need.phrase ++
        ", and nothing before it in the plan establishes that")

structure State where
  facts : List Fact := []

namespace State

def holding (s : State) (kind : FactKind) : Option Fact := s.facts.find? (fun fact => fact.kind = kind)

def meets (s : State) (need : Need) : Bool := s.facts.any need.metBy

def after (s : State) (step : Step) : State :=
  ⟨s.facts.filter (fun fact => fact.kind ∉ step.clears) ++ step.establishes⟩

def merge (s other : State) : State := ⟨s.facts.filter (fun fact => fact ∈ other.facts)⟩

end State

structure Orchard where
  aisleByTree : Dict Int Int

def Orchard.aisleOf (orchard : Orchard) (tree : String) : Option Int :=
  (Text.int tree).bind orchard.aisleByTree.get?

/-- `orchard.aisle_of(tree) if orchard is not None else None`, as text. -/
def aisleText (orchard : Option Orchard) (tree : String) : Option String :=
  (orchard.bind (fun map => map.aisleOf tree)).map toString

/-- What one rule of the table says of an element. -/
structure Row where
  needs : List Need := []
  establishes : List Fact := []
  clears : List FactKind := []
  proposition : Proposition := .done
  defect : Option String := none

def moveToTree (a : Action) (orchard : Option Orchard) : Row :=
  let tree := a.text "id"
  if tree = "" then { defect := some ("<MoveToTreeID> '" ++ a.shown ++ "' has no id") }
  else
    let here : Fact := ⟨if a.approach then .atTree else .atWaypoint,tree⟩
    { needs := [⟨.inAisle,.expected,(aisleText orchard tree).getD ""⟩]
      establishes := here :: ((aisleText orchard tree).map (fun aisle => (⟨.inAisle,aisle⟩ : Fact))).toList
      clears := travelKinds
      proposition := if a.approach then .objective else .silent }

def moveToAisleHead (a : Action) : Row :=
  let aisle := a.text "id"
  if aisle = "" then { defect := some ("<MoveToAisleHead> '" ++ a.shown ++ "' has no id") }
  else { establishes := [⟨.inAisle,aisle⟩], clears := travelKinds }

def sampleLeaf (s : State) : Row where
  needs := [⟨.atTree,.required,""⟩]
  establishes := ((s.holding .atTree).map (fun here => (⟨.sampledTree,here.arg⟩ : Fact))).toList
  proposition := .achievement

def gps (a : Action) : Row :=
  match a.get "latitude",a.get "longitude" with
  | some lat,some lon => { establishes := [⟨.atGps,lat ++ "," ++ lon⟩], clears := travelKinds }
  | _,_ => { defect := some ("<" ++ a.tag.xmlElement ++ "> '" ++ a.shown ++ "' has no coordinates") }

def table (a : Action) (orchard : Option Orchard) (s : State) : Row :=
  match a.tag with
  | .moveToTreeID => moveToTree a orchard
  | .moveToAisleHead => moveToAisleHead a
  | .moveToGPSLocation => gps a
  | .approachGPSWaypoint => gps a
  | .moveToRelativeLocation => {}
  | .orientRobotHeading => {}
  | .followPerson => { clears := travelKinds }
  | .moveArmToPosition => { establishes := [⟨.armPositioned,""⟩] }
  | .sampleLeaf => sampleLeaf s

def advance (s : State) (a : Action) (orchard : Option Orchard) : Step × State :=
  let row := table a orchard s
  let step : Step :=
    { tag := a.tag, name := a.shown, needs := row.needs, establishes := row.establishes, clears := row.clears
      proposition := row.proposition
      unmet := row.needs.filter (fun need => !s.meets need)
      defect := row.defect }
  (step,if step.defect.isSome then s else s.after step)

/-- The steps of a walk, each resolved where the walk reaches it. -/
def steps (orchard : Option Orchard) : State → List Action → List Step
  | _,[] => []
  | s,a::rest => (advance s a orchard).1 :: steps orchard (advance s a orchard).2 rest

def reach (orchard : Option Orchard) (s : State) (actions : List Action) : State :=
  actions.foldl (fun s a => (advance s a orchard).2) s

/-- Every required precondition the plan breaks, in plan order. -/
def violations (root : Element) (orchard : Option Orchard) : List String :=
  (steps orchard {} ((actionsIn root).map Prod.snd)).filterMap Step.violation

end AmigaFleet.Mission
