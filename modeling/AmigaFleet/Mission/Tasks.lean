import AmigaFleet.Mission.Ontology
import AmigaFleet.Codec.Definitions
import AmigaFleet.Lib.Checksum
import AmigaFleet.Lib.Groups

/-! A mission read as units of work that can be handed over: how it comes apart,
what each unit is called, and what goes with it when it leaves. -/
namespace AmigaFleet.Mission
open Lib Codec

def targetActions : List Capability := [.moveToTreeID,.moveToAisleHead,.approachGPSWaypoint,.moveToGPSLocation]
def movementActions : List Capability := targetActions ++ [.moveToRelativeLocation,.orientRobotHeading]
def defaultPriority : Int := 100

/-- One unit of a mission. The elements of `xml` are those it is a copy of. -/
structure MissionTask where
  taskId : Nat
  name : String
  capabilities : Nat
  target : Target
  priority : Int := defaultPriority
  xml : Option Element := none

def Capability.index : Capability → Nat
  | moveToTreeID => 0
  | moveToAisleHead => 1
  | moveToGPSLocation => 2
  | approachGPSWaypoint => 3
  | moveToRelativeLocation => 4
  | orientRobotHeading => 5
  | followPerson => 6
  | sampleLeaf => 7
  | moveArmToPosition => 8

def capMask (capabilities : List Capability) : Nat :=
  capabilities.foldl (fun mask capability => mask ||| 1 <<< capability.index) 0

def capabilitiesOf (actions : List Action) : Nat := capMask (actions.map Action.tag)

def indexTarget (raw : Option String) (kind : TargetKind) : Option Target :=
  (raw.bind Text.int).bind (fun value => Target.ofWords? kind.code value 0)

/-- A name that is not empty. -/
def Action.named (a : Action) : Option String := (a.get "name").filter (· ≠ "")

/-- `_split_declaration`: the label, and the task id that the name declares. The
pattern's `$` also stands in front of one last line feed. -/
def splitDeclaration (name : String) : String × Option Nat :=
  let line := if name.toList.getLast? = some '\n' then name.toList.dropLast else name.toList
  let digits := (line.reverse.takeWhile (fun c => (Text.digit c).isSome)).reverse
  let front := line.take (line.length - digits.length)
  let value := digits.foldl (fun n c => n*10 + (Text.digit c).getD 0) 0
  let label := front.take (front.length - 7)
  let declares := digits ≠ [] ∧ (front = "task_".toList ∨
    label ≠ [] ∧ '\n' ∉ label ∧ front = label ++ "__task_".toList)
  if declares ∧ 0 < value ∧ (value : Int) ≤ taskIdMax then
    (if front = "task_".toList then "" else String.ofList label,some value)
  else (name,none)

def declaredTaskId (name : Option String) : Option Nat := (splitDeclaration (name.getD "")).2

def taskLabel (name : String) : String :=
  if (splitDeclaration name).1 = "" then name else (splitDeclaration name).1

/-- `_task_id_of`, from the node's own name, the name it goes by and its actions. -/
def taskIdOf (own : Option String) (name : String) (actions : List Action) : Nat :=
  match declaredTaskId own with
  | some declared => declared
  | none =>
    let material :=
      if name = "" then String.intercalate " " (actions.map (fun a => a.named.getD a.tag.xmlElement)) else name
    if material = "" then 0 else (Checksum.crc32 material.toUTF8.data.toList).toNat % taskIdMax.toNat + 1

def priorityOf (control : Control) : Int :=
  match (control.get "priority").bind Text.int with
  | some value => if 0 ≤ value ∧ value ≤ priorityMax then value else defaultPriority
  | none => defaultPriority

section
variable (fix : String → String → Option Target)

/-- `_target_of_action`. Whether two numerals are a place on the globe, and which,
is `fix`. -/
def targetOfAction (a : Action) : Option Target :=
  match a.tag with
  | .moveToTreeID => if a.approach then indexTarget (a.get "id") .tree else none
  | .moveToAisleHead => indexTarget (a.get "id") .aisle
  | _ =>
    match a.get "latitude",a.get "longitude" with
    | some lat,some lon => fix lat lon
    | _,_ => none

def targetOf (actions : List Action) : Target :=
  (targetActions.findSome? (fun tag =>
    (actions.filter (fun a => a.tag = tag)).findSome? (targetOfAction fix))).getD .none

def nameOf (own : Option String) (actions : List Action) : String :=
  match own.filter (· ≠ "") with
  | some name => name
  | none =>
    let objective := targetActions.findSome? (fun tag =>
      (actions.filter (fun a => a.tag = tag && (targetOfAction fix a).isSome)).findSome? Action.named)
    (objective.or (actions.findSome? Action.named)).getD ""

def actionsOf (elements : List Element) : List Action := (elements.flatMap actionsIn).map Prod.snd

/-- `_task_of_group`: the elements under a `Sequence` of their own. -/
def taskOfGroup (ref : Nat) (parent : Control) (elements : List Element) : Option MissionTask :=
  if elements.isEmpty then none
  else
    let actions := actionsOf elements
    let name := nameOf fix none actions
    let own := if name = "" then "task" else name
    some
      { taskId := taskIdOf (some own) name actions
        name := taskLabel name
        capabilities := capabilitiesOf actions
        target := targetOf fix actions
        priority := priorityOf parent
        xml := some (.node ref ⟨.sequence,[("name",own)]⟩ elements) }

def taskOf (ref : Nat) (control : Control) (children : List Element) : Option MissionTask :=
  let actions := actionsOf children
  if capabilitiesOf actions = 0 then none
  else
    let name := nameOf fix (control.get "name") actions
    some
      { taskId := taskIdOf (control.get "name") name actions
        name := taskLabel name
        capabilities := capabilitiesOf actions
        target := targetOf fix actions
        priority := priorityOf control
        xml := some (.node ref control children) }

def splitByObjective (leaves : List Element) : List (List Element) :=
  Groups.cut
    (fun leaf => (actionsOf [leaf]).any (fun a => a.tag ∈ movementActions))
    (fun leaf => (actionsOf [leaf]).any (fun a => (targetOfAction fix a).isSome)) leaves

end

/-- What an action leaves true, taken alone. -/
def establishesOf (a : Action) : List Fact := (advance {} a none).1.establishes

/-- `_needs_of`: what the first action of a unit expects. -/
def needsOf (elements : List Element) : List Need :=
  match actionsOf elements with
  | [] => []
  | a::_ => (advance {} a none).1.needs

/-- How many elements, counted from the nearest back, reach one that establishes
the need; none do where it is 0. A control node cannot be asked. -/
def nearest (need : Need) : List Element → Except String Nat
  | [] => .ok 0
  | .node _ control _::_ => .error ("<" ++ control.tag.name ++ "> is not an action this ontology describes")
  | .leaf _ a::earlier =>
    if (establishesOf a).any need.metBy then .ok 1
    else (nearest need earlier).map (fun depth => if depth = 0 then 0 else depth + 1)

/-- `_claim`: what the unit needs of the pending elements, and what it does not. -/
def claim (pending : List Element) (needs : List Need) : Except String (List Element × List Element) :=
  (needs.mapM (fun need => nearest need pending.reverse)).map (fun depths =>
    let start := pending.length - depths.foldl max 0
    (pending.drop start,pending.take start))

/-- The extra elements join the last unit, or are one of their own. -/
def extendLast : List (List Element) → List Element → List (List Element)
  | [],extra => [extra]
  | [last],extra => [last ++ extra]
  | first::second::rest,extra => first :: extendLast (second::rest) extra

def attach (units : List (List Element)) (extra : List Element) : List (List Element) :=
  if extra.isEmpty then units else extendLast units extra

/-- One unit, with the elements to cut out for it. -/
structure Located where
  task : MissionTask
  elements : List Element

/-- What a generator yields, and the exception it ends with. -/
structure Reading where
  units : List Located := []
  error : Option String := none

namespace Reading

/-- `yield from` the one, then the other. -/
def andThen (first second : Reading) : Reading :=
  match first.error with
  | some _ => first
  | none => ⟨first.units ++ second.units,second.error⟩

def chain (readings : List Reading) : Reading := readings.foldr andThen {}

def cuts (reading : Reading) : List (List Element) := reading.units.map Located.elements

end Reading

/-- The units so far, and the loose elements not yet attached to one. -/
structure Split where
  units : List (List Element) := []
  pending : List Element := []

def splitChild (s : Split) (child : Element × Reading) : Except String Split :=
  if child.1.isLeaf then .ok { s with pending := s.pending ++ [child.1] }
  else
    match child.2.error with
    | some error => .error error
    | none =>
      match child.2.cuts with
      | [] => .ok { s with pending := s.pending ++ [child.1] }
      | first::found =>
        (claim s.pending (needsOf first)).map (fun (claimed,unclaimed) =>
          { units := attach s.units unclaimed ++ (claimed ++ first) :: found })

def splitUnits (children : List (Element × Reading)) : Except String (List (List Element)) :=
  (children.foldlM splitChild {}).map (fun s => attach s.units s.pending)

/-- `_shared_prerequisites`: the leaf establishes what the way into a later unit needs. -/
def shared (later : List (List Element)) : Element → Bool
  | .leaf _ a => later.any (fun unit => (needsOf unit).any (fun need => (establishesOf a).any need.metBy))
  | .node _ _ _ => false

def leaveShared : List (MissionTask × List Element) → List Located
  | [] => []
  | (task,elements)::later =>
    ⟨task,elements.filter (fun element => !shared (later.map Prod.snd) element)⟩ :: leaveShared later

section
variable (fix : String → String → Option Target)

def splitByPrerequisite (ref : Nat) (control : Control) (children : List (Element × Reading)) : Reading :=
  match splitUnits children with
  | .error error => { error := some error }
  | .ok units =>
    { units := leaveShared (units.filterMap (fun elements =>
        (taskOfGroup fix ref control elements).map (fun task => (task,elements)))) }

/-- `_located_under`, from what it finds under each child. -/
def locatedNode (ref : Nat) (control : Control) (children : List (Element × Reading)) : Reading :=
  let elements := children.map Prod.fst
  let leaves := elements.filter Tree.isLeaf
  let controls := children.filter (fun child => !child.1.isLeaf)
  let declared := (declaredTaskId (control.get "name")).isSome
  let groups := splitByObjective fix leaves
  if !controls.isEmpty && leaves.isEmpty then Reading.chain (controls.map Prod.snd)
  else if !leaves.isEmpty && controls.isEmpty && !declared && 1 < groups.length then
    { units := groups.filterMap (fun group => (taskOfGroup fix ref control group).map (fun task => ⟨task,group⟩)) }
  else if !leaves.isEmpty && !controls.isEmpty && !declared then splitByPrerequisite fix ref control children
  else
    { units := ((taskOf fix ref control elements).map (fun task =>
        (⟨task,[.node ref control elements]⟩ : Located))).toList }

mutual
def locatedUnder : Element → Reading
  | .leaf _ _ => {}
  | .node ref control children => locatedNode fix ref control (locatedAll children)
def locatedAll : List Element → List (Element × Reading)
  | [] => []
  | child::rest => (child,locatedUnder child) :: locatedAll rest
end

/-- `_located`, over what the behaviour tree holds. -/
def located (tree : List Element) : Reading := Reading.chain (tree.map (locatedUnder fix))

def tasksIn (tree : List Element) : Except String (List MissionTask) :=
  match (located fix tree).error with
  | some error => .error error
  | none => .ok ((located fix tree).units.map Located.task)

def nameAttribute : Element → Option String
  | .leaf _ a => a.get "name"
  | .node _ control _ => control.get "name"

/-- `task_for_node`. An element is around another where it holds its reference. -/
def taskForNode (tree : List Element) (nodeName : String) : Except String (Option MissionTask) :=
  if nodeName = "" then .ok none
  else
    match (tree.flatMap Tree.iter).find? (fun element => nameAttribute element = some nodeName) with
    | none => .ok none
    | some target =>
      match (located fix tree).units.find? (fun unit => unit.elements.any (fun element => target.ref ∈ element.refs)),
        (located fix tree).error with
      | some unit,_ => .ok (some unit.task)
      | none,some error => .error error
      | none,none => .ok none

end
end AmigaFleet.Mission
