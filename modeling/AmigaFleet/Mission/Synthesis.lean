import AmigaFleet.Mission.Tasks

/-! A task rebuilt from what an announcement says of it: the objective, and the
way in on the rebuilder's own map. -/
namespace AmigaFleet.Mission
open Lib Codec

/-- `_ident`: a name the schema accepts. -/
def ident (text : String) : String :=
  let plain (c : Char) : Char :=
    if c.isAlphanum || c = '_' then c else '_'
  let trim (cs : List Char) : List Char := cs.dropWhile (fun c => c = '_')
  String.ofList (trim (trim (text.toList.map plain)).reverse).reverse

def nameWithTaskId (label : String) (taskId : Nat) : String :=
  let base := ident (splitDeclaration (ident label)).1
  if base = "" then "task_" ++ toString taskId else base ++ "__task_" ++ toString taskId

/-- Every capability in the mask. Bits that name none are ignored. -/
def capabilitiesIn (mask : Nat) : List Capability := Capability.all.filter (fun c => mask.testBit c.index)

def capabilityNames (mask : Nat) : List String := (capabilitiesIn mask).map Capability.xmlElement

def rebuildable : List Capability := [.moveToAisleHead,.moveToTreeID,.sampleLeaf]

structure Rebuilt where
  xml : Element
  dropped : List String := []

/-- `synthesize`. The action servers are read from the schema. -/
def synthesize (actionNames : List (String × String)) (orchard : Option Orchard) (task : MissionTask) :
    Option Rebuilt :=
  let caps := capabilitiesIn task.capabilities
  if task.target.kind ≠ .tree ∨ .moveToTreeID ∉ caps then none
  else
    let tree := toString task.target.a
    let safe := if ident task.name = "" then "task_" ++ toString task.taskId else ident task.name
    let aisle := orchard.bind (fun map => map.aisleByTree.get? task.target.a)
    let server (c : Capability) (default : String) : String := (actionNames.lookup c.xmlElement).getD default
    let head : List Action := aisle.toList.map (fun aisle =>
      ⟨.moveToAisleHead,[("name",safe ++ "_aisle_" ++ toString aisle),
        ("action_name",server .moveToAisleHead "move_to_aisle_head"),("id",toString aisle)]⟩)
    let move : Action :=
      ⟨.moveToTreeID,[("name",safe ++ "_visit_" ++ tree),
        ("action_name",server .moveToTreeID "follow_tree_id_waypoint"),("id",tree),("approach_tree","true")]⟩
    let sample : List Action :=
      if .sampleLeaf ∈ caps then
        [⟨.sampleLeaf,[("name",safe ++ "_sample_" ++ tree),
          ("action_name",server .sampleLeaf "segment_leaves")]⟩]
      else []
    let leaves := (head ++ move :: sample).zipIdx.map (fun (a,i) => (.leaf (i + 1) a : Element))
    let dropped := (caps.filter (fun c => c ∉ rebuildable)).map Capability.xmlElement
    some
      { xml := .node 0 ⟨.sequence,[("name",nameWithTaskId safe task.taskId)]⟩ leaves
        dropped :=
          if .moveToAisleHead ∈ caps ∧ aisle = none then dropped ++ [Capability.moveToAisleHead.xmlElement]
          else dropped }

end AmigaFleet.Mission
