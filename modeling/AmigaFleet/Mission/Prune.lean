import AmigaFleet.Mission.Whereabouts

/-! Taking finished trees out of a plan: the move and the sample of each, with
the wrappers that hold nothing else, and the aisle heads nothing left needs. -/
namespace AmigaFleet.Mission
open Lib

/-- `_objective_bindings`, from a state and the latest approach to each tree. -/
def bindings (orchard : Option Orchard) : State → List (String × Leaf) → List Leaf → List (Leaf × Leaf × String)
  | _,_,[] => []
  | s,lastMoveFor,x::rest =>
    let lastMoveFor :=
      if x.2.tag = .moveToTreeID ∧ x.2.approach = true then (x.2.text "id",x) :: lastMoveFor else lastMoveFor
    let (step,after) := advance s x.2 orchard
    let later := bindings orchard after lastMoveFor rest
    if x.2.tag = .sampleLeaf then
      match step.establishes.find? (fun fact => fact.kind = .sampledTree) with
      | none => later
      | some sampled =>
        match lastMoveFor.lookup sampled.arg with
        | none => later
        | some move => (move,x,sampled.arg) :: later
    else later

def objectiveBindings (root : Element) (orchard : Option Orchard) : List (Leaf × Leaf × String) :=
  bindings orchard {} [] (actionsIn root)

/-- The loop of `_isolated_ancestor`, up the elements around the node. -/
def climb (ours : List Nat) (node : Element) : List Element → Element
  | [] => node
  | parent::rest => if (actionsIn parent).all (fun x => x.1 ∈ ours) then climb ours parent rest else node

def isolatedAncestor (root : Element) (move sample : Leaf) : Element :=
  climb [move.1,sample.1] (.leaf move.1 move.2) (root.ancestors move.1)

/-- `prune_completed`. The root has no parent to be removed from. -/
def pruneCompleted (root : Element) (completed : List String) (orchard : Option Orchard) : Element :=
  let completedIds := completed.map Text.strip
  if completedIds = [] then root
  else
    let objectives := objectiveBindings root orchard
    let toRemove := (objectives.filter (fun o => o.2.2 ∈ completedIds)).map (fun o =>
      (isolatedAncestor root o.1 o.2.1).ref)
    let aislesStillNeeded := (objectives.filter (fun o => o.2.2 ∉ completedIds)).filterMap (fun o =>
      aisleText orchard o.2.2)
    let doc := root.strip (fun ref => ref ∈ toRemove)
    let heads := (actionsIn doc).filter (fun x =>
      x.2.tag = .moveToAisleHead && x.2.text "id" ∉ aislesStillNeeded)
    doc.strip (fun ref => ref ∈ heads.map Prod.fst)

end AmigaFleet.Mission
