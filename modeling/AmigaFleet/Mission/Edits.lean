import AmigaFleet.Mission.Tasks

/-! Taking a unit out of a mission and putting one in. A behaviour tree is the
list of elements it holds, which is empty once its root is taken out. -/
namespace AmigaFleet.Mission
open Lib

mutual
/-- `parent.remove(element)`, then `_prune_empty` up from the parent. -/
def detach (r : Nat) : Element → Element
  | .leaf ref a => .leaf ref a
  | .node ref control children => .node ref control (detachAll r children)
def detachAll (r : Nat) : List Element → List Element
  | [] => []
  | child::rest =>
    if child.ref = r then rest
    else if r ∈ child.refs then
      if (detach r child).children.isEmpty then rest else detach r child :: rest
    else child :: detachAll r rest
end

/-- The same under the behaviour tree, where an emptied control node stays. -/
def removeElement (r : Nat) : List Element → List Element
  | [] => []
  | child::rest =>
    if child.ref = r then rest
    else if r ∈ child.refs then detach r child :: rest
    else child :: removeElement r rest

def removeElements (tree : List Element) (elements : List Element) : List Element :=
  elements.foldl (fun tree element => removeElement element.ref tree) tree

def removeTask (fix : String → String → Option Codec.Target) (tree : List Element) (taskId : Nat) :
    Except String (Option (List Element)) :=
  match (located fix tree).units.find? (fun unit => unit.task.taskId = taskId),(located fix tree).error with
  | some unit,_ => .ok (some (removeElements tree unit.elements))
  | none,some error => .error error
  | none,none => .ok none

/-- `_isolate_leaves`, from the reference of the wrapper. -/
def isolateLeaves (wrapper : Nat) (children : List Element) : List Element :=
  if children.any Tree.isLeaf then [.node wrapper ⟨.sequence,[]⟩ children] else children

/-- The children of the first control node are edited, or, without one, the tree's own. -/
def editRoot (edit : List Element → List Element) : List Element → List Element → List Element
  | before,[] => edit before
  | before,.leaf ref a::rest => editRoot edit (before ++ [.leaf ref a]) rest
  | before,.node ref control children::rest => before ++ .node ref control (edit children) :: rest

/-- A reference that no element has. -/
def fresh (tree : List Element) : Nat := (tree.flatMap Tree.refs).foldl max 0 + 1

def insertTask (tree : List Element) (task : MissionTask) : Option (List Element) :=
  task.xml.map (fun xml =>
    let subtree := xml.relabel (fun r => fresh tree + 1 + r)
    editRoot (fun children => isolateLeaves (fresh tree) children ++ [subtree]) [] tree)

end AmigaFleet.Mission
