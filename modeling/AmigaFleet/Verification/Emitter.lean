import AmigaFleet.Lib.Promela
import AmigaFleet.Mission.Ontology

/-! Mission to Promela. Each action leaf becomes one indivisible step, and the
ontology decides which proposition it defines. -/
namespace AmigaFleet.Verification
open Lib AmigaFleet.Mission
open Lib.Promela (Assign Stmt Macro Program)

inductive PromelaError where
  | unmodellable (tag : Capability)
  | violation (reason : String)
  | noActions
  deriving DecidableEq, Repr

def PromelaError.text : PromelaError → String
  | unmodellable tag => "unmodellable element <" ++ tag.xmlElement ++ ">"
  | violation reason => reason
  | noActions => "behaviour tree contains no actions"

/-- `_ident`: arbitrary text as a Promela identifier. -/
def ident (text : String) : String :=
  let plain (c : Char) : Char :=
    if c.isAlphanum || c = '_' then c else '_'
  let trim (cs : List Char) : List Char := cs.dropWhile (fun c => c = '_')
  String.ofList ((trim (trim (text.toList.map plain)).reverse).reverse.map Char.toLower)

/-- What the walk over one tree accumulates. -/
structure Emitter where
  macros : List (String × Macro) := []
  latches : List String := []
  visitOrder : List String := []
  state : State := {}

namespace Emitter

/-- The first definition of a name stays. -/
def define (em : Emitter) (name : String) (body : Macro) : Emitter :=
  if (em.macros.lookup name).isSome then em else { em with macros := em.macros ++ [(name,body)] }

def latch (em : Emitter) (name : String) : Emitter :=
  { em with latches := if name ∈ em.latches then em.latches else em.latches ++ [name] }.define name (.flag name)

end Emitter

/-- `ACTIONS`, the vocabulary that `covers` holds the schema's action group to. -/
def actions : List String := Capability.all.map Capability.xmlElement

def treeAp (kind : FactKind) (tree : String) : String := kind.text ++ "_" ++ tree

def doneAp (tag : Capability) : String := ident tag.xmlElement ++ "_done"

/-- One action leaf: one step, and one entry in the vocabulary. -/
def emitAction (orchard : Option Orchard) (a : Action) (em : Emitter) :
    Except PromelaError (List Stmt × Emitter) :=
  let (step,state) := advance em.state a orchard
  match step.violation with
  | some reason => .error (.violation reason)
  | none =>
    let em := { em with state := state }
    let here := step.establishes.find? (fun fact => fact.kind ∈ whereKinds)
    let stands := here.filter (fun fact => fact.kind = .atTree || fact.kind = .atWaypoint)
    let assigns := .step a.tag.xmlElement :: (stands.map (fun fact => Assign.tree fact.arg)).toList
    match step.proposition with
    | .objective =>
      let tree := (here.map Fact.arg).getD ""
      let em := em.define (treeAp .atTree tree) (.stepAndTree a.tag.xmlElement tree)
      .ok ([.dStep assigns],{ em with visitOrder := em.visitOrder ++ [tree] })
    | .achievement =>
      match step.establishes with
      | [] => .ok ([.dStep assigns],em)
      | fact::_ =>
        let ap := treeAp fact.kind fact.arg
        .ok ([.dStep (assigns ++ [.raise ap])],em.latch ap)
    | .done => .ok ([.dStep (assigns ++ [.raise (doneAp a.tag)])],em.latch (doneAp a.tag))
    | .silent => .ok ([.dStep assigns],em)

/-- What every branch agrees on. -/
def mergeAll (before : State) : List State → State
  | [] => before
  | first::rest => rest.foldl State.merge first

variable (pool : List String) (orchard : Option Orchard)

mutual
/-- One child of a walked element. A decorator is transparent, a fallback is a choice. -/
def emit : Element → Emitter → Except PromelaError (List Stmt × Emitter)
  | .leaf _ a,em =>
    if a.tag.xmlElement ∈ pool then emitAction orchard a em else .error (.unmodellable a.tag)
  | .node _ control children,em =>
    match control.tag with
    | .fallback => do
      let (bodies,ends,after) ← emitChoice em.state children em
      if bodies = [] then return ([],em)
      else return ([.choice bodies],{ after with state := mergeAll em.state ends })
    | _ => walk children em
def walk : List Element → Emitter → Except PromelaError (List Stmt × Emitter)
  | [],em => .ok ([],em)
  | child::rest,em => do
    let (first,em) ← emit child em
    let (later,em) ← walk rest em
    return (first ++ later,em)
/-- Every branch starts in the state before the choice. -/
def emitChoice (before : State) :
    List Element → Emitter → Except PromelaError (List (List Stmt) × List State × Emitter)
  | [],em => .ok ([],[],em)
  | branch::rest,em => do
    let (body,em) ← emit branch { em with state := before }
    let (bodies,ends,after) ← emitChoice before rest em
    return (body::bodies,em.state::ends,after)
end

structure Model where
  program : Program
  definedAps : List String
  visitOrder : List String

def idle : String := "idle"

/-- `compile_mission` on the plan the one behaviour tree holds. -/
def compileMission (plan : Element) : Except PromelaError Model := do
  let (stmts,em) ← walk pool orchard [plan] {}
  if stmts.isEmpty then .error .noActions
  else .ok ⟨⟨pool,idle,em.latches,em.macros,stmts⟩,em.macros.map Prod.fst,em.visitOrder⟩

end AmigaFleet.Verification
