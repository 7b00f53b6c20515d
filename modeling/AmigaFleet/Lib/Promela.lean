import Mathlib.Data.List.Basic

/-! A fragment of Promela: one process of indivisible steps over an enumeration
variable, an integer variable and flags, with choices, and macros over them.
How a numeral is read is left to the reader of the text. -/
namespace Lib.Promela

inductive Assign where
  | step (name : String)
  | tree (numeral : String)
  | raise (flag : String)
  deriving DecidableEq, Repr

inductive Stmt where
  | dStep (assigns : List Assign)
  | choice (branches : List (List Stmt))

inductive Macro where
  | stepAndTree (name numeral : String)
  | flag (name : String)
  deriving DecidableEq, Repr

structure Program where
  mtype : List String
  idle : String
  flags : List String
  macros : List (String × Macro)
  body : List Stmt

structure Memory where
  step : String
  tree : Int := 0
  flags : String → Bool := fun _ => false

variable (read : String → Int)

def Assign.run (m : Memory) : Assign → Memory
  | .step name => { m with step := name }
  | .tree numeral => { m with tree := read numeral }
  | .raise flag => { m with flags := fun other => other = flag || m.flags other }

def runAll (assigns : List Assign) (m : Memory) : Memory := assigns.foldl (Assign.run read) m

def Macro.holds (m : Memory) : Macro → Bool
  | .stepAndTree name numeral => m.step = name && m.tree = read numeral
  | .flag name => m.flags name

/-- The states a run of the statements passes through. Taking an option is a
transition of its own, which changes nothing. -/
inductive Runs : List Stmt → Memory → List Memory → Memory → Prop
  | done (m : Memory) : Runs [] m [] m
  | dStep (assigns : List Assign) (rest : List Stmt) (m last : Memory) (trace : List Memory)
      (later : Runs rest (runAll read assigns m) trace last) :
      Runs (.dStep assigns :: rest) m (runAll read assigns m :: trace) last
  | choice (branches : List (List Stmt)) (branch rest : List Stmt) (m mid last : Memory) (inner trace : List Memory)
      (member : branch ∈ branches) (taken : Runs branch m inner mid) (later : Runs rest mid trace last) :
      Runs (.choice branches :: rest) m (m :: inner ++ trace) last

/-- A run of the program: what its statements pass through, and the idle state it parks in. -/
def Program.Run (program : Program) (trace : List Memory) : Prop :=
  ∃ states last, Runs read program.body { step := program.idle } states last ∧
    trace = states ++ [{ last with step := program.idle }]

def Program.holds (program : Program) (m : Memory) (name : String) : Bool :=
  (program.macros.lookup name).any (Macro.holds read m)

def Assign.text : Assign → String
  | .step name => "step = " ++ name
  | .tree numeral => "tree = " ++ numeral
  | .raise flag => flag ++ "_f = true"

def Macro.text : Macro → String
  | .stepAndTree name numeral => "(step == " ++ name ++ " && tree == " ++ numeral ++ ")"
  | .flag name => name ++ "_f"

mutual
def Stmt.lines (indent : String) : Stmt → List String
  | .dStep assigns => [indent ++ "d_step \x7b " ++ "; ".intercalate (assigns.map Assign.text) ++ " \x7d"]
  | .choice branches => [indent ++ "if"] ++ optionLines indent branches ++ [indent ++ "fi;"]
def optionLines (indent : String) : List (List Stmt) → List String
  | [] => []
  | branch::rest => (indent ++ ":: true ->") :: blockLines (indent ++ "    ") branch ++ optionLines indent rest
def blockLines (indent : String) : List Stmt → List String
  | [] => []
  | stmt::rest => stmt.lines indent ++ blockLines indent rest
end

def sorted (names : List String) : List String := names.mergeSort (fun a b => decide (a ≤ b))

def Program.source (program : Program) : String :=
  let lines :=
    ["mtype = \x7b " ++ program.idle ++ ", " ++ ", ".intercalate program.mtype ++ " \x7d;","",
      "mtype step = " ++ program.idle ++ ";","int tree = 0;"] ++
    (sorted program.flags).map (fun flag => "bool " ++ flag ++ "_f = false;") ++ [""] ++
    (sorted (program.macros.map Prod.fst)).filterMap (fun name =>
      (program.macros.lookup name).map (fun macro_ => "#define " ++ name ++ " " ++ macro_.text)) ++
    ["","init \x7b"] ++ blockLines "    " program.body ++ ["    step = " ++ program.idle ++ ";","\x7d"]
  "\n".intercalate lines ++ "\n"

end Lib.Promela
