import AmigaFleet.Lib.Regex
import AmigaFleet.Lib.Words
import AmigaFleet.Verification.Emitter
import Mathlib.Data.List.Dedup

/-! From a mission's text to SPIN's answer: the formula that a reply of the model gives,
the propositions a plan has to define for it, the text of a model, and how what SPIN
wrote is read. -/
namespace AmigaFleet.Verification
open Lib
open Lib.Text (strip contains)
open Lib.Words (oneLine lines rstrip startsWith endsWith)
open Lib.Promela (Assign Stmt Macro Program)

/-- A formula, or why there is none. -/
abbrev Formula := Except String String

def ltlTokens : List String := ["[]","<>"," U ","X ","&&","||","->","<->"]

def proseMarkers : List String := [". ",".\n",", ","?",";"]

/-- `llm.strip_code_fence`. -/
def stripCodeFence (text : String) : String :=
  let text := strip text
  if startsWith text "```" then
    let rest := (lines text).tail
    strip (String.intercalate "\n" (if rest.getLast?.map strip = some "```" then rest.dropLast else rest))
  else text

/-- What stands in the braces of a declaration. The text that ends in a brace ends in its last. -/
def undeclared (text : String) : String :=
  let kept := rstrip text
  if startsWith text "ltl" && contains text "\x7b" && endsWith kept "\x7d" then
    String.ofList ((text.toList.take (kept.length - 1)).drop (text.toList.idxOf '\x7b' + 1))
  else text

def cleanFormula (reply : String) : String := oneLine (undeclared (stripCodeFence reply))

/-- `looks_like_ltl`, with the reason where it does not. -/
def looksLikeLtl (formula : String) : Except String Unit :=
  if formula = "" then .error "empty formula"
  else if formula.toList.count '(' ≠ formula.toList.count ')' then .error "unbalanced parentheses"
  else if !ltlTokens.any (contains (" " ++ formula ++ " ")) then .error "no LTL or boolean operator found"
  else if endsWith formula "." || proseMarkers.any (contains formula) then
    .error "reply reads as prose, not a bare formula"
  else .ok ()

/-- `ltl.generate`. The model completes the system prompt and the text. -/
def generate (complete : String → Except String String) (missionText : String) : Formula :=
  if strip missionText = "" then .error "empty mission"
  else
    match complete (strip missionText) with
    | .error exc => .error ("LLM call failed: " ++ exc)
    | .ok reply =>
      match looksLikeLtl (cleanFormula reply) with
      | .error reason => .error (reason ++ "; model returned: " ++ String.ofList (reply.toList.take 200))
      | .ok _ => .ok (cleanFormula reply)

def reserved : List String := ["true","false","U","V","W","X","R"]

def identifier : Regex :=
  .group (.seq (.one (fun c => c.isAlpha || c = '_')) (.star true (fun c => c.isAlphanum || c = '_')))

def formulaAps (formula : String) : List String :=
  ((identifier.findAll formula.toList).flatten.map String.ofList).filter (fun token => token ∉ reserved)

/-- `sorted` of a set. -/
def sorted (names : List String) : List String := names.dedup.mergeSort

def coverageGap (formula : String) (model : Model) : Option String :=
  let missing := (formulaAps formula).filter (fun ap => ap ∉ model.definedAps)
  if missing = [] then none
  else
    let known := String.intercalate ", " (sorted model.definedAps)
    let quoted := (sorted missing).map (fun ap => "'" ++ ap ++ "'")
    some ("plan does not establish [" ++ String.intercalate ", " quoted ++ "]; propositions this plan defines: " ++
      if known = "" then "none" else known)

def assignText : Assign → String
  | .step name => "step = " ++ name
  | .tree numeral => "tree = " ++ numeral
  | .raise flag => flag ++ "_f = true"

def macroText : Macro → String
  | .stepAndTree name numeral => "(step == " ++ name ++ " && tree == " ++ numeral ++ ")"
  | .flag name => name ++ "_f"

mutual
def stmtText (indent : String) : Stmt → List String
  | .dStep assigns => [indent ++ "d_step \x7b " ++ String.intercalate "; " (assigns.map assignText) ++ " \x7d"]
  | .choice branches => (indent ++ "if") :: branchTexts indent branches ++ [indent ++ "fi;"]
def bodyText (indent : String) : List Stmt → List String
  | [] => []
  | stmt::rest => stmtText indent stmt ++ bodyText indent rest
def branchTexts (indent : String) : List (List Stmt) → List String
  | [] => []
  | branch::rest => (indent ++ ":: true ->") :: bodyText (indent ++ "    ") branch ++ branchTexts indent rest
end

/-- `_render`. -/
def sourceText (program : Program) : String :=
  let flags := (sorted program.flags).map (fun latch => "bool " ++ latch ++ "_f = false;")
  let macros := (sorted (program.macros.map Prod.fst)).map (fun name =>
    "#define " ++ name ++ " " ++ ((program.macros.lookup name).map macroText).getD "")
  String.intercalate "\n" (("mtype = \x7b " ++ program.idle ++ ", " ++ String.intercalate ", " program.mtype ++ " \x7d;") ::
    "" :: ("mtype step = " ++ program.idle ++ ";") :: "int tree = 0;" :: flags ++ "" :: macros ++
    "" :: "init \x7b" :: bodyText "    " program.body ++ ["    step = " ++ program.idle ++ ";","\x7d"]) ++ "\n"

inductive Run where
  | timedOut (exc : String)
  | unrunnable (exc : String)
  | finished (returncode : Int) (stdout stderr : String)

/-- SPIN as one check finds it: whether it is there, what it makes of a file, and its
guided replay of what it found there. -/
structure Spin where
  binary : String := "spin"
  installed : Bool
  search : String → Run
  replay : String → Run

structure Verdict where
  holds : Bool
  counterexample : String := ""
  error : Option String := none

def ltlFile (source formula : String) : String := source ++ "\nltl mission \x7b " ++ formula ++ " \x7d\n"

def lastChars (n : Nat) (text : String) : String := String.ofList (text.toList.drop (text.length - n))

def firstError (output : String) : String :=
  match (lines output).find? (fun line => contains line "Error:" || startsWith line "spin:") with
  | some line => strip line
  | none => lastChars 400 (if strip output = "" then "spin failed with no output" else strip output)

def trail : Run → String
  | .timedOut exc | .unrunnable exc => "(counterexample unavailable: " ++ exc ++ ")"
  | .finished _ out err =>
    if strip (out ++ err) = "" then "(spin reported a violation but produced no trail)" else strip (out ++ err)

section
variable (word : Char → Bool)

/-- The number in the first `\berrors:\s*(\d+)`, where `within` says that a word character
stands before the text. -/
def errorsIn (within : Bool) : List Char → Option Nat
  | [] => none
  | c::rest =>
    let digits := (((c::rest).drop 7).dropWhile Text.isSpace).takeWhile (fun d => (Text.digit d).isSome)
    if !within && "errors:".toList.isPrefixOf (c::rest) && digits ≠ [] then
      some (digits.foldl (fun n d => n * 10 + (Text.digit d).getD 0) 0)
    else errorsIn (word c) rest

/-- `verify.check`. -/
def check (spin : Spin) (source formula : String) : Verdict :=
  let formula := oneLine formula
  let unknown (error : String) : Verdict := { holds := false, error := some error }
  if formula = "" then unknown "empty formula"
  else if !spin.installed then unknown (spin.binary ++ " not found on PATH")
  else
    match spin.search (ltlFile source formula) with
    | .timedOut _ => unknown "spin timed out after 60s"
    | .unrunnable exc => unknown ("could not run " ++ spin.binary ++ ": " ++ exc)
    | .finished returncode out err =>
      if returncode ≠ 0 then unknown (firstError (out ++ err))
      else
        match errorsIn word false (out ++ err).toList with
        | none => unknown ("no verdict in spin output: " ++ lastChars 400 (out ++ err))
        | some 0 => { holds := true }
        | some _ => { holds := false, counterexample := trail (spin.replay (ltlFile source formula)) }

end

structure Formed (formula : String) : Prop where
  line : oneLine formula = formula
  full : formula ≠ ""
  balanced : formula.toList.count '(' = formula.toList.count ')'
  operator : ∃ token ∈ ltlTokens, contains (" " ++ formula ++ " ") token = true
  bare : endsWith formula "." = false ∧ ∀ marker ∈ proseMarkers, contains formula marker = false

theorem cleanFormula_line (reply : String) : oneLine (cleanFormula reply) = cleanFormula reply :=
  Words.oneLine_oneLine _

theorem looksLikeLtl_ok (reply : String) :
    looksLikeLtl (cleanFormula reply) = .ok () ↔ Formed (cleanFormula reply) := by
  have line := cleanFormula_line reply
  generalize cleanFormula reply = formula at line ⊢
  constructor
  · intro ok
    unfold looksLikeLtl at ok
    split at ok
    · cases ok
    rename_i full
    split at ok
    · cases ok
    rename_i balanced
    split at ok
    · cases ok
    rename_i operator
    split at ok
    · cases ok
    rename_i bare
    simp only [Bool.or_eq_true,not_or,Bool.not_eq_true,List.any_eq_false] at bare
    refine ⟨line,full,not_not.mp balanced,?_,bare.1,fun marker member => by simpa using bare.2 marker member⟩
    simpa only [Bool.not_eq_true',Bool.not_eq_false,List.any_eq_true] using operator
  · intro formed
    have operator : ltlTokens.any (contains (" " ++ formula ++ " ")) = true := List.any_eq_true.mpr formed.operator
    have prose : proseMarkers.any (contains formula) = false :=
      List.any_eq_false.mpr (fun marker member => by simp [formed.bare.2 marker member])
    rw [looksLikeLtl,if_neg formed.full,if_neg (not_not.mpr formed.balanced),operator,if_neg (by simp),
      formed.bare.1,prose,if_neg (by simp)]

theorem generate_ok (complete : String → Except String String) (missionText formula : String) :
    generate complete missionText = .ok formula ↔ strip missionText ≠ "" ∧ ∃ reply,
      complete (strip missionText) = .ok reply ∧ formula = cleanFormula reply ∧ Formed formula := by
  unfold generate
  by_cases empty : strip missionText = ""
  · simp [empty]
  rw [if_neg empty]
  cases asked : complete (strip missionText) with
  | error exc => simp
  | ok reply =>
    have marks := looksLikeLtl_ok reply
    dsimp only
    cases looked : looksLikeLtl (cleanFormula reply) with
    | error reason =>
      have unformed : ¬Formed (cleanFormula reply) := fun formed => by
        rw [marks.mpr formed] at looked
        cases looked
      simp only [reduceCtorEq,false_iff,not_and,not_exists]
      intro _ other same cleaned
      obtain rfl := Except.ok.inj same
      exact cleaned ▸ unformed
    | ok u =>
      have formed := marks.mp looked
      constructor
      · intro same
        obtain rfl := Except.ok.inj same
        exact ⟨empty,reply,rfl,rfl,formed⟩
      · rintro ⟨-,other,same,cleaned,-⟩
        rw [cleaned,Except.ok.inj same]

theorem generate_formed (complete : String → Except String String) (missionText formula : String)
    (generated : generate complete missionText = .ok formula) : Formed formula := by
  obtain ⟨-,-,-,-,formed⟩ := (generate_ok complete missionText formula).mp generated
  exact formed

theorem coverageGap_none (formula : String) (model : Model) (covered : coverageGap formula model = none) :
    ∀ ap ∈ formulaAps formula, ap ∈ model.definedAps := by
  intro ap member
  by_contra undefined
  have missing : (formulaAps formula).filter (fun ap => ap ∉ model.definedAps) ≠ [] :=
    List.ne_nil_of_mem (List.mem_filter.mpr ⟨member,by simpa using undefined⟩)
  unfold coverageGap at covered
  simp only [if_neg missing,reduceCtorEq] at covered

/-- What SPIN is given, and what makes its output an answer. -/
def Answers (word : Char → Bool) (spin : Spin) (file : String) (n : Nat) : Prop :=
  spin.installed = true ∧ ∃ out err, spin.search file = .finished 0 out err ∧
    errorsIn word false (out ++ err).toList = some n

theorem Answers.ran {word : Char → Bool} {spin : Spin} {file : String} {n : Nat} {run : Run}
    (answers : Answers word spin file n) (ran : spin.search file = run) :
    ∃ out err, run = .finished 0 out err ∧ errorsIn word false (out ++ err).toList = some n := by
  obtain ⟨-,out,err,finished,found⟩ := answers
  exact ⟨out,err,ran.symm.trans finished,found⟩

/-- A check of a formula on one line ends with the number of errors SPIN answered, or
without an answer and with a reason. -/
theorem check_cases (word : Char → Bool) (spin : Spin) (source formula : String) (line : oneLine formula = formula)
    (full : formula ≠ "") :
    ((∃ error, check word spin source formula = { holds := false, error := some error }) ∧
        ∀ n, ¬Answers word spin (ltlFile source formula) n) ∨
      ∃ n, (∀ m, Answers word spin (ltlFile source formula) m ↔ m = n) ∧
        (check word spin source formula).error = none ∧ ((check word spin source formula).holds = true ↔ n = 0) := by
  unfold check
  simp only [line,if_neg full]
  cases there : spin.installed with
  | false => exact .inl ⟨⟨_,rfl⟩,fun n answers => absurd answers.1 (by simp [there])⟩
  | true =>
    simp only [Bool.not_true,Bool.false_eq_true,if_false]
    cases ran : spin.search (ltlFile source formula) with
    | timedOut exc =>
      refine .inl ⟨⟨_,rfl⟩,fun n answers => ?_⟩
      obtain ⟨_,_,same,-⟩ := answers.ran ran
      cases same
    | unrunnable exc =>
      refine .inl ⟨⟨_,rfl⟩,fun n answers => ?_⟩
      obtain ⟨_,_,same,-⟩ := answers.ran ran
      cases same
    | finished returncode out err =>
      dsimp only
      by_cases zero : returncode = 0
      · subst zero
        cases found : errorsIn word false (out ++ err).toList with
        | none =>
          refine .inl ⟨⟨_,rfl⟩,fun n answers => ?_⟩
          obtain ⟨_,_,same,other⟩ := answers.ran ran
          cases same
          rw [found] at other
          cases other
        | some n =>
          refine .inr ⟨n,fun m => ⟨fun answers => ?_,?_⟩,?_,?_⟩
          · obtain ⟨_,_,same,other⟩ := answers.ran ran
            cases same
            exact Option.some.inj (other.symm.trans found)
          · rintro rfl
            exact ⟨there,out,err,ran,found⟩
          · cases n <;> rfl
          · cases n <;> simp
      · rw [if_pos zero]
        refine .inl ⟨⟨_,rfl⟩,fun n answers => zero ?_⟩
        obtain ⟨_,_,same,-⟩ := answers.ran ran
        cases same
        rfl

/-- The formula of a reply goes to SPIN as it is, and what is not an answer clears nothing. -/
theorem generated_checked (complete : String → Except String String) (missionText formula : String)
    (generated : generate complete missionText = .ok formula) (word : Char → Bool) (spin : Spin) (source : String) :
    Formed formula ∧ (∀ c ∈ formula.toList, Text.isSpace c = true → c = ' ') ∧
      ((check word spin source formula).error = none ↔ ∃ n, Answers word spin (ltlFile source formula) n) ∧
      ((check word spin source formula).holds = true ↔ Answers word spin (ltlFile source formula) 0) := by
  have formed := generate_formed complete missionText formula generated
  refine ⟨formed,?_,?_⟩
  · intro c member
    rw [← formed.line] at member
    exact Words.oneLine_blank formula c member
  · obtain ⟨⟨error,failed⟩,unanswered⟩ | ⟨n,answers,conclusive,holds⟩ :=
      check_cases word spin source formula formed.line formed.full
    · simp [failed,unanswered]
    · simp [answers,conclusive,holds,eq_comm]

def clearing : Spin := { installed := true, search := fun _ => .finished 0 "errors: 0" "", replay := fun _ => .timedOut "" }

theorem generated_checked_visit :
    (check Char.isAlphanum clearing "init \x7b \x7d" "<> at_tree_60").holds = true :=
  (generated_checked (fun _ => .ok "ltl m \x7b <>  at_tree_60 \x7d") "visit tree 60" "<> at_tree_60" (by decide +kernel)
    Char.isAlphanum clearing "init \x7b \x7d").2.2.2.mpr ⟨rfl,_,_,rfl,by decide +kernel⟩

end AmigaFleet.Verification
