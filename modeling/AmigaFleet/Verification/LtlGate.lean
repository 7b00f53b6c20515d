import AmigaFleet.Lib.Dict
import AmigaFleet.Lib.Machine
import AmigaFleet.Lib.Places
import AmigaFleet.Replanning.Decisions
import AmigaFleet.Verification.Formula

/-! The gate that a candidate passes, as its callers share it: each call goes from one
locked block to the next, in any order with the others, and the model and SPIN answer
what they like. -/
namespace AmigaFleet.LtlGate
open Lib Verification
open Lib.Text (strip)
open Replanning (Document Xml GateResult Reason missionText extend textUnchanged judged)

/-- `compile_mission` of what the one behaviour tree holds, without an orchard. -/
def compiled (pool : List String) (d : Document) : Except PromelaError Model := do
  let (stmts,em) ← walk pool none d.tree {}
  if stmts.isEmpty then .error .noActions
  else .ok ⟨⟨pool,idle,em.latches,em.macros,stmts⟩,em.macros.map Prod.fst,em.visitOrder⟩

theorem compiled_plan (pool : List String) (d : Document) (plan : Mission.Element) (one : d.tree = [plan]) :
    compiled pool d = compileMission pool none plan := by
  rw [compiled,one]
  rfl

structure Candidate where
  document : Document
  active : Option Xml
  deriving DecidableEq

inductive Stage where
  | comparing
  | looking
  | asking
  | found (formula : Formula)
  | answered (result : GateResult)
  deriving DecidableEq

def Stage.asks : Stage → Bool
  | .asking => true
  | _ => false

/-- What the arbiter does where the gate's call stands here. -/
def Stage.forArbiter (active : Option Xml) : Stage → Replanning.Stage
  | .answered result => .recording active result
  | _ => .judging active

/-- A call of `evaluate`, or of `warm` where there is no candidate, and SPIN as it found it. -/
structure Call where
  text : String
  candidate : Option Candidate := none
  stage : Stage := .looking
  spin : Option Spin := none

structure Gate where
  cache : Dict String String := .empty
  appendix : String := ""
  calls : List Call := []
  /-- What the model was asked about, and what came of it. -/
  questions : List (String × Formula) := []
  /-- Every text that the coordinator allowed. -/
  allowed : List String := []

inductive Event where
  | allowMissionText (text : String)
  | warm (text : String)
  | evaluate (candidate : Xml) (active : Option Xml)
  | advance (k : Nat) (complete : String → Except String String) (spin : Spin)

section
variable (word : Char → Bool) (pool : List String)

/-- Steps 2 to 5 of `evaluate`. -/
def outcome (spin : Spin) (formula : Formula) (d : Document) : Replanning.Outcome :=
  match formula with
  | .error error => .noFormula error
  | .ok text =>
    match compiled pool d with
    | .error error => .noModel error.text
    | .ok model =>
      match coverageGap text model with
      | some gap => .uncovered gap
      | none =>
        if !spin.installed then .noSpin
        else
          let verdict := check word spin (sourceText model.program) text
          match verdict.error with
          | some error => .inconclusive error
          | none => if verdict.holds then .holds text else .violated text verdict.counterexample

namespace Gate

/-- Step 1, and the candidate without a text. -/
def compare (g : Gate) (c : Call) : Stage :=
  match textUnchanged c.text (c.candidate.bind Candidate.active) g.appendix with
  | some reason => .answered ⟨false,reason,false⟩
  | none => if c.text = "" then .answered ⟨true,.said "no <Mission> text to verify against",false⟩ else .looking

/-- The first locked block of `_formula_for`. -/
def look (g : Gate) (c : Call) : Stage :=
  match g.cache.get? c.text with
  | some text => .found (.ok text)
  | none => .asking

/-- What `_generate` gave, with the last block of `_formula_for`. Only a success is cached. -/
def keep (g : Gate) (text : String) (formula : Formula) : Gate :=
  { g with
    cache := match formula with
      | .ok found => g.cache.set text found
      | .error _ => g.cache
    questions := g.questions ++ [(text,formula)] }

def judge (spin : Spin) (c : Call) (formula : Formula) : Call :=
  match c.candidate with
  | some candidate =>
    { c with stage := .answered (judged (outcome word pool spin formula candidate.document)), spin := some spin }
  | none => c

def block (complete : String → Except String String) (spin : Spin) (g : Gate) (c : Call) : Gate × Call :=
  match c.stage with
  | .comparing => (g,{ c with stage := g.compare c })
  | .looking => (g,{ c with stage := g.look c })
  | .asking => (g.keep c.text (generate complete c.text),{ c with stage := .found (generate complete c.text) })
  | .found formula => (g,judge word pool spin c formula)
  | .answered _ => (g,c)

def opened (active : Option Xml) : Xml → Call
  | .malformed _ => { text := "", stage := .answered ⟨false,.malformed,false⟩ }
  | .plan d => { text := missionText d, candidate := some ⟨d,active⟩, stage := .comparing }

def next (g : Gate) : Event → Gate
  | .allowMissionText text => { g with appendix := strip text, allowed := g.allowed ++ [strip text] }
  | .warm text => { g with calls := g.calls ++ [{ text := strip text }] }
  | .evaluate candidate active => { g with calls := g.calls ++ [opened active candidate] }
  | .advance k complete spin =>
    match g.calls[k]? with
    | none => g
    | some c =>
      let (after,c) := block word pool complete spin g c
      { after with calls := g.calls.set k c }

def enabled (g : Gate) : Event → Prop
  | .advance k _ _ => k < g.calls.length
  | _ => True

instance (g : Gate) : (e : Event) → Decidable (g.enabled e)
  | .advance k _ _ => inferInstanceAs (Decidable (k < g.calls.length))
  | .allowMissionText _ | .warm _ | .evaluate _ _ => inferInstanceAs (Decidable True)

end Gate

def machine : Machine Gate Event where
  initial := fun g => g = {}
  enabled := Gate.enabled
  next := Gate.next word pool

instance (g : Gate) (e : Event) : Decidable ((machine word pool).enabled g e) :=
  inferInstanceAs (Decidable (g.enabled e))

end

/-- The candidate has the text of the plan in force, or the one that the coordinator's
clause makes of it. -/
def Sanctioned (g : Gate) (candidate : Candidate) : Prop :=
  ∀ plan, candidate.active = some (.plan plan) → missionText candidate.document = missionText plan ∨
    ∃ clause ∈ g.allowed, clause ≠ "" ∧ missionText candidate.document = extend (missionText plan) clause

def Passed (g : Gate) (c : Call) : Prop := ∀ candidate, c.candidate = some candidate → Sanctioned g candidate

variable (word : Char → Bool) (pool : List String)

def Behind (g : Gate) (c : Call) : Stage → Prop
  | .comparing => True
  | .looking | .asking => Passed g c
  | .found formula => Passed g c ∧ (c.text,formula) ∈ g.questions
  | .answered result => result.verified = true → ∃ candidate spin formula, c.candidate = some candidate ∧
      c.spin = some spin ∧ Sanctioned g candidate ∧ (c.text,formula) ∈ g.questions ∧
      result = judged (outcome word pool spin formula candidate.document)

structure Vouched (g : Gate) : Prop where
  cached : ∀ text formula, g.cache.get? text = some formula → (text,.ok formula) ∈ g.questions
  genuine : ∀ question ∈ g.questions, ∃ complete, question.2 = generate complete question.1
  appendix : g.appendix = "" ∨ g.appendix ∈ g.allowed
  named : ∀ c ∈ g.calls, ∀ candidate, c.candidate = some candidate → c.text = missionText candidate.document
  behind : ∀ c ∈ g.calls, Behind word pool g c c.stage

variable {word : Char → Bool} {pool : List String}

theorem Sanctioned.more {g after : Gate} {candidate : Candidate} (sanctioned : Sanctioned g candidate)
    (allowed : ∀ clause ∈ g.allowed, clause ∈ after.allowed) : Sanctioned after candidate := by
  intro plan active
  refine (sanctioned plan active).imp_right ?_
  rintro ⟨clause,member,full,same⟩
  exact ⟨clause,allowed clause member,full,same⟩

theorem Behind.more {g after : Gate} {c : Call} {stage : Stage} (behind : Behind word pool g c stage)
    (questions : ∀ question ∈ g.questions, question ∈ after.questions)
    (allowed : ∀ clause ∈ g.allowed, clause ∈ after.allowed) : Behind word pool after c stage := by
  have passed (before : Passed g c) : Passed after c := fun candidate mine => (before candidate mine).more allowed
  cases stage with
  | comparing => trivial
  | looking => exact passed behind
  | asking => exact passed behind
  | found formula => exact ⟨passed behind.1,questions _ behind.2⟩
  | answered result =>
    intro verified
    obtain ⟨candidate,spin,formula,mine,seen,sanctioned,asked,same⟩ := behind verified
    exact ⟨candidate,spin,formula,mine,seen,sanctioned.more allowed,questions _ asked,same⟩

theorem textUnchanged_none (text appendix : String) (plan : Document)
    (unchanged : textUnchanged text (some (.plan plan)) appendix = none) :
    text = missionText plan ∨ (appendix ≠ "" ∧ text = extend (missionText plan) appendix) := by
  simp only [textUnchanged] at unchanged
  split at unchanged
  · exact .inl ‹_›
  split at unchanged
  · exact .inr ‹_›
  · cases unchanged

theorem compare_behind (g : Gate) (vouched : Vouched word pool g) (c : Call) (member : c ∈ g.calls) :
    Behind word pool g { c with stage := g.compare c } (g.compare c) := by
  unfold Gate.compare
  split
  · intro verified
    cases verified
  rename_i unchanged
  split
  · intro verified
    cases verified
  intro candidate mine plan active
  rw [show c.candidate = some candidate from mine,Option.bind_some,active] at unchanged
  rw [← vouched.named c member candidate mine]
  obtain same | ⟨full,same⟩ := textUnchanged_none _ _ _ unchanged
  · exact .inl same
  · exact .inr ⟨g.appendix,vouched.appendix.resolve_left full,full,same⟩

theorem look_behind (g : Gate) (vouched : Vouched word pool g) (c : Call) (passed : Passed g c) :
    Behind word pool g { c with stage := g.look c } (g.look c) := by
  unfold Gate.look
  split
  · rename_i text hit
    exact ⟨passed,vouched.cached _ _ hit⟩
  · exact passed

theorem judge_behind (g : Gate) (spin : Spin) (c : Call) (formula : Formula)
    (behind : Behind word pool g c (.found formula)) (stage : c.stage = .found formula) :
    Behind word pool g (Gate.judge word pool spin c formula) (Gate.judge word pool spin c formula).stage := by
  unfold Gate.judge
  split
  · rename_i candidate mine
    intro _
    exact ⟨candidate,spin,formula,mine,rfl,behind.1 candidate mine,behind.2,rfl⟩
  · rw [stage]
    exact behind

theorem judge_same (spin : Spin) (c : Call) (formula : Formula) :
    (Gate.judge word pool spin c formula).text = c.text ∧
      (Gate.judge word pool spin c formula).candidate = c.candidate := by
  unfold Gate.judge
  cases mine : c.candidate <;> simp [mine]

theorem keep_vouched (g : Gate) (vouched : Vouched word pool g) (text : String) (formula : Formula)
    (genuine : ∃ complete, formula = generate complete text) : Vouched word pool (g.keep text formula) where
  cached := by
    intro key found hit
    cases formula with
    | error error => exact List.mem_append_left _ (vouched.cached key found hit)
    | ok new =>
      obtain ⟨rfl,rfl⟩ | ⟨-,old⟩ := Dict.get?_set_cases hit
      · exact List.mem_append_right _ (List.mem_singleton.mpr rfl)
      · exact List.mem_append_left _ (vouched.cached key found old)
  genuine := by
    intro question asked
    obtain old | new := List.mem_append.mp asked
    · exact vouched.genuine question old
    · rw [List.mem_singleton.mp new]
      exact genuine
  appendix := vouched.appendix
  named := vouched.named
  behind := fun c member => (vouched.behind c member).more (fun _ old => List.mem_append_left _ old) (fun _ same => same)

theorem block_vouched (g : Gate) (vouched : Vouched word pool g) (c : Call) (member : c ∈ g.calls)
    (complete : String → Except String String) (spin : Spin) :
    Vouched word pool (Gate.block word pool complete spin g c).1 ∧
      Behind word pool (Gate.block word pool complete spin g c).1 (Gate.block word pool complete spin g c).2
        (Gate.block word pool complete spin g c).2.stage ∧
      (Gate.block word pool complete spin g c).2.text = c.text ∧
      (Gate.block word pool complete spin g c).2.candidate = c.candidate ∧
      (Gate.block word pool complete spin g c).1.calls = g.calls := by
  have before := vouched.behind c member
  unfold Gate.block
  cases stage : c.stage with
  | comparing => exact ⟨vouched,compare_behind g vouched c member,rfl,rfl,rfl⟩
  | looking =>
    rw [stage] at before
    exact ⟨vouched,look_behind g vouched c before,rfl,rfl,rfl⟩
  | asking =>
    rw [stage] at before
    exact ⟨keep_vouched g vouched c.text _ ⟨complete,rfl⟩,⟨before,List.mem_append_right _ (List.mem_singleton.mpr rfl)⟩,rfl,rfl,rfl⟩
  | found formula =>
    rw [stage] at before
    exact ⟨vouched,judge_behind g spin c formula before stage,(judge_same spin c formula).1,
      (judge_same spin c formula).2,rfl⟩
  | answered result => exact ⟨vouched,before,rfl,rfl,rfl⟩

theorem joined_vouched (g : Gate) (vouched : Vouched word pool g) (c : Call)
    (named : ∀ candidate, c.candidate = some candidate → c.text = missionText candidate.document)
    (behind : Behind word pool g c c.stage) : Vouched word pool { g with calls := g.calls ++ [c] } where
  cached := vouched.cached
  genuine := vouched.genuine
  appendix := vouched.appendix
  named := by
    intro other member
    obtain old | new := List.mem_append.mp member
    · exact vouched.named other old
    · exact List.mem_singleton.mp new ▸ named
  behind := by
    intro other member
    obtain old | new := List.mem_append.mp member
    · exact (vouched.behind other old).more (fun _ same => same) (fun _ same => same)
    · obtain rfl := List.mem_singleton.mp new
      exact behind.more (fun _ same => same) (fun _ same => same)

theorem next_vouched (g : Gate) (vouched : Vouched word pool g) (e : Event) :
    Vouched word pool (g.next word pool e) := by
  cases e with
  | allowMissionText text =>
    refine ⟨vouched.cached,vouched.genuine,.inr (List.mem_append_right _ (List.mem_singleton.mpr rfl)),vouched.named,?_⟩
    exact fun c member => (vouched.behind c member).more (fun _ same => same) (fun _ old => List.mem_append_left _ old)
  | warm text => exact joined_vouched g vouched _ (by simp) (fun candidate none_ => by cases none_)
  | evaluate candidate active =>
    cases candidate with
    | malformed text => exact joined_vouched g vouched _ (by simp [Gate.opened]) (fun verified => by cases verified)
    | plan d => exact joined_vouched g vouched _ (by simp [Gate.opened]) trivial
  | advance k complete spin =>
    rw [Gate.next]
    cases mine : g.calls[k]? with
    | none => exact vouched
    | some c =>
      have member := List.mem_of_getElem? mine
      obtain ⟨after,behind,text,candidate,-⟩ := block_vouched g vouched c member complete spin
      have still (other : Call) (inside : other ∈ g.calls) :
          Behind word pool (Gate.block word pool complete spin g c).1 other other.stage :=
        after.behind other (by rw [(block_vouched g vouched c member complete spin).2.2.2.2]; exact inside)
      refine ⟨after.cached,after.genuine,after.appendix,?_,?_⟩
      · intro other inside
        obtain old | rfl := List.mem_or_eq_of_mem_set inside
        · exact vouched.named other old
        · rw [candidate,text]
          exact vouched.named c member
      · intro other inside
        refine Behind.more (g := (Gate.block word pool complete spin g c).1) ?_ (fun _ same => same) (fun _ same => same)
        obtain old | rfl := List.mem_or_eq_of_mem_set inside
        · exact still other old
        · exact behind

theorem reachable_vouched (g : Gate) (reached : (machine word pool).Reachable g) : Vouched word pool g := by
  refine reached.invariant (Vouched word pool) ?_ (fun g e _ vouched _ _ => next_vouched g vouched e)
  rintro g rfl
  exact ⟨fun text formula hit => by simp at hit,by simp,.inl rfl,by simp,by simp⟩

theorem judged_verified (spin : Spin) (formula : Formula) (d : Document)
    (verified : (judged (outcome word pool spin formula d)).verified = true) :
    ∃ text model, formula = .ok text ∧ compiled pool d = .ok model ∧ coverageGap text model = none ∧
      (check word spin (sourceText model.program) text).error = none ∧
      ((judged (outcome word pool spin formula d)).accepted = true ↔
        (check word spin (sourceText model.program) text).holds = true) := by
  cases formula with
  | error error => cases verified
  | ok text =>
    unfold outcome at verified ⊢
    dsimp only at verified ⊢
    cases made : compiled pool d with
    | error error =>
      rw [made] at verified
      cases verified
    | ok model =>
      rw [made] at verified
      dsimp only at verified ⊢
      cases covered : coverageGap text model with
      | some gap =>
        rw [covered] at verified
        cases verified
      | none =>
        rw [covered] at verified
        dsimp only at verified ⊢
        split at verified
        · cases verified
        rename_i there
        rw [if_neg there]
        cases answered : (check word spin (sourceText model.program) text).error with
        | some error =>
          rw [answered] at verified
          cases verified
        | none =>
          refine ⟨text,model,rfl,rfl,covered,answered,?_⟩
          cases holds : (check word spin (sourceText model.program) text).holds <;> simp [judged]

/-- A candidate that counts as verified has the sanctioned text, a formula of that very text
all of whose propositions it defines, and was accepted or refused by the number of errors
that SPIN found in its own model. -/
theorem verified_by_spin (g : Gate) (reached : (machine word pool).Reachable g) (c : Call) (member : c ∈ g.calls)
    (result : GateResult) (answered : c.stage = .answered result) (verified : result.verified = true) :
    ∃ candidate spin text model n, c.candidate = some candidate ∧ c.spin = some spin ∧ Sanctioned g candidate ∧
      (missionText candidate.document,.ok text) ∈ g.questions ∧ Formed text ∧
      compiled pool candidate.document = .ok model ∧ (∀ ap ∈ formulaAps text, ap ∈ model.definedAps) ∧
      Answers word spin (ltlFile (sourceText model.program) text) n ∧ (result.accepted = true ↔ n = 0) := by
  have vouched := reachable_vouched g reached
  have behind := vouched.behind c member
  rw [answered] at behind
  obtain ⟨candidate,spin,formula,mine,seen,sanctioned,asked,rfl⟩ := behind verified
  obtain ⟨text,model,rfl,made,covered,conclusive,accepted⟩ := judged_verified spin formula candidate.document verified
  rw [vouched.named c member candidate mine] at asked
  obtain ⟨complete,generated⟩ := vouched.genuine _ asked
  have formed : Formed text := generate_formed complete _ text generated.symm
  obtain ⟨⟨error,failed⟩,-⟩ | ⟨n,answers,-,holds⟩ :=
    check_cases word spin (sourceText model.program) text formed.line formed.full
  · rw [failed] at conclusive
    cases conclusive
  · exact ⟨candidate,spin,text,model,n,mine,seen,sanctioned,asked,formed,made,coverageGap_none text model covered,
      (answers n).mpr rfl,accepted.trans holds⟩

def visit : Document where
  mission := some "visit tree 60"
  tree := [.leaf 1 ⟨.moveToTreeID,[("id","60"),("approach_tree","true")]⟩]

def visitEvents : List Event :=
  .evaluate (.plan visit) none :: List.replicate 4 (.advance 0 (fun _ => .ok "<> at_tree_60") clearing)

def visited : Gate := (machine Char.isAlphanum actions).runs {} visitEvents

theorem visited_reached : (machine Char.isAlphanum actions).Reachable visited :=
  Machine.reaches_runs _ _ _ _ (.start _ rfl) (by decide +kernel)

theorem visited_calls : 0 < visited.calls.length := by decide +kernel

theorem verified_by_spin_visit : ∃ text model, (missionText visit,.ok text) ∈ visited.questions ∧
    compiled actions visit = .ok model ∧ ∀ ap ∈ formulaAps text, ap ∈ model.definedAps := by
  obtain ⟨candidate,spin,text,model,n,mine,-,-,asked,-,made,defined,-,-⟩ :=
    verified_by_spin visited visited_reached (visited.calls.get ⟨0,visited_calls⟩) (List.get_mem _ _)
      ⟨true,.said "verified against `<> at_tree_60`",true⟩ (by decide +kernel) rfl
  have same : (visited.calls.get ⟨0,visited_calls⟩).candidate = some ⟨visit,none⟩ := by decide +kernel
  obtain rfl := Option.some.inj (same.symm.trans mine)
  exact ⟨text,model,asked,made,defined⟩

def asked (text : String) (g : Gate) : Nat := g.questions.countP (fun question => question.1 = text)

def waiting (text : String) (g : Gate) : Nat := g.calls.countP (fun c => c.stage.asks && c.text = text)

theorem compare_asks (g : Gate) (c : Call) : (g.compare c).asks = false := by
  unfold Gate.compare
  split
  · rfl
  · split <;> rfl

theorem look_asks (g : Gate) (c : Call) (cached : (g.cache.get? c.text).isSome = true) : (g.look c).asks = false := by
  obtain ⟨formula,hit⟩ := Option.isSome_iff_exists.mp cached
  rw [Gate.look,hit]
  rfl

theorem keep_cached (g : Gate) (text other : String) (formula : Formula) (cached : (g.cache.get? text).isSome = true) :
    ((g.keep other formula).cache.get? text).isSome = true := by
  cases formula with
  | error error => exact cached
  | ok found =>
    change ((g.cache.set other found).get? text).isSome = true
    rw [Dict.get?_set]
    split
    · rfl
    · exact cached

theorem keep_asked (g : Gate) (text other : String) (formula : Formula) :
    asked text (g.keep other formula) = asked text g + (decide (other = text)).toNat := by
  change (g.questions ++ [(other,formula)]).countP _ = g.questions.countP _ + _
  rw [List.countP_append,List.countP_singleton]
  by_cases same : other = text <;> simp [same]

variable (word pool)

/-- Once a text's formula is cached, a block asks about the text only for a call that waited to. -/
theorem block_asked (g : Gate) (text : String) (cached : (g.cache.get? text).isSome = true) (c : Call)
    (complete : String → Except String String) (spin : Spin) :
    ((Gate.block word pool complete spin g c).1.cache.get? text).isSome = true ∧
      asked text (Gate.block word pool complete spin g c).1 +
          ((Gate.block word pool complete spin g c).2.stage.asks &&
            (Gate.block word pool complete spin g c).2.text = text).toNat =
        asked text g + (c.stage.asks && c.text = text).toNat := by
  unfold Gate.block
  cases stage : c.stage with
  | comparing =>
    refine ⟨cached,?_⟩
    dsimp only
    rw [compare_asks]
    rfl
  | looking =>
    refine ⟨cached,?_⟩
    dsimp only
    by_cases same : c.text = text
    · rw [look_asks g c (same ▸ cached)]
      rfl
    · simp [same]
  | asking =>
    refine ⟨keep_cached g text c.text _ cached,?_⟩
    simp [keep_asked,Stage.asks]
  | found formula =>
    refine ⟨cached,?_⟩
    dsimp only
    unfold Gate.judge
    split <;> simp [Stage.asks,stage]
  | answered result => exact ⟨cached,by simp [stage]⟩

theorem next_asked (g : Gate) (text : String) (cached : (g.cache.get? text).isSome = true) (e : Event) :
    ((g.next word pool e).cache.get? text).isSome = true ∧
      asked text (g.next word pool e) + waiting text (g.next word pool e) = asked text g + waiting text g := by
  cases e with
  | allowMissionText clause => exact ⟨cached,rfl⟩
  | warm other => exact ⟨cached,by simp [Gate.next,waiting,asked,Stage.asks]⟩
  | evaluate candidate active =>
    refine ⟨cached,?_⟩
    cases candidate <;> simp [Gate.next,Gate.opened,waiting,asked,Stage.asks]
  | advance k complete spin =>
    rw [Gate.next]
    cases mine : g.calls[k]? with
    | none => exact ⟨cached,rfl⟩
    | some c =>
      obtain ⟨still,counted⟩ := block_asked word pool g text cached c complete spin
      refine ⟨still,?_⟩
      have replaced := countP_replaced (fun c : Call => c.stage.asks && c.text = text) g.calls k c
        (Gate.block word pool complete spin g c).2 mine
      change asked text (Gate.block word pool complete spin g c).1 + List.countP _ (g.calls.set k _) =
        asked text g + List.countP _ g.calls
      omega

/-- Once a text's formula is cached it stays cached, and from then on the model is asked about
the text as often as calls were waiting to, and no more. -/
theorem cached_asked (g : Gate) (text : String) (cached : (g.cache.get? text).isSome = true) (events : List Event) :
    (((machine word pool).runs g events).cache.get? text).isSome = true ∧
      asked text ((machine word pool).runs g events) + waiting text ((machine word pool).runs g events) =
        asked text g + waiting text g := by
  induction events generalizing g with
  | nil => exact ⟨cached,rfl⟩
  | cons e rest ih =>
    obtain ⟨still,counted⟩ := next_asked word pool g text cached e
    obtain ⟨after,later⟩ := ih _ still
    exact ⟨after,later.trans counted⟩

theorem cached_asked_visit :
    asked "visit tree 60" ((machine Char.isAlphanum actions).runs visited visitEvents) +
      waiting "visit tree 60" ((machine Char.isAlphanum actions).runs visited visitEvents) = 1 :=
  (cached_asked Char.isAlphanum actions visited "visit tree 60" (by decide +kernel) visitEvents).2.trans (by decide +kernel)

/-- The arbiter's handler goes where the gate's call goes: it records an answer, and else waits for one. -/
theorem compare_arbiter (g : Gate) (s : Replanning.Arbiter) (shared : g.appendix = s.appendix) (h : Replanning.Handler)
    (d : Document) (plan : h.candidate = .plan d) (active : Option Xml) (c : Call)
    (mine : c.candidate = some ⟨d,active⟩) (named : c.text = missionText d) :
    h.compare active s = (g.compare c).forArbiter active := by
  have text : h.candidate.text = missionText d := by
    rw [plan]
    rfl
  unfold Replanning.Handler.compare Gate.compare
  rw [mine,text,named,shared,Option.bind_some]
  cases textUnchanged (missionText d) active s.appendix with
  | some reason => rfl
  | none =>
    dsimp only
    by_cases empty : missionText d = ""
    · rw [if_pos empty,if_pos empty]
      rfl
    · rw [if_neg empty,if_neg empty]
      rfl

theorem judge_arbiter (settings : Replanning.Settings) (o : Replanning.Oracle) (h : Replanning.Handler)
    (s : Replanning.Arbiter) (active : Option Xml) (judging : h.stage = .judging active) (d : Document) (c : Call)
    (mine : c.candidate = some ⟨d,active⟩) (spin : Spin) (formula : Formula)
    (answer : o.outcome = outcome word pool spin formula d) :
    Replanning.Handler.block settings o h s = (s,(Gate.judge word pool spin c formula).stage.forArbiter active) := by
  rw [Replanning.Handler.block,judging,Gate.judge,mine,answer]
  rfl

end AmigaFleet.LtlGate
