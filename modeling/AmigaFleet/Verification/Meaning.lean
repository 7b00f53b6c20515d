import AmigaFleet.Verification.Gate

/-! What the propositions of the emitted model mean. A plan without a fallback
compiles to one straight run, one state for each action leaf. -/
namespace AmigaFleet.Verification
open Lib AmigaFleet.Mission
open Lib.Promela (Assign Stmt Macro Program Memory Runs)

def isFallback : Element → Bool
  | .leaf _ _ => false
  | .node _ control _ => control.tag = .fallback

def FallbackFree (plan : Element) : Prop := ∀ element ∈ plan.iter, isFallback element = false

instance (plan : Element) : Decidable (FallbackFree plan) := inferInstanceAs (Decidable (∀ _ ∈ _, _))

/-- The tree numeral the step of a well formed action assigns. -/
def moves (a : Action) : Option String := if a.tag = .moveToTreeID then some (a.text "id") else none

/-- The flag the step of an action raises, after the actions before it. -/
def raises (before : List Action) (a : Action) : Option String :=
  match a.tag with
  | .moveToTreeID => none
  | .sampleLeaf => (bound before).map (treeAp .sampledTree)
  | _ => some (doneAp a.tag)

def assigns (before : List Action) (a : Action) : List Assign :=
  .step a.tag.xmlElement :: ((moves a).map Assign.tree).toList ++ ((raises before a).map Assign.raise).toList

/-- What the step of an action adds to the vocabulary. -/
def defines (before : List Action) (a : Action) : List (String × Macro) :=
  ((approached a).map (fun tree => (treeAp .atTree tree,Macro.stepAndTree a.tag.xmlElement tree))).toList ++
    ((raises before a).map (fun flag => (flag,Macro.flag flag))).toList

theorem define_lookup (em : Emitter) (name other : String) (body : Macro) :
    (em.define name body).macros.lookup other = (em.macros ++ [(name,body)]).lookup other := by
  simp only [Emitter.define]
  split
  · rename_i known
    rw [List.lookup_append]
    by_cases same : other = name
    · subst same
      obtain ⟨value,found⟩ := Option.isSome_iff_exists.mp known
      simp [found]
    · simp [List.lookup_cons,beq_false_of_ne same]
  · rfl

/-- What the compiler emits for one action, after the actions before it. -/
structure Emits (orchard : Option Orchard) (before : List Action) (a : Action) (em : Emitter)
    (stmts : List Stmt) (after : Emitter) : Prop where
  stmts : stmts = [.dStep (assigns before a)]
  state : after.state = reach orchard {} (before ++ [a])
  macros : ∀ name, after.macros.lookup name = (em.macros ++ defines before a).lookup name

theorem emitAction_done (orchard : Option Orchard) (before : List Action) (a : Action) (em after : Emitter)
    (stmts : List Stmt) (state : em.state = reach orchard {} before)
    (ok : emitAction orchard a em = .ok (stmts,after)) (other : a.tag ≠ .moveToTreeID ∧ a.tag ≠ .sampleLeaf) :
    Emits orchard before a em stmts after := by
  have moved : (advance em.state a orchard).2 = reach orchard {} (before ++ [a]) := by
    rw [state,reach_append]
    rfl
  have proposition : (advance em.state a orchard).1.proposition = .done := by
    obtain ⟨tag,attributes⟩ := a
    cases tag <;> simp_all [advance,table,moveToAisleHead,gps] <;> split <;> rfl
  have nowhere : ((advance em.state a orchard).1.establishes.find? (fun fact => fact.kind ∈ whereKinds)).filter
      (fun fact => fact.kind = .atTree || fact.kind = .atWaypoint) = none := by
    obtain ⟨tag,attributes⟩ := a
    cases tag <;> simp_all [advance,table,moveToAisleHead,gps,whereKinds] <;> split <;> simp
  have far : approached a = none := by simp [approached,other.1]
  have still : moves a = none := by simp [moves,other.1]
  have flag : raises before a = some (doneAp a.tag) := by
    unfold raises
    split <;> simp_all
  unfold emitAction at ok
  simp only [proposition,nowhere] at ok
  split at ok
  · cases ok
  injection ok with ok
  obtain ⟨rfl,rfl⟩ := Prod.mk.inj ok
  refine ⟨?_,?_,?_⟩
  · simp [assigns,still,flag]
  · simp only [Emitter.latch,Emitter.define]
    split <;> exact moved
  · intro name
    simp only [Emitter.latch,define_lookup,defines,far,flag]
    rfl

theorem emitAction_tree (orchard : Option Orchard) (before : List Action) (a : Action) (em after : Emitter)
    (stmts : List Stmt) (state : em.state = reach orchard {} before)
    (ok : emitAction orchard a em = .ok (stmts,after)) (tag : a.tag = .moveToTreeID) :
    Emits orchard before a em stmts after := by
  have moved : (advance em.state a orchard).2 = reach orchard {} (before ++ [a]) := by
    rw [state,reach_append]
    rfl
  have still : raises before a = none := by simp [raises,tag]
  have there : moves a = some (a.text "id") := by simp [moves,tag]
  unfold emitAction at ok
  simp only at ok
  split at ok
  · cases ok
  rename_i clean
  have named : a.text "id" ≠ "" := by
    have sound := ((violation_none _ _ _).mp clean).1
    intro empty
    simp [defect,table,tag,moveToTree,empty] at sound
  have row : table a orchard em.state = moveToTree a orchard := by simp only [table,tag]
  have rest : moveToTree a orchard = _ := if_neg named
  have here (kind : FactKind) (place : kind ∈ whereKinds) (others : List Fact) :
      ((⟨kind,a.text "id"⟩ : Fact) :: others).find? (fun fact => fact.kind ∈ whereKinds) = some ⟨kind,a.text "id"⟩ := by
    simp [place]
  cases near : a.approach with
  | true =>
    have close : approached a = some (a.text "id") := by simp [approached,tag,named,near]
    have establishes : (advance em.state a orchard).1.establishes = (moveToTree a orchard).establishes := by
      rw [← row]
      rfl
    have proposition : (advance em.state a orchard).1.proposition = .objective := by
      simp only [advance,row,rest,near,if_true]
    rw [proposition,establishes,rest] at ok
    simp only [near,if_true,here .atTree (by simp [whereKinds])] at ok
    injection ok with ok
    obtain ⟨rfl,rfl⟩ := Prod.mk.inj ok
    refine ⟨by simp [assigns,still,there],?_,?_⟩
    · simp only [Emitter.define]
      split <;> exact moved
    · intro name
      simp only [define_lookup,defines,close,still]
      rfl
  | false =>
    have far : approached a = none := by simp [approached,near]
    have establishes : (advance em.state a orchard).1.establishes = (moveToTree a orchard).establishes := by
      rw [← row]
      rfl
    have proposition : (advance em.state a orchard).1.proposition = .silent := by
      simp only [advance,row,rest,near]
      rfl
    rw [proposition,establishes,rest] at ok
    simp only [near,Bool.false_eq_true,if_false,here .atWaypoint (by simp [whereKinds])] at ok
    injection ok with ok
    obtain ⟨rfl,rfl⟩ := Prod.mk.inj ok
    refine ⟨by simp [assigns,still,there],moved,?_⟩
    intro name
    simp [defines,far,still]

theorem emitAction_sample (orchard : Option Orchard) (before : List Action) (a : Action) (em after : Emitter)
    (stmts : List Stmt) (state : em.state = reach orchard {} before)
    (ok : emitAction orchard a em = .ok (stmts,after)) (tag : a.tag = .sampleLeaf) :
    Emits orchard before a em stmts after ∧ (bound before).isSome = true := by
  have moved : (advance em.state a orchard).2 = reach orchard {} (before ++ [a]) := by
    rw [state,reach_append]
    rfl
  have row : table a orchard em.state = sampleLeaf em.state := by simp only [table,tag]
  have far : approached a = none := by simp [approached,tag]
  have still : moves a = none := by simp [moves,tag]
  unfold emitAction at ok
  simp only at ok
  split at ok
  · cases ok
  rename_i clean
  have held := ((violation_none _ _ _).mp clean).2 tag
  have tree := reach_holding orchard before
  rw [← state] at tree
  obtain ⟨fact,holding⟩ := Option.isSome_iff_exists.mp held
  rw [holding,Option.map_some] at tree
  have flag : raises before a = some (treeAp .sampledTree fact.arg) := by simp [raises,tag,← tree]
  have establishes : (advance em.state a orchard).1.establishes = [⟨.sampledTree,fact.arg⟩] := by
    simp only [advance,row,sampleLeaf,holding]
    rfl
  have proposition : (advance em.state a orchard).1.proposition = .achievement := by
    simp only [advance,row,sampleLeaf]
  rw [proposition,establishes] at ok
  simp only at ok
  injection ok with ok
  obtain ⟨rfl,rfl⟩ := Prod.mk.inj ok
  refine ⟨⟨by simp [assigns,still,flag,whereKinds],?_,?_⟩,by rw [← tree]; rfl⟩
  · simp only [Emitter.latch,Emitter.define]
    split <;> exact moved
  · intro name
    simp only [Emitter.latch,define_lookup,defines,far,flag]
    rfl

theorem emitAction_emits (orchard : Option Orchard) (before : List Action) (a : Action) (em after : Emitter)
    (stmts : List Stmt) (state : em.state = reach orchard {} before)
    (ok : emitAction orchard a em = .ok (stmts,after)) : Emits orchard before a em stmts after := by
  by_cases tree : a.tag = .moveToTreeID
  · exact emitAction_tree orchard before a em after stmts state ok tree
  by_cases sample : a.tag = .sampleLeaf
  · exact (emitAction_sample orchard before a em after stmts state ok sample).1
  · exact emitAction_done orchard before a em after stmts state ok ⟨tree,sample⟩

/-- One step for each action, after those before it. -/
def straight (before : List Action) : List Action → List Stmt
  | [] => []
  | a::rest => .dStep (assigns before a) :: straight (before ++ [a]) rest

def vocabulary (before : List Action) : List Action → List (String × Macro)
  | [] => []
  | a::rest => defines before a ++ vocabulary (before ++ [a]) rest

theorem straight_append (before first second : List Action) :
    straight before (first ++ second) = straight before first ++ straight (before ++ first) second := by
  induction first generalizing before with
  | nil => simp [straight]
  | cons a rest ih => simp [straight,ih]

theorem vocabulary_append (before first second : List Action) :
    vocabulary before (first ++ second) = vocabulary before first ++ vocabulary (before ++ first) second := by
  induction first generalizing before with
  | nil => simp [vocabulary]
  | cons a rest ih => simp [vocabulary,ih]

/-- The compiler has emitted one straight run for the actions. -/
structure Straight (orchard : Option Orchard) (before actions : List Action) (em : Emitter) (stmts : List Stmt)
    (after : Emitter) : Prop where
  stmts : stmts = straight before actions
  state : after.state = reach orchard {} (before ++ actions)
  macros : ∀ name, after.macros.lookup name = (em.macros ++ vocabulary before actions).lookup name

theorem Straight.append {orchard : Option Orchard} {before first second : List Action} {em mid after : Emitter}
    {one other : List Stmt} (here : Straight orchard before first em one mid)
    (later : Straight orchard (before ++ first) second mid other after) :
    Straight orchard before (first ++ second) em (one ++ other) after where
  stmts := by rw [straight_append,here.stmts,later.stmts]
  state := by rw [later.state,List.append_assoc]
  macros := by
    intro name
    rw [later.macros,vocabulary_append,List.lookup_append,here.macros,← List.append_assoc]
    simp only [List.lookup_append]

theorem fallbackFree_child (ref : Nat) (control : Control) (children : List Element)
    (free : FallbackFree (.node ref control children)) (child : Element) (member : child ∈ children) :
    FallbackFree child := by
  intro element inside
  refine free element ?_
  rw [Tree.iter_node]
  exact List.mem_cons_of_mem _ (List.mem_flatMap.mpr ⟨child,member,inside⟩)

variable (pool : List String) (orchard : Option Orchard)

def Straightens (t : Element) : Prop :=
  ∀ before em after stmts, em.state = reach orchard {} before → emit pool orchard t em = .ok (stmts,after) →
    Straight orchard before (acts t) em stmts after

theorem walk_straight (children : List Element) (each : ∀ child ∈ children, Straightens pool orchard child)
    (before : List Action) (em after : Emitter) (stmts : List Stmt) (state : em.state = reach orchard {} before)
    (ok : walk pool orchard children em = .ok (stmts,after)) :
    Straight orchard before (children.flatMap acts) em stmts after := by
  induction children generalizing before em stmts with
  | nil =>
    obtain ⟨rfl,rfl⟩ := Prod.mk.inj (Except.ok.inj ok)
    exact ⟨rfl,by simpa using state,by simp [vocabulary]⟩
  | cons child rest ih =>
    obtain ⟨⟨first,mid⟩,here,ok⟩ := bind_ok _ _ _ ok
    obtain ⟨⟨later,last⟩,there,ok⟩ := bind_ok _ _ _ ok
    obtain ⟨rfl,rfl⟩ := Prod.mk.inj (Except.ok.inj ok)
    rw [List.flatMap_cons]
    have one := each child (by simp) before em mid first state here
    exact one.append (ih (fun c member => each c (by simp [member])) _ mid later one.state there)

theorem emit_straight (t : Element) (free : FallbackFree t) : Straightens pool orchard t := by
  induction t using Tree.induct with
  | leaf ref a =>
    intro before em after stmts state ok
    rw [emit] at ok
    split at ok
    · have emits := emitAction_emits orchard before a em after stmts state ok
      exact ⟨emits.stmts,emits.state,fun name => by simpa [vocabulary] using emits.macros name⟩
    · cases ok
  | node ref control children ih =>
    intro before em after stmts state ok
    have plain : emit pool orchard (.node ref control children) em = walk pool orchard children em := by
      have single := free _ (Tree.self_mem_iter _)
      rw [emit]
      cases tag : control.tag <;> first | rfl | simp [isFallback,tag] at single
    rw [plain] at ok
    rw [acts_node]
    refine walk_straight pool orchard children (fun child member => ?_) before em after stmts state ok
    exact ih child member (fallbackFree_child ref control children free child member)

theorem compileMission_straight (plan : Element) (free : FallbackFree plan) (model : Model)
    (ok : compileMission pool orchard plan = .ok model) :
    model.program.body = straight [] (acts plan) ∧
      ∀ name, model.program.macros.lookup name = (vocabulary [] (acts plan)).lookup name := by
  obtain ⟨⟨stmts,em⟩,walked,ok⟩ := bind_ok _ _ _ ok
  have spec := walk_straight pool orchard [plan] (by simpa using emit_straight pool orchard plan free) [] {} em stmts
    rfl walked
  simp only [List.flatMap_cons,List.flatMap_nil,List.append_nil] at spec
  simp only at ok
  by_cases empty : stmts.isEmpty = true
  · rw [if_pos empty] at ok
    cases ok
  · rw [if_neg empty] at ok
    injection ok with ok
    subst ok
    exact ⟨spec.stmts,by simpa using spec.macros⟩

variable (read : String → Int)

/-- The memory after each action. -/
def memories (m : Memory) (before : List Action) : List Action → List Memory
  | [] => []
  | a::rest => Promela.runAll read (assigns before a) m ::
      memories (Promela.runAll read (assigns before a) m) (before ++ [a]) rest

theorem runs_straight (before actions : List Action) (m last : Memory) (trace : List Memory)
    (runs : Runs read (straight before actions) m trace last) : trace = memories read m before actions := by
  induction actions generalizing before m trace with
  | nil =>
    cases runs
    rfl
  | cons a rest ih =>
    cases runs with
    | dStep _ _ _ _ trace later => rw [memories,ih _ _ _ later]

theorem straight_runs (before actions : List Action) (m : Memory) :
    ∃ last, Runs read (straight before actions) m (memories read m before actions) last := by
  induction actions generalizing before m with
  | nil => exact ⟨m,.done m⟩
  | cons a rest ih =>
    obtain ⟨last,runs⟩ := ih (before ++ [a]) (Promela.runAll read (assigns before a) m)
    exact ⟨last,.dStep _ _ _ _ _ runs⟩

theorem memories_length (m : Memory) (before actions : List Action) :
    (memories read m before actions).length = actions.length := by
  induction actions generalizing m before with
  | nil => rfl
  | cons a rest ih => simp [memories,ih]

/-- One action in memory: its own step, its own tree, and one more flag at most. -/
theorem runAll_assigns (before : List Action) (a : Action) (m : Memory) :
    (Promela.runAll read (assigns before a) m).step = a.tag.xmlElement ∧
      (∀ id, moves a = some id → (Promela.runAll read (assigns before a) m).tree = read id) ∧
      ∀ flag, (Promela.runAll read (assigns before a) m).flags flag = true ↔
        m.flags flag = true ∨ raises before a = some flag := by
  have same (flag other : String) : (flag = other ∨ m.flags flag = true) ↔ (m.flags flag = true ∨ other = flag) := by
    rw [or_comm,@eq_comm _ flag other]
  cases moving : moves a <;> cases raised : raises before a <;>
    simp [assigns,moving,raised,Promela.runAll,Promela.Assign.run,same]

/-- An action of the list at or before the place raises the flag. -/
def Raised (before actions : List Action) (k : Nat) (flag : String) : Prop :=
  ∃ j ≤ k, ∃ a, actions[j]? = some a ∧ raises (before ++ actions.take j) a = some flag

theorem raised_cons (before rest : List Action) (a : Action) (k : Nat) (flag : String) :
    Raised before (a :: rest) (k + 1) flag ↔ raises before a = some flag ∨ Raised (before ++ [a]) rest k flag := by
  constructor
  · rintro ⟨j,within,b,found,raised⟩
    cases j with
    | zero =>
      obtain rfl : a = b := by simpa using found
      exact .inl (by simpa using raised)
    | succ j => exact .inr ⟨j,by omega,b,by simpa using found,by simpa using raised⟩
  · rintro (raised | ⟨j,within,b,found,raised⟩)
    · exact ⟨0,by omega,a,rfl,by simpa using raised⟩
    · exact ⟨j + 1,by omega,b,by simpa using found,by simpa using raised⟩

theorem raised_zero (before rest : List Action) (a : Action) (flag : String) :
    Raised before (a :: rest) 0 flag ↔ raises before a = some flag := by
  constructor
  · rintro ⟨j,within,b,found,raised⟩
    obtain rfl : j = 0 := by omega
    obtain rfl : a = b := by simpa using found
    simpa using raised
  · exact fun raised => ⟨0,le_refl 0,a,rfl,by simpa using raised⟩

/-- The memory at an action's own state. -/
theorem memories_at (m : Memory) (before actions : List Action) (k : Nat) (a : Action)
    (here : actions[k]? = some a) :
    ∃ mem, (memories read m before actions)[k]? = some mem ∧ mem.step = a.tag.xmlElement ∧
      (∀ id, moves a = some id → mem.tree = read id) ∧
      ∀ flag, mem.flags flag = true ↔ m.flags flag = true ∨ Raised before actions k flag := by
  induction actions generalizing m before k with
  | nil => simp at here
  | cons b rest ih =>
    obtain ⟨step,tree,flags⟩ := runAll_assigns read before b m
    cases k with
    | zero =>
      obtain rfl : b = a := by simpa using here
      exact ⟨_,rfl,step,tree,fun flag => by rw [flags,raised_zero]⟩
    | succ k =>
      obtain ⟨mem,found,own,moved,later⟩ := ih (Promela.runAll read (assigns before b) m) (before ++ [b]) k
        (by simpa using here)
      exact ⟨mem,by simpa [memories] using found,own,moved,fun flag => by rw [later,flags,raised_cons,or_assoc]⟩

theorem vocabulary_mem (before actions : List Action) (entry : String × Macro) :
    entry ∈ vocabulary before actions ↔
      ∃ k a, actions[k]? = some a ∧ entry ∈ defines (before ++ actions.take k) a := by
  induction actions generalizing before with
  | nil => simp [vocabulary]
  | cons b rest ih =>
    rw [vocabulary,List.mem_append,ih]
    constructor
    · rintro (here | ⟨k,a,found,defined⟩)
      · exact ⟨0,b,rfl,by simpa using here⟩
      · exact ⟨k + 1,a,by simpa using found,by simpa using defined⟩
    · rintro ⟨k,a,found,defined⟩
      cases k with
      | zero =>
        obtain rfl : b = a := by simpa using found
        exact .inl (by simpa using defined)
      | succ k => exact .inr ⟨k,a,by simpa using found,by simpa using defined⟩

/-- Where every entry of one name has one value, looking the name up finds it. -/
theorem lookup_unique {α : Type} (entries : List (String × α)) (name : String) (value : α)
    (unique : ∀ other, (name,other) ∈ entries → other = value) (found : α) :
    entries.lookup name = some found ↔ found = value ∧ (name,value) ∈ entries := by
  induction entries with
  | nil => simp
  | cons entry rest ih =>
    obtain ⟨key,held⟩ := entry
    have later := ih (fun other member => unique other (List.mem_cons_of_mem _ member))
    by_cases same : name = key
    · subst same
      obtain rfl := unique held (by simp)
      rw [List.lookup_cons_self]
      simp [eq_comm]
    · rw [List.lookup_cons,beq_false_of_ne same]
      simp [later,same]

theorem atTree_ne_sampled (tree other : String) : treeAp .atTree tree ≠ treeAp .sampledTree other := by
  intro same
  have heads := congrArg (fun s : String => s.toList.head?) same
  simp [treeAp,FactKind.text] at heads

theorem doneAp_starts (tag : Capability) (other : tag ≠ .sampleLeaf) :
    (doneAp tag).toList.take 2 ≠ ['a','t'] ∧ (doneAp tag).toList.take 2 ≠ ['s','a'] := by
  cases tag <;> first | exact absurd rfl other | decide

theorem treeAp_ne_done (kind : FactKind) (known : kind = .atTree ∨ kind = .sampledTree) (tree : String)
    (tag : Capability) (other : tag ≠ .sampleLeaf) : treeAp kind tree ≠ doneAp tag := by
  intro same
  have starts := congrArg (fun s : String => s.toList.take 2) same
  obtain ⟨notAt,notSampled⟩ := doneAp_starts tag other
  obtain rfl | rfl := known <;> simp [treeAp,FactKind.text] at starts
  · exact notAt starts.symm
  · exact notSampled starts.symm

theorem treeAp_inj (kind : FactKind) (tree other : String) (same : treeAp kind tree = treeAp kind other) :
    tree = other := by
  simpa [treeAp] using same

theorem raises_sampled (before : List Action) (a : Action) (tree : String) :
    raises before a = some (treeAp .sampledTree tree) ↔ a.tag = .sampleLeaf ∧ bound before = some tree := by
  unfold raises
  split
  · rename_i tag
    simp [tag]
  · rename_i tag
    simp only [tag,true_and,Option.map_eq_some_iff]
    constructor
    · rintro ⟨other,landed,same⟩
      exact landed.trans (congrArg some (treeAp_inj _ _ _ same))
    · exact fun landed => ⟨tree,landed,rfl⟩
  · rename_i _ other
    refine iff_of_false (fun same => ?_) (fun known => other known.1)
    exact treeAp_ne_done _ (.inr rfl) tree _ other (Option.some.inj same).symm

theorem defines_atTree (before : List Action) (a : Action) (tree : String) (body : Macro) :
    (treeAp .atTree tree,body) ∈ defines before a ↔
      approached a = some tree ∧ body = .stepAndTree a.tag.xmlElement tree := by
  have quiet : ∀ flag, raises before a = some flag → treeAp .atTree tree ≠ flag := by
    intro flag raised
    unfold raises at raised
    split at raised
    · cases raised
    · obtain ⟨other,-,rfl⟩ := Option.map_eq_some_iff.mp raised
      exact atTree_ne_sampled tree other
    · rename_i _ other
      injection raised with same
      exact same ▸ treeAp_ne_done _ (.inl rfl) tree _ other
  simp only [defines,List.mem_append,Option.mem_toList,Option.map_eq_some_iff,Prod.mk.injEq]
  constructor
  · rintro (⟨other,near,same,rfl⟩ | ⟨flag,raised,same,-⟩)
    · obtain rfl := treeAp_inj _ _ _ same
      exact ⟨near,rfl⟩
    · exact absurd same.symm (quiet flag raised)
  · rintro ⟨near,rfl⟩
    exact .inl ⟨tree,near,rfl,rfl⟩

theorem defines_sampled (before : List Action) (a : Action) (tree : String) (body : Macro) :
    (treeAp .sampledTree tree,body) ∈ defines before a ↔
      (a.tag = .sampleLeaf ∧ bound before = some tree) ∧ body = .flag (treeAp .sampledTree tree) := by
  rw [← raises_sampled]
  simp only [defines,List.mem_append,Option.mem_toList,Option.map_eq_some_iff,Prod.mk.injEq]
  constructor
  · rintro (⟨other,near,same,-⟩ | ⟨flag,raised,rfl,rfl⟩)
    · exact absurd same (atTree_ne_sampled other tree)
    · exact ⟨raised,rfl⟩
  · rintro ⟨raised,rfl⟩
    exact .inr ⟨_,raised,rfl,rfl⟩

theorem lookup_atTree (actions : List Action) (tree : String) (body : Macro) :
    (vocabulary [] actions).lookup (treeAp .atTree tree) = some body ↔
      body = .stepAndTree "MoveToTreeID" tree ∧ ∃ a ∈ actions, approached a = some tree := by
  rw [lookup_unique _ _ (.stepAndTree "MoveToTreeID" tree)]
  · refine and_congr_right fun _ => ?_
    rw [vocabulary_mem]
    constructor
    · rintro ⟨k,a,found,defined⟩
      exact ⟨a,List.mem_of_getElem? found,((defines_atTree _ _ _ _).mp defined).1⟩
    · rintro ⟨a,member,near⟩
      obtain ⟨k,found⟩ := List.getElem?_of_mem member
      exact ⟨k,a,found,(defines_atTree _ _ _ _).mpr ⟨near,by rw [(approached_eq a tree near).1]; rfl⟩⟩
  · intro other member
    obtain ⟨k,a,found,defined⟩ := (vocabulary_mem _ _ _).mp member
    obtain ⟨near,rfl⟩ := (defines_atTree _ _ _ _).mp defined
    rw [(approached_eq a tree near).1]
    rfl

theorem lookup_sampled (actions : List Action) (tree : String) (body : Macro) :
    (vocabulary [] actions).lookup (treeAp .sampledTree tree) = some body ↔
      body = .flag (treeAp .sampledTree tree) ∧
        ∃ k a, actions[k]? = some a ∧ a.tag = .sampleLeaf ∧ bound (actions.take k) = some tree := by
  rw [lookup_unique _ _ (.flag (treeAp .sampledTree tree))]
  · refine and_congr_right fun _ => ?_
    rw [vocabulary_mem]
    constructor
    · rintro ⟨k,a,found,defined⟩
      obtain ⟨⟨samples,landed⟩,-⟩ := (defines_sampled _ _ _ _).mp defined
      exact ⟨k,a,found,samples,by simpa using landed⟩
    · rintro ⟨k,a,found,samples,landed⟩
      exact ⟨k,a,found,(defines_sampled _ _ _ _).mpr ⟨⟨samples,by simpa using landed⟩,rfl⟩⟩
  · intro other member
    obtain ⟨k,a,found,defined⟩ := (vocabulary_mem _ _ _).mp member
    exact ((defines_sampled _ _ _ _).mp defined).2

theorem xmlElement_tree (tag : Capability) : tag.xmlElement = "MoveToTreeID" ↔ tag = .moveToTreeID := by
  cases tag <;> decide

/-- After a sound tree move the ontology holds what the move approached. -/
theorem atTree_after (actions : List Action) (k : Nat) (a : Action) (tree : String) (here : actions[k]? = some a)
    (tag : a.tag = .moveToTreeID) (sound : defect a = none) :
    (⟨.atTree,tree⟩ : Fact) ∈ (reach orchard {} (actions.take (k + 1))).facts ↔ approached a = some tree := by
  have named : a.text "id" ≠ "" := by
    intro empty
    simp [defect,table,tag,moveToTree,empty] at sound
  have moving : travels a = true := by simp [travels,tag,named]
  rw [reach_atTree,List.take_add_one,here,Option.toList_some,bound,lastTravel_snoc,if_pos moving]
  rfl

/-- One state of the run for each action and the idle one it parks in, and in each
state the propositions say what the ontology says there. -/
structure Means (plan : Element) (model : Model) (states : List Memory) : Prop where
  count : states.length = (acts plan).length + 1
  order : ∀ (k : Nat) (a : Action), (acts plan)[k]? = some a → ∃ m : Memory, states[k]? = some m ∧ m.step = a.tag.xmlElement
  only : ∀ (k : Nat) (m : Memory) (tree : String), k < (acts plan).length → states[k]? = some m →
    model.program.holds read m (treeAp .atTree tree) = true →
      (⟨.atTree,tree⟩ : Fact) ∈ (reach orchard {} ((acts plan).take (k + 1))).facts
  there : ∀ (k : Nat) (a : Action) (m : Memory) (tree : String), (acts plan)[k]? = some a → states[k]? = some m → approached a = some tree →
    model.program.holds read m (treeAp .atTree tree) = true
  sampled : ∀ (k : Nat) (m : Memory) (tree : String), k < (acts plan).length → states[k]? = some m →
    (model.program.holds read m (treeAp .sampledTree tree) = true ↔
      ∃ j ≤ k, ∃ a, (acts plan)[j]? = some a ∧ a.tag = .sampleLeaf ∧ bound ((acts plan).take j) = some tree)

/-- No transit and no other spelling is read as the number of an approached tree. -/
def Apart (plan : Element) : Prop :=
  ∀ a ∈ acts plan, a.tag = .moveToTreeID → ∀ b ∈ acts plan, ∀ tree ∈ approached b,
    read (a.text "id") = read tree → approached a = some tree

instance (plan : Element) : Decidable (Apart read plan) := inferInstanceAs (Decidable (∀ _ ∈ _, _))

section
variable {pool : List String} {orchard : Option Orchard} {read : String → Int} {plan : Element} {model : Model}

theorem holds_atTree (free : FallbackFree plan) (ok : compileMission pool orchard plan = .ok model) (m : Memory)
    (tree : String) :
    model.program.holds read m (treeAp .atTree tree) = true ↔
      (∃ b ∈ acts plan, approached b = some tree) ∧ m.step = "MoveToTreeID" ∧ m.tree = read tree := by
  have macros := (compileMission_straight pool orchard plan free model ok).2 (treeAp .atTree tree)
  rw [Promela.Program.holds,Option.any_eq_true,macros]
  constructor
  · rintro ⟨body,found,holds⟩
    obtain ⟨rfl,near⟩ := (lookup_atTree _ _ _).mp found
    exact ⟨near,by simpa [Macro.holds] using holds⟩
  · rintro ⟨near,holds⟩
    exact ⟨_,(lookup_atTree _ _ _).mpr ⟨rfl,near⟩,by simpa [Macro.holds] using holds⟩

theorem holds_sampled (free : FallbackFree plan) (ok : compileMission pool orchard plan = .ok model) (m : Memory)
    (tree : String) :
    model.program.holds read m (treeAp .sampledTree tree) = true ↔
      (∃ k a, (acts plan)[k]? = some a ∧ a.tag = .sampleLeaf ∧ bound ((acts plan).take k) = some tree) ∧
        m.flags (treeAp .sampledTree tree) = true := by
  have macros := (compileMission_straight pool orchard plan free model ok).2 (treeAp .sampledTree tree)
  rw [Promela.Program.holds,Option.any_eq_true,macros]
  constructor
  · rintro ⟨body,found,holds⟩
    obtain ⟨rfl,landed⟩ := (lookup_sampled _ _ _).mp found
    exact ⟨landed,holds⟩
  · rintro ⟨landed,holds⟩
    exact ⟨_,(lookup_sampled _ _ _).mpr ⟨rfl,landed⟩,holds⟩

/-- The run of the model, and the memory in the state of each action. -/
theorem run_states (free : FallbackFree plan) (ok : compileMission pool orchard plan = .ok model)
    (states : List Memory) (run : model.program.Run read states) :
    states.length = (acts plan).length + 1 ∧ ∀ k a, (acts plan)[k]? = some a →
      ∃ m, states[k]? = some m ∧ m.step = a.tag.xmlElement ∧ (∀ id, moves a = some id → m.tree = read id) ∧
        ∀ flag, m.flags flag = true ↔ Raised [] (acts plan) k flag := by
  obtain ⟨inner,last,runs,rfl⟩ := run
  rw [(compileMission_straight pool orchard plan free model ok).1] at runs
  obtain rfl := runs_straight read _ _ _ _ _ runs
  refine ⟨by simp [memories_length],fun k a here => ?_⟩
  obtain ⟨m,found,step,tree,flags⟩ := memories_at read { step := model.program.idle } [] (acts plan) k a here
  have short := (List.getElem?_eq_some_iff.mp found).1
  exact ⟨m,(List.getElem?_append_left short).trans found,step,tree,fun flag => by simpa using flags flag⟩

theorem raised_sampled (actions : List Action) (k : Nat) (tree : String) :
    Raised [] actions k (treeAp .sampledTree tree) ↔
      ∃ j ≤ k, ∃ a, actions[j]? = some a ∧ a.tag = .sampleLeaf ∧ bound (actions.take j) = some tree := by
  simp only [Raised,List.nil_append,raises_sampled]

end

/-- What a model is asked to mean: it runs, and every run of it means what the plan does. -/
def Faithful (plan : Element) (model : Model) : Prop :=
  (∃ states, model.program.Run read states) ∧
    ∀ states, model.program.Run read states → Means orchard read plan model states

theorem faithful_apart (plan : Element) (free : FallbackFree plan) (model : Model)
    (ok : compileMission pool orchard plan = .ok model) (faithful : Faithful orchard read plan model) :
    Apart read plan := by
  have sound := (compileMission_walked pool orchard plan model ok).choose_spec.sound
  obtain ⟨⟨states,run⟩,means⟩ := faithful
  intro a member tag b other tree near same
  obtain ⟨k,here⟩ := List.getElem?_of_mem member
  obtain ⟨-,at_⟩ := run_states free ok states run
  obtain ⟨m,found,step,moved,-⟩ := at_ k a here
  have short : k < (acts plan).length := (List.getElem?_eq_some_iff.mp here).1
  have holds : model.program.holds read m (treeAp .atTree tree) = true := by
    refine (holds_atTree free ok m tree).mpr ⟨⟨b,other,near⟩,by rw [step,tag]; rfl,?_⟩
    rw [moved (a.text "id") (by simp [moves,tag]),same]
  exact (atTree_after orchard _ k a tree here tag (sound a member)).mp ((means states run).only k m tree short found holds)

theorem apart_faithful (plan : Element) (free : FallbackFree plan) (model : Model)
    (ok : compileMission pool orchard plan = .ok model) (apart : Apart read plan) :
    Faithful orchard read plan model := by
  have sound := (compileMission_walked pool orchard plan model ok).choose_spec.sound
  have runs : ∃ states, model.program.Run read states := by
    obtain ⟨last,run⟩ := straight_runs read [] (acts plan) { step := model.program.idle }
    exact ⟨_,_,last,by rw [(compileMission_straight pool orchard plan free model ok).1]; exact run,rfl⟩
  refine ⟨runs,fun states run => ?_⟩
  obtain ⟨count,at_⟩ := run_states free ok states run
  refine ⟨count,?_,?_,?_,?_⟩
  · intro k a here
    obtain ⟨m,found,step,-⟩ := at_ k a here
    exact ⟨m,found,step⟩
  · intro k m tree short found holds
    obtain ⟨a,here⟩ : ∃ a, (acts plan)[k]? = some a := ⟨_,List.getElem?_eq_getElem short⟩
    obtain ⟨_,found',step,moved,-⟩ := at_ k a here
    obtain rfl := Option.some.inj (found.symm.trans found')
    obtain ⟨⟨b,member,near⟩,own,numeral⟩ := (holds_atTree free ok m tree).mp holds
    have tag := (xmlElement_tree a.tag).mp (step.symm.trans own)
    rw [moved (a.text "id") (by simp [moves,tag])] at numeral
    have close := apart a (List.mem_of_getElem? here) tag b member tree near numeral
    exact (atTree_after orchard _ k a tree here tag (sound a (List.mem_of_getElem? here))).mpr close
  · intro k a m tree here found near
    obtain ⟨_,found',step,moved,-⟩ := at_ k a here
    obtain rfl := Option.some.inj (found.symm.trans found')
    obtain ⟨tag,named,-⟩ := approached_eq a tree near
    refine (holds_atTree free ok m tree).mpr ⟨⟨a,List.mem_of_getElem? here,near⟩,by rw [step,tag]; rfl,?_⟩
    exact moved tree (by simp [moves,tag,named])
  · intro k m tree short found
    obtain ⟨a,here⟩ : ∃ a, (acts plan)[k]? = some a := ⟨_,List.getElem?_eq_getElem short⟩
    obtain ⟨_,found',-,-,flags⟩ := at_ k a here
    obtain rfl := Option.some.inj (found.symm.trans found')
    rw [holds_sampled free ok,flags,raised_sampled]
    refine and_iff_right_of_imp ?_
    rintro ⟨j,-,b,there,samples,landed⟩
    exact ⟨j,b,there,samples,landed⟩

theorem model_means (plan : Element) (free : FallbackFree plan) (model : Model)
    (ok : compileMission pool orchard plan = .ok model) :
    Faithful orchard read plan model ↔ Apart read plan :=
  ⟨faithful_apart pool orchard read plan free model ok,apart_faithful pool orchard read plan free model ok⟩

def decimal (numeral : String) : Int := (Text.int numeral).getD 0

def visitPlan : Element :=
  .node 0 ⟨.sequence,[]⟩
    [.leaf 1 ⟨.moveToTreeID,[("id","60"),("approach_tree","true")]⟩,.leaf 2 ⟨.sampleLeaf,[]⟩]

theorem visitPlan_means :
    ∃ model, compileMission actions none visitPlan = .ok model ∧ Faithful none decimal visitPlan model :=
  ⟨_,rfl,(model_means actions none decimal visitPlan (by decide) _ rfl).mpr (by decide)⟩

/-- The robot visits tree 60, leaves, and later drives past it. -/
def passingPlan : Element :=
  .node 0 ⟨.sequence,[]⟩
    [.leaf 1 ⟨.moveToTreeID,[("id","60"),("approach_tree","true")]⟩,.leaf 2 ⟨.sampleLeaf,[]⟩,
      .leaf 3 ⟨.moveToAisleHead,[("id","6")]⟩,.leaf 4 ⟨.moveToTreeID,[("id","60"),("approach_tree","false")]⟩]

theorem passingPlan_misread :
    ¬∀ plan, FallbackFree plan → ∀ model, compileMission actions none plan = .ok model →
      Faithful none decimal plan model := by
  intro faithful
  have apart := faithful_apart actions none decimal passingPlan (by decide) _ rfl
    (faithful passingPlan (by decide) _ rfl)
  exact absurd apart (by decide)

end AmigaFleet.Verification
