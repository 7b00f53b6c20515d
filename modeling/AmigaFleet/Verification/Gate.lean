import AmigaFleet.Mission.Whereabouts
import AmigaFleet.Verification.Emitter
import AmigaFleet.Lib.Results

/-! The walk of the gate and the walk of the compiler on one plan. They differ
on a fallback alone: the gate reads its branches one after another, the compiler
starts each from the state before the choice. -/
namespace AmigaFleet.Verification
open Lib AmigaFleet.Mission
open Lib.Promela (Stmt)

/-- The actions under an element, in document order. -/
def acts (root : Element) : List Action := (actionsIn root).map Prod.snd

@[simp] theorem acts_leaf (ref : Nat) (a : Action) : acts (.leaf ref a) = [a] := rfl
@[simp] theorem acts_node (ref : Nat) (control : Control) (children : List Element) :
    acts (.node ref control children) = children.flatMap acts := by
  simp only [acts,actionsIn,Tree.leaves_node,List.map_flatMap]
  rfl

theorem bound_append (first second : List Action) :
    bound (first ++ second) = match lastTravel second with
      | some a => approached a
      | none => bound first := by
  rw [bound,lastTravel_append]
  cases lastTravel second <;> rfl

theorem bound_of_suffix (first second : List Action) (found : (bound second).isSome = true) :
    (bound (first ++ second)).isSome = true := by
  rw [bound_append]
  rw [bound] at found
  cases last : lastTravel second with
  | none => simp [last] at found
  | some a => simpa [last] using found

/-- Where one walk after another ends, the second decides, and else the first. -/
theorem stands_append (first second : List Action) (tree : String) (entry mid : Prop)
    (later : bound second = some tree ∨ (lastTravel second = none ∧ mid))
    (here : mid → bound first = some tree ∨ (lastTravel first = none ∧ entry)) :
    bound (first ++ second) = some tree ∨ (lastTravel (first ++ second) = none ∧ entry) := by
  rw [bound_append,lastTravel_append]
  obtain landed | ⟨still,there⟩ := later
  · cases last : lastTravel second with
    | none => rw [bound,last] at landed; cases landed
    | some a => exact .inl (by rw [bound,last] at landed; exact landed)
  · rw [still]
    simpa using here there

/-- An element of two lists in a row stands in the first or in the second. -/
theorem append_split (first second early late : List Action) (a : Action)
    (split : first ++ second = early ++ a :: late) :
    (∃ rest, first = early ++ a :: rest) ∨ ∃ rest, early = first ++ rest ∧ second = rest ++ a :: late := by
  obtain ⟨rest,inside,cut⟩ | ⟨rest,inside,cut⟩ := List.append_eq_append_iff.mp split
  · exact .inr ⟨rest,inside,cut⟩
  · cases rest with
    | nil => exact .inr ⟨[],by simpa using inside.symm,cut.symm⟩
    | cons b rest =>
      injection cut with same cut
      exact .inl ⟨rest,same ▸ inside⟩

/-- A sample whose last travelling action, in document order, lies in an earlier
branch of a fallback around it and approaches no tree. -/
inductive Stray : Element → Prop
  | here (ref : Nat) (control : Control) (before after : List Element) (branch : Element)
      (early late : List Action) (sample left : Action) (fallback : control.tag = .fallback)
      (split : acts branch = early ++ sample :: late) (samples : sample.tag = .sampleLeaf)
      (stays : lastTravel early = none) (last : lastTravel (before.flatMap acts) = some left)
      (elsewhere : approached left = none) : Stray (.node ref control (before ++ branch :: after))
  | inside (ref : Nat) (control : Control) (children : List Element) (child : Element) (member : child ∈ children)
      (stray : Stray child) : Stray (.node ref control children)

/-- What one walk of the compiler that refuses nothing says of the actions it walked. -/
structure Walked (entry exit : State) (actions : List Action) (stray : Prop) : Prop where
  sound : ∀ a ∈ actions, defect a = none
  stands : ∀ tree, (⟨.atTree,tree⟩ : Fact) ∈ exit.facts →
    bound actions = some tree ∨ (lastTravel actions = none ∧ (⟨.atTree,tree⟩ : Fact) ∈ entry.facts)
  samples : ∀ early sample late, actions = early ++ sample :: late → sample.tag = .sampleLeaf →
    (bound early).isSome = true ∨
      (lastTravel early = none ∧ ∃ tree, (⟨.atTree,tree⟩ : Fact) ∈ entry.facts) ∨ stray

namespace Walked
variable {entry mid exit : State} {first second : List Action} {p q : Prop}

theorem nil (s : State) : Walked s s [] p where
  sound := by simp
  stands := fun tree there => .inr ⟨rfl,there⟩
  samples := by simp

theorem weaken (walked : Walked entry exit first p) (implies : p → q) : Walked entry exit first q :=
  ⟨walked.sound,walked.stands,fun early sample late split samples =>
    (walked.samples early sample late split samples).imp_right (Or.imp_right implies)⟩

/-- One walk after another. -/
theorem append (one : Walked entry mid first p) (other : Walked mid exit second p) :
    Walked entry exit (first ++ second) p where
  sound := by
    intro a member
    exact (List.mem_append.mp member).elim (one.sound a) (other.sound a)
  stands := by
    intro tree there
    exact stands_append first second tree _ _ (other.stands tree there) (one.stands tree)
  samples := by
    intro early sample late split samples
    obtain ⟨rest,cut⟩ | ⟨rest,rfl,cut⟩ := append_split _ _ _ _ _ split
    · exact one.samples early sample rest cut samples
    obtain landed | ⟨still,tree,there⟩ | stray := other.samples rest sample late cut samples
    · exact .inl (bound_of_suffix first rest landed)
    · rw [bound_append,lastTravel_append,still]
      obtain landed | ⟨also,there⟩ := one.stands tree there
      · exact .inl (by simp [landed])
      · exact .inr (.inl ⟨by simp [also],tree,there⟩)
    · exact .inr (.inr stray)

end Walked

theorem emitAction_walked (orchard : Option Orchard) (a : Action) (em after : Emitter) (stmts : List Stmt)
    (ok : emitAction orchard a em = .ok (stmts,after)) (p : Prop) : Walked em.state after.state [a] p := by
  have moved : after.state = (advance em.state a orchard).2 ∧ (advance em.state a orchard).1.violation = none := by
    unfold emitAction at ok
    simp only at ok
    split at ok
    · cases ok
    rename_i clean
    refine ⟨?_,clean⟩
    split at ok
    · injection ok with ok
      rw [← (Prod.mk.inj ok).2]
      simp only [Emitter.define]
      split <;> rfl
    · split at ok <;> injection ok with ok <;> rw [← (Prod.mk.inj ok).2]
      simp only [Emitter.latch,Emitter.define]
      split <;> rfl
    · injection ok with ok
      rw [← (Prod.mk.inj ok).2]
      simp only [Emitter.latch,Emitter.define]
      split <;> rfl
    · injection ok with ok
      rw [← (Prod.mk.inj ok).2]
  obtain ⟨sound,sampling⟩ := (violation_none _ _ _).mp moved.2
  refine ⟨by simpa using sound,?_,?_⟩
  · intro tree there
    rw [moved.1,advance_where _ _ _ _ (by simp [travelKinds,whereKinds])] at there
    cases moving : travels a with
    | false => exact .inr ⟨by simp [lastTravel,moving],by simpa [moving] using there⟩
    | true =>
      rw [moving,if_pos rfl,places_atTree _ _ moving] at there
      exact .inl (by simpa [bound,lastTravel,moving] using there)
  · intro early sample late split samples
    obtain ⟨rfl,same⟩ : early = [] ∧ a = sample := by
      cases early with
      | nil => exact ⟨rfl,(List.cons.inj split).1⟩
      | cons b rest => simp at split
    obtain ⟨fact,held⟩ := Option.isSome_iff_exists.mp (sampling (same ▸ samples))
    have kind : fact.kind = .atTree := by simpa using List.find?_some held
    exact .inr (.inl ⟨rfl,fact.arg,kind ▸ List.mem_of_find?_eq_some held⟩)

variable (pool : List String) (orchard : Option Orchard)

/-- The compiler's walk of the element, from any state it is entered in. -/
def Walks (t : Element) : Prop :=
  ∀ em after stmts, emit pool orchard t em = .ok (stmts,after) → Walked em.state after.state (acts t) (Stray t)

theorem walk_walked (children : List Element) (each : ∀ child ∈ children, Walks pool orchard child)
    (em after : Emitter) (stmts : List Stmt) (ok : walk pool orchard children em = .ok (stmts,after)) :
    Walked em.state after.state (children.flatMap acts) (∃ child ∈ children, Stray child) := by
  induction children generalizing em stmts with
  | nil =>
    obtain ⟨-,rfl⟩ := Prod.mk.inj (Except.ok.inj ok)
    exact .nil em.state
  | cons child rest ih =>
    obtain ⟨⟨first,mid⟩,here,ok⟩ := bind_ok _ _ _ ok
    obtain ⟨⟨later,last⟩,there,ok⟩ := bind_ok _ _ _ ok
    obtain ⟨-,rfl⟩ := Prod.mk.inj (Except.ok.inj ok)
    rw [List.flatMap_cons]
    refine Walked.append ((each child (by simp) em mid first here).weaken ?_)
      ((ih (fun c member => each c (by simp [member])) mid later there).weaken ?_)
    · exact fun stray => ⟨child,by simp,stray⟩
    · rintro ⟨c,member,stray⟩
      exact ⟨c,by simp [member],stray⟩

/-- What the choice says of its branches, each walked from the state before it. -/
theorem emitChoice_walked (ref : Nat) (control : Control) (fallback : control.tag = .fallback) (before : State)
    (children earlier : List Element) (each : ∀ child ∈ children, Walks pool orchard child)
    (em after : Emitter) (bodies : List (List Stmt)) (ends : List State)
    (ok : emitChoice pool orchard before children em = .ok (bodies,ends,after)) :
    bodies.length = children.length ∧
      List.Forall₂ (fun branch ending => ∀ tree, (⟨.atTree,tree⟩ : Fact) ∈ State.facts ending →
        bound (acts branch) = some tree ∨
          (lastTravel (acts branch) = none ∧ (⟨.atTree,tree⟩ : Fact) ∈ before.facts)) children ends ∧
      (∀ a ∈ children.flatMap acts, defect a = none) ∧
      ∀ early sample late, children.flatMap acts = early ++ sample :: late → sample.tag = .sampleLeaf →
        (bound (earlier.flatMap acts ++ early)).isSome = true ∨
          (lastTravel (earlier.flatMap acts ++ early) = none ∧ ∃ tree, (⟨.atTree,tree⟩ : Fact) ∈ before.facts) ∨
          Stray (.node ref control (earlier ++ children)) := by
  induction children generalizing earlier em after bodies ends with
  | nil =>
    obtain ⟨rfl,rfl⟩ : bodies = [] ∧ ends = [] := by
      obtain ⟨one,two⟩ := Prod.mk.inj (Except.ok.inj ok)
      exact ⟨one.symm,(Prod.mk.inj two).1.symm⟩
    exact ⟨rfl,.nil,by simp,by simp⟩
  | cons branch rest ih =>
    obtain ⟨⟨body,mid⟩,here,ok⟩ := bind_ok _ _ _ ok
    obtain ⟨⟨more,others,last⟩,there,ok⟩ := bind_ok _ _ _ ok
    simp only [pure,Except.pure,Except.ok.injEq,Prod.mk.injEq] at ok
    obtain ⟨rfl,rfl,rfl⟩ := ok
    have walked := each branch (by simp) _ _ _ here
    obtain ⟨count,ending,sound,samples⟩ := ih (earlier ++ [branch]) (fun c member => each c (by simp [member])) mid
      last more others there
    refine ⟨by simp [count],.cons walked.stands ending,?_,?_⟩
    · intro a member
      rw [List.flatMap_cons,List.mem_append] at member
      exact member.elim (walked.sound a) (sound a)
    · intro early sample late split isSample
      rw [List.flatMap_cons] at split
      obtain ⟨tail,cut⟩ | ⟨tail,rfl,cut⟩ := append_split _ _ _ _ _ split
      · obtain landed | ⟨still,there⟩ | stray := walked.samples early sample tail cut isSample
        · exact .inl (bound_of_suffix _ early landed)
        · rw [bound_append,lastTravel_append,still]
          cases left : lastTravel (earlier.flatMap acts) with
          | none => exact .inr (.inl ⟨rfl,there⟩)
          | some a =>
            cases near : approached a with
            | none => exact .inr (.inr (.here ref control earlier rest branch early tail sample a fallback cut
                isSample still left near))
            | some tree => exact .inl (by simp [bound,left,near])
        · exact .inr (.inr (.inside ref control _ branch (by simp) stray))
      · have joined : (earlier ++ [branch]).flatMap acts ++ tail = earlier.flatMap acts ++ (acts branch ++ tail) := by
          simp
        have later := samples tail sample late cut isSample
        rw [joined] at later
        simpa using later

/-- What all branches end with, the last branch that travels ends with. -/
theorem branches_stand (before : State) (children : List Element) (ends : List State) (some_ : children ≠ [])
    (tree : String)
    (ending : List.Forall₂ (fun branch ending => ∀ tree, (⟨.atTree,tree⟩ : Fact) ∈ State.facts ending →
      bound (acts branch) = some tree ∨
        (lastTravel (acts branch) = none ∧ (⟨.atTree,tree⟩ : Fact) ∈ before.facts)) children ends)
    (all : ∀ state ∈ ends, (⟨.atTree,tree⟩ : Fact) ∈ state.facts) :
    bound (children.flatMap acts) = some tree ∨
      (lastTravel (children.flatMap acts) = none ∧ (⟨.atTree,tree⟩ : Fact) ∈ before.facts) := by
  induction ending with
  | nil => exact absurd rfl some_
  | @cons branch state rest states first others ih =>
    have here := first tree (all state (by simp))
    cases rest with
    | nil => simpa using here
    | cons next more =>
      have later := ih (by simp) (fun s member => all s (by simp [member]))
      exact stands_append _ _ tree _ _ later (fun _ => here)

theorem merge_subset (fact : Fact) (states : List State) (first : State) :
    fact ∈ (states.foldl State.merge first).facts → fact ∈ first.facts ∧ ∀ s ∈ states, fact ∈ s.facts := by
  induction states generalizing first with
  | nil => exact fun member => ⟨member,by simp⟩
  | cons s rest ih =>
    intro member
    obtain ⟨merged,others⟩ := ih (first.merge s) member
    have both : fact ∈ first.facts ∧ fact ∈ s.facts := by simpa [State.merge] using merged
    exact ⟨both.1,by simpa using ⟨both.2,others⟩⟩

theorem emit_walked (t : Element) : Walks pool orchard t := by
  induction t using Tree.induct with
  | leaf ref a =>
    intro em after stmts ok
    rw [emit] at ok
    split at ok
    · exact emitAction_walked orchard a em after stmts ok _
    · cases ok
  | node ref control children each =>
    intro em after stmts ok
    rw [acts_node]
    by_cases fallback : control.tag = .fallback
    · simp only [emit,fallback] at ok
      obtain ⟨⟨bodies,ends,last⟩,chosen,ok⟩ := bind_ok _ _ _ ok
      obtain ⟨count,ending,sound,samples⟩ := emitChoice_walked pool orchard ref control fallback em.state children []
        each em last bodies ends chosen
      by_cases empty : bodies = []
      · have none_ : children = [] := List.length_eq_zero_iff.mp (by rw [← count,empty]; rfl)
        simp only [empty,if_true,pure,Except.pure,Except.ok.injEq,Prod.mk.injEq] at ok
        rw [← ok.2,none_]
        exact .nil em.state
      · simp only [empty,if_false,pure,Except.pure,Except.ok.injEq,Prod.mk.injEq] at ok
        rw [← ok.2]
        refine ⟨sound,?_,samples⟩
        intro tree there
        have held : children ≠ [] := by
          rintro rfl
          exact empty (List.length_eq_zero_iff.mp count)
        refine branches_stand em.state children ends held tree ending ?_
        cases ending with
        | nil => exact absurd rfl held
        | cons first others =>
          have merged := merge_subset _ _ _ there
          simpa using merged
    · have plain : emit pool orchard (.node ref control children) em = walk pool orchard children em := by
        rw [emit]
        cases tag : control.tag <;> first | rfl | exact absurd tag fallback
      rw [plain] at ok
      refine (walk_walked pool orchard children each em after stmts ok).weaken ?_
      rintro ⟨child,member,stray⟩
      exact .inside ref control children child member stray

theorem stray_bound (t : Element) (stray : Stray t) :
    ∃ early sample late left, acts t = early ++ sample :: late ∧ sample.tag = .sampleLeaf ∧
      lastTravel early = some left ∧ approached left = none := by
  induction stray with
  | here ref control before after branch early late sample left fallback split samples stays last elsewhere =>
    refine ⟨before.flatMap acts ++ early,sample,late ++ after.flatMap acts,left,?_,samples,?_,elsewhere⟩
    · rw [acts_node,List.flatMap_append,List.flatMap_cons,split]
      simp
    · rw [lastTravel_append,stays,last]
      rfl
  | inside ref control children child member stray ih =>
    obtain ⟨early,sample,late,left,split,samples,last,elsewhere⟩ := ih
    obtain ⟨before,after,rfl⟩ := List.append_of_mem member
    refine ⟨before.flatMap acts ++ early,sample,late ++ after.flatMap acts,left,?_,samples,?_,elsewhere⟩
    · rw [acts_node,List.flatMap_append,List.flatMap_cons,split]
      simp
    · rw [lastTravel_append,last]
      rfl

theorem compileMission_walked (plan : Element) (model : Model) (ok : compileMission pool orchard plan = .ok model) :
    ∃ after, Walked {} after (acts plan) (Stray plan) := by
  obtain ⟨⟨stmts,em⟩,walked,-⟩ := bind_ok _ _ _ ok
  have spec := walk_walked pool orchard [plan] (fun child _ => emit_walked pool orchard child) {} em stmts walked
  exact ⟨em.state,by simpa using spec⟩

/-- On a plan the compiler takes, the gate refuses nothing exactly where no sample is stray. -/
theorem violations_stray (plan : Element) (model : Model) (ok : compileMission pool orchard plan = .ok model) :
    violations plan orchard = [] ↔ ¬Stray plan := by
  obtain ⟨after,walked⟩ := compileMission_walked pool orchard plan model ok
  rw [violations_nil]
  constructor
  · intro grounded stray
    obtain ⟨early,sample,late,left,split,samples,last,elsewhere⟩ := stray_bound plan stray
    have found := (grounded early sample late split).2 samples
    simp [bound,last,elsewhere] at found
  · intro clear early a late split
    refine ⟨walked.sound a (by rw [acts] at *; rw [split]; simp),fun samples => ?_⟩
    obtain landed | ⟨-,tree,there⟩ | stray := walked.samples early a late split samples
    · exact landed
    · cases there
    · exact absurd stray clear

/-- A plan the gate would refuse is refused by the compiler, and a plan it models breaks nothing. -/
def Agrees (plan : Element) : Prop :=
  (violations plan orchard ≠ [] → ∃ error, compileMission pool orchard plan = .error error) ∧
    ∀ model, compileMission pool orchard plan = .ok model → violations plan orchard = []

theorem gate_agrees (plan : Element) :
    Agrees pool orchard plan ↔ ∀ model, compileMission pool orchard plan = .ok model → ¬Stray plan := by
  constructor
  · intro agrees model ok
    exact (violations_stray pool orchard plan model ok).mp (agrees.2 model ok)
  · intro clear
    have clean (model : Model) (ok : compileMission pool orchard plan = .ok model) : violations plan orchard = [] :=
      (violations_stray pool orchard plan model ok).mpr (clear model ok)
    refine ⟨fun broken => ?_,clean⟩
    cases compiled : compileMission pool orchard plan with
    | error error => exact ⟨error,rfl⟩
    | ok model => exact absurd (clean model compiled) broken

/-- An approach, then a fallback that drives off or samples. -/
def strayPlan : Element :=
  .node 0 ⟨.sequence,[]⟩
    [.leaf 1 ⟨.moveToTreeID,[("name","approach"),("id","60"),("approach_tree","true")]⟩,
      .node 2 ⟨.fallback,[]⟩
        [.leaf 3 ⟨.moveToAisleHead,[("name","leave"),("id","6")]⟩,.leaf 4 ⟨.sampleLeaf,[("name","sample")]⟩]]

theorem strayPlan_disagrees : ¬∀ plan, Agrees actions none plan := by
  intro agrees
  have refused : violations strayPlan none ≠ [] := by decide
  obtain ⟨error,refuses⟩ := (agrees strayPlan).1 refused
  cases refuses

end AmigaFleet.Verification
