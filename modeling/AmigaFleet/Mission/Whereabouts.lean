import AmigaFleet.Mission.Ontology

/-! Where a walk leaves the robot. The last action that travels decides it, so
which tree a sample lands on is read off the list of actions. -/
namespace AmigaFleet.Mission
open Lib

/-- The action is well formed and drives the robot somewhere. -/
def travels (a : Action) : Bool :=
  match a.tag with
  | .moveToTreeID => a.text "id" ≠ ""
  | .moveToAisleHead => a.text "id" ≠ ""
  | .moveToGPSLocation => (a.get "latitude").isSome && (a.get "longitude").isSome
  | .approachGPSWaypoint => (a.get "latitude").isSome && (a.get "longitude").isSome
  | .followPerson => true
  | _ => false

/-- The tree a well formed action approaches. -/
def approached (a : Action) : Option String :=
  if a.tag = .moveToTreeID ∧ a.text "id" ≠ "" ∧ a.approach = true then some (a.text "id") else none

def lastTravel (actions : List Action) : Option Action := actions.reverse.find? travels

/-- The tree a sample after these actions lands on. -/
def bound (actions : List Action) : Option String := (lastTravel actions).bind approached

def defect (a : Action) : Option String := (table a none {}).defect

/-- What a travelling action leaves true of where the robot is. -/
def places (orchard : Option Orchard) (a : Action) : List Fact := (table a orchard {}).establishes

/-- The three kinds of row. -/
inductive Kind (a : Action) (orchard : Option Orchard) (row : Row) : Prop
  | malformed (reason : String) (still : travels a = false) (defective : defect a = some reason)
      (shape : row = { defect := some reason })
  | travelling (moving : travels a = true) (sound : defect a = none) (clean : row.defect = none)
      (clears : row.clears = travelKinds) (establishes : row.establishes = places orchard a)
      (placed : ∀ fact ∈ places orchard a, fact.kind ∈ travelKinds)
      (optional : ∀ need ∈ row.needs, need.strength = .expected)
  | staying (still : travels a = false) (sound : defect a = none) (clean : row.defect = none)
      (clears : row.clears = []) (kept : ∀ fact ∈ row.establishes, fact.kind ∉ travelKinds)
      (free : a.tag ≠ .sampleLeaf → row.needs = [])

theorem moveToTree_kind (a : Action) (orchard : Option Orchard) (s : State) (tag : a.tag = .moveToTreeID) :
    Kind a orchard (table a orchard s) := by
  have rule (orchard : Option Orchard) (s : State) : table a orchard s = moveToTree a orchard := by
    simp only [table,tag]
  by_cases named : a.text "id" = ""
  · have shape (orchard : Option Orchard) : moveToTree a orchard =
        { defect := some ("<MoveToTreeID> '" ++ a.shown ++ "' has no id") } := if_pos named
    exact .malformed _ (by simp [travels,tag,named]) (by rw [defect,rule,shape]) (by rw [rule,shape])
  · have shape (orchard : Option Orchard) : moveToTree a orchard = _ := if_neg named
    refine .travelling (by simp [travels,tag,named]) (by rw [defect,rule,shape]) (by rw [rule,shape])
      (by rw [rule,shape]) (by rw [places,rule,rule]) ?_ ?_
    · intro fact member
      rw [places,rule,shape] at member
      obtain rfl | member := List.mem_cons.mp member
      · cases a.approach <;> simp [travelKinds,whereKinds]
      · obtain ⟨aisle,-,rfl⟩ := Option.map_eq_some_iff.mp (Option.mem_toList.mp member)
        simp [travelKinds,whereKinds]
    · rw [rule,shape]
      simp

theorem moveToAisleHead_kind (a : Action) (orchard : Option Orchard) (s : State) (tag : a.tag = .moveToAisleHead) :
    Kind a orchard (table a orchard s) := by
  have rule (orchard : Option Orchard) (s : State) : table a orchard s = moveToAisleHead a := by
    simp only [table,tag]
  by_cases named : a.text "id" = ""
  · have shape : moveToAisleHead a = { defect := some ("<MoveToAisleHead> '" ++ a.shown ++ "' has no id") } :=
      if_pos named
    exact .malformed _ (by simp [travels,tag,named]) (by rw [defect,rule,shape]) (by rw [rule,shape])
  · have shape : moveToAisleHead a = { establishes := [⟨.inAisle,a.text "id"⟩], clears := travelKinds } :=
      if_neg named
    refine .travelling (by simp [travels,tag,named]) (by rw [defect,rule,shape]) (by rw [rule,shape])
      (by rw [rule,shape]) (by rw [places,rule,rule]) ?_ ?_
    · rw [places,rule,shape]
      simp [travelKinds,whereKinds]
    · rw [rule,shape]
      simp

theorem gps_kind (a : Action) (orchard : Option Orchard) (s : State)
    (tag : a.tag = .moveToGPSLocation ∨ a.tag = .approachGPSWaypoint) : Kind a orchard (table a orchard s) := by
  have rule (orchard : Option Orchard) (s : State) : table a orchard s = gps a := by
    obtain tag | tag := tag <;> simp only [table,tag]
  have moving : travels a = ((a.get "latitude").isSome && (a.get "longitude").isSome) := by
    obtain tag | tag := tag <;> simp only [travels,tag]
  have missing (lost : ((a.get "latitude").isSome && (a.get "longitude").isSome) = false) :
      gps a = { defect := some ("<" ++ a.tag.xmlElement ++ "> '" ++ a.shown ++ "' has no coordinates") } := by
    cases lat : a.get "latitude" <;> cases lon : a.get "longitude" <;> simp_all [gps]
  cases lat : a.get "latitude" with
  | none =>
    have shape := missing (by simp [lat])
    exact .malformed _ (by simp [moving,lat]) (by rw [defect,rule,shape]) (by rw [rule,shape])
  | some latitude =>
    cases lon : a.get "longitude" with
    | none =>
      have shape := missing (by simp [lon])
      exact .malformed _ (by simp [moving,lon]) (by rw [defect,rule,shape]) (by rw [rule,shape])
    | some longitude =>
      have shape : gps a = { establishes := [⟨.atGps,latitude ++ "," ++ longitude⟩], clears := travelKinds } := by
        simp only [gps,lat,lon]
      refine .travelling (by simp [moving,lat,lon]) (by rw [defect,rule,shape]) (by rw [rule,shape])
        (by rw [rule,shape]) (by rw [places,rule,rule]) ?_ ?_
      · rw [places,rule,shape]
        simp [travelKinds,whereKinds]
      · rw [rule,shape]
        simp

theorem kind_table (a : Action) (orchard : Option Orchard) (s : State) : Kind a orchard (table a orchard s) := by
  cases tag : a.tag with
  | moveToTreeID => exact moveToTree_kind a orchard s tag
  | moveToAisleHead => exact moveToAisleHead_kind a orchard s tag
  | moveToGPSLocation => exact gps_kind a orchard s (.inl tag)
  | approachGPSWaypoint => exact gps_kind a orchard s (.inr tag)
  | moveToRelativeLocation =>
    exact .staying (by simp [travels,tag]) (by simp [defect,table,tag]) (by simp [table,tag]) (by simp [table,tag])
      (by simp [table,tag]) (by simp [table,tag])
  | orientRobotHeading =>
    exact .staying (by simp [travels,tag]) (by simp [defect,table,tag]) (by simp [table,tag]) (by simp [table,tag])
      (by simp [table,tag]) (by simp [table,tag])
  | followPerson =>
    exact .travelling (by simp [travels,tag]) (by simp [defect,table,tag]) (by simp [table,tag]) (by simp [table,tag])
      (by simp [places,table,tag]) (by simp [places,table,tag]) (by simp [table,tag])
  | sampleLeaf =>
    refine .staying (by simp [travels,tag]) (by simp [defect,table,tag,sampleLeaf]) (by simp [table,tag,sampleLeaf])
      (by simp [table,tag,sampleLeaf]) ?_ (absurd tag)
    intro fact member
    simp only [table,tag,sampleLeaf] at member
    obtain ⟨here,-,rfl⟩ := Option.map_eq_some_iff.mp (Option.mem_toList.mp member)
    simp [travelKinds,whereKinds]
  | moveArmToPosition =>
    exact .staying (by simp [travels,tag]) (by simp [defect,table,tag]) (by simp [table,tag]) (by simp [table,tag])
      (by simp [table,tag,travelKinds,whereKinds]) (by simp [table,tag])

/-- An action that travels decides every fact about where the robot is, another none. -/
theorem advance_where (s : State) (a : Action) (orchard : Option Orchard) (fact : Fact)
    (place : fact.kind ∈ travelKinds) :
    fact ∈ (advance s a orchard).2.facts ↔ if travels a then fact ∈ places orchard a else fact ∈ s.facts := by
  have kind := kind_table a orchard s
  simp only [advance,State.after]
  generalize table a orchard s = row at kind ⊢
  cases kind with
  | malformed reason still defective shape => simp [shape,still]
  | travelling moving sound clean clears establishes placed optional => simp [clean,clears,establishes,moving,place]
  | staying still sound clean clears kept free =>
    simp only [clean,clears,still,Option.isSome_none,Bool.false_eq_true,if_false,List.not_mem_nil,
      not_false_eq_true,decide_true,List.filter_true,List.mem_append]
    exact or_iff_left (fun member => kept fact member place)

theorem approached_eq (a : Action) (tree : String) (near : approached a = some tree) :
    a.tag = .moveToTreeID ∧ a.text "id" = tree ∧ tree ≠ "" ∧ a.approach = true := by
  unfold approached at near
  split at near
  · rename_i known
    injection near with near
    subst near
    exact ⟨known.1,rfl,known.2⟩
  · cases near

theorem lastTravel_append (first second : List Action) :
    lastTravel (first ++ second) = (lastTravel second).or (lastTravel first) := by
  simp [lastTravel,List.find?_append]

theorem lastTravel_snoc (first : List Action) (a : Action) :
    lastTravel (first ++ [a]) = if travels a then some a else lastTravel first := by
  rw [lastTravel_append]
  cases moving : travels a <;> simp [lastTravel,moving]

theorem lastTravel_travels (actions : List Action) (a : Action) (last : lastTravel actions = some a) :
    travels a = true := List.find?_some last

theorem reach_append (orchard : Option Orchard) (s : State) (first second : List Action) :
    reach orchard s (first ++ second) = reach orchard (reach orchard s first) second := List.foldl_append ..

/-- Where the robot is after a walk is what the last action that travels says. -/
theorem reach_where (orchard : Option Orchard) (s : State) (actions : List Action) (fact : Fact)
    (place : fact.kind ∈ travelKinds) :
    fact ∈ (reach orchard s actions).facts ↔
      match lastTravel actions with
      | some a => fact ∈ places orchard a
      | none => fact ∈ s.facts := by
  induction actions using List.reverseRecOn with
  | nil => rfl
  | append_singleton actions a ih =>
    rw [reach_append,lastTravel_snoc]
    change fact ∈ (advance (reach orchard s actions) a orchard).2.facts ↔ _
    rw [advance_where _ _ _ _ place]
    cases moving : travels a
    · simpa [moving] using ih
    · simp

theorem places_atTree (orchard : Option Orchard) (a : Action) (moving : travels a = true) (tree : String) :
    (⟨.atTree,tree⟩ : Fact) ∈ places orchard a ↔ approached a = some tree := by
  cases tag : a.tag with
  | moveToTreeID =>
    have named : a.text "id" ≠ "" := by simpa [travels,tag] using moving
    simp only [places,table,tag,moveToTree,if_neg named,approached]
    cases near : a.approach <;> simp [named,eq_comm]
  | moveToAisleHead =>
    have named : a.text "id" ≠ "" := by simpa [travels,tag] using moving
    simp [places,table,tag,moveToAisleHead,named,approached]
  | moveToGPSLocation =>
    simp only [places,table,tag,gps,approached]
    split <;> simp
  | approachGPSWaypoint =>
    simp only [places,table,tag,gps,approached]
    split <;> simp
  | followPerson => simp [places,table,tag,approached]
  | moveToRelativeLocation => simp [travels,tag] at moving
  | orientRobotHeading => simp [travels,tag] at moving
  | sampleLeaf => simp [travels,tag] at moving
  | moveArmToPosition => simp [travels,tag] at moving

theorem reach_atTree (orchard : Option Orchard) (actions : List Action) (tree : String) :
    (⟨.atTree,tree⟩ : Fact) ∈ (reach orchard {} actions).facts ↔ bound actions = some tree := by
  rw [reach_where _ _ _ _ (by simp [travelKinds,whereKinds]),bound]
  cases last : lastTravel actions with
  | none => simp
  | some a => simpa using places_atTree orchard a (lastTravel_travels actions a last) tree

/-- The tree a sample lands on is the one the last action that travels approached. -/
theorem reach_holding (orchard : Option Orchard) (actions : List Action) :
    ((reach orchard {} actions).holding .atTree).map Fact.arg = bound actions := by
  cases found : (reach orchard {} actions).holding .atTree with
  | none =>
    cases there : bound actions with
    | none => rfl
    | some tree =>
      have absent := List.find?_eq_none.mp found _ ((reach_atTree orchard actions tree).mpr there)
      simp at absent
  | some fact =>
    obtain ⟨kind,tree⟩ := fact
    have right : kind = .atTree := by simpa using List.find?_some found
    subst right
    exact ((reach_atTree orchard actions tree).mp (List.mem_of_find?_eq_some found)).symm

theorem holding_meets (s : State) (kind : FactKind) (strength : Strength) :
    s.meets ⟨kind,strength,""⟩ = (s.holding kind).isSome := by
  rw [Bool.eq_iff_iff,State.meets,State.holding,List.find?_isSome,List.any_eq_true]
  simp [Need.metBy]

/-- A step is refused for a malformed element, or a sample of nowhere. -/
theorem violation_none (s : State) (a : Action) (orchard : Option Orchard) :
    (advance s a orchard).1.violation = none ↔
      defect a = none ∧ (a.tag = .sampleLeaf → (s.holding .atTree).isSome = true) := by
  by_cases sample : a.tag = .sampleLeaf
  · have row : table a orchard s = sampleLeaf s := by simp only [table,sample]
    have sound : defect a = none := by simp [defect,table,sample,sampleLeaf]
    simp only [advance,row,Step.violation,sampleLeaf,sound,sample,true_and,true_imp_iff,
      holding_meets s .atTree .required,List.filter_cons,List.filter_nil]
    cases s.holding .atTree <;> simp
  · have kind := kind_table a orchard s
    simp only [advance,Step.violation,sample,false_imp_iff,and_true]
    generalize table a orchard s = row at kind ⊢
    cases kind with
    | malformed reason still defective shape => simp [shape,defective]
    | travelling moving sound clean clears establishes placed optional =>
      simp only [clean,sound,Option.map_eq_none_iff,List.find?_eq_none,List.mem_filter,iff_true]
      intro need member
      simp [optional need member.1]
    | staying still sound clean clears kept free => simp [clean,sound,free sample]

theorem steps_append (orchard : Option Orchard) (s : State) (first second : List Action) :
    steps orchard s (first ++ second) = steps orchard s first ++ steps orchard (reach orchard s first) second := by
  induction first generalizing s with
  | nil => rfl
  | cons a rest ih => exact congrArg _ (ih (advance s a orchard).2)

/-- Every action is well formed and every sample has a tree in front of it. -/
def Grounded (actions : List Action) : Prop :=
  ∀ before a after, actions = before ++ a :: after →
    defect a = none ∧ (a.tag = .sampleLeaf → (bound before).isSome = true)

theorem grounded_snoc (actions : List Action) (a : Action) :
    Grounded (actions ++ [a]) ↔
      Grounded actions ∧ defect a = none ∧ (a.tag = .sampleLeaf → (bound actions).isSome = true) := by
  constructor
  · intro grounded
    refine ⟨fun before b after split => ?_,grounded actions a [] (by simp)⟩
    exact grounded before b (after ++ [a]) (by simp [split])
  · rintro ⟨grounded,last⟩ before b after split
    rcases List.eq_nil_or_concat after with rfl | ⟨rest,c,rfl⟩
    · obtain ⟨rfl,same⟩ := List.append_inj' split rfl
      injection same with same
      exact same ▸ last
    · have cut : actions ++ [a] = (before ++ b :: rest) ++ [c] := by simpa using split
      exact grounded before b rest (List.append_inj' cut rfl).1

/-- The walk refuses nothing exactly where every sample has a tree in front of it. -/
theorem violations_steps (orchard : Option Orchard) (actions : List Action) :
    (steps orchard {} actions).filterMap Step.violation = [] ↔ Grounded actions := by
  induction actions using List.reverseRecOn with
  | nil =>
    refine ⟨fun _ before a after split => ?_,fun _ => rfl⟩
    simp at split
  | append_singleton actions a ih =>
    have last : (steps orchard (reach orchard {} actions) [a]).filterMap Step.violation = [] ↔
        defect a = none ∧ (a.tag = .sampleLeaf → (bound actions).isSome = true) := by
      rw [← reach_holding orchard,Option.isSome_map,← violation_none _ a orchard]
      simp [steps]
    rw [steps_append,List.filterMap_append,List.append_eq_nil_iff,ih,grounded_snoc,last]

theorem violations_nil (root : Element) (orchard : Option Orchard) :
    violations root orchard = [] ↔ Grounded ((actionsIn root).map Prod.snd) := violations_steps orchard _

end AmigaFleet.Mission
