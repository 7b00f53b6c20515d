import AmigaFleet.Mission.Remaining

/-! What a walk leaves true is what the actions did: the robot is in one place and one
aisle, what is achieved stays, and each sample is bound to the move it was led by. -/
namespace AmigaFleet.Mission
open Lib

def latchingKinds : List FactKind := [.sampledTree,.armPositioned]

def leafName (a : Action) : String := (a.get "name").getD ""

/-- `sample_leaf_trees`. -/
def sampleLeafTrees (root : Element) (orchard : Option Orchard) : Dict String String :=
  (objectiveBindings root orchard).foldl (fun trees o => trees.set (leafName o.2.1.2) o.2.2) .empty

/-- One place and one aisle at a time. -/
structure Exclusive (facts : List Fact) : Prop where
  place : ∀ f ∈ facts, ∀ g ∈ facts, f.kind ∈ whereKinds → g.kind ∈ whereKinds → f = g
  aisle : ∀ f ∈ facts, ∀ g ∈ facts, f.kind = .inAisle → g.kind = .inAisle → f = g

/-- A move, an aisle head, a GPS move or a walk behind a person. -/
def departs (a : Action) : Bool :=
  a.tag ∈ [.moveToTreeID,.moveToAisleHead,.moveToGPSLocation,.approachGPSWaypoint,.followPerson]

/-- The step that a leaf makes behind others. -/
def stepAfter (orchard : Option Orchard) (early : List Leaf) (x : Leaf) : Step :=
  (advance (reach orchard {} (early.map Prod.snd)) x.2 orchard).1

/-- The move is the last approaching one without a defect, and nothing without a defect
leads away from its tree. -/
def LastApproach (early : List Leaf) (move : Leaf) : Prop :=
  ∃ front mid, early = front ++ move :: mid ∧ move.2.tag = .moveToTreeID ∧ move.2.approach = true ∧
    defect move.2 = none ∧ ∀ y ∈ mid, departs y.2 = true → (defect y.2).isSome = true

/-- A sample that meets its need and its move, at their places in the plan. -/
structure Led (root : Element) (orchard : Option Orchard) (early late : List Leaf) (x move : Leaf) : Prop where
  split : actionsIn root = early ++ x :: late
  samples : x.2.tag = .sampleLeaf
  meets : (stepAfter orchard early x).unmet = []
  last : LastApproach early move

/-- The samples that meet their need are paired with the moves that led to them. -/
structure Paired (root : Element) (orchard : Option Orchard) : Prop where
  sampled : ∀ early late x, actionsIn root = early ++ x :: late → x.2.tag = .sampleLeaf →
    (stepAfter orchard early x).unmet = [] → ∃ move, LastApproach early move ∧
      (stepAfter orchard early x).establishes = [⟨.sampledTree,move.2.text "id"⟩] ∧
      (move,x,move.2.text "id") ∈ objectiveBindings root orchard ∧
      ((∀ y ∈ early ++ late, y.2.tag = .sampleLeaf → leafName y.2 ≠ leafName x.2) →
        (sampleLeafTrees root orchard).get? (leafName x.2) = some (move.2.text "id"))
  only : ∀ o ∈ objectiveBindings root orchard, o.2.2 = o.1.2.text "id" ∧
    ∃ early late, Led root orchard early late o.2.1 o.1

/-- What a state says after the actions is what they did. -/
structure Recorded (orchard : Option Orchard) (actions : List Action) : Prop where
  exclusive : Exclusive (reach orchard {} actions).facts
  latching : ∀ later, ∀ fact ∈ (reach orchard {} actions).facts, fact.kind ∈ latchingKinds →
    fact ∈ (reach orchard {} (actions ++ later)).facts
  defective : ∀ a, (advance (reach orchard {} actions) a orchard).1.defect.isSome = true →
    (advance (reach orchard {} actions) a orchard).2 = reach orchard {} actions

theorem travels_iff (a : Action) : travels a = true ↔ departs a = true ∧ defect a = none := by
  have leaving : travels a = true → departs a = true := by
    cases tag : a.tag <;> simp [travels,departs,tag]
  have kind := kind_table a none {}
  generalize table a none {} = row at kind
  cases kind with
  | malformed reason still defective shape => simp [still,defective]
  | travelling moving sound clean clears establishes placed optional => simp [moving,sound,leaving moving]
  | staying still sound clean clears kept free =>
    have away : departs a = false := by
      cases tag : a.tag with
      | moveToTreeID => simp_all [travels,departs,defect,table,moveToTree]
      | moveToAisleHead => simp_all [travels,departs,defect,table,moveToAisleHead]
      | moveToGPSLocation | approachGPSWaypoint =>
        simp only [defect,table,tag,gps] at sound
        split at sound
        · rename_i lat lon
          simp [travels,tag,lat,lon] at still
        · cases sound
      | followPerson => simp [travels,tag] at still
      | moveToRelativeLocation | orientRobotHeading | moveArmToPosition | sampleLeaf => simp [departs,tag]
    simp [still,away]

theorem places_exclusive (orchard : Option Orchard) (a : Action) : Exclusive (places orchard a) := by
  have one (fact : Fact) : Exclusive [fact] := by
    constructor <;> simp
  have none_ : Exclusive [] := by
    constructor <;> simp
  cases tag : a.tag with
  | moveToTreeID =>
    simp only [places,table,tag,moveToTree]
    split
    · exact none_
    · cases aisleText orchard (a.text "id") with
      | none => exact one _
      | some aisle =>
        constructor <;> cases a.approach <;> simp [whereKinds]
  | moveToAisleHead =>
    simp only [places,table,tag,moveToAisleHead]
    split
    · exact none_
    · exact one _
  | moveToGPSLocation | approachGPSWaypoint =>
    simp only [places,table,tag,gps]
    split
    · exact one _
    · exact none_
  | sampleLeaf =>
    simp only [places,table,tag,sampleLeaf]
    exact none_
  | moveArmToPosition =>
    simp only [places,table,tag]
    exact one _
  | followPerson | moveToRelativeLocation | orientRobotHeading =>
    simp only [places,table,tag]
    exact none_

theorem reach_exclusive (orchard : Option Orchard) (actions : List Action) :
    Exclusive (reach orchard {} actions).facts := by
  have known (fact : Fact) (kind : fact.kind ∈ travelKinds) := reach_where orchard {} actions fact kind
  have wheres (k : FactKind) (member : k ∈ whereKinds) : k ∈ travelKinds := List.mem_append_left _ member
  have aisles (k : FactKind) (same : k = .inAisle) : k ∈ travelKinds := by rw [same]; decide
  cases last : lastTravel actions with
  | none =>
    simp only [last] at known
    constructor
    · exact fun f here _ _ kind _ => absurd ((known f (wheres _ kind)).mp here) List.not_mem_nil
    · exact fun f here _ _ kind _ => absurd ((known f (aisles _ kind)).mp here) List.not_mem_nil
  | some a =>
    simp only [last] at known
    have exclusive := places_exclusive orchard a
    constructor
    · exact fun f here g there kind also => exclusive.place f ((known f (wheres _ kind)).mp here) g
        ((known g (wheres _ also)).mp there) kind also
    · exact fun f here g there kind also => exclusive.aisle f ((known f (aisles _ kind)).mp here) g
        ((known g (aisles _ also)).mp there) kind also

/-- One step keeps what is achieved. -/
theorem advance_latching (s : State) (a : Action) (orchard : Option Orchard) (fact : Fact) (member : fact ∈ s.facts)
    (latching : fact.kind ∈ latchingKinds) : fact ∈ (advance s a orchard).2.facts := by
  have away : fact.kind ∉ travelKinds := by
    intro travelling
    simp only [latchingKinds,travelKinds,whereKinds,List.mem_cons,List.not_mem_nil,or_false,List.mem_append] at latching travelling
    rcases latching with same | same <;> simp [same] at travelling
  have kind := kind_table a orchard s
  simp only [advance,State.after]
  generalize table a orchard s = row at kind ⊢
  cases kind with
  | malformed reason still defective shape => simpa [shape] using member
  | travelling moving sound clean clears establishes placed optional => simp [clean,clears,member,away]
  | staying still sound clean clears kept free => simp [clean,clears,member]

theorem reach_latching (orchard : Option Orchard) (s : State) (later : List Action) (fact : Fact) (member : fact ∈ s.facts)
    (latching : fact.kind ∈ latchingKinds) : fact ∈ (reach orchard s later).facts := by
  induction later generalizing s with
  | nil => exact member
  | cons a later ih => exact ih _ (advance_latching s a orchard fact member latching)

theorem recorded (orchard : Option Orchard) (actions : List Action) : Recorded orchard actions where
  exclusive := reach_exclusive orchard actions
  latching := by
    intro later fact member latching
    rw [reach_append]
    exact reach_latching orchard _ later fact member latching
  defective := fun a defect => if_pos defect

theorem lastApproach_iff (early : List Leaf) (move : Leaf) :
    LastApproach early move ↔ lastLeaf early = some move ∧ approached move.2 = some (move.2.text "id") := by
  have stays (y : Leaf) : (!travels y.2) = true ↔ (departs y.2 = true → (defect y.2).isSome = true) := by
    rw [Bool.not_eq_true',Bool.eq_false_iff,ne_eq,travels_iff,not_and,← ne_eq,Option.ne_none_iff_isSome]
  constructor
  · rintro ⟨front,mid,rfl,tag,close,sound,idle⟩
    have moving : travels move.2 = true := (travels_iff move.2).mpr ⟨by simp [departs,tag],sound⟩
    have named : move.2.text "id" ≠ "" := by simpa [travels,tag] using moving
    refine ⟨?_,if_pos ⟨tag,named,close⟩⟩
    rw [lastLeaf,List.reverse_append,List.reverse_cons,List.append_assoc,List.find?_append]
    have none_ : mid.reverse.find? (fun x => travels x.2) = none :=
      List.find?_eq_none.mpr (fun y member => by simpa using (stays y).mpr (idle y (List.mem_reverse.mp member)))
    rw [none_]
    simp [moving]
  · rintro ⟨last,near⟩
    obtain ⟨moving,front,mid,same,idle⟩ := List.find?_eq_some_iff_append.mp last
    obtain ⟨tag,_,_,close⟩ := approached_eq move.2 _ near
    refine ⟨mid.reverse,front.reverse,?_,tag,close,((travels_iff move.2).mp moving).2,fun y member => ?_⟩
    · rw [← List.reverse_reverse early,same]
      simp
    · exact (stays y).mp (idle y (List.mem_reverse.mp member))

/-- A sample meets its need exactly where a move led to it. -/
theorem unmet_iff (orchard : Option Orchard) (early : List Leaf) (x : Leaf) (samples : x.2.tag = .sampleLeaf) :
    (stepAfter orchard early x).unmet = [] ↔ (bound (early.map Prod.snd)).isSome = true := by
  rw [← reach_holding orchard,Option.isSome_map]
  simp only [stepAfter,advance,table,samples,sampleLeaf,holding_meets,List.filter_cons,List.filter_nil]
  cases (reach orchard {} (early.map Prod.snd)).holding .atTree <;> simp

theorem led_iff (root : Element) (orchard : Option Orchard) (o : Leaf × Leaf × String) :
    o ∈ objectiveBindings root orchard ↔
      o.2.2 = o.1.2.text "id" ∧ ∃ early late, Led root orchard early late o.2.1 o.1 := by
  rw [mem_objectives]
  constructor
  · rintro ⟨early,late,split,samples,last,near⟩
    have named := (approached_eq o.1.2 o.2.2 near).2.1
    refine ⟨named.symm,early,late,split,samples,?_,?_⟩
    · rw [unmet_iff orchard early o.2.1 samples,(bound_lastLeaf early o.2.2).mpr ⟨o.1,last,near⟩]
      rfl
    · exact (lastApproach_iff early o.1).mpr ⟨last,by rw [near,named]⟩
  · rintro ⟨named,early,late,split,samples,_,led⟩
    obtain ⟨last,near⟩ := (lastApproach_iff early o.1).mp led
    exact ⟨early,late,split,samples,last,by rw [near,named]⟩

/-- The last value set for a key is the one there, where all of them are the same. -/
theorem get?_foldl_set {α : Type} (items : List α) (key : α → String) (value : α → String) (d : Dict String String)
    (k v : String) (all : ∀ o ∈ items, key o = k → value o = v)
    (some_ : d.get? k = some v ∨ ∃ o ∈ items, key o = k) :
    (items.foldl (fun d o => d.set (key o) (value o)) d).get? k = some v := by
  induction items generalizing d with
  | nil => exact some_.resolve_right (fun ⟨_,no,_⟩ => List.not_mem_nil no)
  | cons o items ih =>
    rw [List.forall_mem_cons] at all
    refine ih _ all.2 ?_
    by_cases here : key o = k
    · left
      change (d.set (key o) (value o)).get? k = some v
      rw [here,Dict.get?_set,all.1 here]
      simp
    · rcases some_ with known | ⟨p,member,same⟩
      · left
        change (d.set (key o) (value o)).get? k = some v
        rw [Dict.get?_set_ne _ _ _ _ (Ne.symm here)]
        exact known
      · rcases List.mem_cons.mp member with rfl | later
        · exact absurd same here
        · exact .inr ⟨p,later,same⟩

/-- A name that one sample bears stands at one place. -/
theorem place_unique (early late early' late' : List Leaf) (x y : Leaf) (same : early ++ x :: late = early' ++ y :: late')
    (alone : ∀ z ∈ early ++ late, z.2.tag = .sampleLeaf → leafName z.2 ≠ leafName x.2) (samples : y.2.tag = .sampleLeaf)
    (named : leafName y.2 = leafName x.2) : early = early' := by
  have outside (member : y ∈ early ++ late) : False := alone y member samples named
  rcases List.append_eq_append_iff.mp same with ⟨mid,rfl,rest⟩ | ⟨mid,rfl,rest⟩
  · cases mid with
    | nil => rw [List.append_nil]
    | cons z mid =>
      obtain ⟨_,rfl⟩ := List.cons.inj rest
      exact (outside (List.mem_append_right _ (List.mem_append_right _ List.mem_cons_self))).elim
  · cases mid with
    | nil => rw [List.append_nil]
    | cons z mid =>
      obtain ⟨rfl,_⟩ := List.cons.inj rest
      exact (outside (List.mem_append_left _ (List.mem_append_right _ List.mem_cons_self))).elim

theorem paired (root : Element) (orchard : Option Orchard) : Paired root orchard where
  sampled := by
    intro early late x split samples meets
    have landed := (unmet_iff orchard early x samples).mp meets
    obtain ⟨tree,there⟩ := Option.isSome_iff_exists.mp landed
    obtain ⟨move,last,near⟩ := (bound_lastLeaf early tree).mp there
    obtain rfl := (approached_eq move.2 tree near).2.1
    have led : LastApproach early move := (lastApproach_iff early move).mpr ⟨last,near⟩
    have member : (move,x,move.2.text "id") ∈ objectiveBindings root orchard :=
      (led_iff root orchard _).mpr ⟨rfl,early,late,split,samples,meets,led⟩
    refine ⟨move,led,?_,member,fun alone => ?_⟩
    · have holds := reach_holding orchard (early.map Prod.snd)
      rw [there] at holds
      obtain ⟨fact,found,same⟩ := Option.map_eq_some_iff.mp holds
      simp [stepAfter,advance,table,samples,sampleLeaf,found,same]
    · refine get?_foldl_set (objectiveBindings root orchard) (fun o => leafName o.2.1.2) (fun o => o.2.2) .empty _ _ ?_
        (.inr ⟨_,member,rfl⟩)
      intro o other named
      obtain ⟨tree,early',late',split',samples',_,led'⟩ := (led_iff root orchard o).mp other
      obtain rfl := place_unique early late early' late' x o.2.1 (split.symm.trans split') alone samples' named
      have same : some o.1 = some move :=
        ((lastApproach_iff early o.1).mp led').1.symm.trans last
      rw [tree,Option.some.inj same]
  only := fun o member => (led_iff root orchard o).mp member

/-- In every walk the state says what the actions did, and in every plan each sample
that meets its need is paired with the last sound approach before it. -/
theorem ontology_true (orchard : Option Orchard) :
    (∀ actions, Recorded orchard actions) ∧ ∀ root, Paired root orchard :=
  ⟨recorded orchard,fun root => paired root orchard⟩

/-- An aisle head without an id between the approach and the sample. -/
def lostHead : Element :=
  .node 0 ⟨.sequence,[]⟩ [.leaf 1 (visit "60"),.leaf 2 ⟨.moveToAisleHead,[]⟩,.leaf 3 (sample "60")]

/-- The sample meets its need and is bound, with an aisle head in between. -/
theorem lostHead_between :
    actionsIn lostHead = [(1,visit "60"),(2,⟨.moveToAisleHead,[]⟩),(3,sample "60")] ∧
      (stepAfter none [(1,visit "60"),(2,⟨.moveToAisleHead,[]⟩)] (3,sample "60")).unmet = [] ∧
      objectiveBindings lostHead none = [((1,visit "60"),(3,sample "60"),"60")] := by
  refine ⟨rfl,?_,?_⟩ <;> decide

end AmigaFleet.Mission
