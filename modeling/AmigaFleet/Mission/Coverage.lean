import AmigaFleet.Mission.Reading

/-! Which leaves are cut out with some unit, and which leave with none: those that
a later unit shares, and those lost when a split is split again. -/
namespace AmigaFleet.Mission
open Lib

section
variable (fix : String → String → Option Codec.Target)

/-- The units of a mixed node, before what later units share is left behind. -/
def Units (children : List Element) (units : List (List Element)) : Prop :=
  ∃ all, splitUnits (children.map (withReading fix)) = .ok all ∧ units = all.filter (fun elements => !elements.isEmpty)

/-- Some mixed node leaves the leaf behind for a later unit. -/
inductive Borrowed : Element → Leaf → Prop
  | here (ref : Nat) (control : Control) (children : List Element) (before after : List (List Element))
      (unit : List Element) (x : Leaf) (mix : Mixed control children) (units : Units fix children (before ++ unit :: after))
      (member : .leaf x.1 x.2 ∈ unit) (wanted : shared after (.leaf x.1 x.2) = true) :
      Borrowed (.node ref control children) x
  | deeper (ref : Nat) (control : Control) (children : List Element) (c : Element) (x : Leaf)
      (opened : Opened control children) (member : c ∈ children) (left : Borrowed c x) :
      Borrowed (.node ref control children) x

/-- A mixed node leaves the leaf behind, and the split around it does not take it up again. -/
inductive Lost : Element → Leaf → Prop
  | inside (ref : Nat) (control : Control) (children : List Element) (c : Element) (x : Leaf)
      (mix : Mixed control children) (member : c ∈ children) (left : Borrowed fix c x) :
      Lost (.node ref control children) x
  | deeper (ref : Nat) (control : Control) (children : List Element) (c : Element) (x : Leaf)
      (bare : children.all (fun c => !c.isLeaf) = true) (member : c ∈ children) (lost : Lost c x) :
      Lost (.node ref control children) x

theorem pieces_inside (c e : Element) (member : e ∈ pieces c (locatedUnder fix c)) (x : Leaf) (held : x ∈ actionsIn e) :
    x ∈ actionsIn c := by
  unfold pieces at member
  split at member
  · obtain rfl := List.mem_singleton.mp member
    exact held
  · have cut : x ∈ (locatedUnder fix c).cuts.flatten.flatMap actionsIn := List.mem_flatMap.mpr ⟨e,member,held⟩
    rw [cuts_flatten] at cut
    obtain ⟨u,inside,cut⟩ := List.mem_flatMap.mp cut
    have whole : x ∈ (locatedUnder fix c).units.flatMap Located.holds :=
      List.mem_flatMap.mpr ⟨u,inside,(cut_holds fix c u inside).subset cut⟩
    exact (holds_leaves fix c).subset whole

theorem units_flatten (children : List Element) (units : List (List Element)) (split : Units fix children units) :
    units.flatten = children.flatMap (fun c => pieces c (locatedUnder fix c)) := by
  obtain ⟨all,split,rfl⟩ := split
  rw [List.flatten_filter_not_isEmpty]
  exact splitUnits_children fix children all split

theorem borrowed_inside (t : Element) (x : Leaf) (left : Borrowed fix t x) : x ∈ actionsIn t := by
  induction left with
  | here ref control children before after unit x mix units member wanted =>
    have flat := units_flatten fix children _ units
    have listed : .leaf x.1 x.2 ∈ (before ++ unit :: after).flatten := by
      simp only [List.flatten_append,List.flatten_cons,List.mem_append]
      exact .inr (.inl member)
    rw [flat] at listed
    obtain ⟨c,inside,piece⟩ := List.mem_flatMap.mp listed
    rw [actionsIn_node]
    exact List.mem_flatMap.mpr ⟨c,inside,pieces_inside fix c _ piece x (by simp)⟩
  | deeper ref control children c x opened member left ih =>
    rw [actionsIn_node]
    exact List.mem_flatMap.mpr ⟨c,member,ih⟩

theorem foldlM_clean (children : List (Element × Reading)) (s after : Split)
    (steps : children.foldlM splitChild s = .ok after) :
    ∀ c ∈ children, c.1.isLeaf = false → c.2.error = none := by
  induction children generalizing s with
  | nil => simp
  | cons c rest ih =>
    rw [List.foldlM_cons] at steps
    cases step : splitChild s c with
    | error error =>
      rw [step] at steps
      cases steps
    | ok middle =>
      rw [step] at steps
      refine List.forall_mem_cons.mpr ⟨fun control => ?_,ih middle steps⟩
      cases ended : c.2.error with
      | none => rfl
      | some error => simp [splitChild,control,ended] at step

/-- A mixed node that reads to its end has its units, and so have the nodes in it. -/
theorem mixed_units (ref : Nat) (control : Control) (children : List Element)
    (clean : (splitByPrerequisite fix ref control (children.map (withReading fix))).error = none) :
    (∃ all, splitUnits (children.map (withReading fix)) = .ok all ∧
      Units fix children (all.filter (fun elements => !elements.isEmpty)) ∧
      splitByPrerequisite fix ref control (children.map (withReading fix)) =
        { units := leaveShared (builtUnits fix ref control all) }) ∧
      ∀ c ∈ children, c.isLeaf = false → (locatedUnder fix c).error = none := by
  unfold splitByPrerequisite at clean ⊢
  cases split : splitUnits (children.map (withReading fix)) with
  | error error => simp [split] at clean
  | ok all =>
    refine ⟨⟨all,rfl,⟨all,split,rfl⟩,rfl⟩,fun c member control => ?_⟩
    unfold splitUnits at split
    cases steps : (children.map (withReading fix)).foldlM splitChild {} with
    | error error => simp [steps,Except.map] at split
    | ok s => exact foldlM_clean _ _ s steps (withReading fix c) (List.mem_map_of_mem member) control

theorem wholeUnit_eq (ref : Nat) (control : Control) (children : List Element) (x : Leaf)
    (held : x ∈ children.flatMap actionsIn) :
    ∃ task, taskOf fix ref control children = some task ∧
      wholeUnit fix ref control children = [⟨task,[.node ref control children]⟩] := by
  cases found : taskOf fix ref control children with
  | none =>
    have none_ : (children.flatMap actionsIn).map Prod.snd = [] := (taskOf_none fix ref control children).mp found
    rw [List.map_eq_nil_iff.mp none_] at held
    cases held
  | some task => exact ⟨task,rfl,by simp [wholeUnit,found]⟩

theorem leaf_piece (children : List Element) (c : Element) (member : c ∈ children) (leaf : c.isLeaf = true) :
    c ∈ children.flatMap (fun c => pieces c (locatedUnder fix c)) := by
  refine List.mem_flatMap.mpr ⟨c,member,?_⟩
  cases c with
  | leaf r a => simp [pieces,Reading.cuts]
  | node _ _ _ => cases leaf

/-- A control node with an action in it is read as some unit. -/
theorem located_some (t : Element) (control : t.isLeaf = false) (clean : (locatedUnder fix t).error = none) (x : Leaf)
    (held : x ∈ actionsIn t) : (locatedUnder fix t).units ≠ [] := by
  induction t using Tree.induct with
  | leaf r a => cases control
  | node r control_ children ih =>
    rw [actionsIn_node] at held
    have read := locatedUnder_read fix r control_ children
    generalize locatedUnder fix (.node r control_ children) = reading at clean read ⊢
    cases read with
    | branching within bare =>
      obtain ⟨c,member,held⟩ := List.mem_flatMap.mp held
      have calm := (chain_error _).mp clean
      rw [chain_units _ calm]
      obtain ⟨u,inside⟩ := List.exists_mem_of_ne_nil _ (ih c member (by simpa using List.all_eq_true.mp bare c member)
        (calm _ (List.mem_map_of_mem member)) held)
      exact List.ne_nil_of_mem (List.mem_flatMap.mpr ⟨_,List.mem_map_of_mem member,inside⟩)
    | grouped flat undeclared several =>
      have whole := groupUnits_holds fix r control_ (splitByObjective fix children)
      rw [splitByObjective,Groups.cut_flatten] at whole
      intro none_
      have none_ : groupUnits fix r control_ (splitByObjective fix children) = [] := none_
      rw [← splitByObjective,none_,List.flatMap_nil] at whole
      rw [← whole] at held
      cases held
    | mixed mix =>
      obtain ⟨⟨all,split,-,shape⟩,-⟩ := mixed_units fix r control_ children clean
      rw [shape]
      intro none_
      have none_ : leaveShared (builtUnits fix r control_ all) = [] := none_
      have whole := leaveShared_holds fix r control_ all
      rw [none_,splitUnits_children fix children all split] at whole
      obtain ⟨c,member,leaf⟩ := List.any_eq_true.mp mix.1
      cases c with
      | leaf s a =>
        have listed : (s,a) ∈ (children.flatMap (fun c => pieces c (locatedUnder fix c))).flatMap actionsIn :=
          List.mem_flatMap.mpr ⟨_,leaf_piece fix children _ member leaf,List.mem_singleton_self _⟩
        rw [← whole] at listed
        cases listed
      | node _ _ _ => cases leaf
    | whole flat one =>
      obtain ⟨task,-,shape⟩ := wholeUnit_eq fix r control_ children x held
      simp [shape]
    | declared mix within named =>
      obtain ⟨task,-,shape⟩ := wholeUnit_eq fix r control_ children x held
      simp [shape]

/-- What is cut out with some unit. -/
def Covered (t : Element) (x : Leaf) : Prop := ∃ u ∈ (locatedUnder fix t).units, x ∈ u.cut

/-- A control node that holds the leaf brings it to the units around it exactly if
it is cut out with a unit there. -/
theorem piece_covered (c : Element) (control : c.isLeaf = false) (clean : (locatedUnder fix c).error = none) (x : Leaf)
    (held : x ∈ actionsIn c) :
    (∃ e ∈ pieces c (locatedUnder fix c), x ∈ actionsIn e) ↔ Covered fix c x := by
  have some_ : (locatedUnder fix c).cuts ≠ [] := by
    simpa [Reading.cuts] using located_some fix c control clean x held
  rw [pieces,if_neg (by simpa using some_)]
  constructor
  · rintro ⟨e,member,inside⟩
    have cut : x ∈ (locatedUnder fix c).cuts.flatten.flatMap actionsIn := List.mem_flatMap.mpr ⟨e,member,inside⟩
    rw [cuts_flatten] at cut
    exact List.mem_flatMap.mp cut
  · rintro ⟨u,inside,cut⟩
    have cut : x ∈ (locatedUnder fix c).units.flatMap Located.cut := List.mem_flatMap.mpr ⟨u,inside,cut⟩
    rw [← cuts_flatten] at cut
    exact List.mem_flatMap.mp cut

/-- In a mixed node a leaf is cut out with a unit if a child brings it, and no later unit shares it. -/
theorem mixed_covered (ref : Nat) (control : Control) (children : List Element) (distinct :
    Tree.Distinct (.node ref control children)) (mix : Mixed control children) (all : List (List Element))
    (split : splitUnits (children.map (withReading fix)) = .ok all) (x : Leaf) :
    (∃ u ∈ leaveShared (builtUnits fix ref control all), x ∈ u.cut) ↔
      (∃ e ∈ children.flatMap (fun c => pieces c (locatedUnder fix c)), x ∈ actionsIn e) ∧
        ∀ before unit after, Units fix children (before ++ unit :: after) → .leaf x.1 x.2 ∈ unit →
          shared after (.leaf x.1 x.2) = false := by
  have flat := splitUnits_children fix children all split
  have listed := builtUnits_snd fix ref control all
  have apart : (all.flatten.flatMap actionsIn).Nodup := by
    have whole := holds_leaves fix (.node ref control children)
    rw [locatedUnder_mixed fix ref control children mix,splitByPrerequisite,split] at whole
    have whole : ((leaveShared (builtUnits fix ref control all)).flatMap Located.holds).Sublist _ := whole
    rw [leaveShared_holds] at whole
    exact whole.nodup (Tree.leaves_nodup _ distinct)
  have kept : (all.filter (fun elements => !elements.isEmpty)).flatten = all.flatten := List.flatten_filter_not_isEmpty
  rw [← flat]
  constructor
  · rintro ⟨u,member,cut⟩
    obtain ⟨first,elements,rest,place,left⟩ := (mem_leaveShared _ u).mp member
    obtain ⟨e,picked,held⟩ := List.mem_flatMap.mp cut
    rw [left] at picked
    obtain ⟨inside,unshared⟩ := List.mem_filter.mp picked
    rw [place,List.map_append,List.map_cons] at listed
    refine ⟨⟨e,?_,held⟩,fun before unit after units member => ?_⟩
    · rw [← kept,← listed]
      exact List.mem_flatten.mpr ⟨elements,by simp,inside⟩
    · obtain ⟨all',split',same⟩ := units
      obtain rfl : all = all' := Except.ok.inj (split.symm.trans split')
      rw [← kept,← List.flatMap_id,List.flatMap_assoc,← listed] at apart
      obtain ⟨-,rfl,rfl⟩ := flatMap_place _ _ _ _ _ _ _ x apart (listed.trans same.symm)
        (List.mem_flatMap.mpr ⟨e,inside,held⟩) (List.mem_flatMap.mpr ⟨_,member,by simp⟩)
      have within := (List.nodup_flatMap.mp apart).1 elements (by simp)
      obtain rfl := flatMap_unique actionsIn elements within e _ inside member x held (by simp)
      simpa using unshared
  · rintro ⟨⟨e,member,held⟩,unshared⟩
    rw [← kept] at member
    obtain ⟨unit,inside,member⟩ := List.mem_flatten.mp member
    rw [← listed] at inside
    obtain ⟨⟨task,unit⟩,built,rfl⟩ := List.mem_map.mp inside
    obtain ⟨before,after,place⟩ := List.append_of_mem built
    rw [place,List.map_append,List.map_cons] at listed
    have free : shared (after.map Prod.snd) e = false := by
      cases e with
      | node _ _ _ => rfl
      | leaf r a =>
        obtain rfl := List.mem_singleton.mp held
        exact unshared _ unit _ ⟨all,split,listed⟩ member
    refine ⟨_,(mem_leaveShared _ ⟨task,_⟩).mpr ⟨before,unit,after,place,rfl⟩,?_⟩
    exact List.mem_flatMap.mpr ⟨e,List.mem_filter.mpr ⟨member,by simp [free]⟩,held⟩

theorem mixed_opened (control : Control) (children : List Element) (mix : Mixed control children) :
    Opened control children := ⟨mix.2.1,.inr mix.2.2⟩

/-- Among branches, the units that hold a leaf are those of the branch it lies in. -/
theorem branching_units (ref : Nat) (control : Control) (children : List Element)
    (distinct : Tree.Distinct (.node ref control children)) (c : Element) (member : c ∈ children) (x : Leaf)
    (inside : x ∈ actionsIn c) (calm : ∀ r ∈ children.map (locatedUnder fix), r.error = none)
    (part : Located → List Leaf) (within : ∀ d u, u ∈ (locatedUnder fix d).units → (part u).Sublist u.holds) :
    (∃ u ∈ (Reading.chain (children.map (locatedUnder fix))).units, x ∈ part u) ↔
      ∃ u ∈ (locatedUnder fix c).units, x ∈ part u := by
  simp only [chain_units _ calm,List.mem_flatMap,List.mem_map]
  constructor
  · rintro ⟨u,⟨_,⟨d,other,rfl⟩,listed⟩,held⟩
    have also : x ∈ actionsIn d :=
      (holds_leaves fix d).subset (List.mem_flatMap.mpr ⟨u,listed,(within d u listed).subset held⟩)
    obtain rfl := Tree.child_unique ref control children distinct d c other member x also inside
    exact ⟨u,listed,held⟩
  · rintro ⟨u,listed,held⟩
    exact ⟨u,⟨_,⟨c,member,rfl⟩,listed⟩,held⟩

theorem grouped_covered (ref : Nat) (control : Control) (children : List Element) (x : Leaf)
    (held : x ∈ children.flatMap actionsIn) :
    ∃ u ∈ groupUnits fix ref control (splitByObjective fix children), x ∈ u.cut := by
  have whole := groupUnits_holds fix ref control (splitByObjective fix children)
  rw [splitByObjective,Groups.cut_flatten,← splitByObjective] at whole
  rw [← whole] at held
  obtain ⟨u,within,held⟩ := List.mem_flatMap.mp held
  obtain ⟨-,built⟩ := groupUnits_mem fix ref control _ u within
  rw [Located.holds,taskOfGroup_holds fix ref control _ _ built] at held
  exact ⟨u,within,held⟩

theorem flat_not_borrowed (ref : Nat) (control : Control) (children : List Element) (x : Leaf)
    (flat : children.all Tree.isLeaf = true) : ¬Borrowed fix (.node ref control children) x := by
  have closed : children.any (fun c => !c.isLeaf) ≠ true := by
    rw [← List.not_all_eq_any_not]
    simp [flat]
  intro left
  cases left with
  | here _ _ _ _ _ _ _ mix => exact closed mix.2.1
  | deeper _ _ _ _ _ opened => exact closed opened.1

theorem declared_not_borrowed (ref : Nat) (control : Control) (children : List Element) (x : Leaf)
    (some_ : children.any Tree.isLeaf = true) (named : ¬Undeclared control) :
    ¬Borrowed fix (.node ref control children) x := by
  intro left
  cases left with
  | here _ _ _ _ _ _ _ mix => exact named mix.2.2
  | deeper _ _ _ _ _ opened =>
    obtain bare | undeclared := opened.2
    · rw [← List.not_any_eq_all_not] at bare
      simp [some_] at bare
    · exact named undeclared

theorem whole_covered (ref : Nat) (control : Control) (children : List Element) (x : Leaf)
    (held : x ∈ children.flatMap actionsIn) : ∃ u ∈ wholeUnit fix ref control children, x ∈ u.cut := by
  obtain ⟨task,-,shape⟩ := wholeUnit_eq fix ref control children x held
  rw [shape]
  refine ⟨_,List.mem_singleton_self _,List.mem_flatMap.mpr ⟨_,List.mem_singleton_self _,?_⟩⟩
  rw [actionsIn_node]
  exact held

/-- Where the reading ends well, a leaf goes with some unit unless it is left behind. -/
theorem covered_iff (t : Element) (distinct : Tree.Distinct t) (control : t.isLeaf = false)
    (clean : (locatedUnder fix t).error = none) (x : Leaf) (held : x ∈ actionsIn t) :
    Covered fix t x ↔ ¬Borrowed fix t x := by
  induction t using Tree.induct with
  | leaf r a => cases control
  | node r control_ children ih =>
    rw [actionsIn_node] at held
    obtain ⟨c,member,inside⟩ := List.mem_flatMap.mp held
    have unique (d : Element) (other : d ∈ children) (also : x ∈ actionsIn d) : d = c :=
      Tree.child_unique r control_ children distinct d c other member x also inside
    have read := locatedUnder_read fix r control_ children
    rw [Covered]
    generalize locatedUnder fix (.node r control_ children) = reading at clean read ⊢
    cases read with
    | branching within bare =>
      have calm := (chain_error _).mp clean
      have left : Borrowed fix (.node r control_ children) x ↔ Borrowed fix c x := by
        refine ⟨fun left => ?_,.deeper r control_ children c x ⟨within,.inl bare⟩ member⟩
        cases left with
        | here _ _ _ _ _ _ _ mix =>
          rw [← List.not_any_eq_all_not] at bare
          simp [mix.1] at bare
        | deeper _ _ _ d _ _ other left => exact unique d other (borrowed_inside fix d x left) ▸ left
      rw [branching_units fix r control_ children distinct c member x inside calm Located.cut (cut_holds fix),left]
      exact ih c member (Tree.Distinct.child distinct c member) (by simpa using List.all_eq_true.mp bare c member)
        (calm _ (List.mem_map_of_mem member)) inside
    | grouped flat undeclared several =>
      exact iff_of_true (grouped_covered fix r control_ children x held)
        (flat_not_borrowed fix r control_ children x flat)
    | mixed mix =>
      obtain ⟨⟨all,split,-,shape⟩,calm⟩ := mixed_units fix r control_ children clean
      rw [shape]
      refine (mixed_covered fix r control_ children distinct mix all split x).trans ?_
      constructor
      · rintro ⟨⟨e,piece,held⟩,unshared⟩ left
        cases left with
        | here _ _ _ before after unit _ mix units member wanted =>
          rw [unshared before unit after units member] at wanted
          cases wanted
        | deeper _ _ _ d _ opened other left =>
          obtain rfl := unique d other (borrowed_inside fix d x left)
          have branch : d.isLeaf = false := by cases left <;> rfl
          obtain ⟨f,third,piece⟩ := List.mem_flatMap.mp piece
          obtain rfl := unique f third (pieces_inside fix f e piece x held)
          have covered := (piece_covered fix f branch (calm f third branch) x inside).mp ⟨e,piece,held⟩
          exact (ih f third (Tree.Distinct.child distinct f third) branch (calm f third branch) inside).mp covered left
      · intro free
        refine ⟨?_,fun before unit after units listed => ?_⟩
        · cases branch : c.isLeaf with
          | true => exact ⟨c,leaf_piece fix children c member branch,inside⟩
          | false =>
            have covered := (ih c member (Tree.Distinct.child distinct c member) branch (calm c member branch) inside).mpr
              (fun left => free (.deeper r control_ children c x (mixed_opened control_ children mix) member left))
            obtain ⟨e,piece,held⟩ := (piece_covered fix c branch (calm c member branch) x inside).mpr covered
            exact ⟨e,List.mem_flatMap.mpr ⟨c,member,piece⟩,held⟩
        · by_contra wanted
          exact free (.here r control_ children before after unit x mix units listed (by simpa using wanted))
    | whole flat one =>
      exact iff_of_true (whole_covered fix r control_ children x held) (flat_not_borrowed fix r control_ children x flat)
    | declared mix within named =>
      exact iff_of_true (whole_covered fix r control_ children x held)
        (declared_not_borrowed fix r control_ children x mix named)

theorem flat_not_lost (ref : Nat) (control : Control) (children : List Element) (x : Leaf)
    (flat : children.all Tree.isLeaf = true) : ¬Lost fix (.node ref control children) x := by
  intro lost
  cases lost with
  | inside _ _ _ _ _ mix =>
    have within := mix.2.1
    rw [← List.not_all_eq_any_not] at within
    simp [flat] at within
  | deeper _ _ _ c _ bare member =>
    have branch := List.all_eq_true.mp bare c member
    simp [List.all_eq_true.mp flat c member] at branch

theorem declared_not_lost (ref : Nat) (control : Control) (children : List Element) (x : Leaf)
    (some_ : children.any Tree.isLeaf = true) (named : ¬Undeclared control) :
    ¬Lost fix (.node ref control children) x := by
  intro lost
  cases lost with
  | inside _ _ _ _ _ mix => exact named mix.2.2
  | deeper _ _ _ _ _ bare =>
    rw [← List.not_any_eq_all_not] at bare
    simp [some_] at bare

theorem lost_inside (t : Element) (x : Leaf) (lost : Lost fix t x) : x ∈ actionsIn t := by
  induction lost with
  | inside ref control children c x mix member left =>
    rw [actionsIn_node]
    exact List.mem_flatMap.mpr ⟨c,member,borrowed_inside fix c x left⟩
  | deeper ref control children c x bare member lost ih =>
    rw [actionsIn_node]
    exact List.mem_flatMap.mpr ⟨c,member,ih⟩

/-- In a mixed node, the units hold what its leaves are and what goes with units of its control nodes. -/
theorem mixed_held (ref : Nat) (control : Control) (children : List Element)
    (distinct : Tree.Distinct (.node ref control children)) (all : List (List Element))
    (split : splitUnits (children.map (withReading fix)) = .ok all)
    (calm : ∀ c ∈ children, c.isLeaf = false → (locatedUnder fix c).error = none) (c : Element) (member : c ∈ children)
    (x : Leaf) (inside : x ∈ actionsIn c) :
    (∃ u ∈ leaveShared (builtUnits fix ref control all), x ∈ u.holds) ↔ ¬Borrowed fix c x := by
  have whole : (∃ u ∈ leaveShared (builtUnits fix ref control all), x ∈ u.holds) ↔
      ∃ e ∈ pieces c (locatedUnder fix c), x ∈ actionsIn e := by
    rw [← List.mem_flatMap,leaveShared_holds,splitUnits_children fix children all split,List.flatMap_assoc,
      List.mem_flatMap]
    constructor
    · rintro ⟨d,other,piece⟩
      obtain ⟨e,piece,held⟩ := List.mem_flatMap.mp piece
      obtain rfl := Tree.child_unique ref control children distinct d c other member x
        (pieces_inside fix d e piece x held) inside
      exact ⟨e,piece,held⟩
    · rintro ⟨e,piece,held⟩
      exact ⟨c,member,List.mem_flatMap.mpr ⟨e,piece,held⟩⟩
  rw [whole]
  cases branch : c.isLeaf with
  | true =>
    cases c with
    | leaf s a => exact iff_of_true ⟨_,by simp [pieces,Reading.cuts],inside⟩ (fun left => nomatch left)
    | node _ _ _ => cases branch
  | false =>
    rw [piece_covered fix c branch (calm c member branch) x inside]
    exact covered_iff fix c (Tree.Distinct.child distinct c member) branch (calm c member branch) x inside

/-- Where the reading ends well, a leaf is part of some unit unless it is lost. -/
theorem held_iff (t : Element) (distinct : Tree.Distinct t) (control : t.isLeaf = false)
    (clean : (locatedUnder fix t).error = none) (x : Leaf) (held : x ∈ actionsIn t) :
    (∃ u ∈ (locatedUnder fix t).units, x ∈ u.holds) ↔ ¬Lost fix t x := by
  induction t using Tree.induct with
  | leaf r a => cases control
  | node r control_ children ih =>
    rw [actionsIn_node] at held
    obtain ⟨c,member,inside⟩ := List.mem_flatMap.mp held
    have unique (d : Element) (other : d ∈ children) (also : x ∈ actionsIn d) : d = c :=
      Tree.child_unique r control_ children distinct d c other member x also inside
    have easy (free : ¬Borrowed fix (.node r control_ children) x) (found : ¬Lost fix (.node r control_ children) x) :
        (∃ u ∈ (locatedUnder fix (.node r control_ children)).units, x ∈ u.holds) ↔
          ¬Lost fix (.node r control_ children) x := by
      obtain ⟨u,listed,cut⟩ := (covered_iff fix _ distinct control clean x (by rw [actionsIn_node]; exact held)).mpr free
      exact iff_of_true ⟨u,listed,(cut_holds fix _ u listed).subset cut⟩ found
    have read := locatedUnder_read fix r control_ children
    generalize locatedUnder fix (.node r control_ children) = reading at clean read easy ⊢
    cases read with
    | branching within bare =>
      have calm := (chain_error _).mp clean
      have lost : Lost fix (.node r control_ children) x ↔ Lost fix c x := by
        refine ⟨fun lost => ?_,.deeper r control_ children c x bare member⟩
        cases lost with
        | inside _ _ _ _ _ mix =>
          rw [← List.not_any_eq_all_not] at bare
          simp [mix.1] at bare
        | deeper _ _ _ d _ _ other lost => exact unique d other (lost_inside fix d x lost) ▸ lost
      rw [branching_units fix r control_ children distinct c member x inside calm Located.holds (fun _ _ _ => .refl _),
        lost]
      exact ih c member (Tree.Distinct.child distinct c member) (by simpa using List.all_eq_true.mp bare c member)
        (calm _ (List.mem_map_of_mem member)) inside
    | grouped flat undeclared several =>
      exact easy (flat_not_borrowed fix r control_ children x flat) (flat_not_lost fix r control_ children x flat)
    | mixed mix =>
      obtain ⟨⟨all,split,-,shape⟩,calm⟩ := mixed_units fix r control_ children clean
      rw [shape]
      refine (mixed_held fix r control_ children distinct all split calm c member x inside).trans (not_congr ?_)
      refine ⟨.inside r control_ children c x mix member,fun lost => ?_⟩
      cases lost with
      | inside _ _ _ d _ _ other left => exact unique d other (borrowed_inside fix d x left) ▸ left
      | deeper _ _ _ _ _ bare =>
        rw [← List.not_any_eq_all_not] at bare
        simp [mix.1] at bare
    | whole flat one =>
      exact easy (flat_not_borrowed fix r control_ children x flat) (flat_not_lost fix r control_ children x flat)
    | declared mix within named =>
      exact easy (declared_not_borrowed fix r control_ children x mix named)
        (declared_not_lost fix r control_ children x mix named)

end
end AmigaFleet.Mission
