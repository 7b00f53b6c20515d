import AmigaFleet.Mission.Tasks

/-! What reading a mission finds: which of the ways a node comes apart is taken,
and that its units are parts of the document, in order and apart. -/
namespace AmigaFleet.Mission
open Lib

def Undeclared (control : Control) : Prop := declaredTaskId (control.get "name") = none

instance (control : Control) : Decidable (Undeclared control) := inferInstanceAs (Decidable (_ = _))

/-- Leaves and control nodes side by side, under a name that declares no id. -/
def Mixed (control : Control) (children : List Element) : Prop :=
  children.any Tree.isLeaf = true ∧ children.any (fun c => !c.isLeaf) = true ∧ Undeclared control

/-- The reading goes on into the control nodes among the children. -/
def Opened (control : Control) (children : List Element) : Prop :=
  children.any (fun c => !c.isLeaf) = true ∧ (children.all (fun c => !c.isLeaf) = true ∨ Undeclared control)

section
variable (fix : String → String → Option Codec.Target)

def withReading (c : Element) : Element × Reading := (c,locatedUnder fix c)

theorem locatedAll_eq (cs : List Element) : locatedAll fix cs = cs.map (withReading fix) := by
  induction cs with
  | nil => rfl
  | cons c cs ih => rw [locatedAll,ih]; rfl

@[simp] theorem locatedUnder_leaf (r : Nat) (a : Action) : locatedUnder fix (.leaf r a) = {} := by
  rw [locatedUnder]

/-- The groups of a flat node, where it has more than one. -/
def groupUnits (ref : Nat) (control : Control) (groups : List (List Element)) : List Located :=
  groups.filterMap (fun group => (taskOfGroup fix ref control group).map (fun task => ⟨task,group⟩))

def builtUnits (ref : Nat) (control : Control) (units : List (List Element)) : List (MissionTask × List Element) :=
  units.filterMap (fun elements => (taskOfGroup fix ref control elements).map (fun task => (task,elements)))

def wholeUnit (ref : Nat) (control : Control) (children : List Element) : List Located :=
  ((taskOf fix ref control children).map (fun task => ⟨task,[.node ref control children]⟩)).toList

/-- The four ways a node is read. -/
inductive Read (ref : Nat) (control : Control) (children : List Element) : Reading → Prop
  | branching (within : children.any (fun c => !c.isLeaf) = true) (bare : children.all (fun c => !c.isLeaf) = true) :
      Read ref control children (Reading.chain (children.map (locatedUnder fix)))
  | grouped (flat : children.all Tree.isLeaf = true) (undeclared : Undeclared control)
      (several : 1 < (splitByObjective fix children).length) :
      Read ref control children { units := groupUnits fix ref control (splitByObjective fix children) }
  | mixed (mix : Mixed control children) :
      Read ref control children (splitByPrerequisite fix ref control (children.map (withReading fix)))
  | whole (flat : children.all Tree.isLeaf = true)
      (one : Undeclared control → (splitByObjective fix children).length ≤ 1) :
      Read ref control children { units := wholeUnit fix ref control children }
  | declared (mix : children.any Tree.isLeaf = true) (within : children.any (fun c => !c.isLeaf) = true)
      (named : ¬Undeclared control) :
      Read ref control children { units := wholeUnit fix ref control children }

theorem locatedUnder_read (ref : Nat) (control : Control) (children : List Element) :
    Read fix ref control children (locatedUnder fix (.node ref control children)) := by
  have elements : (children.map (withReading fix)).map Prod.fst = children := by simp [withReading,Function.comp_def]
  have leaves : (children.filter Tree.isLeaf).isEmpty = !children.any Tree.isLeaf := by
    rw [Bool.eq_iff_iff]
    simp
  have controls : ((children.map (withReading fix)).filter (fun child => !child.1.isLeaf)).isEmpty =
      !children.any (fun c => !c.isLeaf) := by
    rw [Bool.eq_iff_iff]
    simp [withReading]
  rw [locatedUnder,locatedAll_eq,locatedNode]
  simp only [elements,leaves,controls]
  cases mix : children.any Tree.isLeaf <;> cases within : children.any (fun c => !c.isLeaf)
  · have flat : children.all Tree.isLeaf = true := by simpa using within
    have none_ : children = [] := by
      cases children with
      | nil => rfl
      | cons c cs => simp_all
    subst none_
    exact .whole flat (fun _ => by simp [splitByObjective,Groups.cut,Groups.cutFrom])
  · have bare : children.all (fun c => !c.isLeaf) = true := by simpa using mix
    have kept : (children.map (withReading fix)).filter (fun child => !child.1.isLeaf) =
        children.map (withReading fix) := by
      refine List.filter_eq_self.mpr fun child member => ?_
      obtain ⟨c,inside,rfl⟩ := List.mem_map.mp member
      exact List.all_eq_true.mp bare c inside
    simp only [kept,List.map_map]
    exact .branching within bare
  · have flat : children.all Tree.isLeaf = true := by simpa using within
    have kept : children.filter Tree.isLeaf = children := List.filter_eq_self.mpr (List.all_eq_true.mp flat)
    simp only [kept]
    by_cases undeclared : Undeclared control
    · have none_ : declaredTaskId (control.get "name") = none := undeclared
      by_cases several : 1 < (splitByObjective fix children).length
      · simp only [none_,several]
        exact .grouped flat undeclared several
      · simp only [none_,several]
        exact .whole flat (fun _ => by omega)
    · have some_ : (declaredTaskId (control.get "name")).isSome = true := Option.isSome_iff_ne_none.mpr undeclared
      simp only [some_]
      exact .whole flat (fun also => absurd also undeclared)
  · by_cases undeclared : Undeclared control
    · have none_ : declaredTaskId (control.get "name") = none := undeclared
      simp only [none_]
      exact .mixed ⟨mix,within,undeclared⟩
    · have some_ : (declaredTaskId (control.get "name")).isSome = true := Option.isSome_iff_ne_none.mpr undeclared
      simp only [some_]
      exact .declared mix within undeclared

theorem locatedUnder_branching (ref : Nat) (control : Control) (children : List Element)
    (within : children.any (fun c => !c.isLeaf) = true) (bare : children.all (fun c => !c.isLeaf) = true) :
    locatedUnder fix (.node ref control children) = Reading.chain (children.map (locatedUnder fix)) := by
  have read := locatedUnder_read fix ref control children
  generalize locatedUnder fix (.node ref control children) = reading at read ⊢
  rw [← List.not_all_eq_any_not] at within
  rw [← List.not_any_eq_all_not] at bare
  cases read with
  | branching _ _ => rfl
  | grouped flat _ _ => simp [flat] at within
  | mixed mix => simp [mix.1] at bare
  | whole flat _ => simp [flat] at within
  | declared mix _ _ => simp [mix] at bare

theorem locatedUnder_mixed (ref : Nat) (control : Control) (children : List Element) (mix : Mixed control children) :
    locatedUnder fix (.node ref control children) =
      splitByPrerequisite fix ref control (children.map (withReading fix)) := by
  have read := locatedUnder_read fix ref control children
  generalize locatedUnder fix (.node ref control children) = reading at read ⊢
  obtain ⟨some_,within,undeclared⟩ := mix
  rw [← List.not_all_eq_any_not] at within
  cases read with
  | branching _ bare =>
    rw [← List.not_any_eq_all_not] at bare
    simp [some_] at bare
  | grouped flat _ _ => simp [flat] at within
  | mixed _ => rfl
  | whole flat _ => simp [flat] at within
  | declared _ _ named => exact absurd undeclared named

end

theorem chain_error (readings : List Reading) :
    (Reading.chain readings).error = none ↔ ∀ r ∈ readings, r.error = none := by
  induction readings with
  | nil => simp [Reading.chain]
  | cons r rest ih =>
    change (r.andThen (Reading.chain rest)).error = none ↔ _
    rw [List.forall_mem_cons,← ih,Reading.andThen]
    cases ended : r.error <;> simp [ended]

theorem chain_units (readings : List Reading) (clean : ∀ r ∈ readings, r.error = none) :
    (Reading.chain readings).units = readings.flatMap Reading.units := by
  induction readings with
  | nil => rfl
  | cons r rest ih =>
    obtain ⟨none_,others⟩ := List.forall_mem_cons.mp clean
    change (r.andThen (Reading.chain rest)).units = _
    rw [Reading.andThen,none_,List.flatMap_cons,← ih others]

theorem chain_starts (readings : List Reading) :
    ((Reading.chain readings).units).Sublist (readings.flatMap Reading.units) := by
  induction readings with
  | nil => exact .refl _
  | cons r rest ih =>
    change (r.andThen (Reading.chain rest)).units.Sublist _
    rw [Reading.andThen,List.flatMap_cons]
    cases r.error with
    | none => exact (List.Sublist.refl _).append ih
    | some _ => exact List.sublist_append_left _ _

/-- What the pending elements are split into is what they were. -/
theorem claim_parts (pending claimed unclaimed : List Element) (needs : List Need)
    (split : claim pending needs = .ok (claimed,unclaimed)) : unclaimed ++ claimed = pending := by
  unfold claim at split
  cases depths : needs.mapM (fun need => nearest need pending.reverse) with
  | error error => simp [depths,Except.map] at split
  | ok depths =>
    simp only [depths,Except.map,Except.ok.injEq,Prod.mk.injEq] at split
    rw [← split.1,← split.2]
    exact List.take_append_drop _ _

theorem extendLast_flatten (units : List (List Element)) (extra : List Element) :
    (extendLast units extra).flatten = units.flatten ++ extra := by
  induction units with
  | nil => simp [extendLast]
  | cons first rest ih =>
    cases rest with
    | nil => simp [extendLast]
    | cons second rest => simp [extendLast,ih]

theorem attach_flatten (units : List (List Element)) (extra : List Element) :
    (attach units extra).flatten = units.flatten ++ extra := by
  unfold attach
  split
  · rename_i none_
    simp [List.isEmpty_iff.mp none_]
  · exact extendLast_flatten units extra

/-- What a child of a mixed node brings to the units. -/
def pieces (c : Element) (reading : Reading) : List Element :=
  if reading.cuts.isEmpty then [c] else reading.cuts.flatten

theorem splitChild_flatten (s after : Split) (c : Element) (reading : Reading)
    (bare : c.isLeaf = true → reading.cuts = []) (step : splitChild s (c,reading) = .ok after) :
    after.units.flatten ++ after.pending = s.units.flatten ++ s.pending ++ pieces c reading := by
  unfold splitChild at step
  split at step
  · rename_i leaf
    injection step with step
    simp [← step,pieces,bare leaf]
  split at step
  · cases step
  split at step
  · rename_i none_
    injection step with step
    simp [← step,pieces,show reading.cuts = [] from none_]
  · rename_i first found cuts
    have cuts : reading.cuts = first :: found := cuts
    cases claimed : claim s.pending (needsOf first) with
    | error error => simp [claimed,Except.map] at step
    | ok parts =>
      obtain ⟨claimed_,unclaimed⟩ := parts
      have whole := claim_parts _ _ _ _ claimed
      simp only [claimed,Except.map,Except.ok.injEq] at step
      simp [← step,attach_flatten,← whole,pieces,cuts]

/-- The units of a mixed node hold what its children bring, in order. -/
theorem splitUnits_flatten (children : List (Element × Reading)) (units : List (List Element))
    (bare : ∀ c ∈ children, c.1.isLeaf = true → c.2.cuts = []) (split : splitUnits children = .ok units) :
    units.flatten = children.flatMap (fun c => pieces c.1 c.2) := by
  have run (children : List (Element × Reading)) (s after : Split)
      (bare : ∀ c ∈ children, c.1.isLeaf = true → c.2.cuts = []) (steps : children.foldlM splitChild s = .ok after) :
      after.units.flatten ++ after.pending =
        s.units.flatten ++ s.pending ++ children.flatMap (fun c => pieces c.1 c.2) := by
    induction children generalizing s with
    | nil =>
      injection steps with steps
      simp [steps]
    | cons c rest ih =>
      rw [List.foldlM_cons] at steps
      cases step : splitChild s c with
      | error error =>
        rw [step] at steps
        cases steps
      | ok middle =>
        rw [step] at steps
        have one := splitChild_flatten s middle c.1 c.2 (bare c (by simp)) step
        rw [ih middle (fun d member => bare d (by simp [member])) steps,one,List.flatMap_cons,List.append_assoc]
  unfold splitUnits at split
  cases steps : children.foldlM splitChild {} with
  | error error => simp [steps,Except.map] at split
  | ok s =>
    have whole := run children {} s bare steps
    simp only [steps,Except.map,Except.ok.injEq] at split
    rw [← split,attach_flatten,whole]
    simp

/-- The leaves that a unit's subtree holds. -/
def Located.holds (u : Located) : List Leaf := (u.task.xml.map actionsIn).getD []

/-- The leaves that are cut out for a unit. -/
def Located.cut (u : Located) : List Leaf := u.elements.flatMap actionsIn

section
variable (fix : String → String → Option Codec.Target) (ref : Nat) (control : Control)

theorem taskOfGroup_none (elements : List Element) :
    taskOfGroup fix ref control elements = none ↔ elements = [] := by
  cases elements <;> simp [taskOfGroup]

theorem taskOfGroup_xml (elements : List Element) (task : MissionTask)
    (built : taskOfGroup fix ref control elements = some task) : ∃ own, task.xml = some (.node ref own elements) := by
  unfold taskOfGroup at built
  split at built
  · cases built
  · injection built with built
    exact ⟨_,by rw [← built]⟩

theorem taskOfGroup_holds (elements : List Element) (task : MissionTask)
    (built : taskOfGroup fix ref control elements = some task) :
    task.xml.map actionsIn = some (elements.flatMap actionsIn) := by
  obtain ⟨own,xml⟩ := taskOfGroup_xml fix ref control elements task built
  rw [xml]
  exact congrArg some (actionsIn_node _ _ _)

theorem builtUnits_snd (units : List (List Element)) :
    (builtUnits fix ref control units).map Prod.snd = units.filter (fun elements => !elements.isEmpty) := by
  induction units with
  | nil => rfl
  | cons elements rest ih =>
    rw [builtUnits,List.filterMap_cons]
    cases built : taskOfGroup fix ref control elements with
    | none =>
      rw [(taskOfGroup_none fix ref control elements).mp built]
      exact ih
    | some task =>
      have some_ : elements ≠ [] := by
        rintro rfl
        cases built
      simp only [Option.map_some,List.map_cons,List.filter_cons,List.isEmpty_eq_false_iff.mpr some_,Bool.not_false]
      exact congrArg _ ih

theorem mem_builtUnits (units : List (List Element)) (task : MissionTask) (elements : List Element)
    (member : (task,elements) ∈ builtUnits fix ref control units) :
    taskOfGroup fix ref control elements = some task := by
  obtain ⟨group,-,built⟩ := List.mem_filterMap.mp member
  cases found : taskOfGroup fix ref control group with
  | none => simp [found] at built
  | some one =>
    simp only [found,Option.map_some,Option.some.injEq,Prod.mk.injEq] at built
    rw [← built.1,← built.2,found]

/-- A unit that is split off has its task, and what no later unit shares. -/
theorem mem_leaveShared (built : List (MissionTask × List Element)) (u : Located) :
    u ∈ leaveShared built ↔ ∃ before elements after, built = before ++ (u.task,elements) :: after ∧
      u.elements = elements.filter (fun element => !shared (after.map Prod.snd) element) := by
  induction built with
  | nil => simp [leaveShared]
  | cons one rest ih =>
    rw [leaveShared,List.mem_cons,ih]
    constructor
    · rintro (rfl | ⟨before,elements,after,rfl,left⟩)
      · exact ⟨[],one.2,rest,rfl,rfl⟩
      · exact ⟨one::before,elements,after,rfl,left⟩
    · rintro ⟨before,elements,after,split,left⟩
      cases before with
      | nil =>
        obtain ⟨rfl,rfl⟩ := List.cons.inj split
        exact .inl (by cases u; simp_all)
      | cons two before =>
        obtain ⟨rfl,rfl⟩ := List.cons.inj split
        exact .inr ⟨before,elements,after,rfl,left⟩

theorem leaveShared_tasks (built : List (MissionTask × List Element)) :
    (leaveShared built).map Located.task = built.map Prod.fst := by
  induction built with
  | nil => rfl
  | cons one rest ih => rw [leaveShared,List.map_cons,ih,List.map_cons]

theorem leaveShared_holds (units : List (List Element)) :
    (leaveShared (builtUnits fix ref control units)).flatMap Located.holds = units.flatten.flatMap actionsIn := by
  have tasks : (leaveShared (builtUnits fix ref control units)).flatMap Located.holds =
      (builtUnits fix ref control units).flatMap (fun one => (one.1.xml.map actionsIn).getD []) := by
    have named := congrArg (List.flatMap (fun task : MissionTask => (task.xml.map actionsIn).getD []))
      (leaveShared_tasks (builtUnits fix ref control units))
    rw [List.flatMap_map,List.flatMap_map] at named
    exact named
  have each : (builtUnits fix ref control units).flatMap (fun one => (one.1.xml.map actionsIn).getD []) =
      (builtUnits fix ref control units).flatMap (fun one => one.2.flatMap actionsIn) := by
    refine List.flatMap_congr fun one member => ?_
    rw [taskOfGroup_holds fix ref control one.2 one.1 (mem_builtUnits fix ref control units _ _ member)]
    rfl
  have flat : (builtUnits fix ref control units).flatMap Prod.snd = units.flatten := by
    rw [List.flatMap_def,builtUnits_snd,List.flatten_filter_not_isEmpty]
  rw [tasks,each,← flat,List.flatMap_assoc]

end

section
variable (fix : String → String → Option Codec.Target)

theorem capMask_grows (used : List Capability) (mask : Nat) :
    mask ≤ used.foldl (fun mask capability => mask ||| 1 <<< capability.index) mask := by
  induction used generalizing mask with
  | nil => exact Nat.le_refl _
  | cons c rest ih => exact Nat.le_trans Nat.left_le_or (ih _)

theorem capabilitiesOf_zero (actions : List Action) : capabilitiesOf actions = 0 ↔ actions = [] := by
  cases actions with
  | nil => simp [capabilitiesOf,capMask]
  | cons a rest =>
    refine iff_of_false (fun zero => ?_) (List.cons_ne_nil _ _)
    have bit : 1 <<< a.tag.index ≤ 0 ||| 1 <<< a.tag.index := Nat.right_le_or
    have grown := capMask_grows (rest.map Action.tag) (0 ||| 1 <<< a.tag.index)
    have some_ : 0 < 1 <<< a.tag.index := by
      rw [Nat.one_shiftLeft]
      exact Nat.two_pow_pos _
    change (rest.map Action.tag).foldl (fun mask capability => mask ||| 1 <<< capability.index)
      (0 ||| 1 <<< a.tag.index) = 0 at zero
    omega

theorem taskOf_none (ref : Nat) (control : Control) (children : List Element) :
    taskOf fix ref control children = none ↔ actionsOf children = [] := by
  simp only [taskOf,← capabilitiesOf_zero]
  split <;> simp_all

theorem taskOf_xml (ref : Nat) (control : Control) (children : List Element) (task : MissionTask)
    (found : taskOf fix ref control children = some task) : task.xml = some (.node ref control children) := by
  simp only [taskOf] at found
  split at found
  · cases found
  · injection found with found
    rw [← found]

theorem wholeUnit_mem (ref : Nat) (control : Control) (children : List Element) (u : Located)
    (member : u ∈ wholeUnit fix ref control children) :
    u.elements = [.node ref control children] ∧ taskOf fix ref control children = some u.task := by
  simp only [wholeUnit,Option.mem_toList,Option.map_eq_some_iff] at member
  obtain ⟨task,found,rfl⟩ := member
  exact ⟨rfl,found⟩

theorem groupUnits_mem (ref : Nat) (control : Control) (groups : List (List Element)) (u : Located)
    (member : u ∈ groupUnits fix ref control groups) :
    u.elements ∈ groups ∧ taskOfGroup fix ref control u.elements = some u.task := by
  obtain ⟨group,inside,built⟩ := List.mem_filterMap.mp member
  cases found : taskOfGroup fix ref control group with
  | none => simp [found] at built
  | some task =>
    simp only [found,Option.map_some,Option.some.injEq] at built
    subst built
    exact ⟨inside,found⟩

theorem groupUnits_holds (ref : Nat) (control : Control) (groups : List (List Element)) :
    (groupUnits fix ref control groups).flatMap Located.holds = groups.flatten.flatMap actionsIn := by
  induction groups with
  | nil => rfl
  | cons group rest ih =>
    rw [groupUnits,List.filterMap_cons,List.flatten_cons,List.flatMap_append,← ih]
    cases built : taskOfGroup fix ref control group with
    | none => simp [(taskOfGroup_none fix ref control group).mp built,groupUnits]
    | some task => simp [Located.holds,taskOfGroup_holds fix ref control group task built,groupUnits]

theorem mem_chain (readings : List Reading) (u : Located) (member : u ∈ (Reading.chain readings).units) :
    ∃ r ∈ readings, u ∈ r.units := List.mem_flatMap.mp ((chain_starts readings).subset member)

/-- A unit is cut out of what its subtree holds. -/
theorem cut_holds (t : Element) (u : Located) (member : u ∈ (locatedUnder fix t).units) : u.cut.Sublist u.holds := by
  induction t using Tree.induct with
  | leaf r a => simp at member
  | node r control children ih =>
    have read := locatedUnder_read fix r control children
    generalize locatedUnder fix (.node r control children) = reading at member read
    cases read with
    | branching within bare =>
      obtain ⟨reading,inside,member⟩ := mem_chain _ u member
      obtain ⟨c,below,rfl⟩ := List.mem_map.mp inside
      exact ih c below member
    | grouped flat undeclared several =>
      obtain ⟨-,built⟩ := groupUnits_mem fix r control _ u member
      rw [Located.holds,taskOfGroup_holds fix r control _ _ built]
      exact .refl _
    | mixed mix =>
      unfold splitByPrerequisite at member
      split at member
      · cases member
      · obtain ⟨before,elements,after,split,left⟩ := (mem_leaveShared _ u).mp member
        have built := mem_builtUnits fix r control _ u.task elements (by rw [builtUnits,split]; simp)
        rw [Located.holds,taskOfGroup_holds fix r control _ _ built,Located.cut,left]
        exact List.Sublist.flatMap List.filter_sublist _
    | whole flat one =>
      obtain ⟨elements,found⟩ := wholeUnit_mem fix r control children u member
      simp [Located.holds,Located.cut,elements,taskOf_xml fix r control children _ found]
    | declared mix within named =>
      obtain ⟨elements,found⟩ := wholeUnit_mem fix r control children u member
      simp [Located.holds,Located.cut,elements,taskOf_xml fix r control children _ found]

theorem cuts_flatten (reading : Reading) : reading.cuts.flatten.flatMap actionsIn = reading.units.flatMap Located.cut := by
  rw [Reading.cuts,← List.flatMap_def,List.flatMap_assoc]
  rfl

theorem splitUnits_children (children : List Element) (units : List (List Element))
    (split : splitUnits (children.map (withReading fix)) = .ok units) :
    units.flatten = children.flatMap (fun c => pieces c (locatedUnder fix c)) := by
  have whole := splitUnits_flatten _ units (fun c member leaf => ?_) split
  · rw [whole,List.flatMap_map]
    rfl
  · obtain ⟨c,-,rfl⟩ := List.mem_map.mp member
    cases c with
    | leaf r a => simp [withReading,Reading.cuts]
    | node _ _ _ => cases leaf

theorem whole_holds (ref : Nat) (control : Control) (children : List Element) :
    ((wholeUnit fix ref control children).flatMap Located.holds).Sublist (children.flatMap actionsIn) := by
  unfold wholeUnit
  cases found : taskOf fix ref control children with
  | none => exact List.nil_sublist _
  | some task => simp [Located.holds,taskOf_xml fix ref control children task found]

/-- The units are parts of the document, in its order and apart. -/
theorem holds_leaves (t : Element) : ((locatedUnder fix t).units.flatMap Located.holds).Sublist (actionsIn t) := by
  induction t using Tree.induct with
  | leaf r a => simp
  | node r control children ih =>
    have read := locatedUnder_read fix r control children
    rw [actionsIn_node]
    generalize locatedUnder fix (.node r control children) = reading at read
    cases read with
    | branching within bare =>
      refine ((chain_starts _).flatMap _).trans ?_
      rw [List.flatMap_map,List.flatMap_assoc]
      exact List.Sublist.flatMap_right children ih
    | grouped flat undeclared several =>
      have whole := groupUnits_holds fix r control (splitByObjective fix children)
      rw [splitByObjective,Groups.cut_flatten] at whole
      exact whole ▸ .refl _
    | mixed mix =>
      unfold splitByPrerequisite
      split
      · exact List.nil_sublist _
      · rename_i units split
        have flat := leaveShared_holds fix r control units
        rw [splitUnits_children fix children units split,List.flatMap_assoc] at flat
        change ((leaveShared (builtUnits fix r control units)).flatMap Located.holds).Sublist _
        rw [flat]
        refine List.Sublist.flatMap_right children fun c member => ?_
        unfold pieces
        split
        · simp [actionsIn]
        · rw [cuts_flatten]
          exact (List.Sublist.flatMap_right _ fun u inside => cut_holds fix c u inside).trans (ih c member)
    | whole flat one => exact whole_holds fix r control children
    | declared mix within named => exact whole_holds fix r control children

end
end AmigaFleet.Mission
