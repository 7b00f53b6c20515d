import AmigaFleet.Mission.Naming
import AmigaFleet.Mission.Declared

/-! A task rebuilt from its announcement and put into a plan reads back as the task
that was announced. -/
namespace AmigaFleet.Mission
open Lib

def Orchard.knows (orchard : Option Orchard) (tree : Int) : Bool :=
  (orchard.bind (fun map => map.aisleByTree.get? tree)).isSome

/-- What of an announced mask can be rebuilt: an aisle move wherever the orchard knows
the aisle, and the rest of what is rebuildable as announced. -/
def Rebuilds (orchard : Option Orchard) (task : MissionTask) (c : Capability) : Prop :=
  if c = .moveToAisleHead then Orchard.knows orchard task.target.a = true
  else c ∈ rebuildable ∧ c ∈ capabilitiesIn task.capabilities

section
variable (fix : String → String → Option Codec.Target)

/-- The plan with its loose leaves as the graft has them. -/
def hosted (plan : Plan) : Element := .node plan.ref plan.control (isolateLeaves (fresh [plan.root]) plan.children)

/-- After the graft, no unit of the plan has the id. -/
def Unclaimed (plan : Plan) (n : Nat) : Prop :=
  ∃ tasks, tasksIn fix [hosted plan] = .ok tasks ∧ ∀ t ∈ tasks, t.taskId ≠ n

/-- The task is one unit of the edited plan, as announced, and its removal leaves the plan. -/
structure ReadsBack (plan : Plan) (orchard : Option Orchard) (task : MissionTask) (edited : List Element) : Prop where
  one : ∃ tasks unit, tasksIn fix edited = .ok tasks ∧ tasks.filter (fun t => t.taskId = task.taskId) = [unit] ∧
    unit.taskId = task.taskId ∧ unit.target = task.target ∧
    ∀ c, c ∈ capabilitiesIn unit.capabilities ↔ Rebuilds orchard task c
  removed : removeTask fix edited task.taskId = .ok (some [hosted plan])

end

/-! ### Capabilities -/

theorem index_injective (c d : Capability) (same : c.index = d.index) : c = d := by
  cases c <;> cases d <;> first | rfl | cases same

theorem testBit_capMask (used : List Capability) (mask : Nat) (c : Capability) :
    (used.foldl (fun mask capability => mask ||| 1 <<< capability.index) mask).testBit c.index =
      (mask.testBit c.index || decide (c ∈ used)) := by
  induction used generalizing mask with
  | nil => simp
  | cons d rest ih =>
    have one : (1 <<< d.index).testBit c.index = decide (c = d) := by
      rw [Nat.one_shiftLeft,Nat.testBit_two_pow]
      exact decide_eq_decide.mpr ⟨fun same => (index_injective d c same).symm,fun same => by rw [same]⟩
    rw [List.foldl_cons,ih,Nat.testBit_or,one,Bool.or_assoc]
    simp

/-- The capabilities in the mask of some actions are their kinds. -/
theorem capabilitiesIn_of (actions : List Action) (c : Capability) :
    c ∈ capabilitiesIn (capabilitiesOf actions) ↔ c ∈ actions.map Action.tag := by
  have every : c ∈ Capability.all := by cases c <;> decide
  have bit := testBit_capMask (actions.map Action.tag) 0 c
  rw [Nat.zero_testBit,Bool.false_or] at bit
  rw [capabilitiesIn,List.mem_filter,capabilitiesOf,capMask,bit]
  simp [every]

/-! ### The subtree -/

theorem actionsOf_leaves (actions : List Action) (f : Nat → Nat) :
    actionsOf ((actions.zipIdx.map (fun (a,i) => (.leaf (i + 1) a : Element))).map (Tree.relabel f)) = actions := by
  rw [actionsOf,List.map_map,List.flatMap_map,List.map_flatMap]
  simp only [Function.comp_apply,Tree.relabel_leaf,actionsIn_leaf,List.map_cons,List.map_nil]
  rw [← List.map_eq_flatMap,List.zipIdx_map_fst]

theorem leaves_flat (actions : List Action) (f : Nat → Nat) :
    ∀ e ∈ (actions.zipIdx.map (fun (a,i) => (.leaf (i + 1) a : Element))).map (Tree.relabel f), e.isLeaf = true := by
  intro e member
  obtain ⟨d,inside,rfl⟩ := List.mem_map.mp member
  obtain ⟨pair,_,rfl⟩ := List.mem_map.mp inside
  rfl

variable (fix : String → String → Option Codec.Target)

/-- The move to a tree decides the target. -/
theorem targetOf_move (before after : List Action) (move : Action) (tag : move.tag = .moveToTreeID)
    (others : ∀ a ∈ before, a.tag ≠ .moveToTreeID) (target : Codec.Target) (found : targetOfAction fix move = some target) :
    targetOf fix (before ++ move :: after) = target := by
  have none_ : before.filter (fun a => a.tag = .moveToTreeID) = [] :=
    List.filter_eq_nil_iff.mpr (fun a member => by simpa using others a member)
  have first : ((before ++ move :: after).filter (fun a => a.tag = .moveToTreeID)).findSome? (targetOfAction fix) =
      some target := by
    rw [List.filter_append,none_,List.nil_append,List.filter_cons,if_pos (by simpa using tag),List.findSome?_cons,found]
  rw [targetOf,targetActions,List.findSome?_cons,first]
  rfl

theorem int_toString (n : Int) (positive : 0 ≤ n) : Text.int (toString n) = some n := by
  cases n with
  | ofNat m => exact Text.int_repr m
  | negSucc m => omega

theorem indexTarget_tree (target : Codec.Target) (tree : target.kind = .tree) :
    indexTarget (some (toString target.a)) .tree = some target := by
  obtain ⟨⟨positive,_⟩,none_⟩ := target.index (.inl tree)
  have words := Codec.Target.ofWords?_words target
  rw [tree,none_] at words
  rw [indexTarget,Option.bind_some,int_toString target.a positive,Option.bind_some,words]

theorem targetOfAction_visit (name server : String) (target : Codec.Target) (tree : target.kind = .tree) :
    targetOfAction fix ⟨.moveToTreeID,[("name",name),("action_name",server),("id",toString target.a),
      ("approach_tree","true")]⟩ = some target := by
  have near : Action.approach ⟨.moveToTreeID,[("name",name),("action_name",server),("id",toString target.a),
      ("approach_tree","true")]⟩ = true := by
    have flag : Text.isTrue "true" = true := by decide
    simpa [Action.approach,Action.get,List.lookup_cons] using flag
  rw [targetOfAction,near]
  simp only [Action.get,List.lookup_cons,String.reduceBEq,if_true]
  exact indexTarget_tree target tree

/-- What is rebuilt of a task at a tree: leaves under a name with its id. -/
theorem synthesize_some (actionNames : List (String × String)) (orchard : Option Orchard) (task : MissionTask)
    (tree : task.target.kind = .tree) (moves : .moveToTreeID ∈ capabilitiesIn task.capabilities) :
    ∃ rebuilt label actions, synthesize actionNames orchard task = some rebuilt ∧
      rebuilt.xml = .node 0 ⟨.sequence,[("name",nameWithTaskId label task.taskId)]⟩
        (actions.zipIdx.map (fun (a,i) => (.leaf (i + 1) a : Element))) ∧ actions ≠ [] ∧
      targetOf fix actions = task.target ∧ ∀ c, c ∈ actions.map Action.tag ↔ Rebuilds orchard task c := by
  have possible : ¬(task.target.kind ≠ .tree ∨ .moveToTreeID ∉ capabilitiesIn task.capabilities) := by
    rintro (no | no)
    · exact no tree
    · exact no moves
  rw [synthesize,if_neg possible]
  refine ⟨_,_,_,rfl,rfl,by simp,?_,?_⟩
  · refine targetOf_move fix _ _ _ rfl (fun a member => ?_) task.target ?_
    · obtain ⟨aisle,_,rfl⟩ := List.mem_map.mp member
      simp
    · exact targetOfAction_visit fix _ _ task.target tree
  · intro c
    rw [Rebuilds,Orchard.knows,rebuildable]
    generalize orchard.bind (fun map => map.aisleByTree.get? task.target.a) = aisle
    by_cases samples : .sampleLeaf ∈ capabilitiesIn task.capabilities
    · cases aisle <;> cases c <;> simp [samples,moves]
    · cases aisle <;> cases c <;> simp [samples,moves]

/-! ### The graft -/

theorem isolated_controls (wrapper : Nat) (children : List Element) :
    ∀ c ∈ isolateLeaves wrapper children, c.isLeaf = false := by
  intro c member
  rw [isolateLeaves] at member
  split at member
  · rw [List.mem_singleton.mp member]
    rfl
  · rename_i none_
    cases leaf : c.isLeaf with
    | false => rfl
    | true => exact absurd (List.any_eq_true.mpr ⟨c,member,leaf⟩) none_

/-- Nothing but control nodes is read one after the other, also where there are none. -/
theorem controls_reading (ref : Nat) (control : Control) (children : List Element) (controls : ∀ c ∈ children, c.isLeaf = false) :
    locatedUnder fix (.node ref control children) = Reading.chain (children.map (locatedUnder fix)) := by
  cases children with
  | nil =>
    have read := locatedUnder_read fix ref control []
    generalize locatedUnder fix (.node ref control []) = reading at read ⊢
    cases read with
    | branching within _ => simp at within
    | grouped _ _ several => simp [splitByObjective,Groups.cut,Groups.cutFrom] at several
    | mixed mix => simp [Mixed] at mix
    | whole _ _ =>
      rw [wholeUnit,(taskOf_none fix ref control []).mpr rfl]
      rfl
    | declared mix _ _ => simp at mix
  | cons c rest =>
    refine locatedUnder_branching fix ref control (c::rest) (List.any_eq_true.mpr ⟨c,List.mem_cons_self,?_⟩)
      (List.all_eq_true.mpr (fun d member => ?_))
    · simp [controls c List.mem_cons_self]
    · simp [controls d member]

theorem lt_fresh (t : Element) (r : Nat) (member : r ∈ t.refs) : r < fresh [t] := by
  have bound (refs : List Nat) (start : Nat) (n : Nat) (here : n ∈ refs ∨ n ≤ start) : n ≤ refs.foldl max start := by
    induction refs generalizing start with
    | nil => exact here.resolve_left List.not_mem_nil
    | cons m refs ih =>
      refine ih _ ?_
      rcases here with here | low
      · rcases List.mem_cons.mp here with rfl | later
        · exact .inr (Nat.le_max_right _ _)
        · exact .inl later
      · exact .inr (Nat.le_trans low (Nat.le_max_left _ _))
  have low := bound ([t].flatMap Tree.refs) 0 r (.inl (by simpa using member))
  rw [fresh]
  omega

/-- The graft's reference is new in the plan as the graft has it. -/
theorem graft_apart (plan : Plan) (r : Nat) (beyond : fresh [plan.root] < r) : r ∉ (hosted plan).refs := by
  have old (c : Element) (member : c ∈ plan.children) (s : Nat) (inside : s ∈ c.refs) : s < fresh [plan.root] := by
    refine lt_fresh plan.root s ?_
    rw [Plan.root,Tree.refs_node]
    exact List.mem_cons_of_mem _ (List.mem_flatMap.mpr ⟨c,member,inside⟩)
  have root : plan.ref < fresh [plan.root] := by
    refine lt_fresh plan.root plan.ref ?_
    rw [Plan.root,Tree.refs_node]
    exact List.mem_cons_self
  rw [hosted,Tree.refs_node,isolateLeaves]
  intro member
  rcases List.mem_cons.mp member with rfl | inside
  · omega
  · split at inside
    · simp only [List.flatMap_cons,List.flatMap_nil,List.append_nil,Tree.refs_node] at inside
      rcases List.mem_cons.mp inside with rfl | deep
      · omega
      · obtain ⟨c,among,here⟩ := List.mem_flatMap.mp deep
        have := old c among r here
        omega
    · obtain ⟨c,among,here⟩ := List.mem_flatMap.mp inside
      have := old c among r here
      omega

/-- Taking the graft out again leaves the plan as the graft had it. -/
theorem graft_removed (plan : Plan) (graft : Element) (beyond : fresh [plan.root] < graft.ref) :
    removeElements [.node plan.ref plan.control (isolateLeaves (fresh [plan.root]) plan.children ++ [graft])] [graft] =
      [hosted plan] := by
  have apart := graft_apart plan graft.ref beyond
  rw [hosted,Tree.refs_node,List.mem_cons,not_or] at apart
  have others (c : Element) (member : c ∈ isolateLeaves (fresh [plan.root]) plan.children) : graft.ref ∉ c.refs :=
    fun inside => apart.2 (List.mem_flatMap.mpr ⟨c,member,inside⟩)
  rw [removeElements,List.foldl_cons,List.foldl_nil,removeElement_single,Tree.ref_node,if_neg (Ne.symm apart.1),detach,
    detachAll_place graft.ref _ [] graft others (Tree.ref_mem_refs graft),remnant,if_pos rfl,List.append_nil,
    List.append_nil]
  rfl

/-- A flat subtree that declares an id is one unit with the id. -/
theorem declared_flat (ref : Nat) (control : Control) (children : List Element) (n : Nat)
    (declares : declaredTaskId (control.get "name") = some n) (flat : ∀ e ∈ children, e.isLeaf = true)
    (some_ : actionsOf children ≠ []) :
    ∃ unit : MissionTask, locatedUnder fix (.node ref control children) =
        { units := [⟨unit,[.node ref control children]⟩] } ∧ unit.taskId = n ∧
      unit.target = targetOf fix (actionsOf children) ∧ unit.capabilities = capabilitiesOf (actionsOf children) := by
  have named : ¬Undeclared control := by simp [Undeclared,declares]
  have held : children.flatMap actionsIn ≠ [] := fun none_ => some_ (by rw [actionsOf,none_]; rfl)
  obtain ⟨x,among⟩ := List.exists_mem_of_ne_nil _ held
  obtain ⟨c,member,_⟩ := List.mem_flatMap.mp among
  obtain ⟨unit,found,single⟩ := wholeUnit_eq fix ref control children x among
  refine ⟨unit,?_,taskOf_declared fix ref control children unit n found declares,?_⟩
  · rw [declared_reading fix ref control children named ⟨c,member,flat c member⟩,single]
  · simp only [taskOf] at found
    split at found
    · cases found
    · obtain rfl := Option.some.inj found
      exact ⟨rfl,rfl⟩

/-- A graft that declares a free id reads back as one unit. -/
theorem grafted_reads (plan : Plan) (orchard : Option Orchard) (task unit : MissionTask) (graft : Element)
    (beyond : fresh [plan.root] < graft.ref) (branch : graft.isLeaf = false)
    (reads : locatedUnder fix graft = { units := [⟨unit,[graft]⟩] }) (id : unit.taskId = task.taskId)
    (target : unit.target = task.target) (capable : ∀ c, c ∈ capabilitiesIn unit.capabilities ↔ Rebuilds orchard task c)
    (unclaimed : Unclaimed fix plan task.taskId) :
    ReadsBack fix plan orchard task [.node plan.ref plan.control (isolateLeaves (fresh [plan.root]) plan.children ++ [graft])] := by
  obtain ⟨tasks,before,others⟩ := unclaimed
  have controls := isolated_controls (fresh [plan.root]) plan.children
  have host := controls_reading fix plan.ref plan.control _ controls
  have whole := controls_reading fix plan.ref plan.control (isolateLeaves (fresh [plan.root]) plan.children ++ [graft])
    (fun c member => (List.mem_append.mp member).elim (controls c) (fun last => by rwa [List.mem_singleton.mp last]))
  rw [tasksIn,located_single,hosted,host] at before
  have clean : (Reading.chain ((isolateLeaves (fresh [plan.root]) plan.children).map (locatedUnder fix))).error = none := by
    cases ended : (Reading.chain ((isolateLeaves (fresh [plan.root]) plan.children).map (locatedUnder fix))).error with
    | none => rfl
    | some error =>
      rw [ended] at before
      cases before
  rw [clean] at before
  have all := (chain_error _).mp clean
  have also : ∀ r ∈ (isolateLeaves (fresh [plan.root]) plan.children ++ [graft]).map (locatedUnder fix), r.error = none := by
    rw [List.map_append]
    intro r member
    rcases List.mem_append.mp member with front | last
    · exact all r front
    · rw [List.mem_singleton.mp last,reads]
  have units : (locatedUnder fix (.node plan.ref plan.control (isolateLeaves (fresh [plan.root]) plan.children ++ [graft]))).units =
      (Reading.chain ((isolateLeaves (fresh [plan.root]) plan.children).map (locatedUnder fix))).units ++ [⟨unit,[graft]⟩] := by
    rw [whole,chain_units _ also,chain_units _ all,List.map_append,List.flatMap_append]
    simp [reads]
  have ended : (locatedUnder fix (.node plan.ref plan.control
      (isolateLeaves (fresh [plan.root]) plan.children ++ [graft]))).error = none := by
    rw [whole]
    exact (chain_error _).mpr also
  have listed := Except.ok.inj before
  constructor
  · refine ⟨tasks ++ [unit],unit,?_,?_,id,target,capable⟩
    · rw [tasksIn,located_single,ended,units,List.map_append,listed]
      rfl
    · have none_ : tasks.filter (fun t => t.taskId = task.taskId) = [] :=
        List.filter_eq_nil_iff.mpr (fun t member => by simpa using others t member)
      rw [List.filter_append,none_,List.nil_append]
      simp [id]
  · have first : (located fix [.node plan.ref plan.control (isolateLeaves (fresh [plan.root]) plan.children ++ [graft])]).units.find?
        (fun u => u.task.taskId = task.taskId) = some ⟨unit,[graft]⟩ := by
      rw [located_single,units]
      refine List.find?_eq_some_iff_append.mpr ⟨by simp [id],_,[],rfl,fun u member => ?_⟩
      have other := others u.task (listed ▸ List.mem_map_of_mem member)
      simpa using other
    rw [removeTask,first]
    exact congrArg (fun left => Except.ok (some left)) (graft_removed plan graft beyond)

theorem hosted_loadable (plan : Plan) (loads : Loadable plan.root) : Loadable (hosted plan) := by
  have root := loads plan.root (Tree.self_mem_iter plan.root)
  have below (c : Element) (member : c ∈ plan.children) : Loadable c := loads.child plan.ref plan.control plan.children c member
  intro e inside
  rw [hosted,Tree.iter_node,isolateLeaves] at inside
  rcases List.mem_cons.mp inside with rfl | inside
  · split
    · exact ⟨List.cons_ne_nil _ _,fun _ => rfl⟩
    · exact root
  · split at inside
    · rw [List.flatMap_singleton,Tree.iter_node] at inside
      rcases List.mem_cons.mp inside with rfl | deep
      · exact ⟨root.1,fun retry => by cases retry⟩
      · obtain ⟨c,member,here⟩ := List.mem_flatMap.mp deep
        exact below c member e here
    · obtain ⟨c,member,here⟩ := List.mem_flatMap.mp inside
      exact below c member e here

/-- A plan whose control nodes all hold something can be read with its leaves isolated. -/
theorem hosted_reads (plan : Plan) (loads : Loadable plan.root) : ∃ tasks, tasksIn fix [hosted plan] = .ok tasks := by
  refine ⟨(located fix [hosted plan]).units.map Located.task,?_⟩
  rw [tasksIn,located_single,loadable_clean fix (hosted plan) (hosted_loadable plan loads)]

def sample60 : MissionTask where
  taskId := 9
  name := "sample 60"
  capabilities := 129
  target := { kind := .tree, a := 60, wordB := Codec.Target.none.wordB }

end AmigaFleet.Mission
