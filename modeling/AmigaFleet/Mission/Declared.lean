import AmigaFleet.Mission.Lossless

/-! A control node whose name declares an id, and where it is read as one unit: below
nothing but control nodes, with an action of its own. -/
namespace AmigaFleet.Mission
open Lib

section
variable (fix : String → String → Option Codec.Target)

/-- The node is reported as one unit with the id, and removing the id removes the node. -/
structure OneUnit (plan : Plan) (v : Element) (n : Nat) : Prop where
  reads : (located fix [plan.root]).error = none
  one : ∃ u, (located fix [plan.root]).units.filter (fun u => (actionsIn v).any (fun x => x ∈ u.holds)) = [u] ∧
    u.elements = [v] ∧ u.task.xml = some v ∧ u.task.taskId = n
  removed : removeTask fix [plan.root] n = .ok (some (removeElement v.ref [plan.root]))

/-- Nothing but control nodes side by side with the way down to the node. -/
def Bare (plan : Plan) (r : Nat) : Prop := ∀ q ∈ plan.root.ancestors r, ∀ c ∈ q.children, c.isLeaf = false

instance (plan : Plan) (r : Nat) : Decidable (Bare plan r) := inferInstanceAs (Decidable (∀ _ ∈ _, ∀ _ ∈ _, _))

/-- No unit that is listed before the node's own has the id. -/
def Foremost (plan : Plan) (v : Element) (n : Nat) : Prop :=
  ∀ before u after, (located fix [plan.root]).units = before ++ u :: after → u.elements = [v] →
    ∀ w ∈ before, w.task.taskId ≠ n

theorem ancestors_child (ref : Nat) (control : Control) (children : List Element)
    (distinct : Tree.Distinct (.node ref control children)) (c : Element) (member : c ∈ children) (r : Nat)
    (inside : r ∈ c.refs) :
    Tree.ancestors r (.node ref control children) = Tree.ancestors r c ++ [.node ref control children] := by
  have other : ref ≠ r := fun same => Tree.Distinct.root distinct c member (same ▸ inside)
  rw [Tree.ancestors,if_neg other]
  cases found : Tree.ancestorsAll r children with
  | none => exact absurd inside ((Tree.ancestorsAll_none r children).mp found c member)
  | some chain =>
    obtain ⟨d,listed,here,rfl⟩ := Tree.ancestorsAll_some r children chain found
    obtain rfl := Tree.Distinct.apart distinct c d member listed r inside here
    rfl

/-- Below nothing but control nodes, a node is read as it is by itself. -/
theorem bare_reading (t v : Element) (distinct : Tree.Distinct t) (inside : v ∈ t.iter)
    (bare : ∀ q ∈ t.ancestors v.ref, ∀ c ∈ q.children, c.isLeaf = false) (clean : (locatedUnder fix t).error = none) :
    ∃ before after, (locatedUnder fix t).units = before ++ (locatedUnder fix v).units ++ after := by
  induction t using Tree.induct with
  | leaf r a =>
    rw [Tree.iter_leaf,List.mem_singleton] at inside
    exact ⟨[],[],by simp [inside]⟩
  | node r control children ih =>
    rw [Tree.iter_node,List.mem_cons,List.mem_flatMap] at inside
    obtain rfl | ⟨c,member,inside⟩ := inside
    · exact ⟨[],[],by simp⟩
    · have chain := ancestors_child r control children distinct c member v.ref (List.mem_map_of_mem inside)
      rw [chain] at bare
      have controls : ∀ d ∈ children, d.isLeaf = false := bare (.node r control children) (by simp)
      have within : children.any (fun c => !c.isLeaf) = true := List.any_eq_true.mpr ⟨c,member,by simp [controls c member]⟩
      have only : children.all (fun c => !c.isLeaf) = true := List.all_eq_true.mpr fun d listed => by
        simp [controls d listed]
      have shape := locatedUnder_branching fix r control children within only
      rw [shape] at clean ⊢
      have calm := (chain_error _).mp clean
      obtain ⟨before,after,units⟩ := ih c member (Tree.Distinct.child distinct c member) inside
        (fun q listed => bare q (List.mem_append_left _ listed)) (calm _ (List.mem_map_of_mem member))
      rw [chain_units _ calm,List.flatMap_map]
      obtain ⟨front,back,rfl⟩ := List.append_of_mem member
      refine ⟨front.flatMap (fun c => (locatedUnder fix c).units) ++ before,
        after ++ back.flatMap (fun c => (locatedUnder fix c).units),?_⟩
      simp [units]

/-- A unit that is a node itself lies below nothing but control nodes, and the node has an action of its own. -/
theorem whole_bare (t v : Element) (distinct : Tree.Distinct t) (branch : v.isLeaf = false) (u : Located)
    (member : u ∈ (locatedUnder fix t).units) (elements : u.elements = [v]) (xml : u.task.xml = some v) :
    (∀ q ∈ t.ancestors v.ref, ∀ c ∈ q.children, c.isLeaf = false) ∧ ∃ c ∈ v.children, c.isLeaf = true := by
  induction t using Tree.induct with
  | leaf r a => simp at member
  | node r control children ih =>
    have self (member : u ∈ wholeUnit fix r control children) (leaf : ∃ c ∈ children, c.isLeaf = true) :
        (∀ q ∈ Tree.ancestors v.ref (.node r control children), ∀ c ∈ q.children, c.isLeaf = false) ∧
          ∃ c ∈ v.children, c.isLeaf = true := by
      rw [(wholeUnit_mem fix r control children u member).1] at elements
      obtain rfl := List.singleton_inj.mp elements
      refine ⟨?_,leaf⟩
      rw [Tree.ref_node,Tree.ancestors,if_pos rfl]
      simp
    have place := elements_iter fix _ u member v (by simp [elements])
    have read := locatedUnder_read fix r control children
    generalize locatedUnder fix (.node r control children) = reading at member read
    cases read with
    | branching within bare =>
      obtain ⟨reading,listed,member⟩ := mem_chain _ u member
      obtain ⟨c,among,rfl⟩ := List.mem_map.mp listed
      have inside := elements_iter fix c u member v (by simp [elements])
      obtain ⟨above,leaf⟩ := ih c among (Tree.Distinct.child distinct c among) member
      rw [ancestors_child r control children distinct c among v.ref (List.mem_map_of_mem inside)]
      refine ⟨fun q listed => ?_,leaf⟩
      obtain inner | outer := List.mem_append.mp listed
      · exact above q inner
      · obtain rfl := List.mem_singleton.mp outer
        exact fun d other => by simpa using List.all_eq_true.mp bare d other
    | grouped flat undeclared several =>
      have among := groupUnits_elements fix r control children u member v (by simp [elements])
      simp [List.all_eq_true.mp flat v among] at branch
    | mixed mix =>
      cases split : splitUnits (children.map (withReading fix)) with
      | error error => simp [splitByPrerequisite,split] at member
      | ok all =>
        rw [splitByPrerequisite,split] at member
        obtain ⟨before,group,after,place',left⟩ := (mem_leaveShared _ u).mp member
        have listed : (u.task,group) ∈ builtUnits fix r control all := by rw [builtUnits,place']; simp
        obtain ⟨own,body⟩ := taskOfGroup_xml fix r control group u.task (mem_builtUnits fix r control all _ _ listed)
        obtain rfl : v = .node r own group := Option.some.inj (xml.symm.trans body)
        have inside : (.node r own group : Element) ∈ group := by
          have kept : (.node r own group : Element) ∈ u.elements := by simp [elements]
          rw [left] at kept
          exact List.mem_of_mem_filter kept
        have same := Tree.iter_unique _ distinct _ _ place (Tree.self_mem_iter (.node r control children)) rfl
        rw [← same] at distinct
        exact absurd (Tree.ref_mem_refs _) (Tree.Distinct.root distinct _ inside)
    | whole flat one =>
      refine self member ?_
      obtain ⟨-,found⟩ := wholeUnit_mem fix r control children u member
      cases children with
      | nil =>
        rw [(taskOf_none fix r control []).mpr rfl] at found
        cases found
      | cons c rest => exact ⟨c,by simp,List.all_eq_true.mp flat c (by simp)⟩
    | declared mix within named => exact self member (by simpa using mix)

theorem taskOf_declared (ref : Nat) (control : Control) (children : List Element) (task : MissionTask) (n : Nat)
    (found : taskOf fix ref control children = some task) (declares : declaredTaskId (control.get "name") = some n) :
    task.taskId = n := by
  simp only [taskOf] at found
  split at found
  · cases found
  · injection found with found
    rw [← found]
    simp only [taskIdOf,declares]

/-- A declared node with an action of its own is read whole. -/
theorem declared_reading (ref : Nat) (control : Control) (children : List Element) (named : ¬Undeclared control)
    (leaf : ∃ c ∈ children, c.isLeaf = true) :
    locatedUnder fix (.node ref control children) = { units := wholeUnit fix ref control children } := by
  obtain ⟨c,member,leaf⟩ := leaf
  have read := locatedUnder_read fix ref control children
  generalize locatedUnder fix (.node ref control children) = reading at read ⊢
  cases read with
  | branching within bare =>
    have branch := List.all_eq_true.mp bare c member
    simp [leaf] at branch
  | grouped flat undeclared several => exact absurd undeclared named
  | mixed mix => exact absurd mix.2.2 named
  | whole flat one => rfl
  | declared mix within named => rfl

/-- Of the units, one alone holds what a node holds if it is the node. -/
theorem alone_holds (t v : Element) (distinct : Tree.Distinct t) (before after : List Located) (u : Located)
    (units : (locatedUnder fix t).units = before ++ u :: after) (xml : u.task.xml = some v) (some_ : actionsIn v ≠ []) :
    (before ++ u :: after).filter (fun w => (actionsIn v).any (fun x => x ∈ w.holds)) = [u] := by
  have apart := (holds_leaves fix t).nodup (Tree.leaves_nodup t distinct)
  have holds : u.holds = actionsIn v := by simp [Located.holds,xml]
  simp only [units,List.flatMap_append,List.flatMap_cons,List.nodup_append,holds] at apart
  have front : before.filter (fun w => (actionsIn v).any (fun x => x ∈ w.holds)) = [] := by
    refine List.filter_eq_nil_iff.mpr fun w member => ?_
    simp only [List.any_eq_true,decide_eq_true_eq,not_exists,not_and]
    exact fun x held also => apart.2.2 x (List.mem_flatMap.mpr ⟨w,member,also⟩) x (List.mem_append_left _ held) rfl
  have back : after.filter (fun w => (actionsIn v).any (fun x => x ∈ w.holds)) = [] := by
    refine List.filter_eq_nil_iff.mpr fun w member => ?_
    simp only [List.any_eq_true,decide_eq_true_eq,not_exists,not_and]
    exact fun x held also => apart.2.1.2.2 x held x (List.mem_flatMap.mpr ⟨w,member,also⟩) rfl
  obtain ⟨x,held⟩ := List.exists_mem_of_ne_nil _ some_
  have here : (actionsIn v).any (fun x => x ∈ u.holds) = true := List.any_eq_true.mpr ⟨x,held,by simpa [holds] using held⟩
  rw [List.filter_append,List.filter_cons,if_pos here,front,back,List.nil_append]

/-- Removing an id removes the node only where no unit in front of the node's has the id. -/
theorem removed_first (plan : Plan) (v : Element) (n : Nat) (inside : v ∈ plan.root.iter) (some_ : actionsIn v ≠ [])
    (removed : removeTask fix [plan.root] n = .ok (some (removeElement v.ref [plan.root]))) (before : List Located)
    (u : Located) (after : List Located) (units : (locatedUnder fix plan.root).units = before ++ u :: after)
    (elements : u.elements = [v]) (w : Located) (member : w ∈ before) : w.task.taskId ≠ n := by
  intro same
  obtain ⟨x,held⟩ := List.exists_mem_of_ne_nil _ some_
  have listed (w : Located) (member : w ∈ before) : w ∈ (locatedUnder fix plan.root).units := by
    rw [units]
    exact List.mem_append_left _ member
  cases first : before.find? (fun w => w.task.taskId = n) with
  | none => exact absurd (by simpa using same) (List.find?_eq_none.mp first w member)
  | some f =>
    have front := List.mem_of_find?_eq_some first
    have found : (located fix [plan.root]).units.find? (fun w => w.task.taskId = n) = some f := by
      rw [located_single,units,List.find?_append,first]
      rfl
    obtain ⟨edited,also,-,leaves⟩ := remove_found fix plan n f found
    obtain rfl : edited = _ := Option.some.inj (Except.ok.inj (also.symm.trans removed))
    have whole := (removeElements_trimmed plan.root plan.distinct [v] (by simpa using inside)).leaves
    have gone : x ∉ (removeElement v.ref [plan.root]).flatMap actionsIn := by
      change x ∉ (removeElements [plan.root] [v]).flatMap actionsIn
      rw [whole]
      simp [held]
    have cut : x ∈ f.cut := by
      rw [leaves] at gone
      by_contra free
      exact gone (List.mem_filter.mpr ⟨Tree.leaves_of_iter plan.root v inside x held,by simpa using free⟩)
    have other : x ∈ u.cut := by
      rw [Located.cut,elements]
      simpa using held
    have apart := (holds_leaves fix plan.root).nodup (Tree.leaves_nodup plan.root plan.distinct)
    simp only [units,List.flatMap_append,List.flatMap_cons,List.nodup_append] at apart
    have mine := (cut_holds fix plan.root f (listed f front)).subset cut
    have theirs := (cut_holds fix plan.root u (by rw [units]; simp)).subset other
    exact apart.2.2 x (List.mem_flatMap.mpr ⟨f,front,mine⟩) x (List.mem_append_left _ theirs) rfl

end

/-- The two steps at tree 60. -/
def steps60 : List Element := [.leaf 3 (visitTree "60"),.leaf 4 (sampleTree "60")]

/-- The sequence declares its id. -/
def declaredTree : Plan where
  ref := 0
  control := ⟨.sequence,[]⟩
  children :=
    [.node 1 ⟨.retryUntilSuccessful,[("num_attempts","3")]⟩ [.node 2 ⟨.sequence,[("name","Tree60__task_5")]⟩ steps60]]
  distinct := by decide

/-- The retry around it declares it instead. -/
def declaredRetry : Plan where
  ref := 0
  control := ⟨.sequence,[]⟩
  children :=
    [.node 1 ⟨.retryUntilSuccessful,[("name","Tree60__task_5"),("num_attempts","3")]⟩
      [.node 2 ⟨.sequence,[("name","s60")]⟩ steps60]]
  distinct := by decide

end AmigaFleet.Mission
