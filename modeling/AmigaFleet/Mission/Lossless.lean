import AmigaFleet.Mission.Removal
import AmigaFleet.Mission.Resolving

/-! What edits to a mission keep: removing a unit takes out its leaves and no more,
inserting one adds its leaves, and the rest still loads. What reading it may lose. -/
namespace AmigaFleet.Mission
open Lib

section
variable (fix : String → String → Option Codec.Target)

/-- Edits lose nothing, leave a tree that loads, and every leaf is part of a unit. -/
structure Lossless (plan : Plan) : Prop where
  removed : ∀ taskId u, (located fix [plan.root]).units.find? (fun u => u.task.taskId = taskId) = some u →
    ∃ edited, removeTask fix [plan.root] taskId = .ok (some edited) ∧
      edited.flatMap actionsIn = (actionsIn plan.root).filter (fun x => x ∉ u.cut)
  inserted : ∀ task xml edited, task.xml = some xml → insertTask [plan.root] task = some edited →
    ∃ copies, edited.flatMap actionsIn = actionsIn plan.root ++ copies ∧
      copies.map Prod.snd = (actionsIn xml).map Prod.snd
  loads : ∀ taskId edited, removeTask fix [plan.root] taskId = .ok (some edited) →
    1 < (located fix [plan.root]).units.length → ∃ t, edited = [t] ∧ Loadable t
  described : ∀ x ∈ actionsIn plan.root, ∃ u ∈ (located fix [plan.root]).units, x ∈ u.cut ∨ x ∈ u.holds

theorem loadable_some (t : Element) (loads : Loadable t) : actionsIn t ≠ [] := by
  induction t using Tree.induct with
  | leaf _ _ => simp
  | node ref control cs ih =>
    obtain ⟨some_,-⟩ := loads _ (Tree.self_mem_iter _)
    obtain ⟨c,member⟩ := List.exists_mem_of_ne_nil cs some_
    rw [actionsIn_node,ne_eq,List.flatMap_eq_nil_iff]
    exact fun none_ => ih c member (loads.child ref control cs c member) (none_ c member)

theorem loadable_iter (t e : Element) (loads : Loadable t) (inside : e ∈ t.iter) : Loadable e :=
  fun f deep => loads f (Tree.iter_trans t e f inside deep)

theorem loadable_unstuck (t : Element) (loads : Loadable t) : ¬Stuck fix t := by
  intro stuck
  induction stuck with
  | here ref control before between after barren worker first found need mix branch empty =>
    exact loadable_some barren (loads.child ref control _ barren (by simp)) empty
  | deeper ref control children c opened member stuck ih => exact ih (loads.child ref control children c member)

theorem loadable_clean (t : Element) (loads : Loadable t) : (locatedUnder fix t).error = none :=
  not_not.mp fun failed => loadable_unstuck fix t loads ((error_iff fix t).mp failed)

theorem pieces_iter (c e : Element) (member : e ∈ pieces c (locatedUnder fix c)) : e ∈ c.iter := by
  unfold pieces at member
  split at member
  · rw [List.mem_singleton.mp member]
    exact Tree.self_mem_iter c
  · obtain ⟨cut,listed,deep⟩ := List.mem_flatten.mp member
    obtain ⟨v,inside,rfl⟩ := List.mem_map.mp listed
    exact elements_iter fix c v inside e deep

/-- A unit of a mission that loads has something to do. -/
theorem holds_some (t : Element) (loads : Loadable t) (u : Located) (member : u ∈ (locatedUnder fix t).units) :
    u.holds ≠ [] := by
  induction t using Tree.induct with
  | leaf _ _ => simp at member
  | node ref control children ih =>
    have group (elements : List Element) (built : taskOfGroup fix ref control elements = some u.task)
        (inside : ∀ e ∈ elements, e ∈ (.node ref control children : Element).iter) : u.holds ≠ [] := by
      have some_ : elements ≠ [] := by
        rintro rfl
        cases built
      obtain ⟨e,listed⟩ := List.exists_mem_of_ne_nil elements some_
      rw [Located.holds,taskOfGroup_holds fix ref control elements u.task built]
      intro none_
      exact loadable_some e (loadable_iter _ e loads (inside e listed)) (List.flatMap_eq_nil_iff.mp none_ e listed)
    have whole (member : u ∈ wholeUnit fix ref control children) : u.holds ≠ [] := by
      obtain ⟨-,found⟩ := wholeUnit_mem fix ref control children u member
      rw [Located.holds,taskOf_xml fix ref control children u.task found]
      exact loadable_some _ loads
    have read := locatedUnder_read fix ref control children
    generalize locatedUnder fix (.node ref control children) = reading at member read
    cases read with
    | branching within bare =>
      obtain ⟨reading,listed,member⟩ := mem_chain _ u member
      obtain ⟨c,among,rfl⟩ := List.mem_map.mp listed
      exact ih c among (loads.child ref control children c among) member
    | grouped flat undeclared several =>
      obtain ⟨-,built⟩ := groupUnits_mem fix ref control _ u member
      refine group u.elements built fun e inside => ?_
      rw [Tree.iter_node]
      exact List.mem_cons_of_mem _ (List.mem_flatMap.mpr
        ⟨e,groupUnits_elements fix ref control children u member e inside,Tree.self_mem_iter e⟩)
    | mixed mix =>
      cases split : splitUnits (children.map (withReading fix)) with
      | error error => simp [splitByPrerequisite,split] at member
      | ok all =>
        rw [splitByPrerequisite,split] at member
        obtain ⟨before,elements,after,place,-⟩ := (mem_leaveShared _ u).mp member
        have listed : (u.task,elements) ∈ builtUnits fix ref control all := by rw [builtUnits,place]; simp
        have among := (List.mem_map_of_mem listed : (u.task,elements).2 ∈ (builtUnits fix ref control all).map Prod.snd)
        rw [builtUnits_snd] at among
        refine group elements (mem_builtUnits fix ref control all _ _ listed) fun e inside => ?_
        have piece := List.mem_flatten.mpr ⟨elements,List.mem_of_mem_filter among,inside⟩
        rw [splitUnits_children fix children all split] at piece
        obtain ⟨c,child,piece⟩ := List.mem_flatMap.mp piece
        rw [Tree.iter_node]
        exact List.mem_cons_of_mem _ (List.mem_flatMap.mpr ⟨c,child,pieces_iter fix c e piece⟩)
    | whole flat one => exact whole member
    | declared mix within named => exact whole member

theorem remove_found (plan : Plan) (taskId : Nat) (u : Located)
    (found : (located fix [plan.root]).units.find? (fun u => u.task.taskId = taskId) = some u) :
    ∃ edited, removeTask fix [plan.root] taskId = .ok (some edited) ∧ Trimmed plan.root u.elements edited ∧
      edited.flatMap actionsIn = (actionsIn plan.root).filter (fun x => x ∉ u.cut) := by
  have listed := List.mem_of_find?_eq_some found
  rw [located_single] at listed
  have trimmed := removeElements_trimmed plan.root plan.distinct u.elements (elements_iter fix plan.root u listed)
  refine ⟨_,by rw [removeTask,found],trimmed,?_⟩
  rw [trimmed.leaves]
  refine List.filter_congr fun x _ => ?_
  simp [Located.cut]

theorem remove_some (plan : Plan) (taskId : Nat) (edited : List Element)
    (removed : removeTask fix [plan.root] taskId = .ok (some edited)) :
    ∃ u ∈ (locatedUnder fix plan.root).units, Trimmed plan.root u.elements edited ∧
      edited.flatMap actionsIn = (actionsIn plan.root).filter (fun x => x ∉ u.cut) := by
  cases found : (located fix [plan.root]).units.find? (fun u => u.task.taskId = taskId) with
  | none =>
    rw [removeTask,found] at removed
    cases ended : (located fix [plan.root]).error <;> simp [ended] at removed
  | some u =>
    obtain ⟨other,same,trimmed,leaves⟩ := remove_found fix plan taskId u found
    obtain rfl : edited = other := Option.some.inj (Except.ok.inj (removed.symm.trans same))
    have listed := List.mem_of_find?_eq_some found
    rw [located_single] at listed
    exact ⟨u,listed,trimmed,leaves⟩

/-- Another unit than the one taken out keeps its leaves. -/
theorem others_left (plan : Plan) (loads : Loadable plan.root) (u : Located)
    (member : u ∈ (locatedUnder fix plan.root).units) (several : 1 < (locatedUnder fix plan.root).units.length) :
    ∃ x ∈ actionsIn plan.root, x ∉ u.cut := by
  have apart := (holds_leaves fix plan.root).nodup (Tree.leaves_nodup plan.root plan.distinct)
  obtain ⟨before,after,split⟩ := List.append_of_mem member
  obtain ⟨v,other⟩ : ∃ v, v ∈ before ++ after := by
    refine List.exists_mem_of_length_pos ?_
    simp only [split,List.length_append,List.length_cons] at several ⊢
    omega
  have listed : v ∈ (locatedUnder fix plan.root).units := by
    rw [split]
    obtain front | back := List.mem_append.mp other
    · simp [front]
    · simp [back]
  obtain ⟨x,held⟩ := List.exists_mem_of_ne_nil _ (holds_some fix plan.root loads v listed)
  refine ⟨x,(holds_leaves fix plan.root).subset (List.mem_flatMap.mpr ⟨v,listed,held⟩),fun cut => ?_⟩
  have also := (cut_holds fix plan.root u member).subset cut
  simp only [split,List.flatMap_append,List.flatMap_cons,List.nodup_append] at apart
  obtain front | back := List.mem_append.mp other
  · exact apart.2.2 x (List.mem_flatMap.mpr ⟨v,front,held⟩) x (List.mem_append_left _ also) rfl
  · exact apart.2.1.2.2 x also x (List.mem_flatMap.mpr ⟨v,back,held⟩) rfl

theorem removed_loads (plan : Plan) (loads : Loadable plan.root) (taskId : Nat) (edited : List Element)
    (removed : removeTask fix [plan.root] taskId = .ok (some edited))
    (several : 1 < (located fix [plan.root]).units.length) : ∃ t, edited = [t] ∧ Loadable t := by
  rw [located_single] at several
  obtain ⟨u,member,⟨shape,-⟩,leaves⟩ := remove_some fix plan taskId edited removed
  obtain ⟨x,held,free⟩ := others_left fix plan loads u member several
  have left : x ∈ edited.flatMap actionsIn := by
    rw [leaves]
    exact List.mem_filter.mpr ⟨held,by simpa using free⟩
  obtain rfl | ⟨t,rfl,-,control,kept,-⟩ := shape
  · cases left
  · refine ⟨t,rfl,(kept loads).resolve_left fun none_ => ?_⟩
    cases t with
    | leaf _ _ => cases control
    | node ref control cs =>
      have none_ : cs = [] := none_
      simp [none_] at left

theorem insert_leaves (plan : Plan) (task : MissionTask) (xml : Element) (edited : List Element)
    (body : task.xml = some xml) (inserted : insertTask [plan.root] task = some edited) :
    ∃ copies, edited.flatMap actionsIn = actionsIn plan.root ++ copies ∧
      copies.map Prod.snd = (actionsIn xml).map Prod.snd := by
  rw [insertTask,body] at inserted
  injection inserted with inserted
  refine ⟨actionsIn (xml.relabel (fun r => fresh [plan.root] + 1 + r)),?_,?_⟩
  · have isolated : (isolateLeaves (fresh [plan.root]) plan.children).flatMap actionsIn =
        plan.children.flatMap actionsIn := by
      unfold isolateLeaves
      split <;> simp
    have whole : actionsIn plan.root = plan.children.flatMap actionsIn := actionsIn_node _ _ _
    rw [← inserted,whole]
    change (editRoot _ [] [.node plan.ref plan.control plan.children]).flatMap actionsIn = _
    simp [editRoot,isolated]
  · rw [actionsIn,Tree.leaves_relabel,List.map_map]
    rfl

end

/-- The same after a first step of its own. -/
def nestedAisle : Plan where
  ref := 0
  control := ⟨.sequence,[]⟩
  children :=
    [.leaf 1 ⟨.moveArmToPosition,[("name","ready")]⟩,
      .node 2 ⟨.sequence,[]⟩ [.leaf 3 (intoAisle "6"),retried 4 "60",retried 8 "61"]]
  distinct := by decide

end AmigaFleet.Mission
