import AmigaFleet.Mission.Edits

/-! What taking elements out of a mission leaves: the leaves that lie under none
of them, and a tree that still loads. -/
namespace AmigaFleet.Mission
open Lib

/-- The leaf lies under an element with the reference. -/
def Over (t : Element) (r : Nat) (x : Leaf) : Prop := ∃ e ∈ t.iter, e.ref = r ∧ x ∈ actionsIn e

instance (t : Element) (r : Nat) (x : Leaf) : Decidable (Over t r x) := inferInstanceAs (Decidable (∃ _ ∈ _, _))

/-- What is left of the child that holds an element taken out. -/
def remnant (r : Nat) (c : Element) : List Element :=
  if c.ref = r then [] else if (detach r c).children.isEmpty then [] else [detach r c]

theorem detachAll_other (r : Nat) (cs : List Element) (other : ∀ c ∈ cs, r ∉ c.refs) : detachAll r cs = cs := by
  induction cs with
  | nil => rfl
  | cons c rest ih =>
    obtain ⟨here,others⟩ := List.forall_mem_cons.mp other
    have different : c.ref ≠ r := fun same => here (same ▸ Tree.ref_mem_refs c)
    rw [detachAll,if_neg different,if_neg here,ih others]

theorem detachAll_place (r : Nat) (before after : List Element) (c : Element) (other : ∀ b ∈ before, r ∉ b.refs)
    (here : r ∈ c.refs) : detachAll r (before ++ c :: after) = before ++ remnant r c ++ after := by
  induction before with
  | nil =>
    rw [List.nil_append,detachAll,if_pos here,remnant]
    split
    · rfl
    · split <;> rfl
  | cons b rest ih =>
    obtain ⟨absent,others⟩ := List.forall_mem_cons.mp other
    have different : b.ref ≠ r := fun same => absent (same ▸ Tree.ref_mem_refs b)
    rw [List.cons_append,detachAll,if_neg different,if_neg absent,ih others]
    rfl

/-- The child that holds a reference, with those before it. -/
theorem child_place (r : Nat) (cs : List Element) (within : r ∈ cs.flatMap Tree.refs) :
    ∃ before c after, cs = before ++ c :: after ∧ (∀ b ∈ before, r ∉ b.refs) ∧ r ∈ c.refs := by
  induction cs with
  | nil => cases within
  | cons c rest ih =>
    by_cases here : r ∈ c.refs
    · exact ⟨[],c,rest,rfl,by simp,here⟩
    · obtain ⟨before,d,after,rfl,absent,found⟩ := ih (by simpa [here] using within)
      exact ⟨c::before,d,after,rfl,List.forall_mem_cons.mpr ⟨here,absent⟩,found⟩

/-- Taking an element out of a node changes the one child that holds it. -/
theorem detach_node (ref : Nat) (control : Control) (cs : List Element) (distinct : Tree.Distinct (.node ref control cs))
    (r : Nat) :
    (r ∉ cs.flatMap Tree.refs ∧ detach r (.node ref control cs) = .node ref control cs) ∨
      ∃ before c after, cs = before ++ c :: after ∧ r ∈ c.refs ∧ (∀ b ∈ before ++ after, r ∉ b.refs) ∧
        detach r (.node ref control cs) = .node ref control (before ++ remnant r c ++ after) := by
  by_cases within : r ∈ cs.flatMap Tree.refs
  · obtain ⟨before,c,after,rfl,absent,found⟩ := child_place r cs within
    refine .inr ⟨before,c,after,rfl,found,fun b member held => ?_,by rw [detach,detachAll_place r before after c absent found]⟩
    obtain front | back := List.mem_append.mp member
    · exact absent b front held
    · rw [Tree.Distinct,Tree.refs_node,List.nodup_cons,List.flatMap_append,List.flatMap_cons,List.nodup_append] at distinct
      exact (List.nodup_append.mp distinct.2.2.1).2.2 r found r (List.mem_flatMap.mpr ⟨b,back,held⟩) rfl
  · have other : ∀ c ∈ cs, r ∉ c.refs := fun c member held => within (List.mem_flatMap.mpr ⟨c,member,held⟩)
    exact .inl ⟨within,by rw [detach,detachAll_other r cs other]⟩

theorem over_node (ref : Nat) (control : Control) (cs : List Element) (r : Nat) (x : Leaf) :
    Over (.node ref control cs) r x ↔
      ref = r ∧ x ∈ cs.flatMap actionsIn ∨ ∃ c ∈ cs, Over c r x := by
  simp only [Over,Tree.iter_node,List.mem_cons,List.mem_flatMap]
  constructor
  · rintro ⟨e,rfl | ⟨c,member,inside⟩,same,held⟩
    · exact .inl ⟨same,by simpa using held⟩
    · exact .inr ⟨c,member,e,inside,same,held⟩
  · rintro (⟨same,held⟩ | ⟨c,member,e,inside,same,held⟩)
    · exact ⟨_,.inl rfl,same,by simpa using held⟩
    · exact ⟨e,.inr ⟨c,member,inside⟩,same,held⟩

theorem over_refs (t : Element) (r : Nat) (x : Leaf) (above : Over t r x) : r ∈ t.refs ∧ x ∈ actionsIn t := by
  obtain ⟨e,inside,rfl,held⟩ := above
  exact ⟨List.mem_map_of_mem inside,Tree.leaves_of_iter t e inside x held⟩

theorem remnant_mem (r : Nat) (c d : Element) (member : d ∈ remnant r c) : d = detach r c := by
  unfold remnant at member
  split at member
  · cases member
  · split at member
    · cases member
    · exact List.mem_singleton.mp member

theorem remnant_refs (r : Nat) (c : Element) (ih : (detach r c).refs.Sublist c.refs) :
    ((remnant r c).flatMap Tree.refs).Sublist c.refs := by
  unfold remnant
  split
  · exact List.nil_sublist _
  · split
    · exact List.nil_sublist _
    · simpa using ih

theorem detach_refs (r : Nat) (t : Element) (distinct : Tree.Distinct t) : (detach r t).refs.Sublist t.refs := by
  induction t using Tree.induct with
  | leaf _ _ => exact .refl _
  | node ref control cs ih =>
    obtain ⟨-,same⟩ | ⟨before,c,after,rfl,found,-,cut⟩ := detach_node ref control cs distinct r
    · rw [same]
    · rw [cut,Tree.refs_node,Tree.refs_node]
      refine List.Sublist.cons_cons _ ?_
      simp only [List.flatMap_append,List.flatMap_cons,List.append_assoc]
      exact (List.Sublist.refl _).append ((remnant_refs r c (ih c (by simp) (Tree.Distinct.child distinct c (by simp)))).append (.refl _))

theorem detach_distinct (r : Nat) (t : Element) (distinct : Tree.Distinct t) : Tree.Distinct (detach r t) :=
  distinct.sublist (detach_refs r t distinct)

theorem remnant_leaves (r : Nat) (c : Element) (found : r ∈ c.refs)
    (ih : c.ref ≠ r → actionsIn (detach r c) = (actionsIn c).filter (fun x => ¬Over c r x)) :
    (remnant r c).flatMap actionsIn = (actionsIn c).filter (fun x => ¬Over c r x) := by
  unfold remnant
  split
  · rename_i same
    refine (List.filter_eq_nil_iff.mpr fun x held => ?_).symm
    have above : Over c r x := ⟨c,Tree.self_mem_iter c,same,held⟩
    simpa using above
  · rename_i different
    rw [← ih different]
    cases c with
    | leaf s a =>
      obtain rfl := List.mem_singleton.mp found
      exact absurd rfl different
    | node s control cs =>
      split
      · rename_i none_
        have none_ : detachAll r cs = [] := by simpa [detach,Tree.children] using none_
        simp [detach,none_]
      · simp

/-- A leaf of another child lies under no element with the reference. -/
theorem apart_over (ref : Nat) (control : Control) (before after : List Element) (c b : Element)
    (distinct : Tree.Distinct (.node ref control (before ++ c :: after))) (r : Nat) (below : ref ≠ r)
    (alone : ∀ b ∈ before ++ after, r ∉ b.refs) (member : b ∈ before ++ after) (x : Leaf)
    (held : x ∈ actionsIn b) : ¬Over (.node ref control (before ++ c :: after)) r x := by
  rw [over_node]
  rintro (⟨same,-⟩ | ⟨d,inside,above⟩)
  · exact below same
  · obtain ⟨here,also⟩ := over_refs d r x above
    obtain rfl := Tree.child_unique ref control _ distinct d b inside (by
      obtain front | back := List.mem_append.mp member
      · simp [front]
      · simp [back]) x also held
    exact alone d member here

/-- The leaves that are left lie under no element with the reference. -/
theorem detach_leaves (r : Nat) (t : Element) (distinct : Tree.Distinct t) (below : t.ref ≠ r) :
    actionsIn (detach r t) = (actionsIn t).filter (fun x => ¬Over t r x) := by
  induction t using Tree.induct with
  | leaf s a =>
    have free : ¬Over (.leaf s a) r (s,a) := by
      rintro ⟨e,inside,same,-⟩
      rw [Tree.iter_leaf,List.mem_singleton] at inside
      exact below (inside ▸ same)
    simp [detach,free]
  | node ref control cs ih =>
    have below : ref ≠ r := below
    obtain ⟨absent,same⟩ | ⟨before,c,after,rfl,found,alone,cut⟩ := detach_node ref control cs distinct r
    · rw [same]
      refine (List.filter_eq_self.mpr fun x held => ?_).symm
      rw [decide_eq_true_iff]
      intro above
      obtain ⟨here,-⟩ := over_refs _ r x above
      rw [Tree.refs_node,List.mem_cons] at here
      exact here.elim (fun same => below same.symm) absent
    · have kept (b : Element) (member : b ∈ before ++ after) :
          (actionsIn b).filter (fun x => ¬Over (.node ref control (before ++ c :: after)) r x) = actionsIn b := by
        refine List.filter_eq_self.mpr fun x held => ?_
        simpa using apart_over ref control before after c b distinct r below alone member x held
      have middle : (actionsIn c).filter (fun x => ¬Over (.node ref control (before ++ c :: after)) r x) =
          (remnant r c).flatMap actionsIn := by
        rw [remnant_leaves r c found (ih c (by simp) (Tree.Distinct.child distinct c (by simp)))]
        refine List.filter_congr fun x held => ?_
        have same : Over (.node ref control (before ++ c :: after)) r x ↔ Over c r x := by
          rw [over_node]
          refine ⟨?_,fun above => .inr ⟨c,by simp,above⟩⟩
          rintro (⟨same,-⟩ | ⟨d,inside,above⟩)
          · exact absurd same below
          · obtain rfl := Tree.child_unique ref control _ distinct d c inside (by simp) x (over_refs d r x above).2 held
            exact above
        simp [same]
      rw [cut,actionsIn_node,actionsIn_node]
      simp only [List.flatMap_append,List.flatMap_cons,List.filter_append,List.append_assoc,List.filter_flatMap]
      rw [middle,List.flatMap_congr fun b member => kept b (List.mem_append_left after member),
        List.flatMap_congr fun b member => kept b (List.mem_append_right before member)]

theorem detach_other (r : Nat) (t : Element) (absent : ∀ c ∈ t.children, r ∉ c.refs) : detach r t = t := by
  cases t with
  | leaf _ _ => rfl
  | node ref control cs => rw [detach,detachAll_other r cs absent]

theorem detach_self (t : Element) (distinct : Tree.Distinct t) : detach t.ref t = t := by
  refine detach_other t.ref t fun c member => ?_
  cases t with
  | leaf _ _ => cases member
  | node ref control cs => exact Tree.Distinct.root distinct c member

theorem detach_sub (r : Nat) (t : Element) (distinct : Tree.Distinct t) (x : Leaf) (held : x ∈ actionsIn (detach r t)) :
    x ∈ actionsIn t := by
  by_cases below : t.ref = r
  · rw [← below,detach_self t distinct] at held
    exact held
  · rw [detach_leaves r t distinct below] at held
    exact List.mem_of_mem_filter held

/-- What is left lies under the elements it lay under. -/
theorem detach_over (r : Nat) (t : Element) (distinct : Tree.Distinct t) (s : Nat) (x : Leaf)
    (held : x ∈ actionsIn (detach r t)) : Over (detach r t) s x ↔ Over t s x := by
  induction t using Tree.induct with
  | leaf _ _ => exact Iff.rfl
  | node ref control cs ih =>
    obtain ⟨absent,same⟩ | ⟨before,c,after,rfl,found,alone,cut⟩ := detach_node ref control cs distinct r
    · rw [same]
    · rw [cut,actionsIn_node] at held
      rw [cut,over_node,over_node]
      refine or_congr (and_congr_right fun _ => ?_) ?_
      · refine iff_of_true held ?_
        rw [← actionsIn_node ref control,← cut] at held
        rw [← actionsIn_node ref control]
        exact detach_sub r _ distinct x held
      · constructor
        · rintro ⟨d,member,above⟩
          simp only [List.mem_append] at member
          obtain (front | middle) | back := member
          · exact ⟨d,by simp [front],above⟩
          · obtain rfl := remnant_mem r c d middle
            exact ⟨c,by simp,(ih c (by simp) (Tree.Distinct.child distinct c (by simp)) (over_refs _ s x above).2).mp above⟩
          · exact ⟨d,by simp [back],above⟩
        · rintro ⟨d,member,above⟩
          simp only [List.mem_append,List.mem_cons] at member
          obtain front | rfl | back := member
          · exact ⟨d,by simp [front],above⟩
          · obtain ⟨b,listed,inside⟩ := List.mem_flatMap.mp held
            simp only [List.mem_append] at listed
            have elsewhere (b : Element) (among : b ∈ before ++ after) (inside : x ∈ actionsIn b) : False := by
              have also : b ∈ before ++ d :: after := by
                obtain front | back := List.mem_append.mp among
                · simp [front]
                · simp [back]
              obtain rfl := Tree.child_unique ref control _ distinct b d also (by simp) x inside (over_refs d s x above).2
              exact alone b among found
            obtain (front | middle) | back := listed
            · exact (elsewhere b (List.mem_append_left _ front) inside).elim
            · obtain rfl := remnant_mem r d b middle
              have shown := (ih d (by simp) (Tree.Distinct.child distinct d (by simp)) inside).mpr above
              exact ⟨_,by simp [middle],shown⟩
            · exact (elsewhere b (List.mem_append_right _ back) inside).elim
          · exact ⟨d,by simp [back],above⟩

/-- A control node holds something, and a retry exactly one thing. -/
def LoadableNode : Element → Prop
  | .leaf _ _ => True
  | .node _ control children =>
    children ≠ [] ∧ (control.tag = .retryUntilSuccessful → children.length = 1)

instance : (e : Element) → Decidable (LoadableNode e)
  | .leaf _ _ => .isTrue trivial
  | .node _ _ _ => inferInstanceAs (Decidable (_ ∧ _))

def Loadable (t : Element) : Prop := ∀ e ∈ t.iter, LoadableNode e

instance (t : Element) : Decidable (Loadable t) := inferInstanceAs (Decidable (∀ _ ∈ _, _))

theorem Loadable.child (ref : Nat) (control : Control) (cs : List Element) (loads : Loadable (.node ref control cs))
    (c : Element) (member : c ∈ cs) : Loadable c := by
  intro e inside
  refine loads e ?_
  rw [Tree.iter_node]
  exact List.mem_cons_of_mem _ (List.mem_flatMap.mpr ⟨c,member,inside⟩)

/-- A node that keeps something still loads once an element is taken out of it. -/
theorem detach_loadable (r : Nat) (t : Element) (distinct : Tree.Distinct t) (loads : Loadable t)
    (some_ : (detach r t).children ≠ []) : Loadable (detach r t) := by
  induction t using Tree.induct with
  | leaf _ _ => exact absurd rfl some_
  | node ref control cs ih =>
    obtain ⟨-,same⟩ | ⟨before,c,after,rfl,found,-,cut⟩ := detach_node ref control cs distinct r
    · rw [same]
      exact loads
    · rw [cut] at some_ ⊢
      intro e inside
      rw [Tree.iter_node] at inside
      obtain rfl | below := List.mem_cons.mp inside
      · refine ⟨some_,fun retry => ?_⟩
        have one : (before ++ c :: after).length = 1 := (loads _ (Tree.self_mem_iter _)).2 retry
        have most : (remnant r c).length ≤ 1 := by
          unfold remnant
          split
          · simp
          · split <;> simp
        have least : 0 < (before ++ remnant r c ++ after).length := List.length_pos_iff.mpr some_
        simp only [List.length_append,List.length_cons] at one least ⊢
        omega
      · obtain ⟨d,member,deep⟩ := List.mem_flatMap.mp below
        simp only [List.mem_append] at member
        obtain (front | middle) | back := member
        · exact loads.child ref control _ d (by simp [front]) e deep
        · obtain rfl := remnant_mem r c d middle
          have kept : (detach r c).children ≠ [] := by
            intro none_
            unfold remnant at middle
            split at middle
            · cases middle
            · simp [none_] at middle
          exact ih c (by simp) (Tree.Distinct.child distinct c (by simp)) (loads.child ref control _ c (by simp)) kept e deep
        · exact loads.child ref control _ d (by simp [back]) e deep

theorem removeElement_single (r : Nat) (t : Element) :
    removeElement r [t] = if t.ref = r then [] else [detach r t] := by
  rw [removeElement]
  split
  · rfl
  · split
    · rfl
    · rename_i absent
      rw [removeElement,detach_other r t]
      intro c member held
      cases t with
      | leaf _ _ => cases member
      | node ref control cs =>
        rw [Tree.refs_node] at absent
        exact absent (List.mem_cons_of_mem _ (List.mem_flatMap.mpr ⟨c,member,held⟩))

theorem over_ref (t e : Element) (distinct : Tree.Distinct t) (inside : e ∈ t.iter) (x : Leaf) :
    Over t e.ref x ↔ x ∈ actionsIn e := by
  constructor
  · rintro ⟨f,within,same,held⟩
    obtain rfl := Tree.iter_unique t distinct f e within inside same
    exact held
  · exact fun held => ⟨e,inside,rfl,held⟩

/-- What the tree is once elements have been taken out of a root. -/
structure Trimmed (t : Element) (gone tree : List Element) : Prop where
  shape : tree = [] ∨ ∃ t', tree = [t'] ∧ Tree.Distinct t' ∧ t'.isLeaf = t.isLeaf ∧
    (Loadable t → t'.children = [] ∨ Loadable t') ∧ ∀ s x, x ∈ actionsIn t' → (Over t' s x ↔ Over t s x)
  leaves : tree.flatMap actionsIn = (actionsIn t).filter (fun x => ∀ e ∈ gone, x ∉ actionsIn e)

theorem trimmed_step (t : Element) (distinct : Tree.Distinct t) (gone tree : List Element) (e : Element)
    (inside : e ∈ t.iter) (trimmed : Trimmed t gone tree) : Trimmed t (gone ++ [e]) (removeElement e.ref tree) := by
  obtain ⟨shape,leaves⟩ := trimmed
  have narrower : (actionsIn t).filter (fun x => ∀ d ∈ gone ++ [e], x ∉ actionsIn d) =
      (tree.flatMap actionsIn).filter (fun x => x ∉ actionsIn e) := by
    rw [leaves,List.filter_filter]
    refine List.filter_congr fun x _ => ?_
    rw [Bool.eq_iff_iff]
    simp only [decide_eq_true_eq,Bool.and_eq_true,List.mem_append,List.mem_singleton]
    constructor
    · exact fun free => ⟨free e (.inr rfl),fun d member => free d (.inl member)⟩
    · rintro ⟨last,free⟩ d (member | rfl)
      · exact free d member
      · exact last
  obtain rfl | ⟨t',rfl,apart,control,loads,above⟩ := shape
  · exact ⟨.inl rfl,by rw [narrower]; rfl⟩
  · rw [removeElement_single]
    have under (x : Leaf) (held : x ∈ actionsIn t') : Over t' e.ref x ↔ x ∈ actionsIn e :=
      (above e.ref x held).trans (over_ref t e distinct inside x)
    split
    · rename_i same
      refine ⟨.inl rfl,?_⟩
      rw [narrower,List.flatMap_nil,eq_comm,List.filter_eq_nil_iff]
      intro x held
      have held : x ∈ actionsIn t' := by simpa using held
      simpa using (under x held).mp ⟨t',Tree.self_mem_iter t',same,held⟩
    · rename_i below
      refine ⟨.inr ⟨_,rfl,detach_distinct _ _ apart,?_,fun whole => ?_,fun s x held => ?_⟩,?_⟩
      · rw [← control]
        cases t' <;> rfl
      · by_cases none_ : (detach e.ref t').children = []
        · exact .inl none_
        · refine .inr (detach_loadable e.ref t' apart ((loads whole).resolve_left fun bare => none_ ?_) none_)
          rw [detach_other e.ref t' (by simp [bare]),bare]
      · rw [detach_over e.ref t' apart s x held]
        exact above s x (detach_sub e.ref t' apart x held)
      · rw [narrower,List.flatMap_singleton,List.flatMap_singleton,detach_leaves e.ref t' apart below]
        refine List.filter_congr fun x held => ?_
        simp [under x held]

theorem removeElements_trimmed (t : Element) (distinct : Tree.Distinct t) (elements : List Element)
    (inside : ∀ e ∈ elements, e ∈ t.iter) : Trimmed t elements (removeElements [t] elements) := by
  have run (elements : List Element) (inside : ∀ e ∈ elements, e ∈ t.iter) (gone tree : List Element)
      (trimmed : Trimmed t gone tree) :
      Trimmed t (gone ++ elements) (elements.foldl (fun tree e => removeElement e.ref tree) tree) := by
    induction elements generalizing gone tree with
    | nil => simpa using trimmed
    | cons e rest ih =>
      have next := ih (fun d member => inside d (by simp [member])) (gone ++ [e]) _
        (trimmed_step t distinct gone tree e (inside e (by simp)) trimmed)
      simpa using next
  refine run elements inside [] [t] ⟨.inr ⟨t,rfl,distinct,rfl,.inr,fun _ _ _ => Iff.rfl⟩,?_⟩
  simp

end AmigaFleet.Mission
