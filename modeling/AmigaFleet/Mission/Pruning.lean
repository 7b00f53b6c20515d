import AmigaFleet.Mission.Prune

/-! What pruning takes out of a plan, read off the list of its actions, and what
is left true of the rest. -/
namespace AmigaFleet.Mission
open Lib

def completedIds (completed : List String) : List String := completed.map Text.strip

/-- The plan holds the pair and no other action. -/
def Alone (root : Element) (move sample : Leaf) : Prop := ∀ x ∈ actionsIn root, x = move ∨ x = sample

/-- Some element holds the pair and no other action. -/
def Wrapped (root : Element) (move sample : Leaf) : Prop :=
  ∃ q ∈ root.iter, move ∈ actionsIn q ∧ sample ∈ actionsIn q ∧ ∀ x ∈ actionsIn q, x = move ∨ x = sample

/-- The aisle of some tree that the plan samples and that is not completed. -/
def StillNeeded (root : Element) (completed : List String) (orchard : Option Orchard) (aisle : String) : Prop :=
  ∃ o ∈ objectiveBindings root orchard, o.2.2 ∉ completedIds completed ∧ aisleText orchard o.2.2 = some aisle

/-- The action is taken out: a completed tree's move, its sample where a wrapper
holds just the two, or an aisle head that is not needed any more. -/
def Gone (root : Element) (completed : List String) (orchard : Option Orchard) (x : Leaf) : Prop :=
  (∃ o ∈ objectiveBindings root orchard, o.2.2 ∈ completedIds completed ∧ ¬Alone root o.1 o.2.1 ∧
      (x = o.1 ∨ x = o.2.1 ∧ Wrapped root o.1 o.2.1)) ∨
    x.2.tag = .moveToAisleHead ∧ ¬StillNeeded root completed orchard (x.2.text "id")

instance (root : Element) (move sample : Leaf) : Decidable (Alone root move sample) :=
  inferInstanceAs (Decidable (∀ _ ∈ _, _))

instance (root : Element) (move sample : Leaf) : Decidable (Wrapped root move sample) :=
  inferInstanceAs (Decidable (∃ _ ∈ _, _))

instance (root : Element) (completed : List String) (orchard : Option Orchard) (aisle : String) :
    Decidable (StillNeeded root completed orchard aisle) := inferInstanceAs (Decidable (∃ _ ∈ _, _))

instance (root : Element) (completed : List String) (orchard : Option Orchard) (x : Leaf) :
    Decidable (Gone root completed orchard x) := inferInstanceAs (Decidable (_ ∨ _))

def lastLeaf (leaves : List Leaf) : Option Leaf := leaves.reverse.find? (fun x => travels x.2)

theorem lastLeaf_map (leaves : List Leaf) : (lastLeaf leaves).map Prod.snd = lastTravel (leaves.map Prod.snd) := by
  rw [lastLeaf,lastTravel,← List.map_reverse,List.find?_map]
  rfl

theorem lastLeaf_snoc (leaves : List Leaf) (x : Leaf) :
    lastLeaf (leaves ++ [x]) = if travels x.2 then some x else lastLeaf leaves := by
  cases moving : travels x.2 <;> simp [lastLeaf,moving]

theorem bound_lastLeaf (leaves : List Leaf) (tree : String) :
    bound (leaves.map Prod.snd) = some tree ↔ ∃ move, lastLeaf leaves = some move ∧ approached move.2 = some tree := by
  rw [bound,← lastLeaf_map]
  cases lastLeaf leaves <;> simp

/-- The table knows the approach that the robot is still standing at. -/
def Latest (before : List Leaf) (lastMoveFor : List (String × Leaf)) : Prop :=
  ∀ move tree, lastLeaf before = some move → approached move.2 = some tree → lastMoveFor.lookup tree = some move

theorem latest_step (before : List Leaf) (lastMoveFor : List (String × Leaf)) (x : Leaf)
    (latest : Latest before lastMoveFor) :
    Latest (before ++ [x])
      (if x.2.tag = .moveToTreeID ∧ x.2.approach = true then (x.2.text "id",x) :: lastMoveFor else lastMoveFor) := by
  intro move tree last near
  rw [lastLeaf_snoc] at last
  split at last
  · injection last with same
    subst same
    obtain ⟨tag,named,-,close⟩ := approached_eq x.2 tree near
    rw [if_pos ⟨tag,close⟩,named]
    simp
  · rename_i still
    have before := latest move tree last near
    split
    · rename_i shape
      have unnamed : x.2.text "id" = "" := by simpa [travels,shape.1] using still
      have named : tree ≠ "" := (approached_eq move.2 tree near).2.2.1
      rw [unnamed,List.lookup_cons,beq_false_of_ne named]
      exact before
    · exact before

theorem sampled_establishes (orchard : Option Orchard) (before : List Leaf) (x : Leaf) (samples : x.2.tag = .sampleLeaf) :
    (advance (reach orchard {} (before.map Prod.snd)) x.2 orchard).1.establishes.find?
      (fun fact => fact.kind = .sampledTree) = (bound (before.map Prod.snd)).map (fun tree => ⟨.sampledTree,tree⟩) := by
  have row : table x.2 orchard (reach orchard {} (before.map Prod.snd)) =
      sampleLeaf (reach orchard {} (before.map Prod.snd)) := by simp only [table,samples]
  rw [← reach_holding orchard]
  simp only [advance,row,sampleLeaf]
  cases (reach orchard {} (before.map Prod.snd)).holding .atTree <;> simp

/-- The triples are the samples with a tree in front of them, each with the last
action that travels before it. -/
theorem mem_bindings (orchard : Option Orchard) (before rest : List Leaf) (lastMoveFor : List (String × Leaf))
    (latest : Latest before lastMoveFor) (o : Leaf × Leaf × String) :
    o ∈ bindings orchard (reach orchard {} (before.map Prod.snd)) lastMoveFor rest ↔
      ∃ early late, rest = early ++ o.2.1 :: late ∧ o.2.1.2.tag = .sampleLeaf ∧
        lastLeaf (before ++ early) = some o.1 ∧ approached o.1.2 = some o.2.2 := by
  induction rest generalizing before lastMoveFor with
  | nil => simp [bindings]
  | cons x rest ih =>
    have later := ih (before ++ [x]) _ (latest_step before lastMoveFor x latest)
    rw [List.map_append,reach_append] at later
    have split : (∃ early late, x :: rest = early ++ o.2.1 :: late ∧ o.2.1.2.tag = .sampleLeaf ∧
        lastLeaf (before ++ early) = some o.1 ∧ approached o.1.2 = some o.2.2) ↔
        (o.2.1 = x ∧ x.2.tag = .sampleLeaf ∧ lastLeaf before = some o.1 ∧ approached o.1.2 = some o.2.2) ∨
        ∃ early late, rest = early ++ o.2.1 :: late ∧ o.2.1.2.tag = .sampleLeaf ∧
          lastLeaf (before ++ [x] ++ early) = some o.1 ∧ approached o.1.2 = some o.2.2 := by
      constructor
      · rintro ⟨early,late,cut,samples,last,near⟩
        cases early with
        | nil =>
          obtain ⟨rfl,-⟩ := List.cons.inj cut
          exact .inl ⟨rfl,samples,by simpa using last,near⟩
        | cons y early =>
          obtain ⟨rfl,tail⟩ := List.cons.inj cut
          exact .inr ⟨early,late,tail,samples,by simpa using last,near⟩
      · rintro (⟨rfl,samples,last,near⟩ | ⟨early,late,rfl,samples,last,near⟩)
        · exact ⟨[],rest,rfl,samples,by simpa using last,near⟩
        · exact ⟨x::early,late,rfl,samples,by simpa using last,near⟩
    rw [split,← later,bindings]
    simp only
    by_cases samples : x.2.tag = .sampleLeaf
    · rw [if_pos samples,sampled_establishes orchard before x samples]
      cases landed : bound (before.map Prod.snd) with
      | none =>
        refine ⟨.inr,fun known => known.resolve_left ?_⟩
        rintro ⟨-,-,last,near⟩
        have found := (bound_lastLeaf before o.2.2).mpr ⟨o.1,last,near⟩
        rw [landed] at found
        cases found
      | some tree =>
        obtain ⟨move,last,near⟩ := (bound_lastLeaf before tree).mp landed
        have other : ¬(x.2.tag = .moveToTreeID ∧ x.2.approach = true) := by simp [samples]
        have known := latest move tree last near
        simp only [Option.map_some,if_neg other,known,List.mem_cons] at later ⊢
        refine or_congr ?_ Iff.rfl
        constructor
        · rintro rfl
          exact ⟨rfl,samples,last,near⟩
        · rintro ⟨same,-,also,close⟩
          rw [last] at also
          injection also with also
          subst also
          rw [near] at close
          injection close with close
          obtain ⟨one,two,three⟩ := o
          simp_all
    · rw [if_neg samples]
      exact ⟨.inr,fun known => known.resolve_left (fun here => samples here.2.1)⟩

theorem mem_objectives (root : Element) (orchard : Option Orchard) (o : Leaf × Leaf × String) :
    o ∈ objectiveBindings root orchard ↔
      ∃ early late, actionsIn root = early ++ o.2.1 :: late ∧ o.2.1.2.tag = .sampleLeaf ∧
        lastLeaf early = some o.1 ∧ approached o.1.2 = some o.2.2 := by
  have latest : Latest [] [] := by
    intro move tree last
    cases last
  exact mem_bindings orchard [] (actionsIn root) [] latest o

theorem climb_spec (ours : List Nat) (node : Element) (chain : List Element)
    (nested : chain.Pairwise (fun inner outer => inner ∈ outer.iter)) :
    (climb ours node chain = node ∨
        climb ours node chain ∈ chain ∧ ∀ x ∈ actionsIn (climb ours node chain), x.1 ∈ ours) ∧
      ∀ q ∈ chain, (∀ x ∈ actionsIn q, x.1 ∈ ours) → q ∈ (climb ours node chain).iter := by
  induction chain generalizing node with
  | nil => exact ⟨.inl rfl,by simp⟩
  | cons parent rest ih =>
    obtain ⟨inner,outer⟩ := List.pairwise_cons.mp nested
    rw [climb]
    split
    · rename_i isolates
      obtain ⟨top,covers⟩ := ih parent outer
      have held : ∀ x ∈ actionsIn parent, x.1 ∈ ours := by simpa using isolates
      refine ⟨.inr ?_,?_⟩
      · obtain same | ⟨member,only⟩ := top
        · rw [same]
          exact ⟨by simp,held⟩
        · exact ⟨List.mem_cons_of_mem _ member,only⟩
      · intro q member only
        obtain rfl | later := List.mem_cons.mp member
        · obtain same | ⟨above,-⟩ := top
          · rw [same]
            exact Tree.self_mem_iter _
          · exact inner _ above
        · exact covers q later only
    · rename_i mixed
      refine ⟨.inl rfl,fun q member only => absurd ?_ mixed⟩
      obtain rfl | later := List.mem_cons.mp member
      · simpa using only
      · simp only [List.all_eq_true,decide_eq_true_eq]
        exact fun x inside => only x (Tree.leaves_of_iter _ _ (inner q later) x inside)

section
variable (plan : Plan) (move sample : Leaf)

/-- The element that pruning takes out for a pair, and what it holds. -/
theorem isolatedAncestor_spec (moves : move ∈ actionsIn plan.root) (samples : sample ∈ actionsIn plan.root)
    (apart : move ≠ sample) :
    isolatedAncestor plan.root move sample ∈ plan.root.iter ∧
      (isolatedAncestor plan.root move sample = plan.root ↔ Alone plan.root move sample) ∧
      ∀ x, x ∈ actionsIn (isolatedAncestor plan.root move sample) ↔
        x = move ∨ x = sample ∧ Wrapped plan.root move sample := by
  have around (q : Element) := Tree.mem_ancestors plan.root plan.distinct move.1 q
  obtain ⟨top,covers⟩ := climb_spec [move.1,sample.1] (.leaf move.1 move.2) (plan.root.ancestors move.1)
    (Tree.ancestors_nested _ _)
  rw [← isolatedAncestor] at top covers
  generalize isolatedAncestor plan.root move sample = node at top covers ⊢
  have known (x : Leaf) (inside : x ∈ actionsIn plan.root) : x.1 ∈ [move.1,sample.1] ↔ x = move ∨ x = sample := by
    simp only [List.mem_cons,List.not_mem_nil,or_false]
    refine or_congr ⟨fun same => ?_,fun same => congrArg _ same⟩ ⟨fun same => ?_,fun same => congrArg _ same⟩
    · exact Tree.leaf_unique plan.root plan.distinct x move inside moves same
    · exact Tree.leaf_unique plan.root plan.distinct x sample inside samples same
  have rootAround : plan.root ∈ plan.root.ancestors move.1 := by
    refine (around _).mpr ⟨Tree.self_mem_iter _,Tree.leaf_mem_refs _ move moves,?_⟩
    intro same
    have own : plan.ref = move.1 := same
    obtain ⟨c,member,held⟩ : ∃ c ∈ plan.children, move ∈ c.leaves := by simpa [actionsIn,Plan.root] using moves
    exact plan.distinct.root c member (own ▸ Tree.leaf_mem_refs c move held)
  have inside : node ∈ plan.root.iter := by
    obtain rfl | ⟨above,-⟩ := top
    · exact Tree.leaves_iter _ move moves
    · exact ((around _).mp above).1
  have holdsMove : move ∈ actionsIn node := by
    obtain rfl | ⟨above,-⟩ := top
    · simp [actionsIn]
    · exact Tree.leaf_of_ref plan.root node plan.distinct inside move moves ((around _).mp above).2.1
  refine ⟨inside,⟨?_,?_⟩,fun x => ⟨?_,?_⟩⟩
  · rintro rfl x member
    obtain same | ⟨-,only⟩ := top
    · cases same
    · exact (known x member).mp (only x member)
  · intro alone
    have whole := covers plan.root rootAround (fun x member => (known x member).mpr (alone x member))
    obtain same | below := (Tree.mem_iter _ _).mp inside
    · exact same
    · obtain ⟨c,member,deep⟩ := List.mem_flatMap.mp below
      refine absurd ?_ (plan.distinct.root c member)
      exact Tree.refs_of_iter c node deep _ (Tree.refs_of_iter node _ whole _ (Tree.ref_mem_refs _))
  · intro member
    obtain rfl | ⟨above,only⟩ := top
    · exact .inl (by simpa [actionsIn] using member)
    · have pair (y : Leaf) (there : y ∈ actionsIn node) : y = move ∨ y = sample :=
        (known y (Tree.leaves_of_iter _ _ inside y there)).mp (only y there)
      refine (pair x member).imp_right fun same => ⟨same,node,inside,holdsMove,same ▸ member,pair⟩
  · rintro (rfl | ⟨rfl,q,within,first,second,pair⟩)
    · exact holdsMove
    · have wide : q ∈ plan.root.ancestors move.1 := by
        refine (around q).mpr ⟨within,Tree.leaf_mem_refs q move first,fun same => ?_⟩
        obtain rfl := Tree.iter_unique _ plan.distinct q _ within (Tree.leaves_iter _ move moves) same
        exact apart (List.mem_singleton.mp second).symm
      refine Tree.leaves_of_iter node q (covers q wide fun y there => ?_) x second
      exact (known y (Tree.leaves_of_iter _ _ within y there)).mpr (pair y there)

end

theorem objective_members (root : Element) (orchard : Option Orchard) (o : Leaf × Leaf × String)
    (member : o ∈ objectiveBindings root orchard) :
    o.1 ∈ actionsIn root ∧ o.2.1 ∈ actionsIn root ∧ o.1 ≠ o.2.1 := by
  obtain ⟨early,late,split,samples,last,near⟩ := (mem_objectives root orchard o).mp member
  have before : o.1 ∈ early := by simpa using List.mem_of_find?_eq_some last
  rw [split]
  refine ⟨by simp [before],by simp,fun same => ?_⟩
  have tag := approached_eq o.1.2 o.2.2 near
  rw [same,samples] at tag
  cases tag.1

/-- The first cut takes out the finished pairs. -/
theorem spared_pairs (plan : Plan) (completed : List String) (orchard : Option Orchard) (x : Leaf) :
    Tree.Spared (fun ref => ref ∈ ((objectiveBindings plan.root orchard).filter
        (fun o => o.2.2 ∈ completedIds completed)).map (fun o => (isolatedAncestor plan.root o.1 o.2.1).ref))
      plan.root x.1 ∧ x ∈ actionsIn plan.root ↔
      (¬∃ o ∈ objectiveBindings plan.root orchard, o.2.2 ∈ completedIds completed ∧ ¬Alone plan.root o.1 o.2.1 ∧
        (x = o.1 ∨ x = o.2.1 ∧ Wrapped plan.root o.1 o.2.1)) ∧ x ∈ actionsIn plan.root := by
  refine and_congr_left fun inside => ⟨?_,?_⟩
  · rintro spared ⟨o,member,finished,others,taken⟩
    obtain ⟨moves,samples,apart⟩ := objective_members _ _ o member
    obtain ⟨within,whole,holds⟩ := isolatedAncestor_spec plan o.1 o.2.1 moves samples apart
    have below := ((Tree.mem_iter _ _).mp within).resolve_left (fun same => others (whole.mp same))
    refine spared _ below ?_ (List.mem_map_of_mem ((holds x).mpr taken))
    have listed : o ∈ (objectiveBindings plan.root orchard).filter (fun o => o.2.2 ∈ completedIds completed) :=
      List.mem_filter.mpr ⟨member,decide_eq_true finished⟩
    exact decide_eq_true (List.mem_map.mpr ⟨o,listed,rfl⟩)
  · intro kept s below picked under
    obtain ⟨o,listed,same⟩ : ∃ o ∈ (objectiveBindings plan.root orchard).filter
        (fun o => o.2.2 ∈ completedIds completed), (isolatedAncestor plan.root o.1 o.2.1).ref = s.ref := by
      simpa using picked
    obtain ⟨member,finished⟩ := List.mem_filter.mp listed
    obtain ⟨moves,samples,apart⟩ := objective_members _ _ o member
    obtain ⟨within,whole,holds⟩ := isolatedAncestor_spec plan o.1 o.2.1 moves samples apart
    have found := Tree.iter_unique _ plan.distinct _ s within ((Tree.mem_iter _ _).mpr (.inr below)) same
    obtain ⟨y,deep,equal⟩ := List.mem_map.mp under
    have known : y = x := Tree.leaf_unique _ plan.distinct y x
      (Tree.leaves_of_iter _ s ((Tree.mem_iter _ _).mpr (.inr below)) y deep) inside equal
    subst known
    refine kept ⟨o,member,by simpa using finished,fun alone => ?_,(holds y).mp (found ▸ deep)⟩
    exact Tree.beneath_ne _ s plan.distinct below (found ▸ whole.mpr alone)

/-- The second cut takes out the leaves it picks. -/
theorem spared_leaves (doc : Element) (distinct : Tree.Distinct doc) (control : doc.isLeaf = false)
    (pick : Leaf → Bool) (x : Leaf) (inside : x ∈ actionsIn doc) :
    Tree.Spared (fun ref => ref ∈ ((actionsIn doc).filter pick).map Prod.fst) doc x.1 ↔ pick x = false := by
  have below (y : Leaf) (member : y ∈ actionsIn doc) : (Tree.leaf y.1 y.2 : Element) ∈ doc.beneath := by
    refine ((Tree.mem_iter _ _).mp (Tree.leaves_iter doc y member)).resolve_left fun same => ?_
    rw [← same] at control
    cases control
  constructor
  · intro spared
    by_contra picked
    refine spared _ (below x inside) ?_ (by simp)
    have chosen : x ∈ (actionsIn doc).filter pick := List.mem_filter.mpr ⟨inside,by simpa using picked⟩
    exact decide_eq_true (List.mem_map.mpr ⟨x,chosen,rfl⟩)
  · intro kept s within picked under
    obtain ⟨y,listed,same⟩ := List.mem_map.mp (of_decide_eq_true picked)
    obtain ⟨member,chosen⟩ := List.mem_filter.mp listed
    have found := Tree.iter_unique doc distinct (.leaf y.1 y.2) s (Tree.leaves_iter doc y member)
      ((Tree.mem_iter _ _).mpr (.inr within)) same
    subst found
    have equal : x = y := Tree.leaf_unique doc distinct x y inside member (by simpa using under)
    rw [equal,chosen] at kept
    cases kept

/-- A cut, and after it the aisle heads that are not among those needed. -/
theorem leaves_cuts (root : Element) (distinct : Tree.Distinct root) (control : root.isLeaf = false)
    (first : Nat → Bool) (aisles : List String) :
    actionsIn ((root.strip first).strip (fun ref => ref ∈ ((actionsIn (root.strip first)).filter
        (fun x => x.2.tag = .moveToAisleHead && x.2.text "id" ∉ aisles)).map Prod.fst)) =
      (actionsIn root).filter (fun x =>
        Tree.Spared first root x.1 && !(x.2.tag = .moveToAisleHead && x.2.text "id" ∉ aisles)) := by
  have apart : Tree.Distinct (root.strip first) := Tree.Distinct.strip _ _ distinct
  have left : actionsIn (root.strip first) = (actionsIn root).filter (fun x => Tree.Spared first root x.1) :=
    Tree.leaves_strip _ _ distinct
  have still : (root.strip first).isLeaf = false := by
    cases root with
    | leaf _ _ => cases control
    | node _ _ _ => rfl
  rw [actionsIn,Tree.leaves_strip _ _ apart]
  change (actionsIn (root.strip first)).filter _ = _
  have pick : (actionsIn (root.strip first)).filter (fun x => Tree.Spared (fun ref => ref ∈
      ((actionsIn (root.strip first)).filter (fun x =>
        x.2.tag = .moveToAisleHead && x.2.text "id" ∉ aisles)).map Prod.fst) (root.strip first) x.1) =
      (actionsIn (root.strip first)).filter (fun x =>
        !(x.2.tag = .moveToAisleHead && x.2.text "id" ∉ aisles)) := by
    refine List.filter_congr fun x inside => ?_
    rw [Bool.eq_iff_iff,decide_eq_true_iff,Bool.not_eq_true',spared_leaves _ apart still _ x inside]
  rw [pick,left,List.filter_filter]
  exact List.filter_congr fun x _ => Bool.and_comm ..

/-- Pruning leaves exactly the actions that are not gone, in their order. -/
theorem pruneCompleted_actions (plan : Plan) (completed : List String) (orchard : Option Orchard)
    (some_ : completedIds completed ≠ []) :
    actionsIn (pruneCompleted plan.root completed orchard) =
      (actionsIn plan.root).filter (fun x => ¬Gone plan.root completed orchard x) := by
  have needed (aisle : String) : aisle ∈ ((objectiveBindings plan.root orchard).filter
      (fun o => o.2.2 ∉ completedIds completed)).filterMap (fun o => aisleText orchard o.2.2) ↔
      StillNeeded plan.root completed orchard aisle := by
    simp [StillNeeded,and_assoc]
  have shape : pruneCompleted plan.root completed orchard = _ := if_neg some_
  rw [shape]
  refine (leaves_cuts plan.root plan.distinct rfl _ _).trans (List.filter_congr fun x inside => ?_)
  have spared := spared_pairs plan completed orchard x
  simp only [inside,and_true] at spared
  rw [Bool.eq_iff_iff,Bool.and_eq_true,decide_eq_true_iff]
  refine (and_congr_left fun _ => spared).trans ?_
  simp only [Bool.not_eq_true',Bool.and_eq_false_imp,decide_eq_true_eq,decide_eq_false_iff_not,not_not,Gone,not_or,
    not_and]
  exact and_congr_right fun _ => imp_congr_right fun _ => needed _

theorem pruneCompleted_idle (plan : Plan) (completed : List String) (orchard : Option Orchard)
    (none_ : completedIds completed = []) : pruneCompleted plan.root completed orchard = plan.root := if_pos none_

end AmigaFleet.Mission
