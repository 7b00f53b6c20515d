import AmigaFleet.Mission.Pruning

/-! What pruning finished trees leaves of the visits still to be made, and of the
way into their aisles. -/
namespace AmigaFleet.Mission
open Lib

/-- The tree the robot stands at once these actions are done. -/
def standing (orchard : Option Orchard) (before : List Leaf) : Option String :=
  ((reach orchard {} (before.map Prod.snd)).holding .atTree).map Fact.arg

/-- The tree an approach names, and the tree a sample lands on. -/
def visited (orchard : Option Orchard) (before : List Leaf) (x : Leaf) : Option String :=
  if x.2.tag = .sampleLeaf then standing orchard before else approached x.2

/-- The approaches and the samples of a plan, in order, each with its tree. -/
def visits (orchard : Option Orchard) : List Leaf → List Leaf → List (Leaf × String)
  | _,[] => []
  | before,x::rest =>
    ((visited orchard before x).map (fun tree => (x,tree))).toList ++ visits orchard (before ++ [x]) rest

def visitsIn (root : Element) (orchard : Option Orchard) : List (Leaf × String) := visits orchard [] (actionsIn root)

/-- Nothing but the finished trees was taken out of the plan. -/
structure Undisturbed (root pruned : Element) (completed : List String) (orchard : Option Orchard) : Prop where
  sound : violations pruned orchard = []
  finished : ∀ v ∈ visitsIn pruned orchard, v.1.2.tag = .sampleLeaf → v.2 ∉ completedIds completed
  pending : ((visitsIn root orchard).filter (fun v => v.2 ∉ completedIds completed)).Sublist (visitsIn pruned orchard)
  others : ∀ x ∈ actionsIn root, x.2.tag ≠ .moveToAisleHead →
    (∀ v ∈ visitsIn root orchard, v.1 = x → v.2 ∉ completedIds completed) → x ∈ actionsIn pruned

/-- A finished tree's sample is taken out, or the last action left that travels
before it approaches a tree that is not finished. -/
def Detached (root : Element) (completed : List String) (orchard : Option Orchard) : Prop :=
  ∀ early sample late, actionsIn root = early ++ sample :: late → sample.2.tag = .sampleLeaf →
    ∀ tree ∈ completedIds completed, bound (early.map Prod.snd) = some tree →
      Gone root completed orchard sample ∨
        ∃ move other, lastLeaf (early.filter (fun x => ¬Gone root completed orchard x)) = some move ∧
          approached move.2 = some other ∧ other ∉ completedIds completed

/-- The approach is in the plan, with nothing it expects missing before it. -/
def Entered (root : Element) (orchard : Option Orchard) (move : Leaf) : Prop :=
  ∃ before after, actionsIn root = before ++ move :: after ∧
    (advance (reach orchard {} (before.map Prod.snd)) move.2 orchard).1.unmet = []

/-- It is the aisle head that leaves the robot in the aisle the approach expects:
every move retracts where the robot was, so the head is the last to travel. -/
def EnteredBy (root : Element) (orchard : Option Orchard) (head move : Leaf) : Prop :=
  ∃ before after, actionsIn root = before ++ move :: after ∧ lastLeaf before = some head ∧
    head.2.tag = .moveToAisleHead ∧ (advance (reach orchard {} (before.map Prod.snd)) move.2 orchard).1.unmet = []

/-- The action drives into the tree's aisle, or into any where that is unknown. -/
def LeadsTo (orchard : Option Orchard) (tree : String) (a : Action) : Prop :=
  ∃ aisle, (a.tag = .moveToAisleHead ∧ a.text "id" = aisle ∨
      a.tag = .moveToTreeID ∧ aisleText orchard (a.text "id") = some aisle) ∧
    ∀ wanted, aisleText orchard tree = some wanted → aisle = wanted

/-- What is left in front of the approach still drives into its tree's aisle. -/
def OtherWayIn (root : Element) (completed : List String) (orchard : Option Orchard) (move : Leaf) : Prop :=
  ∃ before after other, actionsIn root = before ++ move :: after ∧
    lastLeaf (before.filter (fun x => ¬Gone root completed orchard x)) = some other ∧
      LeadsTo orchard (move.2.text "id") other.2

theorem standing_eq (orchard : Option Orchard) (before : List Leaf) :
    standing orchard before = bound (before.map Prod.snd) := reach_holding orchard _

theorem mem_visits (orchard : Option Orchard) (before rest : List Leaf) (x : Leaf) (tree : String) :
    (x,tree) ∈ visits orchard before rest ↔
      ∃ early late, rest = early ++ x :: late ∧ visited orchard (before ++ early) x = some tree := by
  induction rest generalizing before with
  | nil => simp [visits]
  | cons y rest ih =>
    rw [visits,List.mem_append,ih]
    constructor
    · rintro (here | ⟨early,late,rfl,seen⟩)
      · have seen : visited orchard before x = some tree ∧ x = y := by
          simp only [Option.mem_toList,Option.map_eq_some_iff,Prod.mk.injEq] at here
          obtain ⟨named,seen,rfl,rfl⟩ := here
          exact ⟨seen,rfl⟩
        obtain ⟨seen,rfl⟩ := seen
        exact ⟨[],rest,rfl,by simpa using seen⟩
      · exact ⟨y::early,late,rfl,by simpa using seen⟩
    · rintro ⟨early,late,cut,seen⟩
      cases early with
      | nil =>
        obtain ⟨rfl,-⟩ := List.cons.inj cut
        rw [List.append_nil] at seen
        exact .inl (by simp [seen])
      | cons z early =>
        obtain ⟨rfl,rfl⟩ := List.cons.inj cut
        exact .inr ⟨early,late,rfl,by simpa using seen⟩

theorem mem_visitsIn (root : Element) (orchard : Option Orchard) (x : Leaf) (tree : String) :
    (x,tree) ∈ visitsIn root orchard ↔
      ∃ early late, actionsIn root = early ++ x :: late ∧ visited orchard early x = some tree :=
  mem_visits orchard [] _ x tree

/-- A filter keeps the last travelling action that it does not drop. -/
theorem lastLeaf_filter (leaves : List Leaf) (keep : Leaf → Bool) (x : Leaf) (last : lastLeaf leaves = some x)
    (kept : keep x = true) : lastLeaf (leaves.filter keep) = some x := by
  rw [lastLeaf] at last ⊢
  obtain ⟨moving,after,before,split,still⟩ := List.find?_eq_some_iff_append.mp last
  rw [← List.filter_reverse,split,List.filter_append,List.filter_cons_of_pos kept]
  refine List.find?_eq_some_iff_append.mpr ⟨moving,_,_,rfl,fun y member => ?_⟩
  exact still y (List.mem_of_mem_filter member)

theorem filter_place (leaves : List Leaf) (keep : Leaf → Bool) (before after : List Leaf) (x : Leaf)
    (split : leaves.filter keep = before ++ x :: after) :
    ∃ early late, leaves = early ++ x :: late ∧ early.filter keep = before ∧ keep x = true := by
  obtain ⟨first,rest,rfl,rfl,tail⟩ := List.filter_eq_append_iff.mp split
  obtain ⟨mid,late,rfl,none_,kept,-⟩ := List.filter_eq_cons_iff.mp tail
  refine ⟨first ++ mid,late,by simp,?_,kept⟩
  rw [List.filter_append,List.filter_eq_nil_iff.mpr none_,List.append_nil]

section
variable (plan : Plan) (completed : List String) (orchard : Option Orchard)

/-- What is taken out was a finished tree's, or an aisle head. -/
theorem gone_visited (x : Leaf) (gone : Gone plan.root completed orchard x) (other : x.2.tag ≠ .moveToAisleHead) :
    ∃ tree ∈ completedIds completed, (x,tree) ∈ visitsIn plan.root orchard := by
  obtain ⟨o,member,finished,-,taken⟩ := gone.resolve_right (fun head => other head.1)
  obtain ⟨early,late,split,samples,last,near⟩ := (mem_objectives _ orchard o).mp member
  refine ⟨o.2.2,finished,(mem_visitsIn _ _ _ _).mpr ?_⟩
  obtain rfl | ⟨rfl,-⟩ := taken
  · have before : o.1 ∈ early := by simpa using List.mem_of_find?_eq_some last
    obtain ⟨first,rest,rfl⟩ := List.append_of_mem before
    refine ⟨first,rest ++ o.2.1 :: late,by simp [split],?_⟩
    have tag := (approached_eq o.1.2 o.2.2 near).1
    rw [visited,if_neg (by simp [tag]),near]
  · refine ⟨early,late,split,?_⟩
    rw [visited,if_pos samples,standing_eq]
    exact (bound_lastLeaf early o.2.2).mpr ⟨o.1,last,near⟩

theorem approach_kept (move : Leaf) (tree : String) (near : approached move.2 = some tree)
    (pending : tree ∉ completedIds completed) : ¬Gone plan.root completed orchard move := by
  intro gone
  have tag := (approached_eq move.2 tree near).1
  obtain ⟨named,finished,seen⟩ := gone_visited plan completed orchard move gone (by simp [tag])
  obtain ⟨early,late,-,seen⟩ := (mem_visitsIn _ _ _ _).mp seen
  rw [visited,if_neg (by simp [tag]),near] at seen
  injection seen with same
  exact pending (same ▸ finished)

/-- A visit still to be made is kept, with its tree. -/
theorem visit_kept (early late : List Leaf) (x : Leaf) (tree : String) (split : actionsIn plan.root = early ++ x :: late)
    (seen : visited orchard early x = some tree) (pending : tree ∉ completedIds completed) :
    ¬Gone plan.root completed orchard x ∧
      visited orchard (early.filter (fun y => ¬Gone plan.root completed orchard y)) x = some tree := by
  rw [visited] at seen ⊢
  by_cases samples : x.2.tag = .sampleLeaf
  · rw [if_pos samples,standing_eq] at seen ⊢
    constructor
    · intro gone
      obtain ⟨named,finished,member⟩ := gone_visited plan completed orchard x gone (by simp [samples])
      obtain ⟨early',late',split',seen'⟩ := (mem_visitsIn _ _ _ _).mp member
      obtain rfl := Tree.leaf_place plan.root plan.distinct early early' late late' x split split'
      rw [visited,if_pos samples,standing_eq,seen] at seen'
      injection seen' with same
      exact pending (same ▸ finished)
    · obtain ⟨move,last,near⟩ := (bound_lastLeaf early tree).mp seen
      have kept := approach_kept plan completed orchard move tree near pending
      exact (bound_lastLeaf _ tree).mpr ⟨move,lastLeaf_filter early _ move last (by simpa using kept),near⟩
  · rw [if_neg samples] at seen ⊢
    exact ⟨approach_kept plan completed orchard x tree seen pending,seen⟩

theorem visits_kept (before rest : List Leaf) (split : actionsIn plan.root = before ++ rest) :
    ((visits orchard before rest).filter (fun v => v.2 ∉ completedIds completed)).Sublist
      (visits orchard (before.filter (fun y => ¬Gone plan.root completed orchard y))
        (rest.filter (fun y => ¬Gone plan.root completed orchard y))) := by
  induction rest generalizing before with
  | nil => exact .refl _
  | cons x rest ih =>
    have later := ih (before ++ [x]) (by simp [split])
    rw [visits,List.filter_append]
    by_cases gone : Gone plan.root completed orchard x
    · have nothing : (((visited orchard before x).map (fun tree => (x,tree))).toList.filter
          (fun v => v.2 ∉ completedIds completed)) = [] := by
        refine List.filter_eq_nil_iff.mpr fun v member => ?_
        obtain ⟨tree,seen,rfl⟩ := by simpa using member
        by_contra pending
        exact (visit_kept plan completed orchard before rest x tree split seen (by simpa using pending)).1 gone
      have skip : (before ++ [x]).filter (fun y => decide ¬Gone plan.root completed orchard y) =
          before.filter (fun y => ¬Gone plan.root completed orchard y) := by simp [gone]
      rw [nothing,List.nil_append,List.filter_cons_of_neg (by simpa using gone),← skip]
      exact later
    · have through : (before ++ [x]).filter (fun y => decide ¬Gone plan.root completed orchard y) =
          before.filter (fun y => ¬Gone plan.root completed orchard y) ++ [x] := by simp [gone]
      rw [List.filter_cons_of_pos (by simpa using gone),visits,← through]
      refine List.Sublist.append ?_ later
      cases seen : visited orchard before x with
      | none => simp
      | some tree =>
        by_cases pending : tree ∉ completedIds completed
        · rw [(visit_kept plan completed orchard before rest x tree split seen pending).2]
          exact List.filter_sublist
        · simp [pending]

theorem undisturbed_idle (none_ : completedIds completed = []) (sound : violations plan.root orchard = []) :
    Undisturbed plan.root plan.root completed orchard where
  sound := sound
  finished := by simp [none_]
  pending := List.filter_sublist
  others := fun _ member _ _ => member

/-- A sample that is left lands on a tree that is not finished. -/
theorem detached_lands (grounded : Grounded ((actionsIn plan.root).map Prod.snd))
    (detached : Detached plan.root completed orchard) (early late : List Leaf) (x : Leaf)
    (split : actionsIn plan.root = early ++ x :: late) (samples : x.2.tag = .sampleLeaf)
    (remains : ¬Gone plan.root completed orchard x) :
    ∃ tree, bound ((early.filter (fun y => ¬Gone plan.root completed orchard y)).map Prod.snd) = some tree ∧
      tree ∉ completedIds completed := by
  obtain ⟨-,lands⟩ := grounded (early.map Prod.snd) x.2 (late.map Prod.snd) (by simp [split])
  obtain ⟨tree,stood⟩ := Option.isSome_iff_exists.mp (lands samples)
  by_cases finished : tree ∈ completedIds completed
  · obtain ⟨move,other,last,near,pending⟩ :=
      (detached early x late split samples tree finished stood).resolve_left remains
    exact ⟨other,(bound_lastLeaf _ other).mpr ⟨move,last,near⟩,pending⟩
  · have seen : visited orchard early x = some tree := by rw [visited,if_pos samples,standing_eq,stood]
    have kept := (visit_kept plan completed orchard early late x tree split seen finished).2
    rw [visited,if_pos samples,standing_eq] at kept
    exact ⟨tree,kept,finished⟩

theorem undisturbed_detached (some_ : completedIds completed ≠ [])
    (kept : Undisturbed plan.root (pruneCompleted plan.root completed orchard) completed orchard) :
    Detached plan.root completed orchard := by
  intro early sample late split samples tree finished stood
  refine or_iff_not_imp_left.mpr fun remains => ?_
  have left : actionsIn (pruneCompleted plan.root completed orchard) =
      early.filter (fun x => ¬Gone plan.root completed orchard x) ++
        sample :: late.filter (fun x => ¬Gone plan.root completed orchard x) := by
    rw [pruneCompleted_actions plan completed orchard some_,split,List.filter_append,
      List.filter_cons_of_pos (by simpa using remains)]
  have still := (violations_nil _ _).mp kept.sound _ sample.2 _
    ((congrArg (List.map Prod.snd) left).trans (by rw [List.map_append,List.map_cons]))
  obtain ⟨other,stood⟩ := Option.isSome_iff_exists.mp (still.2 samples)
  obtain ⟨move,last,near⟩ := (bound_lastLeaf _ other).mp stood
  refine ⟨move,other,last,near,kept.finished (sample,other) ((mem_visitsIn _ _ _ _).mpr ⟨_,_,left,?_⟩) samples⟩
  rw [visited,if_pos samples,standing_eq,stood]

theorem detached_undisturbed (some_ : completedIds completed ≠ [])
    (grounded : Grounded ((actionsIn plan.root).map Prod.snd)) (detached : Detached plan.root completed orchard) :
    Undisturbed plan.root (pruneCompleted plan.root completed orchard) completed orchard := by
  have left := pruneCompleted_actions plan completed orchard some_
  constructor
  · refine (violations_nil _ _).mpr fun before a after listed => ?_
    rw [left] at listed
    obtain ⟨before',rest',cut,rfl,tail⟩ := List.map_eq_append_iff.mp listed
    obtain ⟨x,after',rfl,rfl,rfl⟩ := List.map_eq_cons_iff.mp tail
    obtain ⟨early,late,split,rfl,kept⟩ := filter_place _ _ _ _ _ cut
    refine ⟨(grounded (early.map Prod.snd) x.2 (late.map Prod.snd) (by simp [split])).1,fun samples => ?_⟩
    obtain ⟨tree,stood,-⟩ :=
      detached_lands plan completed orchard grounded detached early late x split samples (by simpa using kept)
    rw [stood]
    rfl
  · rintro ⟨x,tree⟩ member samples
    obtain ⟨before,after,cut,seen⟩ := (mem_visitsIn _ _ _ _).mp member
    rw [left] at cut
    obtain ⟨early,late,split,rfl,kept⟩ := filter_place _ _ _ _ _ cut
    obtain ⟨tree',stood,pending⟩ :=
      detached_lands plan completed orchard grounded detached early late x split samples (by simpa using kept)
    rw [visited,if_pos samples,standing_eq,stood] at seen
    injection seen with same
    exact same ▸ pending
  · have kept := visits_kept plan completed orchard [] (actionsIn plan.root) rfl
    rw [← left] at kept
    exact kept
  · intro x member other pending
    rw [left]
    refine List.mem_filter.mpr ⟨member,?_⟩
    rw [decide_eq_true_iff]
    intro gone
    obtain ⟨tree,finished,seen⟩ := gone_visited plan completed orchard x gone other
    exact pending (x,tree) seen rfl finished

/-- Pruning disturbs nothing that is still to be done exactly where no finished
tree's sample is left behind without a tree of its own. -/
theorem pruning_undisturbed (sound : violations plan.root orchard = []) :
    Undisturbed plan.root (pruneCompleted plan.root completed orchard) completed orchard ↔
      Detached plan.root completed orchard := by
  by_cases none_ : completedIds completed = []
  · rw [pruneCompleted_idle plan completed orchard none_]
    refine iff_of_true (undisturbed_idle plan completed orchard none_ sound) ?_
    simp [Detached,none_]
  · exact ⟨undisturbed_detached plan completed orchard none_,
      detached_undisturbed plan completed orchard none_ ((violations_nil _ _).mp sound)⟩

theorem toString_ne (n : Int) : toString n ≠ "" := by
  cases n with
  | ofNat m => exact Nat.repr_ne_empty
  | negSucc m =>
    intro none_
    have shown : "-" ++ Nat.repr (m+1) = "" := none_
    simpa using congrArg String.toList shown

theorem aisleText_ne (tree : String) : aisleText orchard tree ≠ some "" := by
  intro none_
  obtain ⟨aisle,-,shown⟩ := Option.map_eq_some_iff.mp none_
  exact toString_ne aisle shown

theorem places_inAisle (a : Action) (moving : travels a = true) (aisle : String) :
    (⟨.inAisle,aisle⟩ : Fact) ∈ places orchard a ↔
      a.tag = .moveToAisleHead ∧ a.text "id" = aisle ∨
        a.tag = .moveToTreeID ∧ aisleText orchard (a.text "id") = some aisle := by
  cases tag : a.tag with
  | moveToTreeID =>
    have named : a.text "id" ≠ "" := by simpa [travels,tag] using moving
    simp only [places,table,tag,moveToTree,if_neg named]
    cases near : a.approach <;> simp
  | moveToAisleHead =>
    have named : a.text "id" ≠ "" := by simpa [travels,tag] using moving
    simp [places,table,tag,moveToAisleHead,named,eq_comm]
  | moveToGPSLocation =>
    simp only [places,table,tag,gps]
    split <;> simp
  | approachGPSWaypoint =>
    simp only [places,table,tag,gps]
    split <;> simp
  | followPerson => simp [places,table,tag]
  | moveToRelativeLocation => simp [travels,tag] at moving
  | orientRobotHeading => simp [travels,tag] at moving
  | sampleLeaf => simp [travels,tag] at moving
  | moveArmToPosition => simp [travels,tag] at moving

/-- The aisle a tree expects: its own, or any where that is unknown. -/
theorem wanted_iff (tree aisle : String) :
    ((aisleText orchard tree).getD "" = "" ∨ aisle = (aisleText orchard tree).getD "") ↔
      ∀ wanted, aisleText orchard tree = some wanted → aisle = wanted := by
  cases known : aisleText orchard tree with
  | none => simp
  | some wanted =>
    have named : wanted ≠ "" := fun none_ => aisleText_ne orchard tree (none_ ▸ known)
    simp [named]

/-- An approach finds the aisle it expects where the last action that travels led to it. -/
theorem unmet_nil (before : List Leaf) (move : Leaf) (tree : String) (near : approached move.2 = some tree) :
    (advance (reach orchard {} (before.map Prod.snd)) move.2 orchard).1.unmet = [] ↔
      ∃ other, lastLeaf before = some other ∧ LeadsTo orchard tree other.2 := by
  obtain ⟨tag,rfl,named,-⟩ := approached_eq move.2 tree near
  have row (s : State) : (table move.2 orchard s).needs =
      [⟨.inAisle,.expected,(aisleText orchard (move.2.text "id")).getD ""⟩] := by
    simp only [table,tag,moveToTree,if_neg named]
  have met : (advance (reach orchard {} (before.map Prod.snd)) move.2 orchard).1.unmet = [] ↔
      ∃ aisle, (⟨.inAisle,aisle⟩ : Fact) ∈ (reach orchard {} (before.map Prod.snd)).facts ∧
        ∀ wanted, aisleText orchard (move.2.text "id") = some wanted → aisle = wanted := by
    simp only [advance,row,List.filter_eq_nil_iff,List.forall_mem_singleton,State.meets,← wanted_iff]
    simp only [Bool.not_eq_true',Bool.not_eq_false,List.any_eq_true]
    constructor
    · rintro ⟨⟨kind,aisle⟩,member,agrees⟩
      simp only [Need.metBy,Bool.and_eq_true,Bool.or_eq_true,decide_eq_true_eq] at agrees
      obtain ⟨rfl,agrees⟩ := agrees
      exact ⟨aisle,member,agrees⟩
    · rintro ⟨aisle,member,agrees⟩
      refine ⟨_,member,?_⟩
      simpa only [Need.metBy,Bool.and_eq_true,Bool.or_eq_true,decide_eq_true_eq,true_and] using agrees
  rw [met]
  have place (aisle : String) := reach_where orchard {} (before.map Prod.snd) ⟨.inAisle,aisle⟩
    (by simp [travelKinds])
  simp only [place,← lastLeaf_map]
  cases found : lastLeaf before with
  | none => simp
  | some other =>
    have moving : travels other.2 = true := by
      rw [lastLeaf] at found
      simpa using List.find?_some found
    simp only [Option.map_some,places_inAisle orchard other.2 moving,LeadsTo,Option.some.injEq,exists_eq_left']

theorem entered_pruned (some_ : completedIds completed ≠ []) (before after : List Leaf) (move : Leaf) (tree : String)
    (split : actionsIn plan.root = before ++ move :: after) (near : approached move.2 = some tree)
    (pending : tree ∉ completedIds completed) :
    Entered (pruneCompleted plan.root completed orchard) orchard move ↔
      OtherWayIn plan.root completed orchard move := by
  obtain ⟨-,named,-⟩ := approached_eq move.2 tree near
  have stays := approach_kept plan completed orchard move tree near pending
  have left := pruneCompleted_actions plan completed orchard some_
  constructor
  · rintro ⟨first,rest,cut,found⟩
    rw [left] at cut
    obtain ⟨early,late,split',rfl,-⟩ := filter_place _ _ _ _ _ cut
    obtain ⟨other,last,leads⟩ := (unmet_nil orchard _ move tree near).mp found
    exact ⟨early,late,other,split',last,named ▸ leads⟩
  · rintro ⟨early,late,other,split',last,leads⟩
    obtain rfl := Tree.leaf_place plan.root plan.distinct before early after late move split split'
    rw [split,List.filter_append,List.filter_cons_of_pos (by simpa using stays)] at left
    exact ⟨_,_,left,(unmet_nil orchard _ move tree near).mpr ⟨other,last,named ▸ leads⟩⟩

theorem head_kept (head : Leaf) (tag : head.2.tag = .moveToAisleHead)
    (needed : StillNeeded plan.root completed orchard (head.2.text "id")) : ¬Gone plan.root completed orchard head := by
  rintro (⟨o,member,-,-,taken⟩ | ⟨-,unneeded⟩)
  · obtain ⟨early,late,-,samples,-,near⟩ := (mem_objectives _ orchard o).mp member
    obtain rfl | ⟨rfl,-⟩ := taken
    · simp [(approached_eq o.1.2 o.2.2 near).1] at tag
    · simp [samples] at tag
  · exact unneeded needed

/-- The way in is kept exactly where the head's aisle is that of a sampled tree
still to come, or something else that is left drives into it. -/
theorem way_in_kept (head move : Leaf) (tree : String) (near : approached move.2 = some tree)
    (pending : tree ∉ completedIds completed) (entered : EnteredBy plan.root orchard head move) :
    Entered (pruneCompleted plan.root completed orchard) orchard move ↔
      completedIds completed = [] ∨ StillNeeded plan.root completed orchard (head.2.text "id") ∨
        OtherWayIn plan.root completed orchard move := by
  obtain ⟨before,after,split,last,tag,met⟩ := entered
  by_cases none_ : completedIds completed = []
  · rw [pruneCompleted_idle plan completed orchard none_]
    exact iff_of_true ⟨before,after,split,met⟩ (.inl none_)
  rw [entered_pruned plan completed orchard none_ before after move tree split near pending]
  refine ⟨fun way => .inr (.inr way),?_⟩
  rintro (idle | needed | way)
  · exact absurd idle none_
  · have kept := head_kept plan completed orchard head tag needed
    obtain ⟨other,last',leads⟩ := (unmet_nil orchard before move tree near).mp met
    obtain rfl : head = other := Option.some.inj (last.symm.trans last')
    refine ⟨before,after,head,split,lastLeaf_filter before _ head last (by simpa using kept),?_⟩
    obtain ⟨-,named,-⟩ := approached_eq move.2 tree near
    rw [named]
    exact leads
  · exact way

end

def retry : Control := ⟨.retryUntilSuccessful,[("num_attempts","3")]⟩
def enter (aisle : String) : Action := ⟨.moveToAisleHead,[("id",aisle)]⟩
def visit (tree : String) : Action := ⟨.moveToTreeID,[("id",tree),("approach_tree","true")]⟩
def sample (tree : String) : Action := ⟨.sampleLeaf,[("name","sample_tree" ++ tree)]⟩

def aisleSix : Orchard := ⟨⟨[(55,6),(60,6)],by decide⟩⟩

/-- Each tree in a wrapper of its own. -/
def wrappedTrees : Plan where
  ref := 0
  control := ⟨.sequence,[]⟩
  children :=
    [.leaf 1 (enter "6"),.node 2 retry [.node 3 ⟨.sequence,[]⟩ [.leaf 4 (visit "55"),.leaf 5 (sample "55")]],
      .node 6 retry [.node 7 ⟨.sequence,[]⟩ [.leaf 8 (visit "60"),.leaf 9 (sample "60")]],.leaf 10 (enter "6")]
  distinct := by decide

theorem wrappedTrees_undisturbed :
    Undisturbed wrappedTrees.root (pruneCompleted wrappedTrees.root ["55"] (some aisleSix)) ["55"] (some aisleSix) ↔
      Detached wrappedTrees.root ["55"] (some aisleSix) :=
  pruning_undisturbed wrappedTrees ["55"] (some aisleSix) (by decide)

/-- The same actions side by side. -/
def bareTrees : Plan where
  ref := 0
  control := ⟨.sequence,[]⟩
  children :=
    [.leaf 1 (enter "6"),.leaf 2 (visit "55"),.leaf 3 (sample "55"),.leaf 4 (visit "60"),.leaf 5 (sample "60"),
      .leaf 6 (enter "6")]
  distinct := by decide

/-- Tree 55's sample is left with no tree in front of it. -/
theorem bareTrees_disturbed :
    ¬∀ (plan : Plan) (completed : List String) (orchard : Option Orchard), violations plan.root orchard = [] →
      Undisturbed plan.root (pruneCompleted plan.root completed orchard) completed orchard := by
  intro undisturbed
  have sound := (undisturbed bareTrees ["55"] (some aisleSix) (by decide)).sound
  exact absurd sound (by decide)

theorem wrappedTrees_entered :
    Entered (pruneCompleted wrappedTrees.root ["60"] (some aisleSix)) (some aisleSix) (4,visit "55") ↔
      completedIds ["60"] = [] ∨ StillNeeded wrappedTrees.root ["60"] (some aisleSix) "6" ∨
        OtherWayIn wrappedTrees.root ["60"] (some aisleSix) (4,visit "55") :=
  way_in_kept wrappedTrees ["60"] (some aisleSix) (1,enter "6") (4,visit "55") "55" (by decide) (by decide)
    ⟨[(1,enter "6")],_,rfl,rfl,rfl,by decide⟩

/-- Without a map no aisle is known, and tree 55 loses its way in. -/
theorem wrappedTrees_unentered :
    ¬∀ (plan : Plan) (completed : List String) (orchard : Option Orchard) (head move : Leaf) (tree : String),
      approached move.2 = some tree → tree ∉ completedIds completed → EnteredBy plan.root orchard head move →
        Entered (pruneCompleted plan.root completed orchard) orchard move := by
  intro kept
  obtain ⟨before,after,split,met⟩ := kept wrappedTrees ["60"] none (1,enter "6") (4,visit "55") "55" (by decide)
    (by decide) ⟨[(1,enter "6")],_,rfl,rfl,rfl,by decide⟩
  have left : actionsIn (pruneCompleted wrappedTrees.root ["60"] none) = [] ++ (4,visit "55") :: [(5,sample "55")] := by
    decide
  obtain rfl := Tree.leaf_place _ (by decide) _ _ _ _ _ left split
  exact absurd met (by decide)

end AmigaFleet.Mission
