import AmigaFleet.Mission.Coverage

/-! Which unit a failing leaf belongs to, and where looking for it fails: a control
node without actions is asked what it establishes, or a later unit shares the leaf. -/
namespace AmigaFleet.Mission
open Lib

section
variable (fix : String → String → Option Codec.Target)

/-- The element is no leaf that establishes the need. -/
def Silent (need : Need) : Element → Prop
  | .leaf _ a => (establishesOf a).any need.metBy = false
  | .node _ _ _ => False

/-- Some control node without actions is asked what it establishes: the work after
it needs something, and the leaves in between do not establish it. -/
inductive Stuck : Element → Prop
  | here (ref : Nat) (control : Control) (before between after : List Element) (barren worker : Element)
      (first : List Element) (found : List (List Element)) (need : Need)
      (mix : Mixed control (before ++ barren :: (between ++ worker :: after)))
      (branch : barren.isLeaf = false) (empty : actionsIn barren = []) (silent : ∀ e ∈ between, Silent need e)
      (working : worker.isLeaf = false) (cuts : (locatedUnder fix worker).cuts = first :: found)
      (needed : need ∈ needsOf first) :
      Stuck (.node ref control (before ++ barren :: (between ++ worker :: after)))
  | deeper (ref : Nat) (control : Control) (children : List Element) (c : Element) (opened : Opened control children)
      (member : c ∈ children) (stuck : Stuck c) : Stuck (.node ref control children)

theorem nearest_error (need : Need) (elements : List Element) :
    (∃ error, nearest need elements = .error error) ↔
      ∃ between barren rest, elements = between ++ barren :: rest ∧ (∀ e ∈ between, Silent need e) ∧
        barren.isLeaf = false := by
  induction elements with
  | nil => simp [nearest]
  | cons e rest ih =>
    cases e with
    | node r control children =>
      refine iff_of_true ⟨_,rfl⟩ ⟨[],.node r control children,rest,rfl,by simp,rfl⟩
    | leaf r a =>
      rw [nearest]
      cases met : (establishesOf a).any need.metBy with
      | true =>
        refine iff_of_false (by simp) ?_
        rintro ⟨between,barren,rest,split,silent,branch⟩
        cases between with
        | nil =>
          obtain ⟨rfl,-⟩ := List.cons.inj split
          cases branch
        | cons f between =>
          obtain ⟨rfl,-⟩ := List.cons.inj split
          have quiet : (establishesOf a).any need.metBy = false := silent (.leaf r a) (by simp)
          simp [met] at quiet
      | false =>
        have through : (∃ error, (nearest need rest).map (fun depth => if depth = 0 then 0 else depth + 1) = .error error) ↔
            ∃ error, nearest need rest = .error error := by
          cases nearest need rest <;> simp [Except.map]
        simp only [Bool.false_eq_true,if_false]
        rw [through,ih]
        constructor
        · rintro ⟨between,barren,rest,rfl,silent,branch⟩
          exact ⟨.leaf r a::between,barren,rest,rfl,List.forall_mem_cons.mpr ⟨met,silent⟩,branch⟩
        · rintro ⟨between,barren,rest',split,silent,branch⟩
          cases between with
          | nil =>
            obtain ⟨rfl,-⟩ := List.cons.inj split
            cases branch
          | cons f between =>
            obtain ⟨rfl,rfl⟩ := List.cons.inj split
            exact ⟨between,barren,rest',rfl,fun e member => silent e (by simp [member]),branch⟩

theorem mapM_error {α β : Type} (f : α → Except String β) (items : List α) :
    (∃ error, items.mapM f = .error error) ↔ ∃ x ∈ items, ∃ error, f x = .error error := by
  induction items with
  | nil => simp [pure,Except.pure]
  | cons x rest ih =>
    rw [List.mapM_cons,List.exists_mem_cons_iff,← ih]
    cases f x with
    | error error => exact iff_of_true ⟨error,rfl⟩ (.inl ⟨error,rfl⟩)
    | ok value =>
      cases rest.mapM f <;> simp [bind,Except.bind,pure,Except.pure]

theorem claim_error (pending : List Element) (needs : List Need) :
    (∃ error, claim pending needs = .error error) ↔
      ∃ need ∈ needs, ∃ before barren between, pending = before ++ barren :: between ∧
        (∀ e ∈ between, Silent need e) ∧ barren.isLeaf = false := by
  have outer : (∃ error, claim pending needs = .error error) ↔
      ∃ error, needs.mapM (fun need => nearest need pending.reverse) = .error error := by
    rw [claim]
    cases needs.mapM (fun need => nearest need pending.reverse) <;> simp [Except.map]
  rw [outer,mapM_error]
  refine exists_congr fun need => and_congr_right fun _ => (nearest_error need pending.reverse).trans ?_
  constructor
  · rintro ⟨between,barren,rest,split,silent,branch⟩
    refine ⟨rest.reverse,barren,between.reverse,?_,fun e member => silent e (List.mem_reverse.mp member),branch⟩
    rw [← List.reverse_reverse pending,split]
    simp
  · rintro ⟨before,barren,between,rfl,silent,branch⟩
    exact ⟨between.reverse,barren,before.reverse,by simp,fun e member => silent e (List.mem_reverse.mp member),branch⟩

theorem chain_empty (readings : List Reading) (empty : ∀ r ∈ readings, r = {}) : Reading.chain readings = {} := by
  induction readings with
  | nil => rfl
  | cons r rest ih =>
    obtain ⟨rfl,others⟩ := List.forall_mem_cons.mp empty
    change Reading.andThen {} (Reading.chain rest) = {}
    rw [ih others]
    rfl

/-- A control node without actions has no units, and nothing in it is asked. -/
theorem barren_reading (t : Element) (empty : actionsIn t = []) : locatedUnder fix t = {} := by
  induction t using Tree.induct with
  | leaf r a => cases empty
  | node r control children ih =>
    rw [actionsIn_node,List.flatMap_eq_nil_iff] at empty
    have branch (c : Element) (member : c ∈ children) : c.isLeaf = false := by
      cases c with
      | leaf s a => cases empty _ member
      | node _ _ _ => rfl
    have below : ∀ reading ∈ children.map (locatedUnder fix), reading = {} := by
      intro reading listed
      obtain ⟨c,member,rfl⟩ := List.mem_map.mp listed
      exact ih c member (empty c member)
    have read := locatedUnder_read fix r control children
    generalize locatedUnder fix (.node r control children) = reading at read ⊢
    cases read with
    | branching within bare => exact chain_empty _ below
    | grouped flat undeclared several =>
      cases children with
      | nil => simp [splitByObjective,Groups.cut,Groups.cutFrom] at several
      | cons c rest => simp [branch c (by simp)] at flat
    | mixed mix =>
      obtain ⟨c,member,leaf⟩ := List.any_eq_true.mp mix.1
      simp [branch c member] at leaf
    | whole flat one =>
      have none_ : actionsOf children = [] := by simp [actionsOf,List.flatMap_eq_nil_iff.mpr empty]
      simp [wholeUnit,(taskOf_none fix r control children).mpr none_]
    | declared mix within named =>
      obtain ⟨c,member,leaf⟩ := List.any_eq_true.mp mix
      simp [branch c member] at leaf

/-- What is pending are the children since the last one with units, none of them with units. -/
structure Waiting (done : List Element) (s : Split) : Prop where
  recent : ∃ early, done = early ++ s.pending
  idle : ∀ c ∈ s.pending, c.isLeaf = false → (locatedUnder fix c).cuts = [] ∧ (locatedUnder fix c).error = none

theorem splitChild_waiting (done : List Element) (s after : Split) (c : Element) (waiting : Waiting fix done s)
    (step : splitChild s (withReading fix c) = .ok after) : Waiting fix (done ++ [c]) after := by
  obtain ⟨⟨early,recent⟩,idle⟩ := waiting
  unfold splitChild withReading at step
  split at step
  · rename_i leaf
    injection step with step
    subst step
    refine ⟨⟨early,by simp [recent]⟩,fun d member branch => ?_⟩
    obtain inside | same := List.mem_append.mp member
    · exact idle d inside branch
    · obtain rfl := List.mem_singleton.mp same
      simp only [leaf] at branch
      cases branch
  split at step
  · cases step
  rename_i calm
  split at step
  · rename_i none_
    injection step with step
    subst step
    refine ⟨⟨early,by simp [recent]⟩,fun d member branch => ?_⟩
    obtain inside | same := List.mem_append.mp member
    · exact idle d inside branch
    · obtain rfl := List.mem_singleton.mp same
      exact ⟨none_,calm⟩
  · rename_i first found cuts
    cases claimed : claim s.pending (needsOf first) with
    | error error => simp [claimed,Except.map] at step
    | ok parts =>
      simp only [claimed,Except.map,Except.ok.injEq] at step
      subst step
      exact ⟨⟨done ++ [c],by simp⟩,by simp⟩

/-- A child is refused where its own reading is, or where something pending is asked. -/
theorem splitChild_error (s : Split) (c : Element) :
    (∃ error, splitChild s (withReading fix c) = .error error) ↔
      c.isLeaf = false ∧ ((locatedUnder fix c).error ≠ none ∨ (locatedUnder fix c).error = none ∧
        ∃ first found, (locatedUnder fix c).cuts = first :: found ∧
          ∃ error, claim s.pending (needsOf first) = .error error) := by
  unfold splitChild withReading
  cases branch : c.isLeaf with
  | true => simp
  | false =>
    cases ended : (locatedUnder fix c).error with
    | some error => simp
    | none =>
      cases cuts : (locatedUnder fix c).cuts with
      | nil => simp
      | cons first found => cases asked : claim s.pending (needsOf first) <;> simp [asked,Except.map]

theorem foldlM_error (children done : List Element) (s : Split) (waiting : Waiting fix done s)
    (stops : ∃ error, (children.map (withReading fix)).foldlM splitChild s = .error error) :
    ∃ early c late s', children = early ++ c :: late ∧ Waiting fix (done ++ early) s' ∧
      ∃ error, splitChild s' (withReading fix c) = .error error := by
  induction children generalizing done s with
  | nil =>
    obtain ⟨error,stops⟩ := stops
    cases stops
  | cons c rest ih =>
    rw [List.map_cons,List.foldlM_cons] at stops
    cases step : splitChild s (withReading fix c) with
    | error error => exact ⟨[],c,rest,s,rfl,by simpa using waiting,error,step⟩
    | ok middle =>
      rw [step] at stops
      obtain ⟨early,d,late,s',rfl,waiting',refused⟩ :=
        ih (done ++ [c]) middle (splitChild_waiting fix done s middle c waiting step) stops
      exact ⟨c::early,d,late,s',rfl,by simpa using waiting',refused⟩

theorem silent_leaf (need : Need) (e : Element) (silent : Silent need e) : e.isLeaf = true := by
  cases e with
  | leaf _ _ => rfl
  | node _ _ _ => cases silent

theorem foldlM_leaves (leaves : List Element) (flat : ∀ e ∈ leaves, e.isLeaf = true) (s : Split) :
    (leaves.map (withReading fix)).foldlM splitChild s = .ok { s with pending := s.pending ++ leaves } := by
  induction leaves generalizing s with
  | nil => simp [pure,Except.pure]
  | cons e rest ih =>
    obtain ⟨leaf,others⟩ := List.forall_mem_cons.mp flat
    have step : splitChild s (withReading fix e) = .ok { s with pending := s.pending ++ [e] } := if_pos leaf
    rw [List.map_cons,List.foldlM_cons,step]
    refine (ih others _).trans ?_
    simp

/-- Asking a control node without actions is refused. -/
theorem asked_refused (before between after : List Element) (barren worker : Element) (first : List Element)
    (found : List (List Element)) (need : Need) (branch : barren.isLeaf = false) (empty : actionsIn barren = [])
    (silent : ∀ e ∈ between, Silent need e) (working : worker.isLeaf = false)
    (cuts : (locatedUnder fix worker).cuts = first :: found) (needed : need ∈ needsOf first)
    (units : List (List Element)) :
    splitUnits ((before ++ barren :: (between ++ worker :: after)).map (withReading fix)) ≠ .ok units := by
  intro split
  unfold splitUnits at split
  cases steps : ((before ++ barren :: (between ++ worker :: after)).map (withReading fix)).foldlM splitChild {} with
  | error error =>
    rw [steps] at split
    cases split
  | ok s =>
    rw [List.map_append,List.foldlM_append] at steps
    cases front : (before.map (withReading fix)).foldlM splitChild {} with
    | error error =>
      rw [front] at steps
      cases steps
    | ok middle =>
      rw [front] at steps
      have idle : splitChild middle (withReading fix barren) =
          .ok { middle with pending := middle.pending ++ [barren] } := by
        simp [splitChild,withReading,branch,barren_reading fix barren empty,Reading.cuts]
      have quiet := foldlM_leaves fix between (fun e member => silent_leaf need e (silent e member))
        { middle with pending := middle.pending ++ [barren] }
      have refused : ∃ error, splitChild { middle with pending := middle.pending ++ [barren] ++ between }
          (withReading fix worker) = .error error := by
        refine (splitChild_error fix _ worker).mpr ⟨working,?_⟩
        by_cases calm : (locatedUnder fix worker).error = none
        · refine .inr ⟨calm,first,found,cuts,(claim_error _ _).mpr ⟨need,needed,middle.pending,barren,between,?_,silent,branch⟩⟩
          simp
        · exact .inl calm
      obtain ⟨error,refused⟩ := refused
      have steps : (splitChild middle (withReading fix barren) >>= fun s =>
          ((between ++ worker :: after).map (withReading fix)).foldlM splitChild s) = .ok s := steps
      rw [idle] at steps
      have steps : ((between ++ worker :: after).map (withReading fix)).foldlM splitChild
        { middle with pending := middle.pending ++ [barren] } = .ok s := steps
      rw [List.map_append,List.foldlM_append,quiet] at steps
      have steps : (splitChild { middle with pending := middle.pending ++ [barren] ++ between } (withReading fix worker) >>=
        fun s => (after.map (withReading fix)).foldlM splitChild s) = .ok s := steps
      rw [refused] at steps
      cases steps

/-- Reading fails exactly where some control node without actions is asked. -/
theorem error_iff (t : Element) : (locatedUnder fix t).error ≠ none ↔ Stuck fix t := by
  induction t using Tree.induct with
  | leaf r a => exact iff_of_false (by simp) (fun stuck => nomatch stuck)
  | node r control children ih =>
    constructor
    · intro failed
      have read := locatedUnder_read fix r control children
      generalize locatedUnder fix (.node r control children) = reading at failed read
      cases read with
      | branching within bare =>
        rw [ne_eq,chain_error,not_forall] at failed
        obtain ⟨reading,failed⟩ := failed
        obtain ⟨listed,failed⟩ := Classical.not_imp.mp failed
        obtain ⟨c,member,rfl⟩ := List.mem_map.mp listed
        exact .deeper r control children c ⟨within,.inl bare⟩ member ((ih c member).mp failed)
      | grouped flat undeclared several => exact absurd rfl failed
      | mixed mix =>
        have opened := mixed_opened control children mix
        have refused : ∃ error, (children.map (withReading fix)).foldlM splitChild {} = .error error := by
          unfold splitByPrerequisite splitUnits at failed
          cases steps : (children.map (withReading fix)).foldlM splitChild {} with
          | error error => exact ⟨error,rfl⟩
          | ok s => exact absurd (by rw [steps]; rfl) failed
        obtain ⟨early,worker,after,s,rfl,waiting,error,refused⟩ :=
          foldlM_error fix children [] {} ⟨⟨[],rfl⟩,by simp⟩ refused
        obtain ⟨working,failed | ⟨-,first,found,cuts,error,asked⟩⟩ := (splitChild_error fix s worker).mp ⟨error,refused⟩
        · exact .deeper r control _ worker opened (by simp) ((ih worker (by simp)).mp failed)
        · obtain ⟨need,needed,before,barren,between,pending,silent,branch⟩ := (claim_error _ _).mp ⟨error,asked⟩
          obtain ⟨before',recent⟩ := waiting.recent
          have idle := waiting.idle barren (by simp [pending]) branch
          have empty : actionsIn barren = [] := by
            refine List.eq_nil_iff_forall_not_mem.mpr fun x held => ?_
            have some_ := located_some fix barren branch idle.2 x held
            exact some_ (List.map_eq_nil_iff.mp idle.1)
          have whole : early ++ worker :: after = (before' ++ before) ++ barren :: (between ++ worker :: after) := by
            rw [show early = before' ++ s.pending from recent,pending]
            simp
          rw [whole] at mix ⊢
          exact .here r control _ between after barren worker first found need mix branch empty silent working cuts needed
      | whole flat one => exact absurd rfl failed
      | declared mix within named => exact absurd rfl failed
    · intro stuck
      cases stuck with
      | here _ _ before between after barren worker first found need mix branch empty silent working cuts needed =>
        rw [locatedUnder_mixed fix r control _ mix]
        intro clean
        obtain ⟨⟨all,split,-⟩,-⟩ := mixed_units fix r control _ clean
        exact asked_refused fix before between after barren worker first found need branch empty silent working cuts
          needed all split
      | deeper _ _ _ c opened member stuck =>
        have failed := (ih c member).mpr stuck
        have branch : c.isLeaf = false := by cases stuck <;> rfl
        intro clean
        have read := locatedUnder_read fix r control children
        generalize locatedUnder fix (.node r control children) = reading at clean read
        cases read with
        | branching within bare => exact failed ((chain_error _).mp clean _ (List.mem_map_of_mem member))
        | grouped flat undeclared several => simp [List.all_eq_true.mp flat c member] at branch
        | mixed mix => exact failed ((mixed_units fix r control children clean).2 c member branch)
        | whole flat one => simp [List.all_eq_true.mp flat c member] at branch
        | declared mix within named =>
          obtain bare | undeclared := opened.2
          · rw [← List.not_any_eq_all_not] at bare
            simp [mix] at bare
          · exact named undeclared

theorem groupUnits_elements (ref : Nat) (control : Control) (children : List Element) (u : Located)
    (member : u ∈ groupUnits fix ref control (splitByObjective fix children)) (e : Element) (inside : e ∈ u.elements) :
    e ∈ children := by
  obtain ⟨group,-⟩ := groupUnits_mem fix ref control _ u member
  have listed := List.mem_flatten.mpr ⟨u.elements,group,inside⟩
  rw [splitByObjective,Groups.cut_flatten] at listed
  exact listed

/-- What is cut out are elements of the mission. -/
theorem elements_iter (t : Element) (u : Located) (member : u ∈ (locatedUnder fix t).units) (e : Element)
    (inside : e ∈ u.elements) : e ∈ t.iter := by
  induction t using Tree.induct generalizing u with
  | leaf r a => simp at member
  | node r control children ih =>
    have whole (member : u ∈ wholeUnit fix r control children) : e ∈ (.node r control children : Element).iter := by
      rw [(wholeUnit_mem fix r control children u member).1] at inside
      rw [List.mem_singleton.mp inside]
      exact Tree.self_mem_iter _
    have below (c : Element) (listed : c ∈ children) (deep : e ∈ c.iter) : e ∈ (.node r control children : Element).iter := by
      rw [Tree.iter_node]
      exact List.mem_cons_of_mem _ (List.mem_flatMap.mpr ⟨c,listed,deep⟩)
    have read := locatedUnder_read fix r control children
    generalize locatedUnder fix (.node r control children) = reading at member read
    cases read with
    | branching within bare =>
      obtain ⟨reading,listed,member⟩ := mem_chain _ u member
      obtain ⟨c,among,rfl⟩ := List.mem_map.mp listed
      exact below c among (ih c among u member inside)
    | grouped flat undeclared several =>
      exact below e (groupUnits_elements fix r control children u member e inside) (Tree.self_mem_iter e)
    | mixed mix =>
      cases split : splitUnits (children.map (withReading fix)) with
      | error error => simp [splitByPrerequisite,split] at member
      | ok all =>
        rw [splitByPrerequisite,split] at member
        obtain ⟨before,elements,after,place,left⟩ := (mem_leaveShared _ u).mp member
        have listed : elements ∈ (builtUnits fix r control all).map Prod.snd := by rw [builtUnits,place]; simp
        rw [builtUnits_snd] at listed
        rw [left] at inside
        have piece := List.mem_flatten.mpr ⟨elements,List.mem_of_mem_filter listed,List.mem_of_mem_filter inside⟩
        rw [splitUnits_children fix children all split] at piece
        obtain ⟨c,among,piece⟩ := List.mem_flatMap.mp piece
        unfold pieces at piece
        split at piece
        · obtain rfl := List.mem_singleton.mp piece
          exact below e among (Tree.self_mem_iter e)
        · obtain ⟨cut,listed,deep⟩ := List.mem_flatten.mp piece
          obtain ⟨v,member,rfl⟩ := List.mem_map.mp listed
          exact below c among (ih c among v member deep)
    | whole flat one => exact whole member
    | declared mix within named => exact whole member

theorem located_single (t : Element) : located fix [t] = locatedUnder fix t := by
  change Reading.andThen (locatedUnder fix t) {} = _
  obtain ⟨units,error⟩ := locatedUnder fix t
  cases error <;> simp [Reading.andThen]

/-- A leaf is found with its unit: one of the mission's, whose subtree holds it. -/
def Resolved (plan : Plan) (nodeName : String) (x : Leaf) : Prop :=
  ∃ task tasks xml, taskForNode fix [plan.root] nodeName = .ok (some task) ∧ tasksIn fix [plan.root] = .ok tasks ∧
    task ∈ tasks ∧ task.xml = some xml ∧ x ∈ actionsIn xml

theorem around_iff (plan : Plan) (u : Located) (member : u ∈ (locatedUnder fix plan.root).units) (x : Leaf)
    (held : x ∈ actionsIn plan.root) : u.elements.any (fun element => x.1 ∈ element.refs) = true ↔ x ∈ u.cut := by
  simp only [List.any_eq_true,decide_eq_true_eq,Located.cut,List.mem_flatMap]
  refine exists_congr fun e => and_congr_right fun inside => ?_
  have within := elements_iter fix plan.root u member e inside
  exact ⟨Tree.leaf_of_ref plan.root e plan.distinct within x held,Tree.leaf_mem_refs e x⟩

end

/-- A plan without coordinates asks nothing of the globe. -/
def noFix : String → String → Option Codec.Target := fun _ _ => none

def intoAisle (aisle : String) : Action := ⟨.moveToAisleHead,[("name","into_" ++ aisle),("id",aisle)]⟩
def visitTree (tree : String) : Action := ⟨.moveToTreeID,[("name","v" ++ tree),("id",tree),("approach_tree","true")]⟩
def sampleTree (tree : String) : Action := ⟨.sampleLeaf,[("name","p" ++ tree)]⟩

def retried (ref : Nat) (tree : String) : Element :=
  .node ref ⟨.retryUntilSuccessful,[("name","r" ++ tree),("num_attempts","3")]⟩
    [.node (ref + 1) ⟨.sequence,[("name","s" ++ tree)]⟩
      [.leaf (ref + 2) (visitTree tree),.leaf (ref + 3) (sampleTree tree)]]

/-- One aisle head, and two trees in that aisle. -/
def sharedAisle : Plan where
  ref := 0
  control := ⟨.sequence,[]⟩
  children := [.leaf 1 (intoAisle "6"),retried 2 "60",retried 6 "61"]
  distinct := by decide

end AmigaFleet.Mission
