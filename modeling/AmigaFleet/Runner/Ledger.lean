import AmigaFleet.Runner.Runner
import AmigaFleet.Replanning.Planner

/-! What the mission planner makes of the topic that the runner publishes: the leaves it
writes down as finished, and the failures it opens a session for. -/
namespace AmigaFleet.Runner
open Lib AmigaFleet.Repair

/-- The planner, the leaves that succeeded, and the failures that opened a session. -/
structure Ledger where
  planner : Planner := {}
  succeededNodes : List String := []
  opened : List (List (String × Json)) := []

/-- `event.get("node")`, where it is a text. -/
def nodeIn (event : List (String × Json)) : Option String :=
  match event.lookup "node" with
  | some (.str name) => some name
  | _ => none

namespace Ledger

def onLeafSuccess (l : Ledger) (event : List (String × Json)) : Ledger :=
  match nodeIn event with
  | none => l
  | some name =>
    if name = "" ∨ name = "<tree>" then l
    else { l with
      succeededNodes := if name ∈ l.succeededNodes then l.succeededNodes else l.succeededNodes ++ [name]
      planner := l.planner.onLeafSuccess name }

section
variable (repr : Json → String)

def statusOf (event : List (String × Json)) : String :=
  Text.upper (Json.textOr repr "FAILURE" (event.lookup "status"))

/-- `_on_bt_failure`, up to the thread it starts. -/
def onBtFailure (l : Ledger) (event : List (String × Json)) : Ledger :=
  if l.planner.missionAborted then l
  else if statusOf repr event = "SUCCESS" then l.onLeafSuccess event
  else if statusOf repr event ≠ "FAILURE" then l
  else { l with opened := l.opened ++ [event] }

/-- The event tells that the leaf succeeded. -/
def Finishes (event : List (String × Json)) (name : String) : Prop :=
  statusOf repr event = "SUCCESS" ∧ nodeIn event = some name ∧ name ≠ "" ∧ name ≠ "<tree>"

/-- Of the same plan, and still running it. -/
structure Alike (a b : Planner) : Prop where
  xml : a.currentMissionXml = b.currentMissionXml
  orchard : a.orchard = b.orchard
  aborted : a.missionAborted = b.missionAborted

theorem Alike.refl (a : Planner) : Alike a a := ⟨rfl,rfl,rfl⟩

theorem Alike.sampledBy {a b : Planner} (alike : Alike a b) (name : String) : a.sampledBy name = b.sampledBy name := by
  rw [Planner.sampledBy,Planner.sampledBy,alike.xml,alike.orchard]

theorem onLeafSuccess_alike (p : Planner) (name : String) : Alike (p.onLeafSuccess name) p := by
  rw [Planner.onLeafSuccess]
  cases p.sampledBy name with
  | none => exact Alike.refl p
  | some tree => exact ⟨rfl,rfl,rfl⟩

theorem mem_completedTrees (p : Planner) (name tree : String) :
    tree ∈ (p.onLeafSuccess name).completedTrees ↔ tree ∈ p.completedTrees ∨ p.sampledBy name = some tree := by
  rw [Planner.onLeafSuccess]
  cases sampled : p.sampledBy name with
  | none => simp
  | some other =>
    by_cases known : other ∈ p.completedTrees
    · simp only [known,if_true,Option.some.injEq]
      refine ⟨.inl,?_⟩
      rintro (there | rfl)
      · exact there
      · exact known
    · simp [known,eq_comm]

/-- What one event adds. -/
structure Adds (before : Ledger) (event : List (String × Json)) (after : Ledger) : Prop where
  alike : Alike after.planner before.planner
  names : ∀ name, name ∈ after.succeededNodes ↔ name ∈ before.succeededNodes ∨ Finishes repr event name
  trees : ∀ tree, tree ∈ after.planner.completedTrees ↔ tree ∈ before.planner.completedTrees ∨
    ∃ name, Finishes repr event name ∧ before.planner.sampledBy name = some tree
  opened : after.opened = before.opened ++ if statusOf repr event = "FAILURE" then [event] else []

variable {repr}

theorem adds_nothing (l : Ledger) (event : List (String × Json)) (finishes : ∀ name, ¬Finishes repr event name)
    (fine : statusOf repr event ≠ "FAILURE") : Adds repr l event l where
  alike := Alike.refl _
  names := fun name => by simp [finishes]
  trees := fun tree => by simp [finishes]
  opened := by simp [fine]

theorem onLeafSuccess_adds (l : Ledger) (event : List (String × Json)) (succeeded : statusOf repr event = "SUCCESS") :
    Adds repr l event (l.onLeafSuccess event) := by
  have fine : statusOf repr event ≠ "FAILURE" := by rw [succeeded]; decide
  rw [onLeafSuccess]
  cases named : nodeIn event with
  | none => exact adds_nothing l event (fun name finishes => by simp [Finishes,named] at finishes) fine
  | some name =>
    by_cases whole : name = "" ∨ name = "<tree>"
    · simp only [if_pos whole]
      refine adds_nothing l event (fun other finishes => ?_) fine
      obtain ⟨_,same,nonempty,leaf⟩ := finishes
      rw [named] at same
      injection same with same
      exact whole.elim (same ▸ nonempty) (same ▸ leaf)
    · have finishes (other : String) : Finishes repr event other ↔ other = name := by
        refine ⟨fun said => ?_,?_⟩
        · have same := said.2.1
          rw [named] at same
          injection same with same
          exact same.symm
        · rintro rfl
          exact ⟨succeeded,named,fun empty => whole (.inl empty),fun tree => whole (.inr tree)⟩
      simp only [if_neg whole]
      refine ⟨onLeafSuccess_alike _ _,?_,?_,by simp [fine]⟩
      · intro other
        rw [finishes]
        by_cases known : name ∈ l.succeededNodes
        · simp only [known,if_true]
          refine ⟨.inl,?_⟩
          rintro (there | rfl)
          · exact there
          · exact known
        · simp [known]
      · intro tree
        simp only [finishes,exists_eq_left]
        exact mem_completedTrees l.planner name tree

theorem onBtFailure_adds (l : Ledger) (live : l.planner.missionAborted = false) (event : List (String × Json)) :
    Adds repr l event (l.onBtFailure repr event) := by
  rw [onBtFailure,live,if_neg Bool.false_ne_true]
  by_cases succeeded : statusOf repr event = "SUCCESS"
  · rw [if_pos succeeded]
    exact onLeafSuccess_adds l event succeeded
  · rw [if_neg succeeded]
    have finishes (name : String) : ¬Finishes repr event name := fun said => succeeded said.1
    by_cases failed : statusOf repr event = "FAILURE"
    · rw [if_neg (not_not.mpr failed)]
      exact ⟨Alike.refl _,fun name => by simp [finishes],fun tree => by simp [finishes],by simp [failed]⟩
    · rw [if_pos failed]
      exact adds_nothing l event finishes failed

variable (repr) in
/-- What a topic's events add, one after another. -/
structure Sums (before : Ledger) (events : List (List (String × Json))) (after : Ledger) : Prop where
  alike : Alike after.planner before.planner
  names : ∀ name, name ∈ after.succeededNodes ↔
    name ∈ before.succeededNodes ∨ ∃ event ∈ events, Finishes repr event name
  trees : ∀ tree, tree ∈ after.planner.completedTrees ↔ tree ∈ before.planner.completedTrees ∨
    ∃ event ∈ events, ∃ name, Finishes repr event name ∧ before.planner.sampledBy name = some tree
  opened : after.opened = before.opened ++ events.filter (fun event => statusOf repr event = "FAILURE")

theorem foldl_sums (events : List (List (String × Json))) (l : Ledger) (live : l.planner.missionAborted = false) :
    Sums repr l events (events.foldl (onBtFailure repr) l) := by
  induction events generalizing l with
  | nil => exact ⟨Alike.refl _,fun name => by simp,fun tree => by simp,by simp⟩
  | cons event rest ih =>
    have one : Adds repr l event _ := onBtFailure_adds l live event
    have later := ih (l.onBtFailure repr event) (one.alike.aborted.trans live)
    refine ⟨⟨?_,?_,?_⟩,?_,?_,?_⟩
    · exact later.alike.xml.trans one.alike.xml
    · exact later.alike.orchard.trans one.alike.orchard
    · exact later.alike.aborted.trans one.alike.aborted
    · intro name
      rw [List.foldl_cons,later.names,one.names]
      simp [or_assoc]
    · intro tree
      rw [List.foldl_cons,later.trees,one.trees]
      simp only [one.alike.sampledBy,List.exists_mem_cons_iff,or_assoc]
    · rw [List.foldl_cons,later.opened,one.opened,List.filter_cons]
      by_cases failed : statusOf repr event = "FAILURE" <;> simp [failed]

theorem statusOf_event (t : Transition) : statusOf repr t.event = t.status.name := by
  have status : t.event.lookup "status" = some (.str t.status.name) := rfl
  have named : t.status.name ≠ "" := by cases t.status <;> decide
  have upper : Text.upper t.status.name = t.status.name := by cases t.status <;> rfl
  have said : Json.truthy (.str t.status.name) = true := decide_eq_true named
  rw [statusOf,status,Json.textOr,Option.filter_some,if_pos said]
  exact upper

theorem finishes_event (t : Transition) (name : String) : Finishes repr t.event name ↔
    t.status = .success ∧ t.node.name = name ∧ name ≠ "" ∧ name ≠ "<tree>" := by
  have node : nodeIn t.event = some t.node.name := rfl
  have succeeded : t.status.name = "SUCCESS" ↔ t.status = .success := by cases t.status <;> decide
  rw [Finishes,statusOf_event,node,succeeded,Option.some.injEq]

theorem finishes_outcome (now : ℚ) (status : NodeStatus) (name : String) :
    ¬Finishes repr (treeOutcome now status) name := by
  rintro ⟨_,node,_,leaf⟩
  injection node with node
  exact leaf node.symm

end

section
variable {p : Params} {validate : String → Bool} {createTreeFromText : String → Option (List TreeNode)} {s : BtRunner}

theorem success_status (t : Transition) (notable : t.notable = true) : t.isSuccess = true ↔ t.status = .success := by
  simp only [Transition.notable,Transition.isFailure,Transition.isSuccess,Bool.or_eq_true,Bool.and_eq_true,
    decide_eq_true_eq] at notable ⊢
  refine ⟨And.right,fun succeeded => ?_⟩
  obtain ⟨_,failed⟩ | done := notable
  · rw [succeeded] at failed
    cases failed
  · exact done

/-- A leaf that failed, or an action that succeeded, was published so at some time of its run. -/
theorem told_of_change (unique : ∀ text tree, createTreeFromText text = some tree → (tree.map TreeNode.uid).Nodup)
    (kept : BtRunner.Kept p validate createTreeFromText s) (reporting : p.faultReporting = true) (run : Run)
    (member : run ∈ s.runs) (t : Transition) (changed : t ∈ run.changes) (notable : t.notable = true) :
    ∃ e ∈ run.told, e ∈ run.changes ∧ e.node = t.node ∧ e.notable = true ∧ e.isFailure = t.isFailure := by
  obtain ⟨r,_,faithful⟩ := kept.faithful reporting run member
  obtain ⟨e,told,same⟩ := Throttle.Kept.kinds faithful (List.mem_filter.mpr ⟨changed,notable⟩)
  obtain ⟨also,worth⟩ := List.mem_filter.mp (faithful.sublist.subset told)
  obtain ⟨loaded,inside⟩ := kept.sound run member
  have created : createTreeFromText run.text = some run.tree := by
    rw [BtRunner.load] at loaded
    split_ifs at loaded
    exact loaded
  injection same with failed uid
  exact ⟨e,told,also,List.inj_on_of_nodup_map (unique _ _ created) (inside e also) (inside t changed) uid,worth,failed⟩

/-- What the topic finishes, the runs' actions finished. -/
theorem finishes_topic (repr : Json → String)
    (unique : ∀ text tree, createTreeFromText text = some tree → (tree.map TreeNode.uid).Nodup)
    (kept : BtRunner.Kept p validate createTreeFromText s) (reporting : p.faultReporting = true) (name : String) :
    (∃ event ∈ s.topic, Finishes repr event name) ↔
      (∃ run ∈ s.runs, ∃ t ∈ run.changes, t.isSuccess = true ∧ t.node.name = name) ∧ name ≠ "" ∧ name ≠ "<tree>" := by
  rw [kept.topic,reporting,if_pos rfl]
  constructor
  · rintro ⟨event,published,finishes⟩
    obtain ⟨run,member,within⟩ := List.mem_flatMap.mp published
    obtain leaf | tree := List.mem_append.mp within
    · obtain ⟨t,told,rfl⟩ := List.mem_map.mp leaf
      obtain ⟨succeeded,same,nonempty,notTree⟩ := (finishes_event t name).mp finishes
      obtain ⟨r,_,faithful⟩ := kept.faithful reporting run member
      obtain ⟨changed,notable⟩ := List.mem_filter.mp (faithful.sublist.subset told)
      exact ⟨⟨run,member,t,changed,(success_status t notable).mpr succeeded,same⟩,nonempty,notTree⟩
    · obtain ⟨outcome,_,rfl⟩ := Option.map_eq_some_iff.mp (Option.mem_toList.mp tree)
      exact absurd finishes (finishes_outcome _ _ name)
  · rintro ⟨⟨run,member,t,changed,succeeded,rfl⟩,nonempty,notTree⟩
    have notable : t.notable = true := by rw [Transition.notable,succeeded,Bool.or_true]
    obtain ⟨e,told,_,node,worth,same⟩ := told_of_change unique kept reporting run member t changed notable
    have finished : e.status = .success := by
      refine (success_status e worth).mp ?_
      have fine : e.isFailure = false := by
        rw [same]
        cases failed : t.isFailure with
        | false => rfl
        | true => rw [t.not_both failed] at succeeded; cases succeeded
      rw [Transition.notable,fine,Bool.false_or] at worth
      exact worth
    refine ⟨e.event,List.mem_flatMap.mpr ⟨run,member,?_⟩,(finishes_event e _).mpr ⟨finished,?_,nonempty,notTree⟩⟩
    · exact List.mem_append_left _ (List.mem_map_of_mem told)
    · rw [node]

theorem sampledBy_leaf (planner : Planner) (name tree : String) (sampled : planner.sampledBy name = some tree) :
    name ≠ "" ∧ name ≠ "<tree>" := by
  rw [Planner.sampledBy] at sampled
  split at sampled
  · split_ifs at sampled with whole
    exact not_or.mp whole
  · cases sampled

/-- However the reports are throttled, the planner writes down exactly the actions that
succeeded and the trees they sampled, and opens a session for every leaf that failed. -/
theorem ledger_exact (repr : Json → String)
    (unique : ∀ text tree, createTreeFromText text = some tree → (tree.map TreeNode.uid).Nodup)
    (reached : (BtRunner.machine p validate createTreeFromText).Reachable s) (reporting : p.faultReporting = true)
    (l : Ledger) (live : l.planner.missionAborted = false) :
    (∀ name, name ∈ (s.topic.foldl (onBtFailure repr) l).succeededNodes ↔ name ∈ l.succeededNodes ∨
      (∃ run ∈ s.runs, ∃ t ∈ run.changes, t.isSuccess = true ∧ t.node.name = name) ∧ name ≠ "" ∧ name ≠ "<tree>") ∧
    (∀ tree, tree ∈ (s.topic.foldl (onBtFailure repr) l).planner.completedTrees ↔ tree ∈ l.planner.completedTrees ∨
      ∃ run ∈ s.runs, ∃ t ∈ run.changes, t.isSuccess = true ∧ l.planner.sampledBy t.node.name = some tree) ∧
    ∀ run ∈ s.runs, ∀ t ∈ run.changes, t.isFailure = true → ∃ e ∈ run.changes, e.node = t.node ∧ e.isFailure = true ∧
      e.event ∈ (s.topic.foldl (onBtFailure repr) l).opened := by
  have kept := BtRunner.machine_kept s reached
  have sums : Sums repr l s.topic _ := foldl_sums s.topic l live
  have finishes := finishes_topic repr unique kept reporting
  refine ⟨?_,?_,?_⟩
  · intro name
    rw [sums.names,finishes]
  · intro tree
    rw [sums.trees]
    refine or_congr_right ⟨?_,?_⟩
    · rintro ⟨event,published,name,done,sampled⟩
      obtain ⟨⟨run,member,t,changed,succeeded,rfl⟩,_⟩ := (finishes name).mp ⟨event,published,done⟩
      exact ⟨run,member,t,changed,succeeded,sampled⟩
    · rintro ⟨run,member,t,changed,succeeded,sampled⟩
      obtain ⟨event,published,done⟩ :=
        (finishes t.node.name).mpr ⟨⟨run,member,t,changed,succeeded,rfl⟩,sampledBy_leaf _ _ _ sampled⟩
      exact ⟨event,published,_,done,sampled⟩
  · intro run member t changed failed
    have notable : t.notable = true := by rw [Transition.notable,failed,Bool.true_or]
    obtain ⟨e,told,also,node,_,same⟩ := told_of_change unique kept reporting run member t changed notable
    have fails := same.trans failed
    refine ⟨e,also,node,fails,?_⟩
    have topic : e.event ∈ s.topic := by
      rw [kept.topic,reporting,if_pos rfl]
      exact List.mem_flatMap.mpr ⟨run,member,List.mem_append_left _ (List.mem_map_of_mem told)⟩
    have status : statusOf repr e.event = "FAILURE" := by
      rw [statusOf_event]
      simp only [Transition.isFailure,Bool.and_eq_true,decide_eq_true_eq] at fails
      rw [fails.2]
      rfl
    rw [sums.opened]
    exact List.mem_append_right _ (List.mem_filter.mpr ⟨topic,by simpa using status⟩)

end

theorem planted_unique (text : String) (tree : List TreeNode) (created : BtRunner.planted text = some tree) :
    (tree.map TreeNode.uid).Nodup := by
  rw [BtRunner.planted] at created
  split_ifs at created
  injection created with created
  rw [← created]
  decide

theorem ledger_exact_sampled : (BtRunner.sampled.topic.foldl (onBtFailure fun _ => "") {}).succeededNodes = ["sample_60"] ∧
    "sample_60" ∈ (BtRunner.sampled.topic.foldl (onBtFailure fun _ => "") {}).succeededNodes := by
  have exact_ := ledger_exact (fun _ => "") planted_unique BtRunner.sampled_reached rfl {} rfl
  refine ⟨by decide +kernel,(exact_.1 "sample_60").mpr (.inr ⟨?_,by decide,by decide⟩)⟩
  refine ⟨_,List.mem_singleton_self _,⟨2,BtRunner.sampler,.idle,.success⟩,?_,rfl,rfl⟩
  simp

end Ledger
end AmigaFleet.Runner
