import AmigaFleet.Replanning.Robot
import AmigaFleet.Replanning.Serial

/-! The books and the plan. Once nothing is in flight, the plan holds the unit of a task
exactly if the record says in the mission. -/
namespace AmigaFleet
open Lib Replanning Coordinator

/-- The handler has not yet committed or declined. -/
def Replanning.Stage.awaits : Stage → Bool
  | .publishing _ | .disarming _ _ | .withdrawing _ _ | .answered _ _ => false
  | _ => true

def Replanning.Stage.declined : Stage → Bool
  | .disarming verdict _ | .withdrawing verdict _ | .answered verdict _ => verdict ≠ .accepted
  | _ => false

/-- The block turns the request down. -/
def Replanning.Handler.declines (settings : Settings) (s : Arbiter) (h : Handler) : Bool :=
  match h.stage,h.request with
  | .editing active,some q =>
    match applyTaskEdit settings s.orchard q active with
    | .error _ => true
    | .ok _ => false
  | .acting verdict _,_ => verdict ≠ .accepted
  | _,_ => false

/-- The task ids of the plan. -/
def units (settings : Settings) : Option Xml → List Int
  | some (.plan d) => (Mission.located settings.fix d.tree).units.map (fun unit => (unit.task.taskId : Int))
  | _ => []

/-- The anomaly path takes the task out of our mission. -/
def Coordinator.Session.Sheds (cfg : Config) (world : World) (task : Task) (reason : String) (s : Session) : Prop :=
  match s.comesTo world (some task) ("replan rejected by verification: " ++ reason) Codec.ReasonCode.taskFailed .asked with
  | some (.dropTask other .drop _,_) => other.taskId = task.taskId
  | some (.reDelegate other reasonCode fallback note,t) =>
    other.taskId = task.taskId ∧ t.Leaves cfg world other reasonCode fallback note (world.clock s.log)
  | _ => False

instance (cfg : Config) (world : World) (task : Task) (reason : String) (s : Session) :
    Decidable (s.Sheds cfg world task reason) := by
  unfold Session.Sheds
  split <;> infer_instance

namespace Robot
variable (cfg : Config) (settings : Settings)

def active (r : Robot) : List Int := units settings r.arbiter.arbiter.activeMissionXml

/-- The books have had to do with the task. -/
def Known (r : Robot) (id : Int) : Prop := lastNews id r.session.log ≠ none

def Agrees (r : Robot) : Prop :=
  r.flying = [] → r.rejected = [] → ∀ id record, r.session.tasks.get? id = some record →
    (id ∈ r.active settings ↔ record.inMission = true) ∧ (record.state = .transferred → id ∉ r.active settings)

def awaits (r : Robot) (v : Verification) : Bool :=
  match v.served with
  | none => true
  | some i => r.arbiter.requests[i]?.any (fun h => h.stage.awaits)

/-- The verifications of the task that are yet to commit or to be declined, in the order dispatched. -/
def waiting (r : Robot) (id : Int) : List Verification :=
  r.flying.filter (fun v => decide (v.task.taskId = id) && r.awaits v)

/-- The plan would hold the same of the tasks that the books know. -/
def Unmoved (r : Robot) (xml : Xml) : Prop :=
  ∀ id ∈ units settings (some xml) ++ r.active settings, r.Known id →
    (id ∈ units settings (some xml) ↔ id ∈ r.active settings)

/-- The candidate does to the active plan what the request asks for, and no more. -/
def Fits (r : Robot) (q : Request) (candidate : Xml) : Prop :=
  (∀ id ∈ units settings (some candidate) ++ r.active settings, r.Known id → id ≠ q.taskId →
    (id ∈ units settings (some candidate) ↔ id ∈ r.active settings)) ∧
  ((q.taskId : Int) ∈ units settings (some candidate) ↔ q.removing = false)

/-- The newest verification of a task is not settled before an older one. -/
def InTurn (r : Robot) (i : Nat) (id : Int) : Prop :=
  (r.waiting id).getLast?.any (fun v => v.served = some i) = true → (r.waiting id).length = 1

/-- What the operation enters into the books is in the plan, and no verification of it is in flight. -/
def Entered (r : Robot) (world : World) (op : Op) : Prop :=
  ∀ task ∈ r.session.entering world op, task.taskId ∈ r.active settings ∧ ∀ v ∈ r.flying, v.task.taskId ≠ task.taskId

/-- A refused absorption that is handed back: the books do not keep it, or the plan has it,
or it is handed back once more, or the anomaly path lets go of it. -/
def LetGo (r : Robot) (k : Nat) (world : World) (reason : String) (task : Task) : Prop :=
  lastNews task.taskId r.session.log ≠ some true ∨ task.taskId ∈ r.active settings ∨
    task.taskId ∈ (r.rejected.eraseIdx k).map Task.taskId ∨ r.session.Sheds cfg world.dispatching task reason

def Orderly (r : Robot) : Robot.Event → Prop
  | .op label => r.Entered settings label.world.dispatching label.op
  | .ask _ _ => r.arbiter.arbiter.activeMissionXml.any (fun xml => xml ≠ .malformed "") = true
  | .arbiter (.mission xml) => r.arbiter.arbiter.publishedXml = some xml ∨ r.Unmoved settings xml
  | .arbiter .echo => ∀ xml ∈ r.arbiter.air.head?, r.arbiter.arbiter.publishedXml = some xml ∨ r.Unmoved settings xml
  | .arbiter (.planner _) => ∀ h ∈ r.arbiter.planner, h.commits = true → r.Unmoved settings h.candidate
  | .arbiter (.service i _) => ∀ h ∈ r.arbiter.requests[i]?, ∀ q ∈ h.request,
      (h.commits = true → r.Fits settings q h.candidate) ∧
      (h.declines settings r.arbiter.arbiter = true → q.removing = true → (q.taskId : Int) ∉ r.active settings) ∧
      (h.commits = true ∨ h.declines settings r.arbiter.arbiter = true → r.InTurn i q.taskId)
  | .handBack k world reason => ∀ task ∈ r.rejected[k]?,
      r.Entered settings world.dispatching (replanRejected task reason) ∧ r.LetGo cfg settings k world reason task
  | _ => True

instance (r : Robot) (id : Int) : Decidable (r.Known id) := inferInstanceAs (Decidable (lastNews id r.session.log ≠ none))

instance (r : Robot) (xml : Xml) : Decidable (r.Unmoved settings xml) := by
  unfold Unmoved
  infer_instance

instance (r : Robot) (q : Request) (candidate : Xml) : Decidable (r.Fits settings q candidate) := by
  unfold Fits
  infer_instance

instance (r : Robot) (i : Nat) (id : Int) : Decidable (r.InTurn i id) := by
  unfold InTurn
  infer_instance

instance (r : Robot) (world : World) (op : Op) : Decidable (r.Entered settings world op) := by
  unfold Entered
  infer_instance

instance (r : Robot) (k : Nat) (world : World) (reason : String) (task : Task) :
    Decidable (r.LetGo cfg settings k world reason task) := by
  unfold LetGo
  infer_instance

instance (r : Robot) (e : Robot.Event) : Decidable (r.Orderly cfg settings e) := by
  unfold Orderly
  split <;> infer_instance

/-- A refused absorption is still to be handed back. -/
def Owed (r : Robot) (id : Int) : Prop :=
  (∃ task ∈ r.rejected, task.taskId = id) ∨
    ∃ v ∈ r.flying, v.task.taskId = id ∧ v.removing = false ∧ ∃ h, r.handler v = some h ∧ h.stage.declined = true

/-- Where the books last left the task is where its newest verification asks it to be; with
none waiting, it is there. -/
def Standing (r : Robot) (id : Int) (inside : Bool) : Prop :=
  match (r.waiting id).getLast? with
  | some v => inside = !v.removing
  | none => (id ∈ r.active settings ↔ inside = true) ∨ (inside = true ∧ r.Owed id)

structure Agreed (r : Robot) : Prop where
  told : r.session.Told
  linked : ∀ v ∈ r.flying, ∀ i, v.served = some i → ∃ h q, r.arbiter.requests[i]? = some h ∧ h.request = some q ∧
    (q.taskId : Int) = v.task.taskId ∧ q.removing = v.removing
  manned : ∀ i h, r.arbiter.requests[i]? = some h → h.live = true → ∃ v ∈ r.flying, v.served = some i
  stands : ∀ id inside, lastNews id r.session.log = some inside → r.Standing settings id inside

end Robot

section Dispatch

theorem sent_last (id : Int) (tasks : List Task) (removing : Bool) (note : String) :
    (((tasks.map (fun task => ({ task := task, removing := removing, note := note } : Verification))).filter
      (fun v => v.task.taskId = id)).getLast?).map (fun v => !v.removing) =
        if tasks.any (fun task => task.taskId = id) then some (!removing) else none := by
  induction tasks with
  | nil => rfl
  | cons task rest ih =>
    by_cases mine : task.taskId = id
    · simp only [List.map_cons,List.any_cons,mine,decide_true,Bool.true_or,if_true,List.filter_cons]
      rw [List.getLast?_cons,Option.map_some]
      split at ih
      · obtain ⟨v,found,same⟩ := Option.map_eq_some_iff.mp ih
        rw [found]
        exact congrArg some same
      · rw [Option.map_eq_none_iff.mp ih]
        rfl
    · simpa [mine] using ih

theorem verifications_last (id : Int) (call : Call) :
    ((call.verifications.filter (fun v => v.task.taskId = id)).getLast?).map (fun v => !v.removing) = call.asks id := by
  cases call with
  | replanAndVerify serial delta =>
    have added := sent_last id delta.added false delta.note
    have removed := sent_last id delta.removed true delta.note
    simp only [Call.verifications,Call.asks,List.filter_append,List.getLast?_append]
    rw [Option.map_or,added,removed]
    split <;> simp
  | _ => rfl

theorem dispatched_last (id : Int) (calls : Log) :
    (((calls.reverse.flatMap Call.verifications).filter (fun v => v.task.taskId = id)).getLast?).map (fun v => !v.removing) =
      calls.findSome? (Call.asks id) := by
  induction calls with
  | nil => rfl
  | cons call rest ih =>
    have here := verifications_last id call
    rw [List.reverse_cons,List.flatMap_append,List.filter_append,List.getLast?_append,List.findSome?_cons,← here]
    simp only [List.flatMap_cons,List.flatMap_nil,List.append_nil]
    cases (call.verifications.filter (fun v => v.task.taskId = id)).getLast? with
    | some v => rfl
    | none => simpa using ih

/-- After what is followed, the newest news is what was asked. -/
theorem lastNews_asked (id : Int) (late : Log) (followed : ∀ front call back, late = front ++ call :: back →
    call.books id = true → ∃ later ∈ front, (later.asks id).isSome = true) :
    lastNews id late = late.findSome? (Call.asks id) := by
  unfold lastNews
  cases heard : late.findSome? (Call.news id) with
  | none =>
    refine (List.findSome?_eq_none_iff.mpr (fun call member => ?_)).symm
    have silent := List.findSome?_eq_none_iff.mp heard call member
    exact (Option.or_eq_none_iff.mp silent).1
  | some inside =>
    obtain ⟨front,call,back,rfl,here,before⟩ := List.findSome?_eq_some_iff.mp heard
    have asked : ∀ later ∈ front, later.asks id = none := fun later member =>
      (Option.or_eq_none_iff.mp (before later member)).1
    refine (List.findSome?_eq_some_iff.mpr ⟨front,call,back,rfl,?_,asked⟩).symm
    cases booked : call.books id with
    | true =>
      obtain ⟨later,member,some⟩ := followed front call back rfl booked
      rw [asked later member] at some
      cases some
    | false => simpa [Call.news,booked] using here

/-- What an operation leaves of a task: nothing new; or the newest verification it dispatched
says where the books have it; or it is entered, and nothing dispatched. -/
theorem perform_news (cfg : Config) (world : World) (op : Op) (s : Session) (id : Int) :
    (lastNews id (s.perform cfg world.dispatching op).state.log = lastNews id s.log ∧
      (dispatched s (s.perform cfg world.dispatching op).state).filter (fun v => v.task.taskId = id) = []) ∨
    (∃ v, ((dispatched s (s.perform cfg world.dispatching op).state).filter (fun v => v.task.taskId = id)).getLast? = some v ∧
      lastNews id (s.perform cfg world.dispatching op).state.log = some (!v.removing)) ∨
    (lastNews id (s.perform cfg world.dispatching op).state.log = some true ∧
      (dispatched s (s.perform cfg world.dispatching op).state).filter (fun v => v.task.taskId = id) = [] ∧
      ∃ task ∈ s.entering world.dispatching op, task.taskId = id) := by
  obtain ⟨mid,⟨early,rfl,booked⟩,late,grown,followed⟩ := Session.perform_followed cfg world op s
  have calls : newCalls s (s.perform cfg world.dispatching op).state = late ++ early :=
    newCalls_of_log _ _ _ (by rw [grown,List.append_assoc])
  have last := dispatched_last id (late ++ early)
  have none_early : early.findSome? (Call.asks id) = none :=
    List.findSome?_eq_none_iff.mpr (fun call member => (booked id call member).1)
  rw [List.findSome?_append,none_early,Option.or_none] at last
  rw [dispatched,calls,grown,lastNews_append,lastNews_asked id late (followed id)]
  cases asked : late.findSome? (Call.asks id) with
  | some inside =>
    rw [asked] at last
    obtain ⟨v,found,rfl⟩ := Option.map_eq_some_iff.mp last
    exact .inr (.inl ⟨v,found,rfl⟩)
  | none =>
    rw [asked] at last
    have nothing := List.getLast?_eq_none_iff.mp (Option.map_eq_none_iff.mp last)
    rw [Option.none_or,lastNews_append]
    cases entered : lastNews id early with
    | none => exact .inl ⟨rfl,nothing⟩
    | some inside =>
      obtain ⟨front,call,back,rfl,here,-⟩ := List.findSome?_eq_some_iff.mp entered
      obtain ⟨silent,mine⟩ := booked id call (List.mem_append_right _ List.mem_cons_self)
      rw [Call.news,silent,Option.none_or] at here
      split at here
      · rename_i books
        obtain rfl := Option.some.inj here
        exact .inr (.inr ⟨rfl,nothing,mine books⟩)
      · cases here

theorem dispatched_served (before after : Session) (v : Verification) (member : v ∈ dispatched before after) :
    v.served = none := by
  obtain ⟨call,-,member⟩ := List.mem_flatMap.mp member
  cases call with
  | replanAndVerify serial delta =>
    obtain member | member := List.mem_append.mp member <;> obtain ⟨_,_,rfl⟩ := List.mem_map.mp member <;> rfl
  | _ => cases member

end Dispatch

section Settling

/-- A block of a request: it leaves it where it was; or it commits, or declines, what has waited. -/
theorem advance_settles (settings : Settings) (o : Oracle) (h : Handler) (s : Arbiter) (asked : h.request.isSome = true) :
    (h.commits = false ∧ h.declines settings s = false ∧
        (h.advance settings o s).2.stage.awaits = h.stage.awaits ∧
        (h.advance settings o s).2.stage.declined = h.stage.declined) ∨
      (h.commits = true ∧ h.declines settings s = false ∧ (h.advance settings o s).2.stage.awaits = false) ∨
      (h.commits = false ∧ h.declines settings s = true ∧ (h.advance settings o s).2.stage.awaits = false ∧
        (h.advance settings o s).2.stage.declined = true) := by
  obtain ⟨request,candidate,clause,departing,basis,gate,stage⟩ := h
  obtain ⟨q,rfl⟩ := Option.isSome_iff_exists.mp asked
  cases stage with
  | editing active =>
    cases edited : applyTaskEdit settings s.orchard q active with
    | error reason =>
      refine .inr (.inr ⟨rfl,?_⟩)
      simp [Handler.declines,Handler.advance,Handler.edit,edited,Stage.awaits,Stage.declined]
    | ok edit =>
      refine .inl ⟨rfl,?_⟩
      simp [Handler.declines,Handler.advance,Handler.edit,edited,Stage.awaits,Stage.declined]
  | checking =>
    refine .inl ⟨rfl,rfl,?_⟩
    rw [advance_block _ _ _ _ (by simp)]
    simp only [Handler.block]
    split
    · exact ⟨rfl,rfl⟩
    · split <;> exact ⟨rfl,rfl⟩
  | comparing active =>
    refine .inl ⟨rfl,rfl,?_⟩
    rw [advance_block _ _ _ _ (by simp)]
    simp only [Handler.block,Handler.compare]
    split
    · exact ⟨rfl,rfl⟩
    · split <;> exact ⟨rfl,rfl⟩
  | recording active result =>
    refine .inl ⟨rfl,rfl,?_⟩
    rw [advance_block _ _ _ _ (by simp)]
    simp only [Handler.block,Handler.gated]
    split
    · exact ⟨rfl,rfl⟩
    · split <;> exact ⟨rfl,rfl⟩
  | acting verdict verified =>
    cases verdict with
    | accepted => exact .inr (.inl ⟨rfl,rfl,rfl⟩)
    | refused reason => exact .inr (.inr ⟨rfl,rfl,rfl,rfl⟩)
    | aborted reason => exact .inr (.inr ⟨rfl,rfl,rfl,rfl⟩)
  | disarming verdict verified =>
    refine .inl ⟨rfl,rfl,?_⟩
    rw [advance_block _ _ _ _ (by simp)]
    simp only [Handler.block]
    split
    · rename_i accepted
      simp [Stage.awaits,Stage.declined,accepted]
    · exact ⟨rfl,rfl⟩
  | _ => exact .inl ⟨rfl,rfl,rfl,rfl⟩

theorem awaits_of_settles (h : Handler) (settings : Settings) (s : Arbiter)
    (settles : h.commits = true ∨ h.declines settings s = true) : h.stage.awaits = true := by
  obtain ⟨request,candidate,clause,departing,basis,gate,stage⟩ := h
  cases stage with
  | publishing verified => simp [Handler.commits,Handler.declines] at settles
  | disarming verdict verified => simp [Handler.commits,Handler.declines] at settles
  | withdrawing verdict verified => simp [Handler.commits,Handler.declines] at settles
  | answered verdict verified => simp [Handler.commits,Handler.declines] at settles
  | _ => rfl

theorem declined_over (stage : Stage) (declined : stage.declined = true) : stage.awaits = false := by
  cases stage with
  | disarming verdict verified => rfl
  | withdrawing verdict verified => rfl
  | answered verdict verified => rfl
  | _ => cases declined

end Settling

theorem Coordinator.Session.report_sheds (cfg : Config) (world : World) (task : Task) (reason : String) (s : Session)
    (sheds : s.Sheds cfg world task reason) :
    ∃ record, (s.perform cfg world (Robot.replanRejected task reason)).state.tasks.get? task.taskId = some record ∧
      record.inMission = false := by
  unfold Session.Sheds at sheds
  split at sheds
  · rename_i other reasonCode t chosen
    obtain ⟨same,-⟩ := Session.comesTo_spec cfg world _ _ _ _ s t _ chosen
    change ∃ record, (s.report cfg world (some task) ("replan rejected by verification: " ++ reason)
      Codec.ReasonCode.taskFailed .asked).state.tasks.get? task.taskId = some record ∧ record.inMission = false
    rw [same,← sheds]
    obtain ⟨found,-⟩ := Session.receiving_spec (.dropTask other .drop reasonCode) other (world.clock s.log) t
    have dealt := Session.state_deal other.taskId (fun d => .returned (d.disposeLocally .drop (world.clock s.log))) _ _ found
    change ∃ record, ((t.receiving (.dropTask other .drop reasonCode) other (world.clock s.log)).deal other.taskId
      (fun d => .returned (d.disposeLocally .drop (world.clock s.log)))).state.tasks.get? other.taskId = some record ∧ _
    rw [dealt]
    exact ⟨_,Dict.get?_set_self _ _ _,by rw [Flow.state_returned,Desk.dispose_record,if_pos rfl]⟩
  · rename_i other reasonCode fallback note t chosen
    obtain ⟨same,-⟩ := Session.comesTo_spec cfg world _ _ _ _ s t _ chosen
    change ∃ record, (s.report cfg world (some task) ("replan rejected by verification: " ++ reason)
      Codec.ReasonCode.taskFailed .asked).state.tasks.get? task.taskId = some record ∧ record.inMission = false
    rw [same,← sheds.1]
    exact Session.leaves_outside cfg world other reasonCode fallback note _ t sheds.2
  · cases sheds

namespace Robot
variable (cfg : Config) (settings : Settings) {r after : Robot}

theorem mem_waiting (id : Int) (v : Verification) :
    v ∈ r.waiting id ↔ v ∈ r.flying ∧ v.task.taskId = id ∧ r.awaits v = true := by
  simp [waiting]

/-- Where a task stands depends on what its waiting verifications ask for, and on the plan. -/
theorem Standing.of_heading (id : Int) (inside : Bool) (standing : r.Standing settings id inside)
    (heading : (after.waiting id).map Verification.removing = (r.waiting id).map Verification.removing)
    (active : id ∈ after.active settings ↔ id ∈ r.active settings)
    (owed : r.Owed id → after.Owed id) : after.Standing settings id inside := by
  have last := congrArg List.getLast? heading
  rw [List.getLast?_map,List.getLast?_map] at last
  unfold Standing at standing ⊢
  cases before : (r.waiting id).getLast? with
  | some v =>
    rw [before] at last standing
    obtain ⟨w,there,same⟩ := Option.map_eq_some_iff.mp last
    rw [there]
    simpa only [same] using standing
  | none =>
    rw [before] at last standing
    rw [Option.map_eq_none_iff.mp last,active]
    exact standing.imp_right (fun ⟨held,still⟩ => ⟨held,owed still⟩)

theorem Standing.of_same (id : Int) (inside : Bool) (standing : r.Standing settings id inside)
    (waiting : after.waiting id = r.waiting id) (active : id ∈ after.active settings ↔ id ∈ r.active settings)
    (owed : r.Owed id → after.Owed id) : after.Standing settings id inside :=
  standing.of_heading settings id inside (by rw [waiting]) active owed

theorem heading_eq (r : Robot) (id : Int) : (r.waiting id).map Verification.removing =
    r.flying.filterMap (fun v => if (decide (v.task.taskId = id) && r.awaits v) = true then some v.removing else none) := by
  rw [waiting,← List.filterMap_eq_map,List.filterMap_filter]
  rfl

theorem Owed.mono (id : Int) (owed : r.Owed id) (rejected : ∀ task ∈ r.rejected, task ∈ after.rejected)
    (flying : ∀ v ∈ r.flying, v ∈ after.flying) (requests : after.arbiter.requests = r.arbiter.requests) :
    after.Owed id := by
  obtain ⟨task,member,same⟩ | ⟨v,member,same,adding,h,found,declined⟩ := owed
  · exact .inl ⟨task,rejected task member,same⟩
  · refine .inr ⟨v,flying v member,same,adding,h,?_,declined⟩
    unfold handler at found ⊢
    rw [requests]
    exact found

namespace Agreed

/-- The arbiter moves, and neither its requests nor what it holds of the known tasks changes. -/
theorem unmoved (agreed : Agreed settings r) (arbiter : System) (requests : arbiter.requests = r.arbiter.requests)
    (active : ∀ id, r.Known id → (id ∈ units settings arbiter.arbiter.activeMissionXml ↔ id ∈ r.active settings)) :
    Agreed settings { r with arbiter := arbiter } := by
  refine ⟨agreed.told,?_,?_,fun id inside news => ?_⟩
  · simpa only [requests] using agreed.linked
  · simpa only [requests] using agreed.manned
  · refine (agreed.stands id inside news).of_same settings id inside ?_ (active id (by simp [Known,news])) ?_
    · simp only [waiting,awaits,requests]
    · exact fun owed => owed.mono id (fun _ member => member) (fun _ member => member) requests

theorem same (agreed : Agreed settings r) (arbiter : System) (requests : arbiter.requests = r.arbiter.requests)
    (active : arbiter.arbiter.activeMissionXml = r.arbiter.arbiter.activeMissionXml) :
    Agreed settings { r with arbiter := arbiter } :=
  agreed.unmoved settings arbiter requests (fun id _ => by rw [active]; rfl)

theorem waiting_perform (world : World) (op : Op) (id : Int) :
    (r.perform cfg world op).waiting id = r.waiting id ++
      (dispatched r.session (r.perform cfg world op).session).filter (fun v => v.task.taskId = id) := by
  have fresh : (dispatched r.session (r.perform cfg world op).session).filter
      (fun v => decide (v.task.taskId = id) && r.awaits v) =
        (dispatched r.session (r.perform cfg world op).session).filter (fun v => v.task.taskId = id) := by
    refine List.filter_congr (fun v member => ?_)
    simp [awaits,dispatched_served _ _ v member]
  rw [← fresh]
  exact List.filter_append _ _

theorem perform (agreed : Agreed settings r) (world : World) (op : Op) (entered : r.Entered settings world.dispatching op) :
    Agreed settings (r.perform cfg world op) := by
  refine ⟨Session.perform_told cfg world.dispatching op r.session agreed.told,fun v member i served => ?_,fun i h found live => ?_,
    fun id inside news => ?_⟩
  · obtain old | new := List.mem_append.mp member
    · exact agreed.linked v old i served
    · rw [dispatched_served _ _ v new] at served
      cases served
  · obtain ⟨v,member,served⟩ := agreed.manned i h found live
    exact ⟨v,List.mem_append_left _ member,served⟩
  have waits := waiting_perform cfg (r := r) world op id
  have owed : r.Owed id → (r.perform cfg world op).Owed id := fun owed =>
    owed.mono id (fun _ member => member) (fun _ member => List.mem_append_left _ member) rfl
  obtain ⟨still,nothing⟩ | ⟨v,last,told⟩ | ⟨inner,nothing,task,named,mine⟩ := perform_news cfg world op r.session id
  · have before := agreed.stands id inside (still.symm.trans news)
    exact before.of_same settings id inside (waits.trans (by simp [nothing,Robot.perform])) Iff.rfl owed
  · have inside_v := Option.some.inj (news.symm.trans told)
    unfold Standing
    rw [waits,List.getLast?_append]
    have last : ((dispatched r.session (r.perform cfg world op).session).filter (fun v => v.task.taskId = id)).getLast? =
      some v := last
    rw [last]
    exact inside_v
  · obtain rfl := Option.some.inj (news.symm.trans inner)
    obtain ⟨held,none_flying⟩ := entered task named
    rw [mine] at held none_flying
    have empty : (r.perform cfg world op).waiting id = [] := by
      rw [waits]
      refine List.append_eq_nil_iff.mpr ⟨List.filter_eq_nil_iff.mpr (fun v member => ?_),nothing⟩
      simp [none_flying v member]
    unfold Standing
    rw [empty]
    exact .inl ⟨fun _ => rfl,fun _ => held⟩

/-- A refused absorption that is let go of. -/
theorem handBack (agreed : Agreed settings r) (k : Nat) (world : World) (reason : String) (task : Task)
    (found : r.rejected[k]? = some task)
    (entered : r.Entered settings world.dispatching (replanRejected task reason))
    (letGo : r.LetGo cfg settings k world reason task) :
    Agreed settings { r.perform cfg world (replanRejected task reason) with rejected := r.rejected.eraseIdx k } := by
  have performed := agreed.perform cfg settings world (replanRejected task reason) entered
  refine ⟨performed.told,performed.linked,performed.manned,fun id inside news => ?_⟩
  have before := performed.stands id inside news
  have owed : (r.perform cfg world (replanRejected task reason)).Owed id → task.taskId ≠ id →
      Robot.Owed { r.perform cfg world (replanRejected task reason) with rejected := r.rejected.eraseIdx k } id := by
    rintro (⟨entry,member,mine⟩ | flying) other
    · obtain ⟨j,there⟩ := List.mem_iff_getElem?.mp member
      refine .inl ⟨entry,List.mem_eraseIdx_iff_getElem?.mpr ⟨j,?_,there⟩,mine⟩
      rintro rfl
      obtain rfl := Option.some.inj (found.symm.trans there)
      exact other mine
    · exact .inr flying
  by_cases other : task.taskId ≠ id
  · exact before.of_same settings id inside rfl Iff.rfl (fun still => owed still other)
  obtain rfl : task.taskId = id := not_not.mp other
  unfold Standing at before ⊢
  rw [show Robot.waiting { r.perform cfg world (replanRejected task reason) with rejected := r.rejected.eraseIdx k }
    task.taskId = (r.perform cfg world (replanRejected task reason)).waiting task.taskId from rfl]
  split at before
  · exact before
  rename_i idle
  obtain held | ⟨rfl,-⟩ := before
  · exact .inl held
  obtain away | held | again | shed := letGo
  · obtain ⟨still,-⟩ | ⟨v,last,-⟩ | ⟨-,-,other,named,same⟩ :=
      perform_news cfg world (replanRejected task reason) r.session task.taskId
    · exact absurd (still.symm.trans news) away
    · rw [waiting_perform,List.getLast?_append] at idle
      have last : ((dispatched r.session (r.perform cfg world (replanRejected task reason)).session).filter
        (fun v => v.task.taskId = task.taskId)).getLast? = some v := last
      rw [last] at idle
      cases idle
    · exact .inl ⟨fun _ => rfl,fun _ => same ▸ (entered other named).1⟩
  · exact .inl ⟨fun _ => rfl,fun _ => held⟩
  · obtain ⟨left,member,same⟩ := List.mem_map.mp again
    exact .inr ⟨rfl,.inl ⟨left,member,same⟩⟩
  · obtain ⟨record,there,out⟩ := Session.report_sheds cfg world.dispatching task reason r.session shed
    have told := performed.told.told task.taskId record there
    rw [news,out] at told
    cases told

/-- A request that is made: it waits as its verification did. -/
theorem ask (agreed : Agreed settings r) (k : Nat) (xml : Option (Option Mission.Element)) (v : Verification)
    (found : r.flying[k]? = some v) (fresh : v.served = none)
    (loaded : r.arbiter.arbiter.activeMissionXml.any (fun xml => xml ≠ .malformed "") = true) :
    Agreed settings { r with
      arbiter := r.arbiter.next settings (.request (v.request xml))
      flying := r.flying.set k { v with served := some r.arbiter.requests.length } } := by
  obtain ⟨active,held,text⟩ : ∃ active, r.arbiter.arbiter.activeMissionXml = some active ∧ active ≠ .malformed "" := by
    cases held : r.arbiter.arbiter.activeMissionXml with
    | none => simp [held] at loaded
    | some active => exact ⟨active,rfl,by simpa [held] using loaded⟩
  let h := Handler.verifyReplan (v.request xml) r.arbiter.arbiter
  have editing : h =
      { request := some (v.request xml), candidate := active, basis := some (some active), stage := .editing active } := by
    simp [h,Handler.verifyReplan,held,text]
  have there : (r.arbiter.next settings (.request (v.request xml))).requests = r.arbiter.requests ++ [h] := rfl
  have number : ((v.request xml).taskId : Int) = v.task.taskId :=
    Int.toNat_of_nonneg (le_of_lt (lt_of_le_of_lt (by decide) v.task.idRange.1))
  have kept : ∀ i g, r.arbiter.requests[i]? = some g → (r.arbiter.requests ++ [h])[i]? = some g :=
    fun i g here => by rw [List.getElem?_append_left (List.getElem?_eq_some_iff.mp here).1,here]
  have mine : (r.arbiter.requests ++ [h])[r.arbiter.requests.length]? = some h := by simp
  refine ⟨agreed.told,fun w member i served => ?_,fun i g here live => ?_,fun id inside news => ?_⟩
  · obtain ⟨j,place⟩ := List.mem_iff_getElem?.mp member
    obtain ⟨rfl,rfl⟩ | ⟨other,place⟩ := set_placed _ _ _ j w place
    · obtain rfl := Option.some.inj served
      exact ⟨h,v.request xml,by rw [there,mine],by rw [editing],number,rfl⟩
    · obtain ⟨g,q,here,rest⟩ := agreed.linked w (List.mem_of_getElem? place) i served
      exact ⟨g,q,by rw [there,kept i g here],rest⟩
  · rw [there] at here
    by_cases inside : i < r.arbiter.requests.length
    · rw [List.getElem?_append_left inside] at here
      obtain ⟨w,member,served⟩ := agreed.manned i g here live
      obtain ⟨j,place⟩ := List.mem_iff_getElem?.mp member
      have other : k ≠ j := by
        rintro rfl
        obtain rfl := Option.some.inj (found.symm.trans place)
        rw [fresh] at served
        cases served
      exact ⟨w,List.mem_iff_getElem?.mpr ⟨j,by rw [List.getElem?_set_ne other,place]⟩,served⟩
    · have last : i = r.arbiter.requests.length := by
        have := (List.getElem?_eq_some_iff.mp here).1
        simp at this
        omega
      refine ⟨{ v with served := some r.arbiter.requests.length },List.mem_iff_getElem?.mpr ⟨k,?_⟩,by rw [last]⟩
      rw [List.getElem?_set_self (List.getElem?_eq_some_iff.mp found).1]
  · refine (agreed.stands id inside news).of_heading settings id inside ?_ Iff.rfl ?_
    · rw [heading_eq,heading_eq]
      refine filterMap_set _ _ r.flying k v _ found ?_ (fun j w _ place => ?_)
      · simp [awaits,there,fresh,editing,Stage.awaits]
      · have same : Robot.awaits { r with
            arbiter := r.arbiter.next settings (.request (v.request xml))
            flying := r.flying.set k { v with served := some r.arbiter.requests.length } } w = r.awaits w := by
          unfold awaits
          cases served : w.served with
          | none => rfl
          | some i =>
            obtain ⟨g,q,here,-⟩ := agreed.linked w (List.mem_of_getElem? place) i served
            simp only [there,kept i g here,here]
        simp only [same]
    · rintro (⟨task,member,mine⟩ | ⟨w,member,mine,adding,g,here,declined⟩)
      · exact .inl ⟨task,member,mine⟩
      · obtain ⟨i,served,place⟩ := Option.bind_eq_some_iff.mp here
        obtain ⟨j,at_⟩ := List.mem_iff_getElem?.mp member
        have other : k ≠ j := by
          rintro rfl
          obtain rfl := Option.some.inj (found.symm.trans at_)
          rw [fresh] at served
          cases served
        refine .inr ⟨w,List.mem_iff_getElem?.mpr ⟨j,by rw [List.getElem?_set_ne other,at_]⟩,mine,adding,g,?_,declined⟩
        exact Option.bind_eq_some_iff.mpr ⟨i,served,by rw [there,kept i g place]⟩

/-- A block of a request. -/
theorem service (agreed : Agreed settings r) (i : Nat) (o : Oracle) (h : Handler) (found : r.arbiter.requests[i]? = some h)
    (live : h.live = true)
    (orderly : ∀ q ∈ h.request, (h.commits = true → r.Fits settings q h.candidate) ∧
      (h.declines settings r.arbiter.arbiter = true → q.removing = true → (q.taskId : Int) ∉ r.active settings) ∧
      (h.commits = true ∨ h.declines settings r.arbiter.arbiter = true → r.InTurn i q.taskId)) :
    Agreed settings { r with arbiter := r.arbiter.next settings (.service i o) } := by
  obtain ⟨v,flies,served⟩ := agreed.manned i h found live
  obtain ⟨g,q,here,asked,number,removing⟩ := agreed.linked v flies i served
  obtain rfl := Option.some.inj (found.symm.trans here)
  obtain ⟨fits,refusable,inTurn⟩ := orderly q asked
  let after := (h.advance settings o r.arbiter.arbiter).2
  have size : i < r.arbiter.requests.length := (List.getElem?_eq_some_iff.mp found).1
  have moved : (r.arbiter.next settings (.service i o)).requests = r.arbiter.requests.set i after := by
    rw [next_service settings r.arbiter i o h found]
    rfl
  have arbiter : (r.arbiter.next settings (.service i o)).arbiter = (h.advance settings o r.arbiter.arbiter).1 := by
    rw [next_service settings r.arbiter i o h found]
    rfl
  have set_self : (r.arbiter.requests.set i after)[i]? = some after := List.getElem?_set_self size
  have set_other : ∀ j, j ≠ i → (r.arbiter.requests.set i after)[j]? = r.arbiter.requests[j]? :=
    fun j other => List.getElem?_set_ne (fun same => other same.symm)
  refine ⟨agreed.told,fun w member j at_ => ?_,fun j g there live => ?_,fun id inside news => ?_⟩
  · obtain ⟨g,p,there,rest⟩ := agreed.linked w member j at_
    by_cases mine : j = i
    · subst mine
      obtain rfl := Option.some.inj (found.symm.trans there)
      exact ⟨after,p,by rw [moved,set_self],(advance_request settings o h _).trans rest.1,rest.2⟩
    · exact ⟨g,p,by rw [moved,set_other j mine,there],rest⟩
  · rw [moved] at there
    by_cases mine : j = i
    · exact ⟨v,flies,by rw [served,mine]⟩
    · rw [set_other j mine] at there
      exact agreed.manned j g there live
  have awaits_other : ∀ w, w.served ≠ some i →
      Robot.awaits { r with arbiter := r.arbiter.next settings (.service i o) } w = r.awaits w := by
    intro w other
    unfold awaits
    cases at_ : w.served with
    | none => rfl
    | some j =>
      have other : j ≠ i := fun same => other (by rw [at_,same])
      simp only [moved,set_other j other]
  have owed : r.Owed id → (h.stage.declined = true → after.stage.declined = true) →
      Robot.Owed { r with arbiter := r.arbiter.next settings (.service i o) } id := by
    rintro (rejected | ⟨w,member,mine,adding,g,there,declined⟩) still
    · exact .inl rejected
    · obtain ⟨j,at_,place⟩ := Option.bind_eq_some_iff.mp there
      by_cases same : j = i
      · subst same
        obtain rfl := Option.some.inj (found.symm.trans place)
        exact .inr ⟨w,member,mine,adding,after,
          Option.bind_eq_some_iff.mpr ⟨j,at_,by rw [moved,set_self]⟩,still declined⟩
      · exact .inr ⟨w,member,mine,adding,g,Option.bind_eq_some_iff.mpr ⟨j,at_,by rw [moved,set_other j same,place]⟩,declined⟩
  have awaits_mine : ∀ w, w.served = some i →
      Robot.awaits { r with arbiter := r.arbiter.next settings (.service i o) } w = after.stage.awaits := by
    intro w at_
    simp only [awaits,at_,moved,set_self,Option.any_some]
  have waits : ∀ w, w.served = some i → r.awaits w = h.stage.awaits := by
    intro w at_
    simp only [awaits,at_,found,Option.any_some]
  have standing := agreed.stands id inside news
  have known : r.Known id := by simp [Known,news]
  obtain ⟨keeps,-,sameStage,sameVerdict⟩ | settles := advance_settles settings o h r.arbiter.arbiter (by rw [asked]; rfl)
  · refine standing.of_same settings id inside (List.filter_congr (fun w _ => ?_)) ?_
      (fun still => owed still (fun declined => sameVerdict.trans declined))
    · by_cases mine : w.served = some i
      · rw [awaits_mine w mine,waits w mine,sameStage]
      · rw [awaits_other w mine]
    · simp only [Robot.active,arbiter,advance_active settings o h _ keeps]
  have past : after.stage.awaits = false := by
    obtain ⟨-,-,past⟩ | ⟨-,-,past,-⟩ := settles <;> exact past
  have left : Robot.waiting { r with arbiter := r.arbiter.next settings (.service i o) } id =
      (r.waiting id).filter (fun w => w.served ≠ some i) := by
    rw [waiting,waiting,List.filter_filter]
    refine List.filter_congr (fun w _ => ?_)
    by_cases mine : w.served = some i
    · simp [awaits_mine w mine,past,mine]
    · simp [awaits_other w mine,mine]
  have of_i : ∀ w ∈ r.flying, w.served = some i → w.task.taskId = q.taskId ∧ w.removing = q.removing := by
    intro w member at_
    obtain ⟨g,p,there,request,task,direction⟩ := agreed.linked w member i at_
    obtain rfl := Option.some.inj (found.symm.trans there)
    obtain rfl := Option.some.inj (asked.symm.trans request)
    exact ⟨task.symm,direction.symm⟩
  have either : h.commits = true ∨ h.declines settings r.arbiter.arbiter = true := by
    obtain ⟨commits,-⟩ | ⟨-,declines,-⟩ := settles
    · exact .inl commits
    · exact .inr declines
  have pending : h.stage.awaits = true := awaits_of_settles h settings r.arbiter.arbiter either
  by_cases mine : id = q.taskId
  · subst mine
    have turn : r.InTurn i q.taskId := inTurn either
    have present : v ∈ r.waiting q.taskId :=
      (mem_waiting _ v).mpr ⟨flies,number.symm,(waits v served).trans pending⟩
    unfold Standing at standing ⊢
    cases last : (r.waiting q.taskId).getLast? with
    | none =>
      rw [List.getLast?_eq_none_iff.mp last] at present
      cases present
    | some w =>
      rw [last] at standing
      simp only at standing
      have member : w ∈ r.flying := ((mem_waiting _ w).mp (List.mem_of_getLast? last)).1
      by_cases at_ : w.served = some i
      · have one := turn (by simp [last,at_])
        obtain ⟨x,single⟩ := List.length_eq_one_iff.mp one
        have empty : Robot.waiting { r with arbiter := r.arbiter.next settings (.service i o) } q.taskId = [] := by
          rw [left,single]
          have same : x = w := by simpa [single] using last
          simp [same,at_]
        have direction := (of_i w member at_).2
        rw [empty]
        simp only [List.getLast?_nil]
        obtain ⟨commits,-⟩ | ⟨keeps,declines,-,declined⟩ := settles
        · refine .inl ?_
          have plan : Robot.active settings { r with arbiter := r.arbiter.next settings (.service i o) } =
              units settings (some h.candidate) := by
            rw [Robot.active,arbiter,(advance_commits settings o h _ commits).1]
          rw [plan,(fits commits).2,standing,direction]
          simp
        · have plan : Robot.active settings { r with arbiter := r.arbiter.next settings (.service i o) } = r.active settings := by
            rw [Robot.active,arbiter,advance_active settings o h _ keeps]
            rfl
          cases adding : w.removing with
          | false =>
            refine .inr ⟨by rw [standing,adding]; rfl,.inr ⟨w,member,(of_i w member at_).1,adding,after,?_,declined⟩⟩
            exact Option.bind_eq_some_iff.mpr ⟨i,at_,by rw [moved,set_self]⟩
          | true =>
            have gone := refusable declines (direction.symm.trans adding)
            refine .inl ?_
            rw [plan,standing,adding]
            simp [gone]
      · obtain ⟨front,whole⟩ := List.getLast?_eq_some_iff.mp last
        rw [left,whole,List.filter_append]
        simp [at_,standing]
  · refine standing.of_same settings id inside ?_ ?_ (fun still => owed still (fun declined => ?_))
    · rw [left]
      refine List.filter_eq_self.mpr (fun w member => ?_)
      obtain ⟨flying,task,-⟩ := (mem_waiting _ w).mp member
      have other : w.served ≠ some i := fun at_ => mine (task.symm.trans (of_i w flying at_).1)
      simpa using other
    · obtain ⟨commits,-⟩ | ⟨keeps,-⟩ := settles
      · have plan : Robot.active settings { r with arbiter := r.arbiter.next settings (.service i o) } =
            units settings (some h.candidate) := by
          rw [Robot.active,arbiter,(advance_commits settings o h _ commits).1]
        rw [plan]
        by_cases either : id ∈ units settings (some h.candidate) ++ r.active settings
        · exact (fits commits).1 id either known mine
        · rw [List.mem_append,not_or] at either
          exact iff_of_false either.1 either.2
      · simp only [Robot.active,arbiter,advance_active settings o h _ keeps]
    · rw [declined_over h.stage declined] at pending
      cases pending

/-- Whatever else the arbiter takes in. -/
theorem elsewhere (agreed : Agreed settings r) (e : Replanning.Event) (enabled : r.arbiter.enabled e) (own : own e = true)
    (orderly : r.Orderly cfg settings (.arbiter e)) : Agreed settings { r with arbiter := r.arbiter.next settings e } := by
  have delivered : ∀ xml (arbiter : System), arbiter.requests = r.arbiter.requests →
      arbiter.arbiter = r.arbiter.arbiter.onMission xml →
      (r.arbiter.arbiter.publishedXml = some xml ∨ r.Unmoved settings xml) → Agreed settings { r with arbiter := arbiter } := by
    intro xml arbiter requests same either
    refine agreed.unmoved settings arbiter requests (fun id known => ?_)
    rw [same,onMission_active]
    split
    · rfl
    · rename_i unpublished
      have unmoved := either.resolve_left unpublished
      by_cases either : id ∈ units settings (some xml) ++ r.active settings
      · exact unmoved id either known
      · rw [List.mem_append,not_or] at either
        exact iff_of_false either.1 either.2
  cases e with
  | mission xml => exact delivered xml _ rfl rfl orderly
  | echo =>
    obtain ⟨-,filled⟩ := enabled
    cases air : r.arbiter.air with
    | nil => exact absurd air filled
    | cons xml rest =>
      rw [next_echo settings r.arbiter xml rest air]
      exact delivered xml _ rfl rfl (orderly xml (by simp [air]))
  | candidate xml => exact agreed.same settings _ rfl rfl
  | request q => cases own
  | planner o =>
    obtain ⟨h,mine⟩ := Option.isSome_iff_exists.mp enabled
    rw [next_planner settings r.arbiter o h mine]
    cases commits : h.commits with
    | false => exact agreed.same settings _ rfl (advance_active settings o h r.arbiter.arbiter commits)
    | true =>
      have unmoved := orderly h mine commits
      refine agreed.unmoved settings _ rfl (fun id known => ?_)
      change id ∈ units settings (h.advance settings o r.arbiter.arbiter).1.activeMissionXml ↔ _
      rw [(advance_commits settings o h r.arbiter.arbiter commits).1]
      by_cases either : id ∈ units settings (some h.candidate) ++ r.active settings
      · exact unmoved id either known
      · rw [List.mem_append,not_or] at either
        exact iff_of_false either.1 either.2
  | service i o =>
    obtain ⟨h,found,live⟩ : ∃ h, r.arbiter.requests[i]? = some h ∧ h.live = true := by
      cases found : r.arbiter.requests[i]? with
      | none => simp [System.enabled,found] at enabled
      | some h => exact ⟨h,rfl,by simpa [System.enabled,found] using enabled⟩
    exact agreed.service settings i o h found live (orderly h found)
  | orchard map =>
    simp only [System.next]
    split <;> exact agreed.same settings _ rfl rfl
  | failed reason => exact agreed.same settings _ rfl rfl
  | succeeded node => exact agreed.same settings _ rfl rfl
  | completed =>
    simp only [System.next]
    split <;> exact agreed.same settings _ rfl rfl
  | budget answer =>
    simp only [System.next]
    split <;> exact agreed.same settings _ rfl rfl

/-- A verdict comes back to its thread. -/
theorem answer (agreed : Agreed settings r) (k : Nat) (v : Verification) (h : Handler) (found : r.flying[k]? = some v)
    (here : r.handler v = some h) (past : h.live = false) (rejected : List Task)
    (kept : ∀ task ∈ r.rejected, task ∈ rejected)
    (refused : h.stage.declined = true → v.removing = false → v.task ∈ rejected) :
    Agreed settings { r with flying := r.flying.eraseIdx k, rejected := rejected } := by
  obtain ⟨i,served,place⟩ := Option.bind_eq_some_iff.mp here
  have done : h.stage.awaits = false := by
    obtain ⟨request,candidate,clause,departing,basis,gate,stage⟩ := h
    cases stage with
    | answered verdict verified => rfl
    | _ => cases past
  have stays : ∀ w ∈ r.flying, w ∈ r.flying.eraseIdx k ∨ w = v := by
    intro w member
    obtain ⟨j,there⟩ := List.mem_iff_getElem?.mp member
    by_cases same : j = k
    · subst same
      exact .inr (Option.some.inj (there.symm.trans found))
    · exact .inl (List.mem_eraseIdx_iff_getElem?.mpr ⟨j,same,there⟩)
  refine ⟨agreed.told,fun w member => agreed.linked w (List.mem_of_mem_eraseIdx member),fun j g there live => ?_,
    fun id inside news => ?_⟩
  · obtain ⟨w,member,at_⟩ := agreed.manned j g there live
    obtain member | rfl := stays w member
    · exact ⟨w,member,at_⟩
    · obtain rfl := Option.some.inj (served.symm.trans at_)
      obtain rfl := Option.some.inj (place.symm.trans there)
      rw [past] at live
      cases live
  · refine (agreed.stands id inside news).of_same settings id inside ?_ Iff.rfl ?_
    · have silent : r.awaits v = false := by
        simp [awaits,served,place,done]
      refine filter_eraseIdx _ r.flying k v found ?_
      change (decide _ && r.awaits v) = false
      rw [silent,Bool.and_false]
    · rintro (⟨task,member,mine⟩ | ⟨w,member,mine,adding,g,there,declined⟩)
      · exact .inl ⟨task,kept task member,mine⟩
      · obtain member | rfl := stays w member
        · exact .inr ⟨w,member,mine,adding,g,there,declined⟩
        · obtain rfl := Option.some.inj (here.symm.trans there)
          exact .inl ⟨w.task,refused declined adding,mine⟩

theorem next (agreed : Agreed settings r) (e : Robot.Event) (enabled : r.enabled cfg e) (orderly : r.Orderly cfg settings e) :
    Agreed settings (r.next cfg settings e) := by
  cases e with
  | op label => exact agreed.perform cfg settings label.world label.op orderly
  | ask k xml =>
    cases found : r.flying[k]? with
    | none => simp [Robot.enabled,found] at enabled
    | some v =>
      have fresh : v.served = none := by simpa [Robot.enabled,found] using enabled
      simp only [Robot.next,found]
      exact agreed.ask settings k xml v found fresh orderly
  | arbiter e => exact agreed.elsewhere cfg settings e enabled.1 enabled.2 orderly
  | answer k =>
    cases found : r.flying[k]? with
    | none => simp [Robot.enabled,found] at enabled
    | some v =>
      cases here : r.handler v with
      | none => simp [Robot.enabled,found,here] at enabled
      | some h =>
        have past : h.live = false := by simpa [Robot.enabled,found,here] using enabled
        simp only [Robot.next,found,here,Option.bind_some]
        refine agreed.answer settings k v h found here past _ (fun task member => ?_) (fun declined adding => ?_)
        · split
          · exact List.mem_append_left _ member
          · exact member
        · have turned : verdict h ≠ some .accepted := by
            obtain ⟨request,candidate,clause,departing,basis,gate,stage⟩ := h
            cases stage with
            | answered verdict verified => simpa [Robot.verdict,Stage.declined] using declined
            | _ => cases past
          rw [if_pos ⟨turned,adding⟩]
          exact List.mem_append_right _ (List.mem_singleton_self _)
  | handBack k world reason =>
    obtain ⟨task,found⟩ := Option.isSome_iff_exists.mp enabled
    obtain ⟨entered,letGo⟩ := orderly task found
    simp only [Robot.next,found]
    exact agreed.handBack cfg settings k world reason task found entered letGo

end Agreed

/-- In every run whose steps are orderly, the books and the plan agree whenever nothing is
in flight; a task that a peer has acknowledged is then not in the plan. -/
theorem books_agree (r : Robot) (reached : (machine cfg settings).Reaches (Orderly cfg settings) r) : r.Agrees settings := by
  have agreed : Agreed settings r ∧ (Coordinator.machine cfg).Reachable r.session := by
    refine Machine.Reaches.invariant (fun r => Agreed settings r ∧ (Coordinator.machine cfg).Reachable r.session) ?_ ?_ r reached
    · rintro _ rfl
      refine ⟨⟨⟨fun id record found => ?_,fun id record found => ?_⟩,fun v member => ?_,fun i h found => ?_,
        fun id inside news => ?_⟩,.start _ rfl⟩
      · cases found
      · cases found
      · cases member
      · cases found
      · cases news
    · rintro r e - ⟨agreed,session⟩ enabled orderly
      refine ⟨agreed.next cfg settings e enabled orderly,?_⟩
      cases e with
      | op label =>
        refine Machine.Reaches.step r.session ⟨label.world.dispatching,label.op⟩ session ?_ trivial
        exact enabled
      | ask k xml =>
        simp only [Robot.machine,Robot.next]
        split <;> exact session
      | arbiter e => exact session
      | answer k =>
        simp only [Robot.machine,Robot.next]
        split <;> exact session
      | handBack k world reason =>
        simp only [Robot.machine,Robot.next]
        split
        · exact session
        · refine Machine.Reaches.step r.session ⟨world.dispatching,replanRejected _ reason⟩ session ?_ trivial
          exact trivial
  obtain ⟨agreed,session⟩ := agreed
  intro landed handed id record found
  have standing := agreed.stands id record.inMission (agreed.told.told id record found)
  have nothing : r.waiting id = [] := by simp [waiting,landed]
  have same : id ∈ r.active settings ↔ record.inMission = true := by
    unfold Standing at standing
    rw [nothing] at standing
    obtain same | ⟨-,⟨_,member,_⟩ | ⟨_,member,_⟩⟩ := standing
    · exact same
    · rw [handed] at member
      cases member
    · rw [landed] at member
      cases member
  refine ⟨same,fun transferred held => ?_⟩
  have tracked := Session.reachable_tracked cfg _ _ (Session.tracks_givenAway cfg) r.session session
  have out := tracked.here id record found transferred
  rw [same.mp held] at out
  cases out

def treeTen : Codec.Target := { kind := .tree, a := 10, wordA := by decide, wordB := Codec.Target.row.wordB }

theorem tenth_id : Codec.taskNone < 10 ∧ (10 : Int) ≤ Codec.taskIdMax := by decide

theorem no_capabilities : 0 ≤ (0 : Int) ∧ (0 : Int) < 2^Codec.capMaskBits := by decide

theorem no_priority : 0 ≤ (0 : Int) ∧ (0 : Int) ≤ Codec.priorityMax := by decide

def tenth : Task :=
  { taskId := 10, requiredCapabilities := 0, location := treeTen, idRange := tenth_id, maskRange := no_capabilities,
    priorityRange := no_priority }

def visits : Document := { twoTrees with mission := some "visit tree 10; visit tree 60" }

/-- Tree 10 goes to the fleet, what the checker says of the plan without it comes back, and robot 2 gets it. -/
def transfer (outcome : Replanning.Outcome) : List Robot.Event :=
  [.arbiter (.mission (.plan visits)),.op ⟨Session.clockAt 0,.own tenth⟩,
    .op ⟨Session.clockAt 1,.report (some tenth) "blocked" 0 (.given (some (.reDelegate tenth 0 .hold "")))⟩,.ask 0 none] ++
  List.replicate 14 (.arbiter (.service 0 { outcome := outcome, now := 10 })) ++
  [.answer 0,.op ⟨Session.clockAt 2,.message (.bid ⟨2,0,10,4,true,10⟩)⟩,
    .op ⟨{ Session.clockAt 7 with sendReliable := fun _ => .resolved .delivered },.tick⟩]

def transferred (outcome : Replanning.Outcome) : Robot := (machine .first noFix).runs {} (transfer outcome)

theorem books_agree_transferred : (transferred (.holds "visited")).Agrees noFix ∧
    (transferred (.holds "visited")).flying = [] ∧ (transferred (.holds "visited")).active noFix = [60] := by
  have reached := (machine .first noFix).reaches_runs (Orderly .first noFix) {} (transfer (.holds "visited"))
    (.start _ rfl) (by decide +kernel)
  have landed : (transferred (.holds "visited")).flying.length = 0 := by decide +kernel
  exact ⟨books_agree .first noFix _ reached,List.length_eq_zero_iff.mp landed,by decide +kernel⟩

/-- The removal is refused, and forgotten: robot 2 has acknowledged the task, and the plan still has it. -/
theorem refused_removal_disagrees : (machine .first noFix).Reachable (transferred (.violated "visited" "trail")) ∧
    ¬ (transferred (.violated "visited" "trail")).Agrees noFix ∧
    ((transferred (.violated "visited" "trail")).session.tasks.get? 10).any (fun r =>
      r.state = .transferred ∧ r.inMission = false) = true ∧
    10 ∈ (transferred (.violated "visited" "trail")).active noFix := by
  have held : 10 ∈ (transferred (.violated "visited" "trail")).active noFix := by decide +kernel
  have given : ((transferred (.violated "visited" "trail")).session.tasks.get? 10).any (fun r =>
      r.state = .transferred ∧ r.inMission = false) = true := by decide +kernel
  have landed : (transferred (.violated "visited" "trail")).flying.length = 0 ∧
      (transferred (.violated "visited" "trail")).rejected.length = 0 := by decide +kernel
  refine ⟨(machine .first noFix).reaches_runs _ {} _ (.start _ rfl) (by decide +kernel),fun agrees => ?_,given,held⟩
  cases found : (transferred (.violated "visited" "trail")).session.tasks.get? 10 with
  | none => simp [found] at given
  | some record =>
    have state : record.state = .transferred ∧ record.inMission = false := by simpa [found] using given
    exact (agrees (List.length_eq_zero_iff.mp landed.1) (List.length_eq_zero_iff.mp landed.2) 10 record found).2 state.1 held

end Robot
end AmigaFleet
