import AmigaFleet.Codec.RoundTrip
import AmigaFleet.Coordinator.Logs
import AmigaFleet.Coordinator.Settling

/-! What an announcement that does not go out leaves behind: in the record it was for,
and in the sweeps of the ticks that repeat it. -/
namespace AmigaFleet.Coordinator
open Lib AmigaFleet.Codec AmigaFleet.Reliability

/-- The four fields are as they were. -/
structure Unmoved (r after : OwnedTask) : Prop where
  state : after.state = r.state
  inMission : after.inMission = r.inMission
  attempts : after.delegationAttempts = r.delegationAttempts
  excluded : after.excludedBidders = r.excludedBidders

/-- Announced, in an open auction, and the announcement is among the calls made since. -/
structure WentOut (log : Log) (after : OwnedTask) (now : Log) : Prop where
  state : after.state = .announced
  auction : after.auction.isSome = true
  sent : ∃ added, now = added ++ log ∧ .broadcast (.taskAnnounce (Desk.announcement after)) true ∈ added

/-- The record is as local handling would leave it. -/
def OwnedTask.disposed (disposition : LocalDisposition) (r : OwnedTask) : Prop :=
  if disposition = .drop then r.state = .relinquished ∧ r.inMission = false else r.state = .ours ∧ r.inMission = true

instance (disposition : LocalDisposition) (r : OwnedTask) : Decidable (r.disposed disposition) := by
  unfold OwnedTask.disposed
  infer_instance

namespace Desk

theorem dispose_unmoved (disposition : LocalDisposition) (now : ℚ) (d : Desk) :
    Unmoved d.record (d.disposeLocally disposition now).record ↔ d.record.disposed disposition := by
  rw [dispose_record]
  unfold OwnedTask.disposed
  split
  · exact ⟨fun same => ⟨same.state.symm,same.inMission.symm⟩,fun ⟨state,out⟩ => ⟨state.symm,out.symm,rfl,rfl⟩⟩
  · exact ⟨fun same => ⟨same.state.symm,same.inMission.symm⟩,fun ⟨state,kept⟩ => ⟨state.symm,kept.symm,rfl,rfl⟩⟩

theorem dispose_unannounced (disposition : LocalDisposition) (now : ℚ) (d : Desk) :
    (d.disposeLocally disposition now).record.state ≠ .announced := by
  rw [dispose_record]
  split <;> simp

/-- The announcement that `_announce` comes to, and whether the radio takes it. -/
def goesOut (params : CoordinatorParams) (world : World) (peers : Registry) (now : ℚ) (d : Desk) : Bool :=
  world.broadcast (d.offer params world peers now).log
    (.taskAnnounce (announcement (d.offer params world peers now).record))

theorem emitNote_quiet (world : World) (d : Desk) :
    ∃ added, (d.emitNote world).2.log = added ++ d.log ∧ ∀ message sent, .broadcast message sent ∉ added := by
  unfold emitNote
  split
  · exact ⟨[],rfl,by simp⟩
  · exact ⟨[_],rfl,by simp⟩

/-- The calls before the announcement: the cycle opened, and perhaps its note. -/
theorem offer_log (params : CoordinatorParams) (world : World) (peers : Registry) (now : ℚ) (d : Desk) :
    ∃ added, (d.offer params world peers now).log = added ++ d.log ∧ ∀ message sent, .broadcast message sent ∉ added := by
  obtain ⟨added,grown,quiet⟩ := emitNote_quiet world (d.announcing now)
  refine ⟨added ++ [.opened d.record],?_,fun message sent member => ?_⟩
  · change ((d.announcing now).emitNote world).2.log = _
    rw [grown,List.append_assoc]
    rfl
  · obtain member | last := List.mem_append.mp member
    · exact quiet message sent member
    · simp at last

theorem standDown_log (d : Desk) : ∃ added, d.standDown.log = added ++ d.log := by
  unfold standDown leaveMission
  split
  · exact ⟨[_,_],rfl⟩
  · exact ⟨[_],rfl⟩

theorem announce_contained (params : CoordinatorParams) (world : World) (peers : Registry) (now : ℚ) (d : Desk) :
    (WentOut d.log (d.announce params world peers now).state.record (d.announce params world peers now).state.log ∨
      Unmoved d.record (d.announce params world peers now).state.record) ↔
        d.goesOut params world peers now = true := by
  obtain ⟨auction,fresh,offered⟩ := offer_record params world peers now d
  obtain ⟨before,log,quiet⟩ := offer_log params world peers now d
  unfold announce emitAnnounce goesOut
  generalize d.offer params world peers now = e at offered log ⊢
  simp only
  cases sent : world.broadcast e.log (.taskAnnounce (announcement e.record)) with
  | true =>
    refine ⟨fun _ => rfl,fun _ => .inl ?_⟩
    simp only [if_true,Flow.andThen_returned,Flow.state_returned]
    refine ⟨?_,?_,?_⟩
    · simp [standDown,offered]
    · simp [standDown,offered]
    · obtain ⟨after,grown⟩ := standDown_log ((e.say (.broadcast (.taskAnnounce (announcement e.record)) true)).put
        { e.record with auction := e.record.auction.map (repeated params now) })
      refine ⟨after ++ .broadcast (.taskAnnounce (announcement e.record)) true :: before,grown.trans ?_,?_⟩
      · simp [log]
      · simp [standDown,announcement]
  | false =>
    refine ⟨?_,fun goes => by cases goes⟩
    simp only [Bool.false_eq_true,if_false,Flow.andThen_raised,Flow.state_raised,say_record,say_log]
    rintro (⟨-,-,added,grown,member⟩ | ⟨-,-,attempts,-⟩)
    · have same : added = .broadcast (.taskAnnounce (announcement e.record)) false :: before := by
        rw [log,← List.cons_append] at grown
        exact (List.append_cancel_right grown).symm
      rw [same] at member
      obtain here | earlier := List.mem_cons.mp member
      · simp at here
      · exact quiet _ _ earlier
    · rw [offered] at attempts
      simp at attempts

theorem announce_outside (params : CoordinatorParams) (world : World) (peers : Registry) (now : ℚ) (d : Desk)
    (goes : d.goesOut params world peers now = true) : (d.announce params world peers now).state.record.inMission = false := by
  unfold goesOut at goes
  simp [announce,emitAnnounce,goes,standDown]

end Desk

namespace Session
variable (cfg : Config) (world : World)

/-- The record that an action about the task finds, or the one made for it. -/
def facing (task : Task) (s : Session) : OwnedTask :=
  (s.tasks.get? task.taskId).getD { serial := s.nextSerial, task := task }

/-- The action that a report comes to, and the session it is applied to. -/
def comesTo (reported : Option Task) (detail : String) (reasonCode : Int) (door : Door) (s : Session) :
    Option (Action × Session) :=
  let t := s.enrollReported reported
  match door with
  | .given answer => answer.map (fun action => (action,t))
  | .asked =>
    let t := t.say (.interpretAnomaly (t.anomalyContext world reported detail reasonCode (world.clock s.log)))
    (world.interpret t.log).map (fun action => (action,t))

/-- The task is announced and that went out, or its record is as it was. -/
def Stands (task : Task) (s after : Session) : Prop :=
  ∃ r, after.tasks.get? task.taskId = some r ∧ (WentOut s.log r after.log ∨ Unmoved (s.facing task) r)

/-- The task is in flight; or it is handled locally, and that changes nothing; or the
radio takes its announcement. -/
def Contained (task : Task) (reasonCode : Int) (fallback : LocalDisposition) (note : String) (now : ℚ)
    (s : Session) : Prop :=
  let r := s.facing task
  (r.state = .announced ∨ r.state = .granted) ∨
    if Refuses cfg (s.enrollMissing task).openAuctions now r then r.disposed fallback
    else Desk.goesOut cfg.params world s.peers now
      ⟨instructed fallback reasonCode note r,.apply (.reDelegate task reasonCode fallback note) now s.tasks s.futures :: s.log,
        s.futures⟩ = true

/-- Delegating the task takes it out of the mission: the radio takes its announcement, or
it is dropped locally. -/
def Leaves (task : Task) (reasonCode : Int) (fallback : LocalDisposition) (note : String) (now : ℚ)
    (s : Session) : Prop :=
  let r := s.facing task
  ¬ (r.state = .announced ∨ r.state = .granted) ∧
    if Refuses cfg (s.enrollMissing task).openAuctions now r then fallback = .drop
    else Desk.goesOut cfg.params world s.peers now
      ⟨instructed fallback reasonCode note r,.apply (.reDelegate task reasonCode fallback note) now s.tasks s.futures :: s.log,
        s.futures⟩ = true

instance (task : Task) (reasonCode : Int) (fallback : LocalDisposition) (note : String) (now : ℚ) (s : Session) :
    Decidable (s.Leaves cfg world task reasonCode fallback note now) := by
  unfold Leaves
  infer_instance

instance (task : Task) (reasonCode : Int) (fallback : LocalDisposition) (note : String) (now : ℚ) (s : Session) :
    Decidable (s.Contained cfg world task reasonCode fallback note now) := by
  unfold Contained
  infer_instance

theorem instructed_unmoved (fallback : LocalDisposition) (reasonCode : Int) (note : String) (r after : OwnedTask) :
    Unmoved (instructed fallback reasonCode note r) after ↔ Unmoved r after :=
  ⟨fun same => ⟨same.state,same.inMission,same.attempts,same.excluded⟩,
    fun same => ⟨same.state,same.inMission,same.attempts,same.excluded⟩⟩

theorem delegate_contained (peers : Registry) (openAuctions : Nat) (reasonCode : Int) (fallback : LocalDisposition)
    (note : String) (now : ℚ) (d : Desk) :
    (WentOut d.log (delegate cfg world peers openAuctions reasonCode fallback note now d).state.record
        (delegate cfg world peers openAuctions reasonCode fallback note now d).state.log ∨
      Unmoved d.record (delegate cfg world peers openAuctions reasonCode fallback note now d).state.record) ↔
      (d.record.state = .announced ∨ d.record.state = .granted) ∨
        if Refuses cfg openAuctions now d.record then d.record.disposed fallback
        else (d.put (instructed fallback reasonCode note d.record)).goesOut cfg.params world peers now = true := by
  obtain ⟨inFlight,same⟩ | ⟨idle,refused,same⟩ | ⟨idle,accepted,same⟩ :=
    delegate_cases cfg world peers openAuctions reasonCode fallback note now d
  · rw [same]
    exact ⟨fun _ => .inl inFlight,fun _ => .inr ⟨rfl,rfl,rfl,rfl⟩⟩
  · rw [same,if_pos refused]
    have unmoved := Desk.dispose_unmoved fallback now (d.put (instructed fallback reasonCode note d.record))
    rw [Desk.put_record,instructed_unmoved] at unmoved
    constructor
    · rintro (out | kept)
      · exact absurd out.state (Desk.dispose_unannounced _ _ _)
      · exact .inr (unmoved.mp kept)
    · rintro (inFlight | disposed)
      · exact absurd inFlight idle
      · exact .inr (unmoved.mpr disposed)
  · rw [same,if_neg accepted]
    have contained := Desk.announce_contained cfg.params world peers now (d.put (instructed fallback reasonCode note d.record))
    rw [Desk.put_record,Desk.put_log,instructed_unmoved] at contained
    rw [contained]
    exact ⟨.inr,fun holds => holds.resolve_left idle⟩

/-- Calls in between that put nothing on the air. -/
theorem wentOut_since (log : Log) (mid added : List Call) (r : OwnedTask)
    (quiet : ∀ message sent, .broadcast message sent ∉ mid) :
    WentOut log r (added ++ (mid ++ log)) ↔ WentOut (mid ++ log) r (added ++ (mid ++ log)) := by
  constructor
  · rintro ⟨state,auction,more,grown,member⟩
    rw [← List.append_assoc] at grown
    rw [← List.append_cancel_right grown] at member
    obtain member | earlier := List.mem_append.mp member
    · exact ⟨state,auction,added,rfl,member⟩
    · exact absurd earlier (quiet _ _)
  · rintro ⟨state,auction,more,grown,member⟩
    rw [← List.append_cancel_right grown] at member
    exact ⟨state,auction,added ++ mid,(List.append_assoc _ _ _).symm,List.mem_append_left _ member⟩

theorem facing_found (task : Task) (s : Session) :
    (s.enrollMissing task).tasks.get? task.taskId = some (s.facing task) := by
  unfold enrollMissing facing
  split
  · rename_i there
    obtain ⟨r,found⟩ := (Dict.contains_iff _ _).mp there
    rw [found]
    rfl
  · rename_i missing
    rw [Dict.contains,Bool.not_eq_true,Option.isSome_eq_false_iff,Option.isNone_iff_eq_none] at missing
    simp [enroll,missing]

/-- What a report enrolls is as new as what the action would. -/
theorem facing_enrolled (task : Task) (reported : Option Task) (s : Session) (r : OwnedTask) :
    Unmoved ((s.enrollReported reported).facing task) r ↔ Unmoved (s.facing task) r := by
  cases reported with
  | none => rfl
  | some other =>
    simp only [enrollReported]
    split
    · rfl
    rename_i missing
    rw [Dict.contains,Bool.not_eq_true,Option.isSome_eq_false_iff,Option.isNone_iff_eq_none] at missing
    by_cases same : task.taskId = other.taskId
    · have fresh : (s.enter other).facing task = { serial := s.nextSerial, task := other } := by
        simp [facing,enter,say,enroll,same]
      have bare : s.facing task = { serial := s.nextSerial, task := task } := by
        simp [facing,same,missing]
      rw [fresh,bare]
      constructor <;> intro still <;> exact ⟨still.1,still.2,still.3,still.4⟩
    · have kept : (s.enter other).tasks.get? task.taskId = s.tasks.get? task.taskId :=
        Dict.get?_set_ne _ _ _ _ same
      unfold facing
      rw [kept]
      cases s.tasks.get? task.taskId with
      | some found => rfl
      | none => constructor <;> intro still <;> exact ⟨still.1,still.2,still.3,still.4⟩

/-- The session that the action is applied to: nothing has been sent. -/
theorem comesTo_spec (reported : Option Task) (detail : String) (reasonCode : Int) (door : Door) (s t : Session)
    (action : Action) (chosen : s.comesTo world reported detail reasonCode door = some (action,t)) :
    (s.report cfg world reported detail reasonCode door) =
        t.apply cfg world (takeOn cfg world (world.depth + 1)) action (world.clock s.log) ∧
      (∃ mid, t.log = mid ++ s.log ∧ ∀ message sent, .broadcast message sent ∉ mid) ∧
      t.tasks = (s.enrollReported reported).tasks ∧ t.nextSerial = (s.enrollReported reported).nextSerial := by
  have quiet : ∃ mid, (s.enrollReported reported).log = mid ++ s.log ∧ ∀ message sent, .broadcast message sent ∉ mid := by
    unfold enrollReported
    split
    · exact ⟨[],rfl,by simp⟩
    split
    · exact ⟨[],rfl,by simp⟩
    · exact ⟨[_],rfl,by simp⟩
  cases door with
  | given answer =>
    cases answer with
    | none => cases chosen
    | some found =>
      obtain ⟨rfl,rfl⟩ : found = action ∧ s.enrollReported reported = t := by simpa [comesTo] using chosen
      exact ⟨rfl,quiet,rfl,rfl⟩
  | asked =>
    simp only [comesTo] at chosen
    obtain ⟨found,asked,same⟩ := Option.map_eq_some_iff.mp chosen
    obtain ⟨rfl,rfl⟩ := Prod.mk.inj same
    obtain ⟨mid,grown,silent⟩ := quiet
    refine ⟨?_,⟨.interpretAnomaly _ :: mid,congrArg _ grown,?_⟩,rfl,rfl⟩
    · simp only [report,reportWith,asked]
    · intro message sent member
      obtain here | member := List.mem_cons.mp member
      · cases here
      · exact silent message sent member

/-- The session as the action finds it, its call made and the task enrolled. -/
def receiving (action : Action) (task : Task) (now : ℚ) (s : Session) : Session :=
  (s.say (.apply action now s.tasks s.futures)).enrollMissing task

theorem receiving_spec (action : Action) (task : Task) (now : ℚ) (s : Session) :
    (s.receiving action task now).tasks.get? task.taskId = some (s.facing task) ∧
      (s.receiving action task now).log = .apply action now s.tasks s.futures :: s.log ∧
      (s.receiving action task now).futures = s.futures ∧ (s.receiving action task now).peers = s.peers ∧
      (s.receiving action task now).openAuctions = (s.enrollMissing task).openAuctions := by
  let t := s.say (.apply action now s.tasks s.futures)
  refine ⟨facing_found task t,enrollMissing_log task t,enrollMissing_futures task t,?_,?_⟩
  · change (t.enrollMissing task).peers = s.peers
    unfold enrollMissing
    split <;> rfl
  · change (if s.tasks.contains task.taskId = true then t else t.enroll task).openAuctions =
      (if s.tasks.contains task.taskId = true then s else s.enroll task).openAuctions
    split <;> rfl

/-- The desk that `_begin_delegation` works on. -/
def desk (task : Task) (reasonCode : Int) (fallback : LocalDisposition) (note : String) (now : ℚ) (s : Session) : Desk :=
  ⟨s.facing task,.apply (.reDelegate task reasonCode fallback note) now s.tasks s.futures :: s.log,s.futures⟩

theorem apply_delegates (task : Task) (reasonCode : Int) (fallback : LocalDisposition) (note : String) (now : ℚ)
    (s : Session) : (s.apply cfg world (takeOn cfg world (world.depth + 1)) (.reDelegate task reasonCode fallback note)
      now).state = (s.receiving (.reDelegate task reasonCode fallback note) task now).store task.taskId
        (delegate cfg world s.peers (s.enrollMissing task).openAuctions reasonCode fallback note now
          (s.desk task reasonCode fallback note now)).state := by
  obtain ⟨found,log,futures,peers,open_⟩ := receiving_spec (.reDelegate task reasonCode fallback note) task now s
  have dealt := state_deal task.taskId (delegate cfg world (s.receiving (.reDelegate task reasonCode fallback note) task now).peers
    (s.receiving (.reDelegate task reasonCode fallback note) task now).openAuctions reasonCode fallback note now) _ _ found
  rw [log,futures] at dealt
  have applied : (s.apply cfg world (takeOn cfg world (world.depth + 1)) (.reDelegate task reasonCode fallback note)
      now).state = ((s.receiving (.reDelegate task reasonCode fallback note) task now).deal task.taskId (delegate cfg world
        (s.receiving (.reDelegate task reasonCode fallback note) task now).peers
        (s.receiving (.reDelegate task reasonCode fallback note) task now).openAuctions reasonCode fallback note now)).state :=
    rfl
  rw [applied,dealt,peers,open_]
  rfl

theorem leaves_outside (task : Task) (reasonCode : Int) (fallback : LocalDisposition) (note : String) (now : ℚ)
    (s : Session) (leaves : s.Leaves cfg world task reasonCode fallback note now) :
    ∃ r, (s.apply cfg world (takeOn cfg world (world.depth + 1)) (.reDelegate task reasonCode fallback note)
      now).state.tasks.get? task.taskId = some r ∧ r.inMission = false := by
  rw [apply_delegates]
  refine ⟨_,Dict.get?_set_self _ _ _,?_⟩
  obtain ⟨idle,either⟩ := leaves
  obtain ⟨inFlight,-⟩ | ⟨-,refused,same⟩ | ⟨-,accepted,same⟩ := delegate_cases cfg world s.peers
    (s.enrollMissing task).openAuctions reasonCode fallback note now (s.desk task reasonCode fallback note now)
  · exact absurd inFlight idle
  · have refused : Refuses cfg (s.enrollMissing task).openAuctions now (s.facing task) := refused
    rw [if_pos refused] at either
    rw [same,Flow.state_returned,Desk.dispose_record,if_pos either]
  · have accepted : ¬ Refuses cfg (s.enrollMissing task).openAuctions now (s.facing task) := accepted
    rw [if_neg accepted] at either
    rw [same]
    exact Desk.announce_outside cfg.params world s.peers now _ either

theorem delegation_stands (task : Task) (reasonCode : Int) (fallback : LocalDisposition) (note : String) (now : ℚ)
    (t : Session) (base : Log) (mid : List Call) (below : t.log = mid ++ base)
    (quiet : ∀ message sent, .broadcast message sent ∉ mid) :
    (∃ r, (t.apply cfg world (takeOn cfg world (world.depth + 1)) (.reDelegate task reasonCode fallback note)
        now).state.tasks.get? task.taskId = some r ∧
      (WentOut base r (t.apply cfg world (takeOn cfg world (world.depth + 1)) (.reDelegate task reasonCode fallback note)
        now).state.log ∨ Unmoved (t.facing task) r)) ↔
      t.Contained cfg world task reasonCode fallback note now := by
  let call : Call := .apply (.reDelegate task reasonCode fallback note) now t.tasks t.futures
  rw [apply_delegates]
  have contained := delegate_contained cfg world t.peers (t.enrollMissing task).openAuctions reasonCode fallback note now
    (t.desk task reasonCode fallback note now)
  have stays := (delegate_stays cfg world t.peers (t.enrollMissing task).openAuctions reasonCode fallback note now
    (t.desk task reasonCode fallback note now)).log
  generalize delegate cfg world t.peers (t.enrollMissing task).openAuctions reasonCode fallback note now
    (t.desk task reasonCode fallback note now) = flow at contained stays ⊢
  obtain ⟨added,grown,-⟩ := stays
  have under : (t.desk task reasonCode fallback note now).log = (call :: mid) ++ base := by
    simp [desk,call,below]
  have since := wentOut_since base (call :: mid) added flow.state.record (by
    intro message sent member
    obtain here | member := List.mem_cons.mp member
    · simp [call] at here
    · exact quiet message sent member)
  rw [← under,← grown] at since
  rw [show t.Contained cfg world task reasonCode fallback note now ↔ _ from contained.symm,← since]
  constructor
  · rintro ⟨r,there,holds⟩
    obtain rfl := Option.some.inj ((Dict.get?_set_self _ _ _).symm.trans there)
    exact holds
  · exact fun holds => ⟨flow.state.record,Dict.get?_set_self _ _ _,holds⟩

/-- A report of a task that is to be delegated: the claim's first half, exactly. -/
theorem report_stands (reported : Option Task) (detail : String) (code : Int) (door : Door) (s t : Session)
    (task : Task) (reasonCode : Int) (fallback : LocalDisposition) (note : String)
    (chosen : s.comesTo world reported detail code door = some (.reDelegate task reasonCode fallback note,t)) :
    s.Stands task (s.report cfg world reported detail code door).state ↔
      t.Contained cfg world task reasonCode fallback note (world.clock s.log) := by
  obtain ⟨same,⟨mid,below,quiet⟩,tasks,serial⟩ := comesTo_spec cfg world reported detail code door s t _ chosen
  have facing_t : t.facing task = (s.enrollReported reported).facing task := by
    unfold facing
    rw [tasks,serial]
  rw [← delegation_stands cfg world task reasonCode fallback note _ t s.log mid below quiet,same]
  unfold Stands
  simp only [facing_t,facing_enrolled]

end Session

/-- A broadcast that the radio did not take. -/
def Call.lost : Call → Prop
  | .broadcast _ sent => sent = false
  | _ => False

instance (call : Call) : Decidable call.lost := by
  unfold Call.lost
  split <;> infer_instance

namespace Desk
variable (params : CoordinatorParams) (world : World) (peers : Registry)

theorem emitAnnounce_marks (now : ℚ) (d : Desk) :
    (d.emitAnnounce params world now).Marks Desk.log Call.lost d.log := by
  refine ⟨[_],emitAnnounce_log params world now d,fun e raise => ⟨_,List.mem_singleton_self _,?_⟩⟩
  unfold emitAnnounce at raise
  simp only at raise
  split at raise
  · cases raise
  · rename_i lost
    simpa [Call.lost] using lost

theorem announce_marks (now : ℚ) (d : Desk) : (d.announce params world peers now).Marks Desk.log Call.lost d.log := by
  have offered := (offer_works params world peers d now d (works_refl d)).grows
  refine Flow.Marks.andThen ((emitAnnounce_marks params world now _).since offered) (fun e => ?_)
  exact Flow.marks_returned _ _ _ _ (standDown_works e e (works_refl e)).grows

theorem fallBack_marks (now : ℚ) (d : Desk) : (d.fallBack params world peers now).Marks Desk.log Call.lost d.log := by
  obtain ⟨_,again⟩ | ⟨_,ended⟩ := fallBack_cases params world peers now d
  · rw [again]
    exact announce_marks params world peers now _
  · rw [ended]
    exact Flow.marks_returned _ _ _ _ (disposeLocally_works d _ now _ (put_works d _ d rfl rfl (works_refl d))).grows

/-- What a failed GRANT shows the caller is the flow itself, or the flow with its exception swallowed. -/
theorem fails_marks (now later : ℚ) (d : Desk) (reply : Reply) (shown : Flow Desk → Flow Desk) (flow : Flow Desk)
    (base : Log) (fails : Fails world d now reply later shown) (marks : flow.Marks Desk.log Call.lost base) :
    (shown flow).Marks Desk.log Call.lost base := by
  cases fails with
  | refused => exact marks
  | resolved => exact Flow.marks_returned _ _ _ _ marks.grows

theorem closing_marks (now : ℚ) (d : Desk) (after : Flow Desk) (closing : Closing params world peers now d after) :
    after.Marks Desk.log Call.lost d.log := by
  have lost (winner : Int) (e : Desk) : e.log <:+ ((e.award world winner).lose winner).log :=
    (lose_works e winner _ (award_works world e winner e (works_refl e))).grows
  induction closing with
  | still now d quiet => exact Flow.marks_returned _ _ _ _ (List.suffix_refl _)
  | noBid now d auction present closes nobody =>
    refine Flow.marks_returned _ _ _ _ ?_
    exact (disposeLocally_works d _ now _ (put_works d _ d rfl rfl (works_refl d))).grows
  | pending now d auction winner present closes best reply =>
    exact Flow.marks_returned _ _ _ _ (award_works world d winner.bidderId d (works_refl d)).grows
  | delivered now d auction winner present closes best reply =>
    refine Flow.marks_returned _ _ _ _ ?_
    exact (grantDelivered_works d _ _ _ (award_works world d winner.bidderId d (works_refl d))).grows
  | exhausted now later d auction winner shown present closes best fails nobody =>
    exact fails_marks world now later _ _ shown _ _ fails ((fallBack_marks params world peers later _).since (lost _ d))
  | again now later d auction winner shown after present closes best fails runnerUp rest ih =>
    exact fails_marks world now later _ _ shown _ _ fails (ih.since (lost _ d))

end Desk

namespace Session
variable (cfg : Config) (world : World)

theorem runAuction_marks (peers : Registry) (now : ℚ) (d : Desk) :
    (runAuction cfg world peers now d).Marks Desk.log Call.lost d.log := by
  unfold runAuction
  split
  · exact Flow.marks_returned _ _ _ _ (List.suffix_refl _)
  · refine Flow.Marks.andThen ?_ (fun e =>
      Desk.closing_marks cfg.params world peers now e _ (Desk.maybeClose_closing cfg.params world peers now e))
    split
    · exact Desk.emitAnnounce_marks cfg.params world now d
    · exact Flow.marks_returned _ _ _ _ (List.suffix_refl _)

theorem deal_marks (taskId : Int) (work : Desk → Flow Desk) (s : Session)
    (marks : ∀ d, (work d).Marks Desk.log Call.lost d.log) :
    (s.deal taskId work).Marks Session.log Call.lost s.log := by
  unfold deal
  split
  · exact Flow.marks_returned _ _ _ _ (List.suffix_refl _)
  · rename_i record found
    obtain ⟨added,grown,marked⟩ := marks ⟨record,s.log,s.futures⟩
    cases flow : work ⟨record,s.log,s.futures⟩ with
    | returned e =>
      rw [flow] at grown
      exact ⟨added,grown,nofun⟩
    | raised e =>
      rw [flow] at grown
      exact ⟨added,grown,fun _ _ => marked e flow⟩

theorem runAuctions_marks (now : ℚ) (s : Session) :
    (s.runAuctions cfg world now).Marks Session.log Call.lost s.log :=
  Flow.marks_forEach (fun taskId t => deal_marks taskId _ t (runAuction_marks cfg world t.peers now)) _ s

theorem sendDueBids_marks (now : ℚ) (s : Session) : (sendDueBids world now s).Marks Session.log Call.lost s.log := by
  refine Flow.marks_forEach (fun taskId t => ?_) _ s
  unfold sendDueBid
  split
  · exact Flow.marks_returned _ _ _ _ (List.suffix_refl _)
  split
  · rename_i pending found due
    unfold transmitBid
    simp only
    split
    · exact Flow.marks_returned _ _ _ _ (List.suffix_cons _ _)
    · rename_i refused
      exact ⟨[_],rfl,fun _ _ => ⟨_,List.mem_singleton_self _,by simpa [Call.lost] using refused⟩⟩
  · exact Flow.marks_returned _ _ _ _ (List.suffix_refl _)

theorem maybeHeartbeat_marks (now : ℚ) (s : Session) :
    (s.maybeHeartbeat cfg world now).Marks Session.log Call.lost s.log := by
  unfold maybeHeartbeat
  split
  · exact Flow.marks_returned _ _ _ _ (List.suffix_refl _)
  · simp only
    split
    · exact Flow.marks_returned _ _ _ _ (List.suffix_cons _ _)
    · rename_i refused
      exact ⟨[_],rfl,fun _ _ => ⟨_,List.mem_singleton_self _,by simpa [Call.lost] using refused⟩⟩

theorem tick_marks (s : Session) : (s.tick cfg world).Marks Session.log Call.lost s.log := by
  unfold tick
  refine Flow.Marks.andThen (Flow.Marks.andThen ?_ (sendDueBids_marks world _)) (fun t => ?_)
  · exact runAuctions_marks cfg world _ (s.agePeers cfg _)
  · exact (maybeHeartbeat_marks cfg world _ t).andThen (fun u => Flow.marks_returned _ _ _ _ (List.suffix_refl _))

/-- Every sweep of the tick goes to its end: the auctions, the bids, the heartbeat, the pruning. -/
def Swept (s : Session) : Prop :=
  ∃ auctions bids beat, (s.agePeers cfg (world.clock s.log)).runAuctions cfg world (world.clock s.log) = .returned auctions ∧
    sendDueBids world (world.clock s.log) auctions = .returned bids ∧
    bids.maybeHeartbeat cfg world (world.clock s.log) = .returned beat ∧
    s.tick cfg world = .returned (beat.prune cfg (world.clock s.log))

/-- What the tick puts on the air goes out. -/
def TickHeard (s : Session) : Prop :=
  ∀ added, (s.tick cfg world).state.log = added ++ s.log → ∀ call ∈ added, ¬ call.lost

theorem swept_of_returned (s t : Session) (ran : s.tick cfg world = .returned t) : s.Swept cfg world := by
  have whole := ran
  unfold tick at ran
  simp only at ran
  cases swept : (s.agePeers cfg (world.clock s.log)).runAuctions cfg world (world.clock s.log) with
  | raised auctions => simp [swept] at ran
  | returned auctions =>
    simp only [swept,Flow.andThen_returned] at ran
    cases sent : sendDueBids world (world.clock s.log) auctions with
    | raised bids => simp [sent] at ran
    | returned bids =>
      simp only [sent,Flow.andThen_returned] at ran
      cases beaten : bids.maybeHeartbeat cfg world (world.clock s.log) with
      | raised beat => simp [beaten] at ran
      | returned beat =>
        simp only [beaten,Flow.andThen_returned] at ran
        exact ⟨auctions,bids,beat,swept,sent,beaten,whole.trans ran.symm⟩

theorem tick_swept (s : Session) (heard : s.TickHeard cfg world) : s.Swept cfg world :=
  swept_of_returned cfg world s _ ((tick_marks cfg world s).unmarked heard)

/-- The report leaves the record as the claim has it exactly if the delegation is contained,
and every later tick whose broadcasts go out carries out every sweep. -/
theorem announcement_contained (reported : Option Task) (detail : String) (code : Int) (door : Door) (s t : Session)
    (task : Task) (reasonCode : Int) (fallback : LocalDisposition) (note : String)
    (chosen : s.comesTo world reported detail code door = some (.reDelegate task reasonCode fallback note,t)) :
    (s.Stands task (s.report cfg world reported detail code door).state ↔
      t.Contained cfg world task reasonCode fallback note (world.clock s.log)) ∧
    ∀ (steps : List Label) (air : World),
      ((machine cfg).runs (s.report cfg world reported detail code door).state steps).TickHeard cfg air →
        ((machine cfg).runs (s.report cfg world reported detail code door).state steps).Swept cfg air :=
  ⟨report_stands cfg world reported detail code door s t task reasonCode fallback note chosen,
    fun _ air heard => tick_swept cfg air _ heard⟩

/-- The codec as the radio's only reason to refuse. -/
def wired (now : ℚ) : World :=
  { clockAt now with broadcast := fun _ message => ((encode (message.stamped 1 0) 200).toOption).isSome }

def neighbour : Task := { field with taskId := 8, idRange := by decide }

def farther : Task := { field with taskId := 9, idRange := by decide }

/-- Two tasks of ours, a bid to be sent, and the second task announced. -/
def busyRun : List Label :=
  [⟨wired 0,.own field⟩,⟨wired 0,.own neighbour⟩,
    ⟨wired 0,.message ((Message.taskAnnounce (Desk.announcement { serial := 0, task := farther })).stamped 2 0)⟩,
    ⟨wired 1,.report (some neighbour) "" 0 (.given (some (.reDelegate neighbour 0 .hold "")))⟩]

def busy : Session := (machine robot).runs {} busyRun

def delegated (reasonCode : Int) : Session :=
  (busy.report robot (wired 1) (some field) "" 0 (.given (some (.reDelegate field reasonCode .hold "")))).state

theorem tickHeard_of_all (s : Session) (all : ((s.tick cfg world).state.log.all (fun call => ¬ call.lost)) = true) :
    s.TickHeard cfg world := by
  intro added grown call member
  rw [grown,List.all_append,Bool.and_eq_true] at all
  simpa using List.all_eq_true.mp all.1 call member

theorem announcement_contained_ordinary :
    busy.Stands field (delegated 4) ∧ ((machine robot).runs (delegated 4) []).Swept robot (wired 4) := by
  obtain ⟨stands,sweeps⟩ := announcement_contained robot (wired 1) (some field) "" 0
    (.given (some (.reDelegate field 4 .hold ""))) busy (busy.enrollReported (some field)) field 4 .hold "" rfl
  exact ⟨stands.mpr (by decide +kernel),sweeps [] (wired 4) (tickHeard_of_all robot (wired 4) _ (by decide +kernel))⟩

/-- A reason code that no byte holds: the record says announced and nothing went out, and the
tick that repeats the announcement makes no other call. -/
theorem announcement_wedges :
    ¬ busy.Stands field (delegated 300) ∧
    ((delegated 300).tasks.get? 7).any (fun r => r.state = .announced ∧ r.delegationAttempts = 1 ∧ r.inMission) = true ∧
    (delegated 300).log.head?.any (fun call => call.lost) = true ∧
    ¬ (delegated 300).Swept robot (wired 4) ∧
    ((delegated 300).tick robot (wired 4)).state.log.length = (delegated 300).log.length + 1 := by
  refine ⟨?_,by decide +kernel,by decide +kernel,?_,by decide +kernel⟩
  · have stands := report_stands robot (wired 1) (some field) "" 0 (.given (some (.reDelegate field 300 .hold "")))
      busy (busy.enrollReported (some field)) field 300 .hold "" rfl
    exact fun holds => absurd (stands.mp holds) (by decide +kernel)
  · rintro ⟨_,_,_,_,_,_,ran⟩
    have stopped : ((delegated 300).tick robot (wired 4)).finished = false := by decide +kernel
    rw [ran] at stopped
    cases stopped

end Session
end AmigaFleet.Coordinator
