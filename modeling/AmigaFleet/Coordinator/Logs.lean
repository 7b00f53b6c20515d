import AmigaFleet.Coordinator.Records

/-! Which calls a piece of work makes. The log only grows; work on one record
makes calls about that object alone, and serials tell the objects apart. -/
namespace AmigaFleet.Coordinator
open Lib AmigaFleet.Codec AmigaFleet.Reliability

def Call.serial? : Call → Option Nat
  | .sendReliable record .. => some record.serial
  | .replanAndVerify serial _ => some serial
  | .opened record => some record.serial
  | _ => none

/-- A call that work on this record may make. -/
def Call.Concerns (r : OwnedTask) : Call → Prop
  | .broadcast message _ => ∃ q : OwnedTask, q.task = r.task ∧ message = .taskAnnounce (Desk.announcement q)
  | .sendReliable record dst message _ => record.serial = r.serial ∧ record.task = r.task ∧
      message = .grant ⟨0,0,r.task.taskId,dst⟩
  | .replanAndVerify serial _ => serial = r.serial
  | .opened record => record.serial = r.serial ∧ record.task = r.task
  | .sendNote .. | .release .. | .markTransferred .. | .requestYield .. => True
  | .absorb .. | .interpretAnomaly .. | .apply .. | .entered .. | .received .. => False

theorem concerns_serial? (r : OwnedTask) (call : Call) (concerns : call.Concerns r) (n : Nat)
    (about : call.serial? = some n) : n = r.serial := by
  cases call with
  | sendReliable record dst message reply =>
    injection about with about
    exact about.symm.trans concerns.1
  | replanAndVerify serial delta =>
    injection about with about
    exact about.symm.trans concerns
  | opened record =>
    injection about with about
    exact about.symm.trans concerns.1
  | _ => cases about

theorem concerns_congr (r q : OwnedTask) (serial : r.serial = q.serial) (task : r.task = q.task)
    (call : Call) (concerns : call.Concerns r) : call.Concerns q := by
  unfold Call.Concerns at concerns ⊢
  rw [← serial,← task]
  exact concerns

namespace Desk

/-- Work on one record: it stays the same object for the same task, and every call concerns it. -/
structure Works (start d : Desk) : Prop where
  serial : d.record.serial = start.record.serial
  task : d.record.task = start.record.task
  log : ∃ added, d.log = added ++ start.log ∧ ∀ call ∈ added, call.Concerns start.record
  futures : ∀ future ∈ d.futures, future ∈ start.futures ∨ future.taskId = start.record.task.taskId

variable (params : CoordinatorParams) (world : World) (peers : Registry) (start : Desk)

theorem works_refl : Works start start :=
  ⟨rfl,rfl,⟨[],rfl,fun _ member => by cases member⟩,fun _ member => .inl member⟩

theorem Works.grows (d : Desk) (works : Works start d) : start.log <:+ d.log := by
  obtain ⟨added,same,_⟩ := works.log
  exact ⟨added,same.symm⟩

theorem say_works (call : Call) (d : Desk) (concerns : call.Concerns d.record) (before : Works start d) :
    Works start (d.say call) := by
  obtain ⟨added,same,calls⟩ := before.log
  refine ⟨before.serial,before.task,⟨call::added,by simp [same],?_⟩,before.futures⟩
  intro other member
  obtain rfl | old := List.mem_cons.mp member
  · exact concerns_congr _ _ before.serial before.task _ concerns
  · exact calls other old

theorem put_works (record : OwnedTask) (d : Desk) (serial : record.serial = d.record.serial)
    (task : record.task = d.record.task) (before : Works start d) : Works start (d.put record) :=
  ⟨serial.trans before.serial,task.trans before.task,before.log,before.futures⟩

theorem leaveMission_works (cause : String) (d : Desk) (before : Works start d) :
    Works start (d.leaveMission cause) := by
  unfold leaveMission
  split
  · exact say_works start _ _ rfl (put_works start _ d rfl rfl before)
  · exact before

theorem rejoinMission_works (cause : String) (d : Desk) (before : Works start d) :
    Works start (d.rejoinMission cause) := by
  unfold rejoinMission
  split
  · exact before
  · exact say_works start _ _ rfl (put_works start _ d rfl rfl before)

theorem disposeLocally_works (disposition : LocalDisposition) (now : ℚ) (d : Desk)
    (before : Works start d) : Works start (d.disposeLocally disposition now) := by
  cases disposition with
  | drop =>
    apply leaveMission_works
    apply say_works _ _ _ (by exact trivial)
    apply say_works _ _ _ (by exact trivial)
    exact put_works start _ d rfl rfl before
  | hold =>
    apply rejoinMission_works
    exact put_works start _ d rfl rfl before
  | requestHuman =>
    apply rejoinMission_works
    apply say_works _ _ _ (by exact trivial)
    exact put_works start _ d rfl rfl before

theorem emitNote_works (d : Desk) (before : Works start d) : Works start (d.emitNote world).2 := by
  unfold emitNote
  split
  · exact before
  · exact say_works start _ d trivial before

theorem emitAnnounce_log (now : ℚ) (d : Desk) :
    (d.emitAnnounce params world now).state.log =
      .broadcast (.taskAnnounce (announcement d.record))
        (world.broadcast d.log (.taskAnnounce (announcement d.record))) :: d.log := by
  unfold emitAnnounce
  simp only
  split
  · rename_i sent
    simp [sent]
  · rename_i lost
    simp [lost]

theorem emitAnnounce_works (now : ℚ) (d : Desk) (before : Works start d) :
    Works start (d.emitAnnounce params world now).state := by
  unfold emitAnnounce
  simp only
  have said := say_works start (.broadcast (.taskAnnounce (announcement d.record))
    (world.broadcast d.log (.taskAnnounce (announcement d.record)))) d ⟨d.record,rfl,rfl⟩ before
  split
  · exact put_works start _ _ rfl rfl said
  · exact said

theorem offer_works (now : ℚ) (d : Desk) (before : Works start d) :
    Works start (d.offer params world peers now) := by
  have opened : Works start (d.announcing now) := by
    exact say_works start _ _ ⟨rfl,rfl⟩ (put_works start _ d rfl rfl before)
  exact put_works start _ _ rfl rfl (emitNote_works world start _ opened)

theorem standDown_works (d : Desk) (before : Works start d) : Works start d.standDown := by
  apply leaveMission_works
  exact say_works start _ d trivial before

theorem announce_works (now : ℚ) (d : Desk) (before : Works start d) :
    Works start (d.announce params world peers now).state := by
  apply Flow.andThen_keeps (Works start)
  · apply emitAnnounce_works
    exact offer_works params world peers start now d before
  · intro e emitted
    exact standDown_works start e emitted

theorem fallBack_works (now : ℚ) (d : Desk) (before : Works start d) :
    Works start (d.fallBack params world peers now).state := by
  obtain ⟨_,again⟩ | ⟨_,ended⟩ := fallBack_cases params world peers now d
  · rw [again]
    exact announce_works params world peers start now _ (put_works start _ d rfl rfl before)
  · rw [ended]
    exact disposeLocally_works start _ now _ (put_works start _ d rfl rfl before)

theorem award_works (winnerId : Int) (d : Desk) (before : Works start d) :
    Works start (d.award world winnerId) := by
  exact say_works start _ _ ⟨rfl,rfl,rfl⟩ (put_works start _ d rfl rfl before)

theorem grantDelivered_works (winnerId : Int) (now : ℚ) (d : Desk) (before : Works start d) :
    Works start (d.grantDelivered winnerId now) := by
  apply leaveMission_works
  apply say_works _ _ _ (by exact trivial)
  apply say_works _ _ _ (by exact trivial)
  exact put_works start _ d rfl rfl before

theorem lose_works (winnerId : Int) (d : Desk) (before : Works start d) : Works start (d.lose winnerId) :=
  put_works start _ d rfl rfl before

theorem await_works (winnerId : Int) (d : Desk) (before : Works start d) :
    Works start (d.await winnerId) := by
  refine ⟨before.serial,before.task,before.log,?_⟩
  intro future member
  obtain rfl | old := List.mem_cons.mp member
  · exact .inr (congrArg Task.taskId before.task)
  · exact before.futures future old

theorem cascades_works : Cascades params world peers (Works start) (Works start) (Works start) where
  still _ before := before
  noBid d now before := disposeLocally_works start _ now _ (put_works start _ d rfl rfl before)
  sent d _ winner before _ _ _ :=
    await_works start winner.bidderId _ (award_works world start winner.bidderId d before)
  delivered d _ winner now before _ _ _ :=
    grantDelivered_works start _ now _ (award_works world start winner.bidderId d before)
  failed d _ winner before _ _ _ :=
    lose_works start _ _ (award_works world start winner.bidderId d before)
  reopened d before _ := put_works start _ d rfl rfl before
  fallenBack d now before _ := fallBack_works params world peers start now d before

theorem maybeClose_works (now : ℚ) (d : Desk) (before : Works start d) :
    Works start (d.maybeClose params world peers now).state :=
  (cascades_works params world peers start).maybeClose params world peers _ _ _ now d before

theorem settle_works (winnerId : Int) (outcome : Outcome) (d : Desk) (before : Works start d) :
    Works start (d.settle params world peers winnerId outcome).state :=
  (cascades_works params world peers start).settle params world peers _ _ _ winnerId outcome d
    (fun _ => before) (fun now _ _ => grantDelivered_works start winnerId now d before)
    (fun _ _ => lose_works start winnerId d before)

end Desk

namespace Session
variable (cfg : Config) (world : World)

def Stays (work : Desk → Flow Desk) : Prop := ∀ d, Desk.Works d (work d).state

theorem delegate_stays (peers : Registry) (openAuctions : Nat) (reasonCode : Int)
    (fallback : LocalDisposition) (note : String) (now : ℚ) :
    Stays (delegate cfg world peers openAuctions reasonCode fallback note now) := by
  intro d
  have told := Desk.put_works d (instructed fallback reasonCode note d.record) d rfl rfl (Desk.works_refl d)
  obtain ⟨_,same⟩ | ⟨_,_,same⟩ | ⟨_,_,same⟩ :=
    delegate_cases cfg world peers openAuctions reasonCode fallback note now d
  · rw [same]
    exact told
  · rw [same]
    exact Desk.disposeLocally_works d fallback now _ told
  · rw [same]
    exact Desk.announce_works cfg.params world peers d now _ told

theorem dispose_stays (disposition : LocalDisposition) (now : ℚ) :
    Stays (fun d => .returned (d.disposeLocally disposition now)) := by
  intro d
  exact Desk.disposeLocally_works d disposition now d (Desk.works_refl d)

theorem fileBid_stays (s : Session) (auction : Auction) (now : ℚ) :
    Stays (s.fileBid cfg world auction now) := by
  intro d
  exact Desk.maybeClose_works cfg.params world s.peers d now _
    (Desk.put_works d _ d rfl rfl (Desk.works_refl d))

theorem runAuction_stays (peers : Registry) (now : ℚ) : Stays (runAuction cfg world peers now) := by
  intro d
  exact runAuction_rule cfg world peers _ _ _ (Desk.cascades_works cfg.params world peers d) now d
    (fun _ => Desk.works_refl d) (fun _ _ => Desk.works_refl d)
    (fun _ => Desk.emitAnnounce_works cfg.params world d now d (Desk.works_refl d))

theorem settle_stays (peers : Registry) (winnerId : Int) (outcome : Outcome) :
    Stays (fun d => d.settle cfg.params world peers winnerId outcome) := by
  intro d
  exact Desk.settle_works cfg.params world peers d winnerId outcome d (Desk.works_refl d)

theorem deal_log (taskId : Int) (work : Desk → Flow Desk) (s : Session)
    (stays : Stays work) : s.log <:+ (s.deal taskId work).state.log := by
  cases found : s.tasks.get? taskId with
  | none => rw [state_deal_none taskId work s found]
  | some record =>
    rw [state_deal taskId work s record found]
    exact (stays ⟨record,s.log,s.futures⟩).grows

theorem enrollMissing_log (task : Task) (s : Session) : (s.enrollMissing task).log = s.log := by
  unfold enrollMissing
  split <;> rfl

theorem beginDelegation_log (task : Task) (reasonCode : Int) (fallback : LocalDisposition)
    (note : String) (now : ℚ) (s : Session) :
    s.log <:+ (s.beginDelegation cfg world task reasonCode fallback note now).state.log := by
  refine List.IsSuffix.trans ?_ (deal_log task.taskId _ _ (delegate_stays cfg world _ _ _ _ _ _))
  rw [enrollMissing_log]

theorem dropTask_log (task : Task) (disposition : LocalDisposition) (now : ℚ) (s : Session) :
    s.log <:+ (s.dropTask task disposition now).state.log := by
  refine List.IsSuffix.trans ?_ (deal_log task.taskId _ _ (dispose_stays disposition now))
  rw [enrollMissing_log]

theorem enrollMissing_futures (task : Task) (s : Session) :
    (s.enrollMissing task).futures = s.futures := by
  unfold enrollMissing
  split <;> rfl

theorem absorb_log (task : Task) (cause note : String) (s : Session) :
    s.log <:+ (s.absorb world task cause note).2.log :=
  ⟨[.replanAndVerify s.nextSerial { added := [task], cause := cause, note := note },
    .requestYield ("task " ++ toString task.taskId ++ " absorbed (" ++ cause ++ ")"),.absorb task,
    .entered task s.futures],rfl⟩

theorem move_log (s t : Session) (move : Move cfg world s t) : s.log <:+ t.log := by
  cases move with
  | aside t tasks log futures serial => rw [log]
  | told call plain => exact List.suffix_cons _ _
  | enrolled task free => exact List.suffix_cons _ _
  | absorbed task cause note free => exact absorb_log world task cause note s
  | unabsorbed task cause note free =>
    exact (absorb_log world task cause note s).trans (List.suffix_cons _ _)
  | delegated task reasonCode fallback note now =>
    exact (List.suffix_cons _ _).trans (beginDelegation_log cfg world _ _ _ _ _ (s.say _))
  | dropped task disposition reasonCode now =>
    exact (List.suffix_cons _ _).trans (dropTask_log task disposition now (s.say _))
  | filed bid now record auction after found collects welcome taken heard =>
    exact deal_log bid.taskId _ s (fileBid_stays cfg world s after now)
  | ran taskId now => exact deal_log taskId _ s (runAuction_stays cfg world s.peers now)
  | forgot gone => exact List.suffix_refl _
  | pruned now => exact List.suffix_refl _

theorem moves_log (s t : Session) (moves : Moves cfg world s t) : s.log <:+ t.log := by
  induction moves with
  | refl => exact List.suffix_refl _
  | tail _ last ih => exact ih.trans (move_log cfg world _ _ last)

theorem announced_announcement (r : OwnedTask) :
    announcedTask (Desk.announcement r) = some r.task := by
  obtain ⟨idLow,idHigh⟩ := r.task.idRange
  obtain ⟨maskLow,maskHigh⟩ := r.task.maskRange
  obtain ⟨priorityLow,priorityHigh⟩ := r.task.priorityRange
  simp [announcedTask,Desk.announcement,Task.build,idLow,idHigh,maskLow,maskHigh,priorityLow,priorityHigh]

/-- What goes on the air is what its call says: an announcement describes a
task, no GRANT is broadcast, and a GRANT sent names its addressee as the winner
of the record's task. -/
def SaidWell : Call → Prop
  | .broadcast (.taskAnnounce m) _ => ∃ task, announcedTask m = some task
  | .broadcast (.grant _) _ => False
  | .sendReliable record dst message _ => message = .grant ⟨0,0,record.task.taskId,dst⟩
  | _ => True

theorem saidWell_plain (call : Call) (plain : call.plain = true) : SaidWell call := by
  cases call with
  | broadcast message sent =>
    cases message with
    | taskAnnounce m => cases plain
    | grant grant => cases plain
    | _ => trivial
  | sendReliable record dst message reply => cases plain
  | _ => trivial

theorem saidWell_concerns (r : OwnedTask) (call : Call) (concerns : call.Concerns r) : SaidWell call := by
  cases call with
  | broadcast message sent =>
    obtain ⟨q,_,rfl⟩ := concerns
    exact ⟨q.task,announced_announcement q⟩
  | sendReliable record dst message reply =>
    obtain ⟨_,task,rfl⟩ := concerns
    rw [← task]
    rfl
  | _ => trivial

theorem deal_saidWell (taskId : Int) (work : Desk → Flow Desk) (stays : Stays work) (s : Session)
    (before : ∀ call ∈ s.log, SaidWell call) : ∀ call ∈ (s.deal taskId work).state.log, SaidWell call := by
  cases found : s.tasks.get? taskId with
  | none =>
    rw [state_deal_none taskId work s found]
    exact before
  | some record =>
    rw [state_deal taskId work s record found]
    obtain ⟨added,grown,concerns⟩ := (stays ⟨record,s.log,s.futures⟩).log
    intro call member
    simp only [store,grown] at member
    obtain new | old := List.mem_append.mp member
    · exact saidWell_concerns _ call (concerns call new)
    · exact before call old

theorem move_saidWell (s t : Session) (move : Move cfg world s t) (before : ∀ call ∈ s.log, SaidWell call) :
    ∀ call ∈ t.log, SaidWell call := by
  have say : ∀ call : Call, SaidWell call → ∀ other ∈ (s.say call).log, SaidWell other := by
    intro call well other member
    obtain rfl | old := List.mem_cons.mp member
    · exact well
    · exact before other old
  cases move with
  | aside t tasks log futures serial => rwa [log]
  | told call plain => exact say call (saidWell_plain call plain)
  | enrolled task free => exact say _ trivial
  | absorbed task cause note free =>
    intro call member
    simp only [absorb,enter,enroll,Session.say,List.mem_cons] at member
    obtain rfl | rfl | rfl | rfl | old := member
    · trivial
    · trivial
    · trivial
    · trivial
    · exact before call old
  | unabsorbed task cause note free =>
    intro call member
    simp only [unabsorb,absorb,enter,enroll,Session.say,List.mem_cons] at member
    obtain rfl | rfl | rfl | rfl | rfl | old := member
    · trivial
    · trivial
    · trivial
    · trivial
    · trivial
    · exact before call old
  | delegated task reasonCode fallback note now =>
    refine deal_saidWell task.taskId _ (delegate_stays cfg world _ _ _ _ _ _) _ ?_
    rw [enrollMissing_log]
    exact say _ trivial
  | dropped task disposition reasonCode now =>
    refine deal_saidWell task.taskId _ (dispose_stays disposition now) _ ?_
    rw [enrollMissing_log]
    exact say _ trivial
  | filed bid now record auction after found collects welcome taken heard =>
    exact deal_saidWell bid.taskId _ (fileBid_stays cfg world s after now) s before
  | ran taskId now => exact deal_saidWell taskId _ (runAuction_stays cfg world s.peers now) s before
  | forgot gone => exact before
  | pruned now => exact before

theorem resolve_cases (id : Nat) (outcome : Outcome) (s : Session) :
    (s.resolve cfg world id outcome).state = s ∨
    ∃ future ∈ s.futures, future.id = id ∧ (s.resolve cfg world id outcome).state =
      ((s.without id).deal future.taskId (fun d =>
        d.settle cfg.params world s.peers future.winnerId outcome)).state := by
  unfold resolve
  split
  · exact .inl rfl
  · rename_i future found
    refine .inr ⟨future,List.mem_of_find?_eq_some found,?_,rfl⟩
    simpa using List.find?_some found

theorem resolve_log (id : Nat) (outcome : Outcome) (s : Session) :
    s.log <:+ (s.resolve cfg world id outcome).state.log := by
  obtain same | ⟨future,_,_,same⟩ := resolve_cases cfg world id outcome s
  · rw [same]
  · rw [same]
    exact deal_log future.taskId _ (s.without id)
      (settle_stays cfg world s.peers _ _)

theorem perform_log (op : Op) (s : Session) : s.log <:+ (s.perform cfg world op).state.log := by
  by_cases isOutcome : ∃ id outcome, op = .outcome id outcome
  · obtain ⟨id,outcome,rfl⟩ := isOutcome
    exact resolve_log cfg world id outcome s
  · push Not at isOutcome
    exact moves_log cfg world _ _ (perform_moves cfg world op isOutcome s)

/-- The session rule: what the moves and the outcomes keep, every run keeps. A
condition on the calls of a run is one on the last log, which holds all of them. -/
theorem invariant (allowed : Call → Prop) (I : Session → Prop)
    (base : I {})
    (moves : ∀ world s t, Move cfg world s t → (∀ call ∈ t.log, allowed call) → I s → I t)
    (outcomes : ∀ world s id outcome,
      (∀ call ∈ (s.resolve cfg world id outcome).state.log, allowed call) → I s →
      I (s.resolve cfg world id outcome).state)
    (s : Session) (reached : (machine cfg).Reachable s) (calls : ∀ call ∈ s.log, allowed call) : I s := by
  revert calls
  refine reached.invariant (fun s => (∀ call ∈ s.log, allowed call) → I s) ?_ ?_ s
  · intro s initial _
    rw [show s = {} from initial]
    exact base
  · rintro s ⟨world,op⟩ _ before _ _ calls
    have start : I s := before (fun call member =>
      calls call ((perform_log cfg world op s).subset member))
    by_cases isOutcome : ∃ id outcome, op = .outcome id outcome
    · obtain ⟨id,outcome,rfl⟩ := isOutcome
      exact outcomes world s id outcome calls start
    · push Not at isOutcome
      have path := perform_moves cfg world op isOutcome s
      refine Moves.keeps cfg world (fun t => (∀ call ∈ t.log, allowed call) → I t) ?_ s _ path
        (fun _ => start) calls
      intro u v move before calls
      exact moves world u v move calls (before (fun call member =>
        calls call ((move_log cfg world u v move).subset member)))

theorem reachable_saidWell (s : Session) (reached : (machine cfg).Reachable s) :
    ∀ call ∈ s.log, SaidWell call := by
  refine invariant cfg (fun _ => True) (fun s => ∀ call ∈ s.log, SaidWell call) ?_ ?_ ?_ s reached
    (fun _ _ => trivial)
  · exact fun _ member => by cases member
  · exact fun world s t move _ before => move_saidWell cfg world s t move before
  · intro world s id outcome _ before
    obtain same | ⟨future,_,_,same⟩ := resolve_cases cfg world id outcome s
    · rwa [same]
    · rw [same]
      exact deal_saidWell future.taskId _ (settle_stays cfg world s.peers _ _) (s.without id) before

end Session
end AmigaFleet.Coordinator
