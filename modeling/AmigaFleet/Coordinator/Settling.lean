import AmigaFleet.Coordinator.Tracking

/-! `settled_at` and the pruning that reads it. The clock of a settled record is
never cleared, so a record that comes back to us is pruned as if it had not;
as long as no action brings one back, pruning takes settled records only. -/
namespace AmigaFleet.Coordinator
open Lib AmigaFleet.Codec AmigaFleet.Reliability

def OwnedTask.Settled (r : OwnedTask) : Prop := r.settledAt.isSome = true ↔ r.ours = false

/-- A record of ours on which the retention clock does not run. -/
def OwnedTask.Live (r : OwnedTask) : Prop := r.settledAt = none ∧ r.ours = true

theorem OwnedTask.Live.settled (r : OwnedTask) (live : r.Live) : r.Settled := by
  simp [Settled,live.1,live.2]

theorem OwnedTask.Settled.live (r : OwnedTask) (settled : r.Settled) (ours : r.ours = true) : r.Live := by
  refine ⟨?_,ours⟩
  have clear : ¬ r.settledAt.isSome = true := fun set => by simp [settled.mp set] at ours
  simpa using clear

namespace Desk
variable (params : CoordinatorParams) (world : World) (peers : Registry)

theorem dispose_settled (disposition : LocalDisposition) (now : ℚ) (d : Desk)
    (clear : disposition = .drop ∨ d.record.settledAt = none) :
    (d.disposeLocally disposition now).record.Settled := by
  rw [dispose_record]
  split
  · simp [OwnedTask.Settled,OwnedTask.ours,TaskState.isOurs]
  · rename_i kept
    have clear := clear.resolve_left kept
    simp [OwnedTask.Settled,OwnedTask.ours,TaskState.isOurs,clear]

theorem announce_settled (now : ℚ) (d : Desk) (clear : d.record.settledAt = none) :
    (d.announce params world peers now).state.record.Settled := by
  obtain ⟨auction,inMission,_,shape⟩ := announce_record params world peers now d
  rw [shape]
  simp [OwnedTask.Settled,OwnedTask.ours,TaskState.isOurs,clear]

theorem grantDelivered_settled (winnerId : Int) (now : ℚ) (d : Desk) :
    (d.grantDelivered winnerId now).record.Settled := by
  rw [grantDelivered_record]
  simp [OwnedTask.Settled,OwnedTask.ours,TaskState.isOurs]

theorem fallBack_settled (now : ℚ) (d : Desk) (clear : d.record.settledAt = none) :
    (d.fallBack params world peers now).state.record.Settled := by
  obtain ⟨_,again⟩ | ⟨_,ended⟩ := fallBack_cases params world peers now d
  · rw [again]
    exact announce_settled params world peers now _ clear
  · rw [ended]
    exact dispose_settled _ now _ (.inr clear)

theorem cascades_settled : Cascades params world peers (fun d => d.record.Live)
    (fun d => d.record.Live) (fun d => d.record.Settled) where
  still d live := live.settled
  noBid d now live := dispose_settled _ now (d.put _) (.inr live.1)
  sent d _ winner live _ _ _ := by
    rw [await_record,award_record]
    simp [OwnedTask.Settled,OwnedTask.ours,TaskState.isOurs,live.1]
  delivered d _ _ now _ _ _ _ := grantDelivered_settled _ now _
  failed d _ _ live _ _ _ := ⟨live.1,rfl⟩
  reopened d live _ := ⟨live.1,rfl⟩
  fallenBack d now live _ := fallBack_settled params world peers now d live.1

end Desk

namespace Session
variable (cfg : Config) (world : World)

/-- An action that finds the record of its task settled and makes it ours again. -/
def Reopens (now : ℚ) (tasks : Dict Int OwnedTask) : Action → Prop
  | .addTask .. => False
  | .dropTask task disposition _ => disposition ≠ .drop ∧
      (tasks.get? task.taskId).any (fun r => r.ours = false) = true
  | .reDelegate task _ fallback _ => (tasks.get? task.taskId).any (fun r => r.ours = false ∧
      (fallback = .drop → ¬ Refuses cfg (tasks.countValues (fun r => r.state = .announced)) now r)) = true

/-- The calls of a run in which no action reopens a settled record. -/
def LeavesSettled : Call → Prop
  | .apply action now tasks _ => ¬ Reopens cfg now tasks action
  | _ => True

instance (now : ℚ) (tasks : Dict Int OwnedTask) : DecidablePred (Reopens cfg now tasks)
  | .addTask .. => inferInstanceAs (Decidable False)
  | .dropTask .. => inferInstanceAs (Decidable (_ ∧ _))
  | .reDelegate .. => inferInstanceAs (Decidable (_ = true))

instance : DecidablePred (LeavesSettled cfg)
  | .apply .. => inferInstanceAs (Decidable (¬ _))
  | .broadcast .. | .sendNote .. | .sendReliable .. | .absorb .. | .release .. | .markTransferred .. |
    .replanAndVerify .. | .requestYield .. | .interpretAnomaly .. | .received .. | .entered .. |
    .opened .. =>
    inferInstanceAs (Decidable True)

def AllSettled (s : Session) : Prop := ∀ id r, s.tasks.get? id = some r → r.Settled

theorem delegate_settled (peers : Registry) (openAuctions : Nat) (reasonCode : Int)
    (fallback : LocalDisposition) (note : String) (now : ℚ) (d : Desk) (settled : d.record.Settled)
    (closed : d.record.ours = false → fallback = .drop ∧ Refuses cfg openAuctions now d.record) :
    (delegate cfg world peers openAuctions reasonCode fallback note now d).state.record.Settled := by
  have clear : d.record.ours = true → d.record.settledAt = none :=
    fun ours => (settled.live _ ours).1
  obtain ⟨_,same⟩ | ⟨_,refused,same⟩ | ⟨_,room,same⟩ :=
    delegate_cases cfg world peers openAuctions reasonCode fallback note now d
  · rw [same]
    exact settled
  · rw [same]
    refine Desk.dispose_settled _ now _ ?_
    cases ours : d.record.ours with
    | true => exact .inr (clear ours)
    | false => exact .inl (closed ours).1
  · rw [same]
    cases ours : d.record.ours with
    | true => exact Desk.announce_settled _ _ _ _ _ (clear ours)
    | false => exact absurd (closed ours).2 room

theorem runAuction_settled (peers : Registry) (now : ℚ) (d : Desk) (settled : d.record.Settled) :
    (runAuction cfg world peers now d).state.record.Settled := by
  refine runAuction_rule cfg world peers _ _ _ (Desk.cascades_settled cfg.params world peers) now d
    (fun _ => settled) ?_ ?_
  · intro auction collects
    exact settled.live _ (ours_of_state _ _ ((collecting_eq_some _ _).mp collects).1 rfl)
  · intro live
    obtain ⟨change,_,shape⟩ := Desk.emitAnnounce_record cfg.params world now d
    rw [shape]
    exact live

theorem deal_settled (taskId : Int) (work : Desk → Flow Desk) (s : Session) (before : s.AllSettled)
    (worked : ∀ r, s.tasks.get? taskId = some r → (work ⟨r,s.log,s.futures⟩).state.record.Settled) :
    (s.deal taskId work).state.AllSettled :=
  deal_records (fun _ r => r.Settled) taskId work s before worked

theorem forget_settled (gone : List PeerRecord) (s : Session) (before : s.AllSettled) :
    AllSettled { s with tasks := s.tasks.mapValues (forgetGone gone) } := by
  intro id r found
  simp only [Dict.get?_mapValues,Option.map_eq_some_iff] at found
  obtain ⟨old,there,rfl⟩ := found
  exact before id old there

theorem settle_settled (peers : Registry) (winnerId : Int) (outcome : Outcome) (d : Desk)
    (settled : d.record.Settled) :
    (d.settle cfg.params world peers winnerId outcome).state.record.Settled := by
  refine (Desk.cascades_settled cfg.params world peers).settle _ _ _ _ _ _ winnerId outcome d
    (fun _ => settled) (fun now _ _ => Desk.grantDelivered_settled _ now _) ?_
  intro granted _
  exact ⟨(settled.live _ (ours_of_state _ .granted granted rfl)).1,rfl⟩

theorem fresh_settled (serial : Nat) (task : Task) : OwnedTask.Settled { serial := serial, task := task } := by
  simp [OwnedTask.Settled,OwnedTask.ours,TaskState.isOurs]

theorem tracks_settled : Tracks cfg (fun r log => (∀ call ∈ log, LeavesSettled cfg call) → r.Settled)
    (fun _ _ => True) where
  live _ _ _ := trivial
  frame _ _ _ _ holds calls := holds (fun call member => calls call (List.mem_append_right _ member))
  past _ _ _ _ _ := trivial
  unknown _ _ _ := trivial
  fresh serial task _ _ _ := fresh_settled serial task
  absorbed serial task _ _ _ _ _ := fresh_settled serial task
  forgotten _ _ _ holds := holds
  delegated world peers task reasonCode fallback note now tasks r log futures found holds := by
    intro after calls
    have grown := (delegate_stays cfg world peers (announcedIn tasks) reasonCode fallback note now
      ⟨r,.apply (.reDelegate task reasonCode fallback note) now tasks futures :: log,futures⟩).grows.subset
    have settled := holds (fun call member => calls call (grown member))
    refine delegate_settled cfg world peers _ reasonCode fallback note now _ settled ?_
    intro ended
    have logged := calls _ (grown List.mem_cons_self)
    obtain ⟨_,old | ⟨_,_,rfl⟩⟩ := found
    · simp only [LeavesSettled,Reopens,old,Option.any_some,decide_eq_true_eq,not_and] at logged
      have closed := logged ended
      rw [Classical.not_imp,not_not] at closed
      exact closed
    · cases ended
  dropped task disposition reasonCode now tasks r log futures found holds := by
    intro after calls
    have grown := (dispose_stays disposition now
      ⟨r,.apply (.dropTask task disposition reasonCode) now tasks futures :: log,futures⟩).grows.subset
    have settled := holds (fun call member => calls call (grown member))
    refine Desk.dispose_settled disposition now _ ?_
    by_cases dropped : disposition = .drop
    · exact .inl dropped
    refine .inr ?_
    have logged := calls _ (grown List.mem_cons_self)
    obtain ⟨_,old | ⟨_,_,rfl⟩⟩ := found
    · simp only [LeavesSettled,Reopens,old,Option.any_some,decide_eq_true_eq,not_and] at logged
      exact (settled.live _ (by simpa using logged dropped)).1
    · rfl
  filed world peers bid now d auction filed _ collects _ _ holds := by
    intro after calls
    have grown := (Desk.maybeClose_works cfg.params world peers d now _
      (Desk.put_works d { d.record with auction := some filed } d rfl rfl (Desk.works_refl d))).grows.subset
    have settled := holds (fun call member => calls call (grown member))
    have live : d.record.Live :=
      settled.live _ (ours_of_state _ .announced ((collecting_eq_some _ _).mp collects).1 rfl)
    exact (Desk.cascades_settled cfg.params world peers).maybeClose _ _ _ _ _ _ now _ live
  ran world peers now d holds := by
    intro after calls
    have grown := (runAuction_stays cfg world peers now d).grows.subset
    exact runAuction_settled cfg world peers now d (holds (fun call member => calls call (grown member)))
  settled world peers winnerId outcome d holds := by
    intro after calls
    have grown := (settle_stays cfg world peers winnerId outcome d).grows.subset
    exact settle_settled cfg world peers winnerId outcome d
      (holds (fun call member => calls call (grown member)))

theorem reachable_settled (s : Session) (reached : (machine cfg).Reachable s)
    (calls : ∀ call ∈ s.log, LeavesSettled cfg call) : s.AllSettled := by
  intro id r found
  exact (reachable_tracked cfg _ _ (tracks_settled cfg) s reached).here id r found calls

def beforePrune (s : Session) : Flow Session :=
  let now := world.clock s.log
  (((s.agePeers cfg now).runAuctions cfg world now).andThen (sendDueBids world now)).andThen
    (fun s => s.maybeHeartbeat cfg world now)

theorem tick_eq (s : Session) : s.tick cfg world =
    (s.beforePrune cfg world).andThen (fun t => .returned (t.prune cfg (world.clock s.log))) := by
  unfold tick beforePrune
  simp only
  cases ((s.agePeers cfg (world.clock s.log)).runAuctions cfg world (world.clock s.log)).andThen
    (sendDueBids world (world.clock s.log)) <;> rfl

def Kept (s t : Session) : Prop :=
  t.AllSettled ∧ ∀ id, s.tasks.contains id = true → t.tasks.contains id = true

theorem kept_of_tasks (s t u : Session) (same : u.tasks = t.tasks) (kept : Kept s t) : Kept s u := by
  unfold Kept AllSettled at kept ⊢
  rw [same]
  exact kept

theorem deal_contains (taskId : Int) (work : Desk → Flow Desk) (s : Session) (id : Int)
    (there : s.tasks.contains id = true) : (s.deal taskId work).state.tasks.contains id = true := by
  cases found : s.tasks.get? taskId with
  | none =>
    rw [state_deal_none taskId work s found]
    exact there
  | some record =>
    rw [state_deal taskId work s record found]
    simp only [store,Dict.contains,Dict.get?_set]
    split
    · rfl
    · exact there

theorem runAuction_kept (now : ℚ) (taskId : Int) (s t : Session) (before : Kept s t) :
    Kept s (t.deal taskId (runAuction cfg world t.peers now)).state := by
  refine ⟨?_,fun id there => deal_contains taskId _ t id (before.2 id there)⟩
  exact deal_settled taskId _ t before.1 (fun r found =>
    runAuction_settled cfg world _ now _ (before.1 _ _ found))

theorem sendDueBid_tasks (now : ℚ) (taskId : Int) (s : Session) :
    (s.sendDueBid world now taskId).state.tasks = s.tasks := by
  unfold sendDueBid
  split
  · rfl
  split
  · unfold transmitBid
    simp only
    split <;> rfl
  · rfl

theorem maybeHeartbeat_tasks (now : ℚ) (s : Session) :
    (s.maybeHeartbeat cfg world now).state.tasks = s.tasks := by
  unfold maybeHeartbeat
  split
  · rfl
  · simp only
    split <;> rfl

theorem beforePrune_kept (s : Session) (before : s.AllSettled) :
    Kept s (s.beforePrune cfg world).state := by
  unfold beforePrune
  simp only
  generalize world.clock s.log = now
  apply Flow.andThen_keeps (Kept s)
  · apply Flow.andThen_keeps (Kept s)
    · apply Flow.forEach_keeps (Kept s)
      · refine ⟨forget_settled _ s before,?_⟩
        intro id there
        simpa [agePeers,Dict.contains] using there
      · intro taskId _ t kept
        exact runAuction_kept cfg world now taskId s t kept
    · intro t kept
      apply Flow.forEach_keeps (Kept s)
      · exact kept
      · intro taskId _ u kept
        exact kept_of_tasks s u _ (sendDueBid_tasks world now taskId u) kept
  · intro t kept
    exact kept_of_tasks s t _ (maybeHeartbeat_tasks cfg world now t) kept

theorem removed_by_prune (s : Session) (before : s.AllSettled) (id : Int)
    (there : s.tasks.contains id = true) (gone : (s.tick cfg world).state.tasks.get? id = none) :
    ∃ r, (s.beforePrune cfg world).state.tasks.get? id = some r ∧ r.ours = false := by
  obtain ⟨settled,present⟩ := beforePrune_kept cfg world s before
  obtain ⟨r,found⟩ := (Dict.contains_iff _ _).mp (present id there)
  refine ⟨r,found,?_⟩
  rw [tick_eq] at gone
  generalize s.beforePrune cfg world = flow at settled found gone
  cases flow with
  | raised t =>
    rw [Flow.andThen_raised] at gone
    rw [found] at gone
    cases gone
  | returned t =>
    have expired : retained cfg.params (world.clock s.log) r = false := by
      by_contra live
      have kept := (Dict.get?_retain t.tasks (fun _ r => retained cfg.params (world.clock s.log) r) id
        r).mpr ⟨found,by simpa using live⟩
      simp only [Flow.andThen_returned,Flow.state_returned,prune,kept] at gone
      cases gone
    apply (settled id r found).mp
    cases stamp : r.settledAt with
    | none => simp [retained,stamp] at expired
    | some settled => rfl

theorem not_ours_iff (r : OwnedTask) :
    r.ours = false ↔ r.state = .transferred ∨ r.state = .relinquished := by
  cases state : r.state <;> simp [OwnedTask.ours,TaskState.isOurs,state]

/-- In every run whose actions leave settled records settled, the retention clock
runs on exactly those, and a tick forgets no other record. -/
theorem tick_forgets_settled (s : Session) (reached : (machine cfg).Reachable s)
    (calls : ∀ call ∈ s.log, LeavesSettled cfg call) :
    (∀ id r, s.tasks.get? id = some r →
      (r.settledAt.isSome = true ↔ r.state = .transferred ∨ r.state = .relinquished)) ∧
    ∀ world id, s.tasks.contains id = true → (s.tick cfg world).state.tasks.get? id = none →
      ∃ r, (s.beforePrune cfg world).state.tasks.get? id = some r ∧
        (r.state = .transferred ∨ r.state = .relinquished) := by
  have settled := reachable_settled cfg s reached calls
  refine ⟨fun id r found => (settled id r found).trans (not_ours_iff r),?_⟩
  intro world id there gone
  obtain ⟨r,found,ended⟩ := removed_by_prune cfg world s settled id there gone
  exact ⟨r,found,(not_ours_iff r).mp ended⟩

def robot : Config := .first

def field : Task := .seventh { kind := .aisle, a := 3, wordB := Target.row.wordB }

def clockAt (now : ℚ) : World where
  clock _ := now
  unit := World.still

def given (now : ℚ) (action : Action) : Label :=
  ⟨clockAt now,.report (some field) "blocked" ReasonCode.unspecified (.given (some action))⟩

def droppedRun : List Label := [⟨clockAt 0,.own field⟩,given 1 (.dropTask field .drop 0)]

theorem tick_forgets_dropped : ∃ r, (((machine robot).runs {} droppedRun).beforePrune robot
    (clockAt 400)).state.tasks.get? 7 = some r ∧ (r.state = .transferred ∨ r.state = .relinquished) := by
  have reached := (machine robot).reaches_runs (fun _ _ => True) {} droppedRun (.start _ rfl) (by decide +kernel)
  exact (tick_forgets_settled robot _ reached (by decide +kernel)).2 (clockAt 400) 7 (by decide +kernel)
    (by decide +kernel)

/-- Dropped, then held: ours again, and the clock still running. -/
def heldRun : List Label := droppedRun ++ [given 2 (.dropTask field .hold 0)]

theorem tick_forgets_held : ∃ s, (machine robot).Reachable s ∧
    ∃ r, (s.beforePrune robot (clockAt 400)).state.tasks.get? 7 = some r ∧ r.state = .ours ∧
      r.settledAt.isSome = true ∧ (s.tick robot (clockAt 400)).state.tasks.get? 7 = none := by
  refine ⟨(machine robot).runs {} heldRun,?_,?_⟩
  · exact (machine robot).reaches_runs _ {} heldRun (.start _ rfl) (by decide +kernel)
  · have found : (((machine robot).runs {} heldRun).beforePrune robot (clockAt 400)).state.tasks.get? 7
        |>.any (fun r => r.state = .ours ∧ r.settledAt.isSome = true) := by decide +kernel
    obtain ⟨r,there,shape⟩ := (Option.any_eq_true _ _).mp found
    have shape := of_decide_eq_true shape
    exact ⟨r,there,shape.1,shape.2,by decide +kernel⟩

end Session
end AmigaFleet.Coordinator
