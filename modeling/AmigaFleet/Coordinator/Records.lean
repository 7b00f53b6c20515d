import AmigaFleet.Coordinator.Moves

/-! What each piece of the cascade does to the record, and how a fact about all
records goes through the table operations. -/
namespace AmigaFleet.Coordinator
open Lib AmigaFleet.Codec AmigaFleet.Reliability

namespace Desk

@[simp] theorem say_record (call : Call) (d : Desk) : (d.say call).record = d.record := rfl
@[simp] theorem say_log (call : Call) (d : Desk) : (d.say call).log = call :: d.log := rfl
@[simp] theorem put_record (record : OwnedTask) (d : Desk) : (d.put record).record = record := rfl
@[simp] theorem put_log (record : OwnedTask) (d : Desk) : (d.put record).log = d.log := rfl
@[simp] theorem requestYield_record (reason : String) (d : Desk) :
    (d.requestYield reason).record = d.record := rfl

@[simp] theorem leaveMission_record (cause : String) (d : Desk) :
    (d.leaveMission cause).record = { d.record with inMission := false } := by
  unfold leaveMission
  split
  · rfl
  · rename_i out
    simp only [Bool.not_eq_true] at out
    obtain ⟨record,log,futures⟩ := d
    cases record
    simp_all

@[simp] theorem rejoinMission_record (cause : String) (d : Desk) :
    (d.rejoinMission cause).record = { d.record with inMission := true } := by
  unfold rejoinMission
  split
  · obtain ⟨record,log,futures⟩ := d
    cases record
    simp_all
  · rfl

theorem dispose_record (disposition : LocalDisposition) (now : ℚ) (d : Desk) :
    (d.disposeLocally disposition now).record =
      if disposition = .drop then { d.record with
        auction := none, state := .relinquished, settledAt := some now, inMission := false }
      else { d.record with auction := none, state := .ours, inMission := true } := by
  cases disposition <;> simp [disposeLocally]

theorem grantDelivered_record (winnerId : Int) (now : ℚ) (d : Desk) :
    (d.grantDelivered winnerId now).record = { d.record with
      state := .transferred, auction := none, settledAt := some now, inMission := false } := by
  simp [grantDelivered]

theorem emitNote_record (world : World) (d : Desk) : (d.emitNote world).2.record = d.record := by
  unfold emitNote
  split <;> rfl

/-- What a repeated announcement leaves of an auction: all that arbitration reads. -/
structure SameOffer (a b : Auction) : Prop where
  task : b.task = a.task
  bids : b.bids = a.bids
  expected : b.expectedBidders = a.expectedBidders
  closes : b.closesAt = a.closesAt

theorem emitAnnounce_record (params : CoordinatorParams) (world : World) (now : ℚ) (d : Desk) :
    ∃ change : Auction → Auction, (∀ a, SameOffer a (change a)) ∧
      (d.emitAnnounce params world now).state.record =
        { d.record with auction := d.record.auction.map change } := by
  unfold emitAnnounce
  simp only
  split
  · exact ⟨repeated params now,fun _ => ⟨rfl,rfl,rfl,rfl⟩,rfl⟩
  · refine ⟨id,fun _ => ⟨rfl,rfl,rfl,rfl⟩,?_⟩
    obtain ⟨record,log,futures⟩ := d
    cases record
    simp

/-- The auction a cycle opens: no answers yet, nobody expected whom we excluded. -/
structure Fresh (r : OwnedTask) (a : Auction) : Prop where
  task : a.task = r.task
  empty : a.bids = .empty
  welcome : ∀ robot ∈ a.expectedBidders, robot ∉ r.excludedBidders

theorem offer_record (params : CoordinatorParams) (world : World) (peers : Registry) (now : ℚ)
    (d : Desk) : ∃ auction, Fresh d.record auction ∧ (d.offer params world peers now).record =
      { d.record with
        state := .announced
        delegationAttempts := d.record.delegationAttempts + 1
        lastAnnouncedAt := some now
        auction := some auction } := by
  have record := emitNote_record world (d.announcing now)
  refine ⟨openAuction params peers ((d.announcing now).emitNote world).2.record
    ((d.announcing now).emitNote world).1 now,?_,?_⟩
  · rw [record]
    exact ⟨rfl,rfl,fun _ member => (Finset.mem_sdiff.mp member).2⟩
  · simp only [offer,put_record]
    rw [record]
    rfl

theorem announce_record (params : CoordinatorParams) (world : World) (peers : Registry) (now : ℚ)
    (d : Desk) : ∃ auction inMission, Fresh d.record auction ∧
      (d.announce params world peers now).state.record = { d.record with
        state := .announced
        delegationAttempts := d.record.delegationAttempts + 1
        lastAnnouncedAt := some now
        auction := some auction
        inMission := inMission } := by
  obtain ⟨auction,fresh,offered⟩ := offer_record params world peers now d
  obtain ⟨change,same,sent⟩ := emitAnnounce_record params world now (d.offer params world peers now)
  have changed : Fresh d.record (change auction) :=
    ⟨(same auction).task.trans fresh.task,(same auction).bids.trans fresh.empty,
      (same auction).expected ▸ fresh.welcome⟩
  unfold announce
  generalize (d.offer params world peers now).emitAnnounce params world now = flow at sent ⊢
  rw [offered] at sent
  cases flow with
  | returned after =>
    refine ⟨change auction,false,changed,?_⟩
    simp only [Flow.andThen_returned,Flow.state_returned,standDown,leaveMission_record,
      requestYield_record] at sent ⊢
    rw [sent]
    rfl
  | raised after =>
    refine ⟨change auction,d.record.inMission,changed,?_⟩
    simp only [Flow.andThen_raised,Flow.state_raised] at sent ⊢
    rw [sent]
    rfl

theorem lose_record (winnerId : Int) (d : Desk) : (d.lose winnerId).record = { d.record with
    state := .ours
    grantedTo := none
    excludedBidders := insert winnerId d.record.excludedBidders
    auction := d.record.auction.map (fun a => a.forget winnerId) } := rfl

theorem reopen_record (d : Desk) : d.reopen.record = { d.record with state := .announced } := rfl

theorem award_record (world : World) (winnerId : Int) (d : Desk) : (d.award world winnerId).record =
    { d.record with state := .granted, grantedTo := some winnerId } := rfl

@[simp] theorem await_record (winnerId : Int) (d : Desk) : (d.await winnerId).record = d.record := rfl

theorem fallBack_cases (params : CoordinatorParams) (world : World) (peers : Registry) (now : ℚ)
    (d : Desk) :
    (d.record.delegationAttempts < params.maxDelegationAttempts ∧
      d.fallBack params world peers now = (d.put { d.record with
        auction := none, lastAnnouncedAt := none }).announce params world peers now) ∨
    (params.maxDelegationAttempts ≤ d.record.delegationAttempts ∧
      d.fallBack params world peers now =
        .returned ((d.put { d.record with auction := none }).disposeLocally d.record.fallback now)) := by
  by_cases budget : d.record.delegationAttempts < params.maxDelegationAttempts
  · refine .inl ⟨budget,?_⟩
    unfold fallBack
    exact if_pos budget
  · refine .inr ⟨not_lt.mp budget,?_⟩
    unfold fallBack
    exact if_neg budget

theorem fails_state (world : World) (d : Desk) (now later : ℚ) (reply : Reply)
    (shown : Flow Desk → Flow Desk) (fails : Fails world d now reply later shown) (after : Flow Desk) :
    (shown after).state = after.state := by
  cases fails <;> rfl

/-- The cascade rule: `Open` of a desk whose auction may close, `Lost` of one
whose GRANT has failed, `After` of one the cascade is done with. -/
structure Cascades (params : CoordinatorParams) (world : World) (peers : Registry)
    (Open Lost After : Desk → Prop) : Prop where
  still : ∀ d, Open d → After d
  noBid : ∀ d now, Open d → After (d.noViableBid now)
  sent : ∀ d auction winner, Open d → d.record.auction = some auction →
    auction.winner = some winner → world.sendReliable d.log = .pending →
    After ((d.award world winner.bidderId).await winner.bidderId)
  delivered : ∀ d auction winner now, Open d → d.record.auction = some auction →
    auction.winner = some winner → world.sendReliable d.log = .resolved .delivered →
    After ((d.award world winner.bidderId).grantDelivered winner.bidderId now)
  failed : ∀ d auction winner, Open d → d.record.auction = some auction →
    auction.winner = some winner →
    (world.sendReliable d.log = .refused ∨ world.sendReliable d.log = .resolved .failed) →
    Lost ((d.award world winner.bidderId).lose winner.bidderId)
  reopened : ∀ d, Lost d → d.runnerUp.isSome = true → Open d.reopen
  fallenBack : ∀ d now, Lost d → d.runnerUp = none → After (d.fallBack params world peers now).state

section Rule
variable (params : CoordinatorParams) (world : World) (peers : Registry) (Open Lost After : Desk → Prop)
  (rule : Cascades params world peers Open Lost After)

theorem reply_of_fails (d : Desk) (now later : ℚ) (reply : Reply) (shown : Flow Desk → Flow Desk)
    (fails : Fails world d now reply later shown) : reply = .refused ∨ reply = .resolved .failed := by
  cases fails
  · exact .inl rfl
  · exact .inr rfl

include rule in
theorem Cascades.closing (now : ℚ) (d : Desk) (after : Flow Desk)
    (closing : Closing params world peers now d after) (opened : Open d) : After after.state := by
  induction closing with
  | still now d quiet => exact rule.still d opened
  | noBid now d auction present closes nobody => exact rule.noBid d now opened
  | pending now d auction winner present closes best reply =>
    exact rule.sent d auction winner opened present best reply
  | delivered now d auction winner present closes best reply =>
    exact rule.delivered d auction winner _ opened present best reply
  | exhausted now later d auction winner shown present closes best fails nobody =>
    rw [fails_state world _ _ _ _ _ fails]
    have lost := rule.failed d auction winner opened present best (reply_of_fails world _ _ _ _ _ fails)
    exact rule.fallenBack _ later lost (by
      rw [runnerUp_lose (d.award world winner.bidderId) winner.bidderId auction present]
      exact nobody)
  | again now later d auction winner shown after present closes best fails runnerUp rest ih =>
    rw [fails_state world _ _ _ _ _ fails]
    have lost := rule.failed d auction winner opened present best (reply_of_fails world _ _ _ _ _ fails)
    exact ih (rule.reopened _ lost (by
      rw [runnerUp_lose (d.award world winner.bidderId) winner.bidderId auction present]
      exact runnerUp))

include rule in
theorem Cascades.maybeClose (now : ℚ) (d : Desk) (opened : Open d) :
    After (d.maybeClose params world peers now).state :=
  rule.closing params world peers Open Lost After now d _ (maybeClose_closing params world peers now d)
    opened

include rule in
theorem Cascades.settle (winnerId : Int) (outcome : Outcome) (d : Desk)
    (passed : d.record.state ≠ .granted → After d)
    (delivered : ∀ now, d.record.state = .granted → outcome = .delivered →
      After (d.grantDelivered winnerId now))
    (lost : d.record.state = .granted → outcome = .failed → Lost (d.lose winnerId)) :
    After (d.settle params world peers winnerId outcome).state := by
  obtain ⟨stale,same⟩ | ⟨granted,good,same⟩ | ⟨granted,bad,⟨nobody,same⟩ | ⟨runnerUp,closing⟩⟩ :=
    settle_cases params world peers winnerId outcome d
  · rw [same]
    exact passed stale
  · rw [same]
    exact delivered _ granted good
  · rw [same]
    exact rule.fallenBack _ _ (lost granted bad) nobody
  · exact rule.closing params world peers Open Lost After _ _ _ closing
      (rule.reopened _ (lost granted bad) runnerUp)

end Rule

end Desk

namespace Session
variable (cfg : Config) (world : World)

theorem state_deal (taskId : Int) (work : Desk → Flow Desk) (s : Session) (record : OwnedTask)
    (found : s.tasks.get? taskId = some record) :
    (s.deal taskId work).state = s.store taskId (work ⟨record,s.log,s.futures⟩).state := by
  simp [deal,found]

theorem state_deal_none (taskId : Int) (work : Desk → Flow Desk) (s : Session)
    (missing : s.tasks.get? taskId = none) : (s.deal taskId work).state = s := by
  simp [deal,missing]

theorem deal_records (P : Int → OwnedTask → Prop) (taskId : Int) (work : Desk → Flow Desk) (s : Session)
    (before : ∀ id r, s.tasks.get? id = some r → P id r)
    (worked : ∀ r, s.tasks.get? taskId = some r → P taskId (work ⟨r,s.log,s.futures⟩).state.record)
    (id : Int) (r : OwnedTask) (found : (s.deal taskId work).state.tasks.get? id = some r) : P id r := by
  cases here : s.tasks.get? taskId with
  | none =>
    rw [state_deal_none taskId work s here] at found
    exact before id r found
  | some record =>
    rw [state_deal taskId work s record here] at found
    obtain ⟨rfl,rfl⟩ | ⟨_,found⟩ := Dict.get?_set_cases found
    · exact worked record here
    · exact before id r found

theorem ours_of_state (r : OwnedTask) (state : TaskState) (same : r.state = state)
    (isOurs : state.isOurs = true) : r.ours = true := by
  rw [OwnedTask.ours,same]
  exact isOurs

theorem enrollMissing_get? (task : Task) (s : Session) (r : OwnedTask)
    (found : (s.enrollMissing task).tasks.get? task.taskId = some r) :
    s.tasks.get? task.taskId = some r ∨
      (s.tasks.get? task.taskId = none ∧ r = { serial := s.nextSerial, task := task }) := by
  unfold enrollMissing at found
  split at found
  · exact .inl found
  · rename_i missing
    rw [Dict.contains,Bool.not_eq_true,Option.isSome_eq_false_iff,Option.isNone_iff_eq_none] at missing
    simp only [enroll,Dict.get?_set_self,Option.some.injEq] at found
    exact .inr ⟨missing,found.symm⟩

/-- `_begin_delegation` handles the task locally although it is not in flight. -/
def Refuses (cfg : Config) (openAuctions : Nat) (now : ℚ) (r : OwnedTask) : Prop :=
  r.task.delegable = false ∨ cooling cfg.params now r = true ∨
    cfg.params.maxOpenAuctions ≤ (openAuctions : Int)

instance (openAuctions : Nat) (now : ℚ) (r : OwnedTask) : Decidable (Refuses cfg openAuctions now r) :=
  inferInstanceAs (Decidable (_ ∨ _ ∨ _))

def instructed (fallback : LocalDisposition) (reasonCode : Int) (note : String) (r : OwnedTask) :
    OwnedTask :=
  { r with fallback := fallback, reasonCode := reasonCode, note := note }

theorem delegate_cases (peers : Registry) (openAuctions : Nat) (reasonCode : Int)
    (fallback : LocalDisposition) (note : String) (now : ℚ) (d : Desk) :
    ((d.record.state = .announced ∨ d.record.state = .granted) ∧
      delegate cfg world peers openAuctions reasonCode fallback note now d =
        .returned (d.put (instructed fallback reasonCode note d.record))) ∨
    (¬ (d.record.state = .announced ∨ d.record.state = .granted) ∧
      Refuses cfg openAuctions now d.record ∧
      delegate cfg world peers openAuctions reasonCode fallback note now d =
        .returned ((d.put (instructed fallback reasonCode note d.record)).disposeLocally fallback now)) ∨
    (¬ (d.record.state = .announced ∨ d.record.state = .granted) ∧
      ¬ Refuses cfg openAuctions now d.record ∧
      delegate cfg world peers openAuctions reasonCode fallback note now d =
        (d.put (instructed fallback reasonCode note d.record)).announce cfg.params world peers now) := by
  unfold delegate
  simp only [Desk.put_record]
  by_cases inFlight : d.record.state = .announced ∨ d.record.state = .granted
  · exact .inl ⟨inFlight,if_pos inFlight⟩
  · rw [if_neg inFlight]
    by_cases refused : Refuses cfg openAuctions now d.record
    · refine .inr (.inl ⟨inFlight,refused,?_⟩)
      split
      · rfl
      split
      · rfl
      split
      · rfl
      · rename_i placed warm room
        simp_all [Refuses,cooling]
    · refine .inr (.inr ⟨inFlight,refused,?_⟩)
      simp only [Refuses,not_or,Bool.not_eq_false,Bool.not_eq_true] at refused
      obtain ⟨placed,warm,room⟩ := refused
      rw [if_neg (by simp [placed]),if_neg (by simpa [cooling] using warm),if_neg room]
      rfl

theorem collecting_eq_some (r : OwnedTask) (auction : Auction) :
    collecting r = some auction ↔ r.state = .announced ∧ r.auction = some auction := by
  unfold collecting
  split
  · rename_i announced
    simp [announced]
  · rename_i other
    simp [other]

theorem runAuction_rule (peers : Registry) (Open Lost After : Desk → Prop)
    (rule : Desk.Cascades cfg.params world peers Open Lost After) (now : ℚ) (d : Desk)
    (aside : collecting d.record = none → After d)
    (opened : ∀ auction, collecting d.record = some auction → Open d)
    (repeats : Open d → Open (d.emitAnnounce cfg.params world now).state) :
    After (runAuction cfg world peers now d).state := by
  unfold runAuction
  split
  · rename_i quiet
    exact aside quiet
  · rename_i auction collects
    have start := opened auction collects
    simp only
    split
    · have after := repeats start
      generalize d.emitAnnounce cfg.params world now = flow at after
      cases flow with
      | returned e => exact rule.maybeClose _ _ _ _ _ _ now e after
      | raised e => exact rule.still e after
    · exact rule.maybeClose _ _ _ _ _ _ now d start

end Session
end AmigaFleet.Coordinator
