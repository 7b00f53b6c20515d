import AmigaFleet.Coordinator.Mission

/-! Delegation is finite and never re-offers. A lost winner is excluded and its
bid forgotten, so the cascade runs out of bids; attempts are only ever counted
up, so cycles run out too. -/
namespace AmigaFleet.Coordinator
open Lib AmigaFleet.Codec AmigaFleet.Reliability

def OwnedTask.Shaped (r : OwnedTask) : Prop :=
  r.auction.isSome = true ↔ r.state = .announced ∨ r.state = .granted

def OwnedTask.Welcomes (r : OwnedTask) : Prop :=
  ∀ auction, r.auction = some auction → ∀ robot ∈ r.excludedBidders, auction.bids.get? robot = none

/-- The GRANTs of a log: the record as it was sent, and to whom. Newest first. -/
def grants (log : Log) : List (OwnedTask × Int) :=
  log.filterMap (fun
    | .sendReliable record dst _ _ => some (record,dst)
    | _ => none)

def Offers (serial : Nat) (log : Log) : Prop :=
  ∀ record dst, (record,dst) ∈ grants log → record.serial = serial → dst ∉ record.excludedBidders

/-- The cascade's own GRANTs: at most one for each feasible bid on file. -/
def OnceEach (auction : Option Auction) (before after : Log) : Prop :=
  ∃ added, grants after = added ++ grants before ∧ (added.map Prod.snd).Nodup ∧
    ∀ dst ∈ added.map Prod.snd, ∃ a bid, auction = some a ∧ bid ∈ a.viable ∧ bid.bidderId = dst

/-- The cycles opened for a record since the last ReDelegate on its task. -/
def cycles (serial : Nat) (taskId : Int) : Log → Nat
  | [] => 0
  | .opened record::rest => (if record.serial = serial then 1 else 0) + cycles serial taskId rest
  | .apply (.reDelegate task ..) _ _ _::rest =>
    if task.taskId = taskId then 0 else cycles serial taskId rest
  | _::rest => cycles serial taskId rest

def Call.paced : Call → Bool
  | .opened _ => false
  | .apply (.reDelegate ..) .. => false
  | _ => true

theorem cycles_paced (serial : Nat) (taskId : Int) (call : Call) (log : Log) (paced : call.paced = true) :
    cycles serial taskId (call :: log) = cycles serial taskId log := by
  cases call with
  | opened record => cases paced
  | apply action now tasks futures =>
    cases action with
    | reDelegate task reasonCode fallback note => cases paced
    | addTask task reasonCode => rfl
    | dropTask task disposition reasonCode => rfl
  | _ => rfl

theorem cycles_unrelated (serial : Nat) (taskId : Int) (added log : Log)
    (unrelated : Unrelated serial added) : cycles serial taskId (added ++ log) ≤ cycles serial taskId log := by
  induction added with
  | nil => exact le_refl _
  | cons call rest ih =>
    have before := ih (fun other member => unrelated other (List.mem_cons_of_mem _ member))
    cases call with
    | opened record =>
      have different : record.serial ≠ serial := fun same =>
        unrelated _ List.mem_cons_self (by rw [Call.serial?,same])
      simpa [cycles,different] using before
    | apply action now tasks futures =>
      cases action with
      | reDelegate task reasonCode fallback note =>
        simp only [List.cons_append,cycles]
        split
        · exact Nat.zero_le _
        · exact before
      | addTask task reasonCode => exact before
      | dropTask task disposition reasonCode => exact before
    | _ => exact before

def Bounded (most : Int) (serial : Nat) (taskId : Int) (log : Log) : Prop :=
  ∀ earlier, earlier <:+ log → (cycles serial taskId earlier : Int) ≤ most

theorem bounded_cons (most : Int) (serial : Nat) (taskId : Int) (call : Call) (log : Log)
    (before : Bounded most serial taskId log) (now : (cycles serial taskId (call :: log) : Int) ≤ most) :
    Bounded most serial taskId (call :: log) := by
  intro earlier suffix
  obtain rfl | old := List.suffix_cons_iff.mp suffix
  · exact now
  · exact before earlier old

theorem bounded_unrelated (most : Int) (serial : Nat) (taskId : Int) (added log : Log)
    (unrelated : Unrelated serial added) (before : Bounded most serial taskId log) :
    Bounded most serial taskId (added ++ log) := by
  induction added with
  | nil => exact before
  | cons call rest ih =>
    refine bounded_cons most serial taskId call (rest ++ log)
      (ih (fun other member => unrelated other (List.mem_cons_of_mem _ member))) ?_
    have fewer := cycles_unrelated serial taskId (call :: rest) log unrelated
    have now := before log (List.suffix_refl _)
    rw [List.cons_append] at fewer
    omega

structure Budget (most : Int) (r : OwnedTask) (log : Log) : Prop where
  started : 0 ≤ r.delegationAttempts
  counted : (cycles r.serial r.task.taskId log : Int) ≤ r.delegationAttempts
  within : cycles r.serial r.task.taskId log ≤ 1 ∨ r.delegationAttempts ≤ most
  bounded : Bounded most r.serial r.task.taskId log
  known : ∀ record, .opened record ∈ log → record.serial = r.serial → record.task = r.task

namespace Desk
variable (params : CoordinatorParams) (world : World) (peers : Registry)

def Budgeted (most : Int) (d : Desk) : Prop := Budget most d.record d.log

theorem put_budgeted (most : Int) (record : OwnedTask) (d : Desk)
    (attempts : record.delegationAttempts = d.record.delegationAttempts)
    (serial : record.serial = d.record.serial) (task : record.task = d.record.task)
    (before : d.Budgeted most) : (d.put record).Budgeted most where
  started := attempts ▸ before.started
  counted := by
    simp only [put_record,put_log,attempts,serial,task]
    exact before.counted
  within := by
    simp only [put_record,put_log,attempts,serial,task]
    exact before.within
  bounded := by
    simp only [put_record,put_log,serial,task]
    exact before.bounded
  known := by
    simp only [put_record,put_log,serial,task]
    exact before.known

theorem say_budgeted (most : Int) (call : Call) (paced : call.paced = true) (d : Desk)
    (before : d.Budgeted most) : (d.say call).Budgeted most := by
  have same := cycles_paced d.record.serial d.record.task.taskId call d.log paced
  refine ⟨before.started,?_,?_,?_,?_⟩
  · rw [say_log,say_record,same]
    exact before.counted
  · rw [say_log,say_record,same]
    exact before.within
  · refine bounded_cons _ _ _ _ _ before.bounded ?_
    rw [say_record,same]
    exact before.bounded _ (List.suffix_refl _)
  · intro record member
    obtain new | old := List.mem_cons.mp member
    · rw [← new] at paced
      cases paced
    · exact before.known record old

theorem leaveMission_budgeted (most : Int) (cause : String) (d : Desk) (before : d.Budgeted most) :
    (d.leaveMission cause).Budgeted most := by
  unfold leaveMission
  split
  · exact say_budgeted most _ rfl _ (put_budgeted most _ d rfl rfl rfl before)
  · exact before

theorem rejoinMission_budgeted (most : Int) (cause : String) (d : Desk) (before : d.Budgeted most) :
    (d.rejoinMission cause).Budgeted most := by
  unfold rejoinMission
  split
  · exact before
  · exact say_budgeted most _ rfl _ (put_budgeted most _ d rfl rfl rfl before)

theorem disposeLocally_budgeted (most : Int) (disposition : LocalDisposition) (now : ℚ) (d : Desk)
    (before : d.Budgeted most) : (d.disposeLocally disposition now).Budgeted most := by
  cases disposition with
  | drop =>
    apply leaveMission_budgeted
    apply say_budgeted _ _ rfl
    apply say_budgeted _ _ rfl
    exact put_budgeted most _ d rfl rfl rfl before
  | hold =>
    apply rejoinMission_budgeted
    exact put_budgeted most _ d rfl rfl rfl before
  | requestHuman =>
    apply rejoinMission_budgeted
    apply say_budgeted _ _ rfl
    exact put_budgeted most _ d rfl rfl rfl before

theorem grantDelivered_budgeted (most : Int) (winnerId : Int) (now : ℚ) (d : Desk)
    (before : d.Budgeted most) : (d.grantDelivered winnerId now).Budgeted most := by
  apply leaveMission_budgeted
  apply say_budgeted _ _ rfl
  apply say_budgeted _ _ rfl
  exact put_budgeted most _ d rfl rfl rfl before

theorem award_budgeted (most : Int) (winnerId : Int) (d : Desk) (before : d.Budgeted most) :
    (d.award world winnerId).Budgeted most :=
  say_budgeted most _ rfl _ (put_budgeted most _ d rfl rfl rfl before)

theorem emitAnnounce_budgeted (most : Int) (now : ℚ) (d : Desk) (before : d.Budgeted most) :
    (d.emitAnnounce params world now).state.Budgeted most := by
  have said := say_budgeted most (.broadcast (.taskAnnounce (announcement d.record))
    (world.broadcast d.log (.taskAnnounce (announcement d.record)))) rfl d before
  unfold emitAnnounce
  simp only
  split
  · exact put_budgeted most _ _ rfl rfl rfl said
  · exact said

theorem announcing_budgeted (most : Int) (positive : 1 ≤ most) (now : ℚ) (d : Desk)
    (before : d.Budgeted most)
    (room : cycles d.record.serial d.record.task.taskId d.log = 0 ∨ d.record.delegationAttempts < most) :
    (d.announcing now).Budgeted most := by
  have started := before.started
  have counted := before.counted
  have count : cycles d.record.serial d.record.task.taskId (d.announcing now).log =
      1 + cycles d.record.serial d.record.task.taskId d.log := by
    simp [announcing,cycles]
  have attempts : (d.announcing now).record.delegationAttempts = d.record.delegationAttempts + 1 := rfl
  refine ⟨?_,?_,?_,?_,?_⟩
  · rw [attempts]
    omega
  · show (cycles d.record.serial d.record.task.taskId (d.announcing now).log : Int) ≤ _
    rw [count,attempts]
    push_cast
    omega
  · show cycles d.record.serial d.record.task.taskId (d.announcing now).log ≤ 1 ∨ _
    rw [count,attempts]
    omega
  · refine bounded_cons _ _ _ _ _ before.bounded ?_
    show (cycles d.record.serial d.record.task.taskId (d.announcing now).log : Int) ≤ _
    rw [count]
    push_cast
    omega
  · intro record member
    obtain new | old := List.mem_cons.mp member
    · injection new with new
      intro _
      rw [new]
      rfl
    · exact before.known record old

theorem announce_budgeted (most : Int) (positive : 1 ≤ most) (now : ℚ) (d : Desk)
    (before : d.Budgeted most)
    (room : cycles d.record.serial d.record.task.taskId d.log = 0 ∨ d.record.delegationAttempts < most) :
    (d.announce params world peers now).state.Budgeted most := by
  have opened := announcing_budgeted most positive now d before room
  have noted : ((d.announcing now).emitNote world).2.Budgeted most := by
    unfold emitNote
    split
    · exact opened
    · exact say_budgeted most _ rfl _ opened
  apply Flow.andThen_keeps (Budgeted most)
  · exact emitAnnounce_budgeted params world most now _ (put_budgeted most _ _ rfl rfl rfl noted)
  · intro e emitted
    apply leaveMission_budgeted
    exact say_budgeted most _ rfl e emitted

theorem fallBack_budgeted (now : ℚ) (d : Desk) (before : d.Budgeted params.maxDelegationAttempts) :
    (d.fallBack params world peers now).state.Budgeted params.maxDelegationAttempts := by
  obtain ⟨room,again⟩ | ⟨_,ended⟩ := fallBack_cases params world peers now d
  · rw [again]
    exact announce_budgeted params world peers _ params.someAttempt now _
      (put_budgeted _ _ d rfl rfl rfl before) (.inr room)
  · rw [ended]
    exact disposeLocally_budgeted _ _ now _ (put_budgeted _ _ d rfl rfl rfl before)

theorem cascades_budgeted : Cascades params world peers (Budgeted params.maxDelegationAttempts)
    (Budgeted params.maxDelegationAttempts) (Budgeted params.maxDelegationAttempts) where
  still _ before := before
  noBid d now before := disposeLocally_budgeted _ _ now _ (put_budgeted _ _ d rfl rfl rfl before)
  sent d _ winner before _ _ _ := award_budgeted world _ winner.bidderId d before
  delivered d _ winner now before _ _ _ :=
    grantDelivered_budgeted _ _ now _ (award_budgeted world _ winner.bidderId d before)
  failed d _ winner before _ _ _ :=
    put_budgeted _ _ _ rfl rfl rfl (award_budgeted world _ winner.bidderId d before)
  reopened d before _ := put_budgeted _ _ d rfl rfl rfl before
  fallenBack d now before _ := fallBack_budgeted params world peers now d before

end Desk

namespace Session
variable (cfg : Config)

theorem fresh_budget (most : Int) (positive : 1 ≤ most) (serial : Nat) (task : Task) (log : Log)
    (unrelated : Unrelated serial log) : Budget most { serial := serial, task := task } log := by
  have nothing : cycles serial task.taskId log = 0 := by
    have none := cycles_unrelated serial task.taskId log [] unrelated
    rw [List.append_nil] at none
    exact Nat.le_zero.mp none
  refine ⟨le_refl _,?_,?_,?_,?_⟩
  · exact (Int.ofNat_le.mpr (Nat.le_of_eq nothing))
  · exact .inl (by rw [nothing]; exact Nat.zero_le _)
  · have empty : Bounded most serial task.taskId [] := by
      intro earlier suffix
      rw [List.suffix_nil.mp suffix]
      simp only [cycles]
      omega
    have all := bounded_unrelated most serial task.taskId log [] unrelated empty
    rw [List.append_nil] at all
    exact all
  · intro record member same
    exact absurd (by rw [Call.serial?,same]) (unrelated _ member)

/-- The cycles ever opened for one record, under the record's own task. -/
def Counted (most : Int) (serial : Nat) (log : Log) : Prop :=
  ∀ record, .opened record ∈ log → record.serial = serial → Bounded most serial record.task.taskId log

theorem tracks_budget : Tracks cfg (Budget cfg.params.maxDelegationAttempts)
    (Counted cfg.params.maxDelegationAttempts) where
  live r log budget record member same := by
    rw [budget.known record member same]
    exact budget.bounded
  frame r log added unrelated budget := by
    have fewer := cycles_unrelated r.serial r.task.taskId added log unrelated
    have counted := budget.counted
    have within := budget.within
    refine ⟨budget.started,by omega,by omega,bounded_unrelated _ _ _ _ _ unrelated budget.bounded,?_⟩
    intro record member same
    obtain new | old := List.mem_append.mp member
    · exact absurd (by rw [Call.serial?,same]) (unrelated _ new)
    · exact budget.known record old same
  past serial log added unrelated counted record member same := by
    obtain new | old := List.mem_append.mp member
    · exact absurd (by rw [Call.serial?,same]) (unrelated _ new)
    · exact bounded_unrelated _ _ _ _ _ unrelated (counted record old same)
  unknown serial log unrelated record member same :=
    absurd (by rw [Call.serial?,same]) (unrelated _ member)
  fresh serial task log unrelated := fresh_budget _ cfg.params.someAttempt serial task log unrelated
  absorbed serial task cause note log unrelated :=
    Desk.say_budgeted _ _ rfl ⟨_,log,[]⟩ (fresh_budget _ cfg.params.someAttempt serial task log unrelated)
  forgotten gone r log budget :=
    ⟨budget.started,budget.counted,budget.within,budget.bounded,budget.known⟩
  delegated world peers task reasonCode fallback note now tasks r log futures found budget := by
    intro after
    have none : cycles r.serial r.task.taskId
        (.apply (.reDelegate task reasonCode fallback note) now tasks futures :: log) = 0 := by
      simp [cycles,found.1]
    have told : Desk.Budgeted cfg.params.maxDelegationAttempts
        (Desk.put (instructed fallback reasonCode note r)
          ⟨r,.apply (.reDelegate task reasonCode fallback note) now tasks futures :: log,futures⟩) :=
      Desk.put_budgeted _ _ _ rfl rfl rfl budget
    obtain ⟨_,same⟩ | ⟨_,_,same⟩ | ⟨_,_,same⟩ := delegate_cases cfg world peers (announcedIn tasks)
      reasonCode fallback note now
      ⟨r,.apply (.reDelegate task reasonCode fallback note) now tasks futures :: log,futures⟩
    · simp only [after,same]
      exact told
    · simp only [after,same]
      exact Desk.disposeLocally_budgeted _ _ now _ told
    · simp only [after,same]
      exact Desk.announce_budgeted _ _ _ _ cfg.params.someAttempt now _ told (.inl none)
  dropped task disposition reasonCode now tasks r log futures found budget :=
    Desk.disposeLocally_budgeted _ _ now _ budget
  filed world peers bid now d auction filed _ collects _ _ budget :=
    (Desk.cascades_budgeted cfg.params world peers).maybeClose _ _ _ _ _ _ now _
      (Desk.put_budgeted _ _ d rfl rfl rfl budget)
  ran world peers now d budget :=
    runAuction_rule cfg world peers _ _ _ (Desk.cascades_budgeted cfg.params world peers) now d
      (fun _ => budget) (fun _ _ => budget)
      (fun before => Desk.emitAnnounce_budgeted _ _ _ now d before)
  settled world peers winnerId outcome d budget :=
    (Desk.cascades_budgeted cfg.params world peers).settle _ _ _ _ _ _ winnerId outcome d
      (fun _ => budget) (fun now _ _ => Desk.grantDelivered_budgeted _ _ now _ budget)
      (fun _ _ => Desk.put_budgeted _ _ d rfl rfl rfl budget)

end Session

namespace Desk
variable (params : CoordinatorParams) (world : World) (peers : Registry)

structure Unsent (start d : Desk) : Prop where
  grants : grants d.log = grants start.log
  futures : d.futures = start.futures

section Unsent
variable (start : Desk)

theorem leaveMission_unsent (cause : String) (d : Desk) (before : Unsent start d) :
    Unsent start (d.leaveMission cause) := by
  unfold leaveMission
  split <;> exact ⟨before.grants,before.futures⟩

theorem rejoinMission_unsent (cause : String) (d : Desk) (before : Unsent start d) :
    Unsent start (d.rejoinMission cause) := by
  unfold rejoinMission
  split <;> exact ⟨before.grants,before.futures⟩

theorem disposeLocally_unsent (disposition : LocalDisposition) (now : ℚ) (d : Desk)
    (before : Unsent start d) : Unsent start (d.disposeLocally disposition now) := by
  cases disposition with
  | drop => exact leaveMission_unsent start _ _ ⟨before.grants,before.futures⟩
  | hold => exact rejoinMission_unsent start _ _ ⟨before.grants,before.futures⟩
  | requestHuman => exact rejoinMission_unsent start _ _ ⟨before.grants,before.futures⟩

theorem emitAnnounce_unsent (now : ℚ) (d : Desk) (before : Unsent start d) :
    Unsent start (d.emitAnnounce params world now).state := by
  unfold emitAnnounce
  simp only
  split <;> exact ⟨before.grants,before.futures⟩

theorem announce_unsent (now : ℚ) (d : Desk) (before : Unsent start d) :
    Unsent start (d.announce params world peers now).state := by
  have offered : Unsent start (d.offer params world peers now) := by
    simp only [offer,emitNote]
    split <;> exact ⟨before.grants,before.futures⟩
  apply Flow.andThen_keeps (Unsent start)
  · exact emitAnnounce_unsent params world start now _ offered
  · intro e emitted
    exact leaveMission_unsent start _ _ ⟨emitted.grants,emitted.futures⟩

theorem grantDelivered_unsent (winnerId : Int) (now : ℚ) (d : Desk) (before : Unsent start d) :
    Unsent start (d.grantDelivered winnerId now) :=
  leaveMission_unsent start _ _ ⟨before.grants,before.futures⟩

theorem fallBack_unsent (now : ℚ) (d : Desk) (before : Unsent start d) :
    Unsent start (d.fallBack params world peers now).state := by
  obtain ⟨_,again⟩ | ⟨_,ended⟩ := fallBack_cases params world peers now d
  · rw [again]
    exact announce_unsent params world peers start now _ ⟨before.grants,before.futures⟩
  · rw [ended]
    exact disposeLocally_unsent start _ now _ ⟨before.grants,before.futures⟩

end Unsent

theorem award_grants (winnerId : Int) (d : Desk) : grants (d.award world winnerId).log =
    ({ d.record with state := .granted, grantedTo := some winnerId },winnerId) :: grants d.log := rfl

theorem onceEach_winner (d e : Desk) (auction : Auction) (winner : ReceivedBid)
    (present : d.record.auction = some auction) (best : auction.winner = some winner)
    (same : grants e.log = grants (d.award world winner.bidderId).log) :
    OnceEach d.record.auction d.log e.log := by
  refine ⟨[({ d.record with state := .granted, grantedTo := some winner.bidderId },winner.bidderId)],
    same,by simp,?_⟩
  intro dst member
  have dst : dst = winner.bidderId := by simpa using member
  exact ⟨auction,winner,present,auction.winner_viable winner best,dst.symm⟩

/-- Induction over the cascade: each round grants one bid and forgets its bidder. -/
theorem closing_grants (now : ℚ) (d : Desk) (after : Flow Desk)
    (closing : Closing params world peers now d after) :
    OnceEach d.record.auction d.log after.state.log := by
  induction closing with
  | still now d quiet => exact ⟨[],rfl,by simp,by simp⟩
  | noBid now d auction present closes nobody =>
    refine ⟨[],?_,by simp,by simp⟩
    exact (disposeLocally_unsent d _ now _ ⟨rfl,rfl⟩).grants
  | pending now d auction winner present closes best reply =>
    exact onceEach_winner world d _ auction winner present best rfl
  | delivered now d auction winner present closes best reply =>
    exact onceEach_winner world d _ auction winner present best (grantDelivered_unsent
      (d.award world winner.bidderId) _ _ _ ⟨rfl,rfl⟩).grants
  | exhausted now later d auction winner shown present closes best fails nobody =>
    rw [fails_state world _ _ _ _ _ fails]
    exact onceEach_winner world d _ auction winner present best (fallBack_unsent params world peers
      (d.award world winner.bidderId) later ((d.award world winner.bidderId).lose winner.bidderId)
      ⟨rfl,rfl⟩).grants
  | again now later d auction winner shown after present closes best fails runnerUp rest ih =>
    rw [fails_state world _ _ _ _ _ fails]
    obtain ⟨added,grown,distinct,viable⟩ := ih
    have left : ∀ dst ∈ added.map Prod.snd, ∃ bid, bid ∈ auction.viable ∧ bid.bidderId = dst ∧
        dst ≠ winner.bidderId := by
      intro dst member
      obtain ⟨a,bid,same,holds,bidder⟩ := viable dst member
      have same : (auction.forget winner.bidderId) = a := by
        simpa [award,lose,reopen,put,say,present] using same
      rw [← same] at holds
      obtain ⟨⟨robot,found⟩,feasible⟩ := (Auction.mem_viable _ bid).mp holds
      obtain ⟨other,found⟩ := Dict.get?_pop_cases found
      refine ⟨bid,(Auction.mem_viable _ bid).mpr ⟨⟨robot,found⟩,feasible⟩,bidder,?_⟩
      rw [← bidder,auction.filed robot bid found]
      exact other
    refine ⟨added ++ [({ d.record with state := .granted, grantedTo := some winner.bidderId },
      winner.bidderId)],?_,?_,?_⟩
    · rw [grown,List.append_assoc]
      rfl
    · rw [List.map_append,List.nodup_append]
      refine ⟨distinct,by simp,?_⟩
      intro dst member other last
      obtain ⟨_,_,_,different⟩ := left dst member
      have last : other = winner.bidderId := by simpa using last
      rw [last]
      exact different
    · intro dst member
      rw [List.map_append,List.mem_append] at member
      obtain old | last := member
      · obtain ⟨bid,holds,bidder,_⟩ := left dst old
        exact ⟨auction,bid,present,holds,bidder⟩
      · have last : dst = winner.bidderId := by simpa using last
        exact ⟨auction,winner,present,auction.winner_viable winner best,last.symm⟩

theorem settle_grants (winnerId : Int) (outcome : Outcome) (d : Desk) :
    OnceEach (d.lose winnerId).record.auction d.log
      (d.settle params world peers winnerId outcome).state.log := by
  obtain ⟨_,same⟩ | ⟨_,_,same⟩ | ⟨_,_,⟨_,same⟩ | ⟨_,closing⟩⟩ :=
    settle_cases params world peers winnerId outcome d
  · rw [same]
    exact ⟨[],rfl,by simp,by simp⟩
  · rw [same]
    have unsent := grantDelivered_unsent d winnerId (world.clock d.log) d ⟨rfl,rfl⟩
    exact ⟨[],unsent.grants,by simp,by simp⟩
  · rw [same]
    have unsent := fallBack_unsent params world peers d (world.clock d.log) (d.lose winnerId) ⟨rfl,rfl⟩
    exact ⟨[],unsent.grants,by simp,by simp⟩
  · exact closing_grants params world peers _ (d.lose winnerId).reopen _ closing

theorem dispose_shaped (disposition : LocalDisposition) (now : ℚ) (d : Desk) :
    (d.disposeLocally disposition now).record.Shaped := by
  rw [dispose_record]
  split <;> simp [OwnedTask.Shaped]

theorem announce_shaped (now : ℚ) (d : Desk) :
    (d.announce params world peers now).state.record.Shaped := by
  obtain ⟨auction,inMission,_,shape⟩ := announce_record params world peers now d
  rw [shape]
  simp [OwnedTask.Shaped]

theorem fallBack_shaped (now : ℚ) (d : Desk) :
    (d.fallBack params world peers now).state.record.Shaped := by
  obtain ⟨_,again⟩ | ⟨_,ended⟩ := fallBack_cases params world peers now d
  · rw [again]
    exact announce_shaped params world peers now _
  · rw [ended]
    exact dispose_shaped _ now _

theorem grantDelivered_shaped (winnerId : Int) (now : ℚ) (d : Desk) :
    (d.grantDelivered winnerId now).record.Shaped := by
  rw [grantDelivered_record]
  simp [OwnedTask.Shaped]

theorem reopen_shaped (d : Desk) (runnerUp : d.runnerUp.isSome = true) : d.reopen.record.Shaped := by
  have open_ : d.record.auction.isSome = true := by
    cases auction : d.record.auction with
    | none => simp [Desk.runnerUp,auction] at runnerUp
    | some _ => rfl
  rw [reopen_record]
  simp [OwnedTask.Shaped,open_]

theorem cascades_shaped : Cascades params world peers (fun d => d.record.Shaped) (fun _ => True)
    (fun d => d.record.Shaped) where
  still _ before := before
  noBid d now _ := dispose_shaped _ now _
  sent d auction winner _ present _ _ := by
    rw [await_record,award_record]
    simp [OwnedTask.Shaped,present]
  delivered _ _ _ now _ _ _ _ := grantDelivered_shaped _ now _
  failed _ _ _ _ _ _ _ := trivial
  reopened d _ runnerUp := reopen_shaped d runnerUp
  fallenBack d now _ _ := fallBack_shaped params world peers now d

def Offering (d : Desk) : Prop := d.record.Shaped ∧ d.record.Welcomes ∧ Offers d.record.serial d.log

/-- As `Offering`, while a GRANT is known lost and the record not yet moved on. -/
def Recovering (d : Desk) : Prop := d.record.Welcomes ∧ Offers d.record.serial d.log

theorem dispose_offering (disposition : LocalDisposition) (now : ℚ) (d : Desk)
    (before : Offers d.record.serial d.log) : (d.disposeLocally disposition now).Offering := by
  refine ⟨dispose_shaped disposition now d,?_,?_⟩
  · rw [dispose_record]
    split
    · rintro _ ⟨⟩
    · rintro _ ⟨⟩
  · unfold Offers
    rw [(disposeLocally_unsent d disposition now d ⟨rfl,rfl⟩).grants]
    rw [dispose_record]
    split <;> exact before

theorem announce_offering (now : ℚ) (d : Desk) (before : Offers d.record.serial d.log) :
    (d.announce params world peers now).state.Offering := by
  obtain ⟨auction,inMission,fresh,shape⟩ := announce_record params world peers now d
  refine ⟨announce_shaped params world peers now d,?_,?_⟩
  · rw [shape]
    rintro other ⟨⟩ robot _
    rw [fresh.empty]
    rfl
  · unfold Offers
    rw [(announce_unsent params world peers d now d ⟨rfl,rfl⟩).grants,shape]
    exact before

theorem fallBack_offering (now : ℚ) (d : Desk) (before : Offers d.record.serial d.log) :
    (d.fallBack params world peers now).state.Offering := by
  obtain ⟨_,again⟩ | ⟨_,ended⟩ := fallBack_cases params world peers now d
  · rw [again]
    exact announce_offering params world peers now _ before
  · rw [ended]
    exact dispose_offering _ now _ before

theorem grantDelivered_offering (winnerId : Int) (now : ℚ) (d : Desk)
    (before : Offers d.record.serial d.log) : (d.grantDelivered winnerId now).Offering := by
  refine ⟨grantDelivered_shaped winnerId now d,?_,?_⟩
  · rw [grantDelivered_record]
    rintro _ ⟨⟩
  · unfold Offers
    rw [(grantDelivered_unsent d winnerId now d ⟨rfl,rfl⟩).grants,grantDelivered_record]
    exact before

theorem award_offers (d : Desk) (auction : Auction) (winner : ReceivedBid)
    (present : d.record.auction = some auction) (best : auction.winner = some winner)
    (before : d.Offering) : Offers d.record.serial (d.award world winner.bidderId).log := by
  intro record dst member serial
  rw [award_grants] at member
  obtain new | old := List.mem_cons.mp member
  · injection new with record_eq dst_eq
    rw [record_eq,dst_eq]
    intro excluded
    obtain ⟨⟨robot,found⟩,_⟩ := (auction.mem_viable winner).mp (auction.winner_viable winner best)
    have forgotten := before.2.1 auction present winner.bidderId excluded
    rw [auction.filed robot winner found,found] at forgotten
    cases forgotten
  · exact before.2.2 record dst old serial

theorem lose_welcomes (winnerId : Int) (d : Desk) (before : d.record.Welcomes) :
    (d.lose winnerId).record.Welcomes := by
  intro auction present robot excluded
  rw [lose_record] at present excluded
  obtain ⟨old,there,rfl⟩ := Option.map_eq_some_iff.mp present
  simp only [Auction.forget,Dict.get?_pop]
  split
  · rfl
  · rename_i other
    exact before old there robot ((Finset.mem_insert.mp excluded).resolve_left other)

theorem cascades_offering : Cascades params world peers Offering Recovering Offering where
  still _ before := before
  noBid _ now before := dispose_offering _ now _ before.2.2
  sent d auction winner before present best reply :=
    ⟨(cascades_shaped params world peers).sent d auction winner before.1 present best reply,before.2.1,
      award_offers world d auction winner present best before⟩
  delivered _ auction winner now before present best _ :=
    grantDelivered_offering _ now _ (award_offers world _ auction winner present best before)
  failed d auction winner before present best _ :=
    ⟨lose_welcomes _ _ before.2.1,award_offers world d auction winner present best before⟩
  reopened d before runnerUp := ⟨reopen_shaped d runnerUp,before⟩
  fallenBack d now before _ := fallBack_offering params world peers now d before.2

end Desk

namespace Session
variable (cfg : Config)

theorem forgets_bids (gone : List PeerRecord) (auction : Auction) :
    let after := gone.foldl (fun a peer => a.forget peer.robotId) auction
    after.task = auction.task ∧
      ∀ robot bid, after.bids.get? robot = some bid → auction.bids.get? robot = some bid := by
  induction gone generalizing auction with
  | nil => exact ⟨rfl,fun _ _ found => found⟩
  | cons peer rest ih =>
    obtain ⟨same,fewer⟩ := ih (auction.forget peer.robotId)
    refine ⟨same,?_⟩
    intro robot bid found
    have there := fewer robot bid found
    exact (Dict.get?_pop_cases there).2

theorem grants_unrelated (serial : Nat) (added log : Log) (unrelated : Unrelated serial added)
    (record : OwnedTask) (dst : Int) (member : (record,dst) ∈ grants (added ++ log))
    (same : record.serial = serial) : (record,dst) ∈ grants log := by
  simp only [grants,List.filterMap_append,List.mem_append] at member
  obtain new | old := member
  · obtain ⟨call,there,shape⟩ := List.mem_filterMap.mp new
    cases call with
    | sendReliable other robot message reply =>
      injection shape with shape
      injection shape with record_eq _
      exact absurd (by rw [Call.serial?,record_eq,same]) (unrelated _ there)
    | _ => cases shape
  · exact old

theorem offers_unrelated (serial : Nat) (added log : Log) (unrelated : Unrelated serial added)
    (before : Offers serial log) : Offers serial (added ++ log) :=
  fun record dst member same =>
    before record dst (grants_unrelated serial added log unrelated record dst member same) same

theorem fresh_offering (serial : Nat) (task : Task) (log : Log) (offers : Offers serial log) :
    OwnedTask.Shaped { serial := serial, task := task } ∧
      OwnedTask.Welcomes { serial := serial, task := task } ∧ Offers serial log :=
  ⟨by simp [OwnedTask.Shaped],(fun _ present => by cases present),offers⟩

theorem unrelated_offers (serial : Nat) (log : Log) (unrelated : Unrelated serial log) :
    Offers serial log := by
  have all := offers_unrelated serial log [] unrelated (fun _ _ member => by cases member)
  rw [List.append_nil] at all
  exact all

theorem tracks_offering : Tracks cfg
    (fun r log => r.Shaped ∧ r.Welcomes ∧ Offers r.serial log) Offers where
  live r log holds := holds.2.2
  frame r log added unrelated holds :=
    ⟨holds.1,holds.2.1,offers_unrelated r.serial added log unrelated holds.2.2⟩
  past serial log added unrelated offers := offers_unrelated serial added log unrelated offers
  unknown serial log unrelated := unrelated_offers serial log unrelated
  fresh serial task log unrelated :=
    fresh_offering serial task log (unrelated_offers serial log unrelated)
  absorbed serial task cause note log unrelated :=
    fresh_offering serial task _ (unrelated_offers serial log unrelated)
  forgotten gone r log holds := by
    obtain ⟨shaped,welcomes,offers⟩ := holds
    refine ⟨?_,?_,offers⟩
    · simpa [OwnedTask.Shaped,forgetGone] using shaped
    · intro auction present robot excluded
      obtain ⟨old,there,rfl⟩ := Option.map_eq_some_iff.mp present
      rw [Option.eq_none_iff_forall_ne_some]
      intro bid found
      have before := (forgets_bids gone old).2 robot bid found
      rw [welcomes old there robot excluded] at before
      cases before
  delegated world peers task reasonCode fallback note now tasks r log futures found holds := by
    intro after
    obtain ⟨_,same⟩ | ⟨_,_,same⟩ | ⟨_,_,same⟩ := delegate_cases cfg world peers (announcedIn tasks)
      reasonCode fallback note now
      ⟨r,.apply (.reDelegate task reasonCode fallback note) now tasks futures :: log,futures⟩
    · simp only [after,same]
      exact holds
    · simp only [after,same]
      exact Desk.dispose_offering _ now _ holds.2.2
    · simp only [after,same]
      exact Desk.announce_offering _ _ _ now _ holds.2.2
  dropped task disposition reasonCode now tasks r log futures found holds :=
    Desk.dispose_offering _ now _ holds.2.2
  filed world peers bid now d auction filed _ collects welcome taken holds := by
    obtain ⟨announced,present⟩ := (collecting_eq_some _ _).mp collects
    refine (Desk.cascades_offering cfg.params world peers).maybeClose _ _ _ _ _ _ now _ ⟨?_,?_,holds.2.2⟩
    · simp [OwnedTask.Shaped,announced]
    · rintro other ⟨⟩ robot excluded
      obtain ⟨_,_,_,bids⟩ := auction.record_cases filed bid now taken
      have other : robot ≠ bid.src := by
        rintro rfl
        exact welcome excluded
      rw [bids,Dict.get?_set_ne _ _ _ _ other]
      exact holds.2.1 auction present robot excluded
  ran world peers now d holds := by
    refine runAuction_rule cfg world peers _ _ _ (Desk.cascades_offering cfg.params world peers) now d
      (fun _ => holds) (fun _ _ => holds) ?_
    intro before
    obtain ⟨change,same,shape⟩ := Desk.emitAnnounce_record cfg.params world now d
    refine ⟨?_,?_,?_⟩
    · rw [shape]
      simpa [OwnedTask.Shaped] using before.1
    · rw [shape]
      intro auction present robot excluded
      obtain ⟨old,there,rfl⟩ := Option.map_eq_some_iff.mp present
      rw [(same old).bids]
      exact before.2.1 old there robot excluded
    · unfold Offers
      rw [(Desk.emitAnnounce_unsent _ world d now d ⟨rfl,rfl⟩).grants,shape]
      exact before.2.2
  settled world peers winnerId outcome d holds :=
    (Desk.cascades_offering cfg.params world peers).settle _ _ _ _ _ _ winnerId outcome d
      (fun _ => holds) (fun now _ _ => Desk.grantDelivered_offering _ now _ holds.2.2)
      (fun _ _ => ⟨Desk.lose_welcomes _ _ holds.2.1,holds.2.2⟩)

def heard (now : ℚ) (message : Message) : Label := ⟨clockAt now,.message message⟩

/-- Two bids, both GRANTs refused, and so a second cycle. -/
def refusedRun : List Label :=
  [⟨clockAt 0,.own field⟩,given 1 (.reDelegate field 0 .hold ""),heard 2 (.bid ⟨2,0,7,4,true,10⟩),
    heard 3 (.bid ⟨3,0,7,4,true,20⟩),⟨{ clockAt 7 with sendReliable := fun _ => .refused },.tick⟩]

end Session
end AmigaFleet.Coordinator
