import AmigaFleet.Coordinator.Delegation

/-! A GRANT only ever goes to a robot whose Bid on that task has been heard. -/
namespace AmigaFleet.Coordinator
open Lib AmigaFleet.Codec AmigaFleet.Reliability

def BidHeard (taskId robot : Int) (log : Log) : Prop :=
  ∃ bid : Bid, Heard (.bid bid) log ∧ bid.src = robot ∧ bid.taskId = taskId

theorem heard_later (message : Message) (log later : Log) (grows : log <:+ later)
    (heard : Heard message log) : Heard message later := by
  obtain ⟨tasks,member⟩ := heard
  exact ⟨tasks,grows.subset member⟩

theorem bidHeard_later (taskId robot : Int) (log later : Log) (grows : log <:+ later)
    (heard : BidHeard taskId robot log) : BidHeard taskId robot later := by
  obtain ⟨bid,heard,rest⟩ := heard
  exact ⟨bid,heard_later _ log later grows heard,rest⟩

def OnFile (r : OwnedTask) (log : Log) : Prop :=
  ∀ auction, r.auction = some auction → auction.task = r.task ∧
    ∀ robot bid, auction.bids.get? robot = some bid → BidHeard r.task.taskId robot log

/-- Every robot this record was ever granted to had bid. -/
def Sponsored (serial : Nat) (log : Log) : Prop :=
  ∀ record dst, (record,dst) ∈ grants log → record.serial = serial → BidHeard record.task.taskId dst log

theorem sponsored_later (serial : Nat) (log later : Log) (grows : log <:+ later)
    (same : grants later = grants log) (before : Sponsored serial log) : Sponsored serial later := by
  intro record dst member about
  rw [same] at member
  exact bidHeard_later _ _ log later grows (before record dst member about)

theorem onFile_later (r : OwnedTask) (log later : Log) (grows : log <:+ later) (before : OnFile r log) :
    OnFile r later := by
  intro auction present
  obtain ⟨about,filed⟩ := before auction present
  exact ⟨about,fun robot bid found => bidHeard_later _ _ log later grows (filed robot bid found)⟩

namespace Desk
variable (params : CoordinatorParams) (world : World) (peers : Registry)

def Backed (d : Desk) : Prop := OnFile d.record d.log ∧ Sponsored d.record.serial d.log

theorem backed_over (start d : Desk) (works : Works start d) (unsent : Unsent start d)
    (ended : d.record.auction = none) (before : Sponsored start.record.serial start.log) : d.Backed := by
  constructor
  · intro auction present
    rw [ended] at present
    cases present
  · rw [works.serial]
    exact sponsored_later _ start.log d.log works.grows unsent.grants before

theorem dispose_backed (disposition : LocalDisposition) (now : ℚ) (d : Desk)
    (before : Sponsored d.record.serial d.log) : (d.disposeLocally disposition now).Backed := by
  refine backed_over d _ (disposeLocally_works d disposition now d (works_refl d))
    (disposeLocally_unsent d disposition now d ⟨rfl,rfl⟩) ?_ before
  rw [dispose_record]
  split <;> rfl

theorem announce_backed (now : ℚ) (d : Desk) (before : Sponsored d.record.serial d.log) :
    (d.announce params world peers now).state.Backed := by
  have works := announce_works params world peers d now d (works_refl d)
  have unsent := announce_unsent params world peers d now d ⟨rfl,rfl⟩
  obtain ⟨auction,inMission,fresh,shape⟩ := announce_record params world peers now d
  constructor
  · rw [shape]
    rintro other ⟨⟩
    refine ⟨fresh.task,?_⟩
    intro robot bid found
    rw [fresh.empty] at found
    cases found
  · rw [works.serial]
    exact sponsored_later _ d.log _ works.grows unsent.grants before

theorem fallBack_backed (now : ℚ) (d : Desk) (before : Sponsored d.record.serial d.log) :
    (d.fallBack params world peers now).state.Backed := by
  obtain ⟨_,again⟩ | ⟨_,ended⟩ := fallBack_cases params world peers now d
  · rw [again]
    exact announce_backed params world peers now _ before
  · rw [ended]
    exact dispose_backed _ now _ before

theorem grantDelivered_backed (winnerId : Int) (now : ℚ) (d : Desk)
    (before : Sponsored d.record.serial d.log) : (d.grantDelivered winnerId now).Backed := by
  refine backed_over d _ (grantDelivered_works d winnerId now d (works_refl d))
    (grantDelivered_unsent d winnerId now d ⟨rfl,rfl⟩) ?_ before
  rw [grantDelivered_record]

theorem award_backed (d : Desk) (auction : Auction) (winner : ReceivedBid)
    (present : d.record.auction = some auction) (best : auction.winner = some winner) (before : d.Backed) :
    (d.award world winner.bidderId).Backed := by
  have grows := (award_works world d winner.bidderId d (works_refl d)).grows
  constructor
  · exact onFile_later _ d.log _ grows before.1
  · intro record dst member serial
    rw [award_grants] at member
    obtain new | old := List.mem_cons.mp member
    · injection new with sent to_
      obtain ⟨⟨robot,found⟩,_⟩ := (auction.mem_viable winner).mp (auction.winner_viable winner best)
      rw [sent,to_]
      refine bidHeard_later _ _ d.log _ grows ?_
      rw [auction.filed robot winner found]
      exact (before.1 auction present).2 robot winner found
    · exact bidHeard_later _ _ d.log _ grows (before.2 record dst old serial)

theorem lose_backed (winnerId : Int) (d : Desk) (before : d.Backed) : (d.lose winnerId).Backed := by
  refine ⟨?_,before.2⟩
  intro auction present
  obtain ⟨old,there,rfl⟩ := Option.map_eq_some_iff.mp present
  obtain ⟨about,filed⟩ := before.1 old there
  refine ⟨about,?_⟩
  intro robot bid found
  exact filed robot bid (Dict.get?_pop_cases found).2

theorem emitAnnounce_backed (now : ℚ) (d : Desk) (before : d.Backed) :
    (d.emitAnnounce params world now).state.Backed := by
  have works := emitAnnounce_works params world d now d (works_refl d)
  have unsent := emitAnnounce_unsent params world d now d ⟨rfl,rfl⟩
  obtain ⟨change,same,shape⟩ := emitAnnounce_record params world now d
  constructor
  · rw [shape]
    intro auction present
    obtain ⟨old,there,rfl⟩ := Option.map_eq_some_iff.mp present
    obtain ⟨about,filed⟩ := before.1 old there
    refine ⟨(same old).task.trans about,?_⟩
    intro robot bid found
    rw [(same old).bids] at found
    exact bidHeard_later _ _ d.log _ works.grows (filed robot bid found)
  · rw [works.serial]
    exact sponsored_later _ d.log _ works.grows unsent.grants before.2

theorem cascades_backed : Cascades params world peers Backed Backed Backed where
  still _ before := before
  noBid _ now before := dispose_backed _ now _ before.2
  sent d auction winner before present best _ := award_backed world d auction winner present best before
  delivered d auction winner now before present best _ :=
    grantDelivered_backed _ now _ (award_backed world d auction winner present best before).2
  failed d auction winner before present best _ :=
    lose_backed _ _ (award_backed world d auction winner present best before)
  reopened _ before _ := before
  fallenBack d now before _ := fallBack_backed params world peers now d before.2

end Desk

namespace Session
variable (cfg : Config)

theorem sponsored_unrelated (serial : Nat) (added log : Log) (unrelated : Unrelated serial added)
    (before : Sponsored serial log) : Sponsored serial (added ++ log) := by
  intro record dst member about
  have old := grants_unrelated serial added log unrelated record dst member about
  exact bidHeard_later _ _ log _ (List.suffix_append _ _) (before record dst old about)

theorem sponsored_unknown (serial : Nat) (log : Log) (unrelated : Unrelated serial log) :
    Sponsored serial log := by
  have all := sponsored_unrelated serial log [] unrelated (fun _ _ member => by cases member)
  rwa [List.append_nil] at all

theorem tracks_backed : Tracks cfg (fun r log => OnFile r log ∧ Sponsored r.serial log) Sponsored where
  live r log backed := backed.2
  frame r log added unrelated backed :=
    ⟨onFile_later r log _ (List.suffix_append _ _) backed.1,sponsored_unrelated _ added log unrelated backed.2⟩
  past serial log added unrelated before := sponsored_unrelated serial added log unrelated before
  unknown serial log unrelated := sponsored_unknown serial log unrelated
  fresh serial task log unrelated := ⟨(fun _ present => by cases present),sponsored_unknown serial log unrelated⟩
  absorbed serial task cause note log unrelated :=
    ⟨(fun _ present => by cases present),
      sponsored_later serial log _ (List.suffix_cons _ _) rfl (sponsored_unknown serial log unrelated)⟩
  forgotten gone r log backed := by
    refine ⟨?_,backed.2⟩
    intro auction present
    obtain ⟨old,there,rfl⟩ := Option.map_eq_some_iff.mp present
    obtain ⟨about,filed⟩ := backed.1 old there
    obtain ⟨same,fewer⟩ := forgets_bids gone old
    exact ⟨same.trans about,fun robot bid found => filed robot bid (fewer robot bid found)⟩
  delegated world peers task reasonCode fallback note now tasks r log futures found backed := by
    intro after
    obtain ⟨_,same⟩ | ⟨_,_,same⟩ | ⟨_,_,same⟩ := delegate_cases cfg world peers (announcedIn tasks)
      reasonCode fallback note now
      ⟨r,.apply (.reDelegate task reasonCode fallback note) now tasks futures :: log,futures⟩
    · simp only [after,same]
      exact backed
    · simp only [after,same]
      exact Desk.dispose_backed _ now _ backed.2
    · simp only [after,same]
      exact Desk.announce_backed _ _ _ now _ backed.2
  dropped task disposition reasonCode now tasks r log futures found backed :=
    Desk.dispose_backed _ now _ backed.2
  filed world peers bid now d auction filed heard collects welcome taken backed := by
    obtain ⟨_,present⟩ := (collecting_eq_some _ _).mp collects
    refine (Desk.cascades_backed cfg.params world peers).maybeClose _ _ _ _ _ _ now _ ⟨?_,backed.2⟩
    rintro other ⟨⟩
    obtain ⟨about,known⟩ := backed.1 auction present
    obtain ⟨onTask,same,_,bids⟩ := auction.record_cases filed bid now taken
    refine ⟨same.trans about,?_⟩
    intro robot answer found
    rw [bids] at found
    obtain ⟨rfl,_⟩ | ⟨_,found⟩ := Dict.get?_set_cases found
    · exact ⟨bid,heard,rfl,onTask.trans (congrArg Task.taskId about)⟩
    · exact known robot answer found
  ran world peers now d backed :=
    runAuction_rule cfg world peers _ _ _ (Desk.cascades_backed cfg.params world peers) now d
      (fun _ => backed) (fun _ _ => backed)
      (fun before => Desk.emitAnnounce_backed _ _ now d before)
  settled world peers winnerId outcome d backed :=
    (Desk.cascades_backed cfg.params world peers).settle _ _ _ _ _ _ winnerId outcome d
      (fun _ => backed) (fun now _ _ => Desk.grantDelivered_backed _ now _ backed.2)
      (fun _ _ => Desk.lose_backed _ _ backed)

theorem granted_bidHeard (s : Session) (reached : (machine cfg).Reachable s) (record : OwnedTask) (dst : Int)
    (sent : (record,dst) ∈ grants s.log) : BidHeard record.task.taskId dst s.log :=
  (reachable_tracked cfg _ _ (tracks_backed cfg) s reached).ever record.serial record dst sent rfl

end Session
end AmigaFleet.Coordinator
