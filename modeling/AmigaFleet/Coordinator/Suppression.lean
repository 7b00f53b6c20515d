import AmigaFleet.Coordinator.Session
import AmigaFleet.Lib.Machine

/-! Suppression among the bidders on one task. A bidder compares the rival's wire
fields with its own fitness, the announcer compares wire fields only; the two
orders differ where quantisation moves a bid across a rival's. -/
namespace AmigaFleet.Coordinator
open Lib AmigaFleet.Codec

/-- A robot waiting out its backoff with a feasible bid on the task. -/
structure Bidder (task : Task) where
  nodeId : Int
  pending : PendingBid
  onTask : pending.taskId = task.taskId
  waits : pending.sentAt = none
  feasible : pending.fitness.feasible = true
  costRange : 0 ≤ pending.fitness.cost ∧ pending.fitness.cost ≤ costMax
  etaNonneg : 0 ≤ pending.fitness.etaS

namespace Bidder
variable {task : Task}

def bid (b : Bidder task) : Bid := { b.pending.wire with src := b.nodeId }

def rank (b : Bidder task) : Rank :=
  rankOf b.pending.fitness.cost (quantizedEta b.pending.fitness.etaS) b.nodeId

/-- `rival` silences `b` although it is `b` the announcer would prefer: equal
costs, and the rival lies between `b`'s ETA on the wire and `b`'s own ETA. -/
def Misjudged (rival b : Bidder task) : Prop :=
  rival.pending.fitness.cost = b.pending.fitness.cost ∧
    toLex (quantizedEta b.pending.fitness.etaS,b.nodeId) <
      toLex (quantizedEta rival.pending.fitness.etaS,rival.nodeId) ∧
    toLex (quantizedEta rival.pending.fitness.etaS,rival.nodeId) <
      toLex (truncate b.pending.fitness.etaS,b.nodeId)

theorem bid_cost (b : Bidder task) : b.bid.cost = b.pending.fitness.cost := by
  simp [bid,PendingBid.wire,b.feasible,b.costRange.2]

theorem received_rank (b : Bidder task) (now : ℚ) : (ReceivedBid.ofBid b.bid now).rank = b.rank := by
  simp only [ReceivedBid.rank,ReceivedBid.ofBid,bid_cost]
  rfl

theorem suppressed_iff (rival b : Bidder task) : b.pending.suppressedBy rival.bid b.nodeId = true ↔
    rival.rank < rankOf b.pending.fitness.cost (truncate b.pending.fitness.etaS) b.nodeId := by
  have feasible : rival.bid.feasible = true := rival.feasible
  simp only [PendingBid.suppressedBy,PendingBid.outrankedBy,bid_cost,b.feasible,feasible,Bool.true_and,
    decide_eq_true_eq]
  rfl

theorem rankOf_lt (cost etaS id cost' etaS' id' : Int) : rankOf cost etaS id < rankOf cost' etaS' id' ↔
    cost < cost' ∨ cost = cost' ∧ toLex (etaS,id) < toLex (etaS',id') := by
  simp [rankOf,Prod.Lex.toLex_lt_toLex]

/-- A rank that another bid precedes at one ETA and follows at another is one of
equal cost, between the two. -/
theorem rankOf_between (cost cost' early late etaS id id' : Int) :
    (rankOf cost' etaS id' < rankOf cost late id ∧ rankOf cost early id < rankOf cost' etaS id') ↔
      cost' = cost ∧ toLex (early,id) < toLex (etaS,id') ∧ toLex (etaS,id') < toLex (late,id) := by
  simp only [rankOf_lt]
  constructor
  · rintro ⟨lower | ⟨same,second⟩,upper | ⟨_,first⟩⟩
    · exact absurd upper (not_lt.mpr lower.le)
    · omega
    · omega
    · exact ⟨same,first,second⟩
  · rintro ⟨same,first,second⟩
    exact ⟨.inr ⟨same,second⟩,.inr ⟨same.symm,first⟩⟩

theorem misjudged_iff (rival b : Bidder task) : Misjudged rival b ↔
    b.pending.suppressedBy rival.bid b.nodeId = true ∧ b.rank < rival.rank := by
  rw [suppressed_iff]
  exact (rankOf_between _ _ _ _ _ _ _).symm

theorem rank_ne (a b : Bidder task) (different : a.nodeId ≠ b.nodeId) : a.rank ≠ b.rank := by
  intro same
  have ids := congrArg (fun rank : Rank => (ofLex (ofLex rank).2).2) same
  exact different ids

end Bidder

/-- The bidders still waiting, and the auction that hears every bid. -/
structure Contest (task : Task) where
  waiting : List (Bidder task)
  auction : Auction

namespace Contest
variable {task : Task}

def take (a : Auction) (bid : Bid) (now : ℚ) : Auction := (a.record bid now).getD a

/-- A backoff expires: the bid is heard by the announcer and by everyone still waiting. -/
def fire (b : Bidder task) (now : ℚ) (s : Contest task) : Contest task where
  waiting := s.waiting.filter (fun other => other.nodeId ≠ b.nodeId &&
    !other.pending.suppressedBy b.bid other.nodeId)
  auction := take s.auction b.bid now

def machine (bidders : List (Bidder task)) (auction : Auction) :
    Machine (Contest task) (Bidder task × ℚ) where
  initial s := s = ⟨bidders,auction⟩
  enabled s label := label.1 ∈ s.waiting
  next s label := s.fire label.1 label.2

def everyone (now : ℚ) (bidders : List (Bidder task)) (auction : Auction) : Auction :=
  bidders.foldl (fun a b => take a b.bid now) auction

/-- Nobody is silenced by a bid ranking after its own, and the winner is the
one it would be if everybody had transmitted. -/
def Sound (bidders : List (Bidder task)) (auction : Auction) : Prop :=
  ∀ s now, (machine bidders auction).Reachable s →
    (∀ rival ∈ s.waiting, ∀ b ∈ s.waiting, rival.nodeId ≠ b.nodeId →
      b.pending.suppressedBy rival.bid b.nodeId = true →
      (ReceivedBid.ofBid rival.bid now).rank < (ReceivedBid.ofBid b.bid now).rank) ∧
    (s.waiting = [] →
      s.auction.winner.map ReceivedBid.rank = (everyone now bidders auction).winner.map ReceivedBid.rank)

/-- A session whose wait is still on hears a rival as `fire` says it does. -/
theorem considerSuppression_bids (cfg : Config) (rival b : Bidder task) (s : Session)
    (same : cfg.nodeId = b.nodeId) (holds : s.bids.get? task.taskId = some b.pending) :
    (s.considerSuppression cfg rival.bid).bids.get? task.taskId =
      if b.pending.suppressedBy rival.bid b.nodeId then none else some b.pending := by
  have about : rival.bid.taskId = task.taskId := rival.onTask
  simp only [Session.considerSuppression,about,holds,b.waits,same,true_and]
  split
  · exact Dict.get?_pop_self _ _
  · exact holds

/-- The answers an auction holds are exactly the bids of these robots. -/
structure Answered (task : Task) (a : Auction) (heard : List (Bidder task)) : Prop where
  about : a.task = task
  holds : ∀ b ∈ heard, ∃ bid, a.bids.get? b.nodeId = some bid ∧ bid.rank = b.rank ∧ bid.feasible = true
  only : ∀ robot bid, a.bids.get? robot = some bid → ∃ b ∈ heard, b.nodeId = robot ∧ bid.rank = b.rank

theorem answered_nobody (a : Auction) (about : a.task = task) (empty : a.bids = .empty) :
    Answered task a [] := by
  refine ⟨about,fun b member => (nomatch member),?_⟩
  intro robot bid found
  rw [empty] at found
  cases found

theorem answered_take (a : Auction) (heard : List (Bidder task)) (b : Bidder task) (now : ℚ)
    (first : ∀ other ∈ heard, other.nodeId ≠ b.nodeId) (before : Answered task a heard) :
    Answered task (take a b.bid now) (b::heard) := by
  have about : b.bid.taskId = a.task.taskId := by
    rw [before.about]
    exact b.onTask
  have fresh : a.bids.get? b.bid.src = none := by
    rw [Option.eq_none_iff_forall_ne_some]
    intro bid found
    obtain ⟨other,member,same,_⟩ := before.only _ bid found
    exact first other member same
  have taken : take a b.bid now = { a with
      bids := a.bids.set b.bid.src (ReceivedBid.ofBid b.bid now)
      filed := Auction.filed_set a.bids (ReceivedBid.ofBid b.bid now) a.filed } := by
    simp [take,Auction.record,about,fresh]
  have filed : (take a b.bid now).bids = a.bids.set b.nodeId (ReceivedBid.ofBid b.bid now) := by
    rw [taken]
    rfl
  refine ⟨by rw [taken]; exact before.about,?_,?_⟩
  · intro other member
    obtain rfl | old := List.mem_cons.mp member
    · exact ⟨ReceivedBid.ofBid other.bid now,by simp [filed],other.received_rank now,other.feasible⟩
    · rw [filed,Dict.get?_set_ne _ _ _ _ (first other old)]
      exact before.holds other old
  · intro robot bid found
    rw [filed] at found
    obtain ⟨rfl,rfl⟩ | ⟨_,found⟩ := Dict.get?_set_cases found
    · exact ⟨b,List.mem_cons_self,rfl,b.received_rank now⟩
    · obtain ⟨other,member,rest⟩ := before.only robot bid found
      exact ⟨other,List.mem_cons_of_mem _ member,rest⟩

theorem answered_everyone (now : ℚ) (bidders heard : List (Bidder task)) (a : Auction)
    (distinct : (bidders.map Bidder.nodeId).Nodup)
    (first : ∀ b ∈ bidders, ∀ other ∈ heard, other.nodeId ≠ b.nodeId) (before : Answered task a heard) :
    Answered task (everyone now bidders a) (bidders.reverse ++ heard) := by
  induction bidders generalizing heard a with
  | nil => exact before
  | cons b rest ih =>
    simp only [List.map_cons,List.nodup_cons,List.mem_map,not_exists,not_and] at distinct
    have after := answered_take a heard b now (first b List.mem_cons_self) before
    have all := ih (b::heard) (take a b.bid now) distinct.2 ?_ after
    · simpa [everyone] using all
    · intro later member other old
      obtain rfl | old := List.mem_cons.mp old
      · exact fun same => distinct.1 later member same.symm
      · exact first later (List.mem_cons_of_mem _ member) other old

theorem answered_winner (a b : Auction) (some all : List (Bidder task)) (left : Answered task a some)
    (right : Answered task b all) (among : ∀ bidder ∈ some, bidder ∈ all)
    (beaten : ∀ bidder ∈ all, ∃ rival ∈ some, rival.rank ≤ bidder.rank) :
    a.winner.map ReceivedBid.rank = b.winner.map ReceivedBid.rank := by
  apply Auction.winner_rank_eq
  · intro bid member
    obtain ⟨⟨robot,found⟩,_⟩ := (a.mem_viable bid).mp member
    obtain ⟨bidder,heard,_,same⟩ := left.only robot bid found
    obtain ⟨other,holds,rank,feasible⟩ := right.holds bidder (among bidder heard)
    exact ⟨other,(b.mem_viable other).mpr ⟨⟨_,holds⟩,feasible⟩,(rank.trans same.symm).le⟩
  · intro bid member
    obtain ⟨⟨robot,found⟩,_⟩ := (b.mem_viable bid).mp member
    obtain ⟨bidder,heard,_,same⟩ := right.only robot bid found
    obtain ⟨rival,also,lower⟩ := beaten bidder heard
    obtain ⟨other,holds,rank,feasible⟩ := left.holds rival also
    exact ⟨other,(a.mem_viable other).mpr ⟨⟨_,holds⟩,feasible⟩,by rw [rank,same]; exact lower⟩

/-- Every bidder is waiting, or somebody heard ranks no worse than it. -/
structure Fair (bidders : List (Bidder task)) (s : Contest task) (heard : List (Bidder task)) : Prop where
  answers : Answered task s.auction heard
  heardOf : ∀ b ∈ heard, b ∈ bidders
  waitingOf : ∀ b ∈ s.waiting, b ∈ bidders
  silent : ∀ b ∈ s.waiting, ∀ other ∈ heard, other.nodeId ≠ b.nodeId
  beaten : ∀ b ∈ bidders, b ∈ s.waiting ∨ ∃ rival ∈ heard, rival.rank ≤ b.rank

variable (bidders : List (Bidder task)) (auction : Auction)

theorem fire_fair (s : Contest task) (heard : List (Bidder task)) (b : Bidder task) (now : ℚ)
    (distinct : (bidders.map Bidder.nodeId).Nodup)
    (agreed : ∀ rival ∈ bidders, ∀ other ∈ bidders, ¬ rival.Misjudged other)
    (waiting : b ∈ s.waiting) (fair : Fair bidders s heard) :
    Fair bidders (s.fire b now) (b::heard) := by
  have ofBidders := fair.waitingOf b waiting
  have stay : ∀ other ∈ (s.fire b now).waiting, other ∈ s.waiting ∧ other.nodeId ≠ b.nodeId := by
    intro other member
    have kept := List.mem_filter.mp member
    simp only [Bool.and_eq_true,decide_eq_true_eq] at kept
    exact ⟨kept.1,kept.2.1⟩
  refine ⟨answered_take _ heard b now (fair.silent b waiting) fair.answers,?_,?_,?_,?_⟩
  · intro other member
    obtain rfl | old := List.mem_cons.mp member
    · exact ofBidders
    · exact fair.heardOf other old
  · intro other member
    exact fair.waitingOf other (stay other member).1
  · intro later member other heardNow
    obtain ⟨was,different⟩ := stay later member
    obtain rfl | old := List.mem_cons.mp heardNow
    · exact different.symm
    · exact fair.silent later was other old
  · intro other member
    obtain was | ⟨rival,old,lower⟩ := fair.beaten other member
    · by_cases same : other.nodeId = b.nodeId
      · have equal := List.inj_on_of_nodup_map distinct member ofBidders same
        exact .inr ⟨b,List.mem_cons_self,equal ▸ le_refl _⟩
      · cases silenced : other.pending.suppressedBy b.bid other.nodeId with
        | false =>
          refine .inl (List.mem_filter.mpr ⟨was,?_⟩)
          simp [same,silenced]
        | true =>
          refine .inr ⟨b,List.mem_cons_self,not_lt.mp ?_⟩
          intro better
          exact agreed b ofBidders other member ((b.misjudged_iff other).mpr ⟨silenced,better⟩)
    · exact .inr ⟨rival,List.mem_cons_of_mem _ old,lower⟩

theorem reachable_fair (distinct : (bidders.map Bidder.nodeId).Nodup) (about : auction.task = task)
    (empty : auction.bids = .empty)
    (agreed : ∀ rival ∈ bidders, ∀ other ∈ bidders, ¬ rival.Misjudged other)
    (s : Contest task) (reached : (machine bidders auction).Reachable s) :
    ∃ heard, Fair bidders s heard := by
  refine reached.invariant (fun s => ∃ heard, Fair bidders s heard) ?_ ?_ s
  · rintro _ rfl
    exact ⟨[],answered_nobody auction about empty,(fun b member => nomatch member),(fun b member => member),
      (fun b _ other member => nomatch member),fun b member => .inl member⟩
  · rintro s ⟨b,now⟩ _ ⟨heard,fair⟩ waiting _
    exact ⟨b::heard,fire_fair bidders s heard b now distinct agreed waiting fair⟩

/-- Suppression changes no winner, and silences only bids that rank after the
rival's, exactly when no robot's wire fields fall between another's wire ETA
and that other's own ETA at the same cost. -/
theorem suppression_sound (distinct : (bidders.map Bidder.nodeId).Nodup) (about : auction.task = task)
    (empty : auction.bids = .empty) : Sound bidders auction ↔
      ∀ rival ∈ bidders, ∀ b ∈ bidders, ¬ rival.Misjudged b := by
  constructor
  · intro sound rival first b second misjudged
    obtain ⟨silenced,better⟩ := (rival.misjudged_iff b).mp misjudged
    have different : rival.nodeId ≠ b.nodeId := by
      intro same
      have equal := List.inj_on_of_nodup_map distinct first second same
      exact lt_irrefl _ (equal ▸ better)
    have after := (sound ⟨bidders,auction⟩ 0 (.start _ rfl)).1 rival first b second different silenced
    rw [rival.received_rank,b.received_rank] at after
    exact lt_asymm better after
  · intro agreed s now reached
    obtain ⟨heard,fair⟩ := reachable_fair bidders auction distinct about empty agreed s reached
    constructor
    · intro rival first b second different silenced
      rw [rival.received_rank,b.received_rank]
      refine lt_of_le_of_ne (not_lt.mp ?_) (rival.rank_ne b different)
      intro better
      exact agreed rival (fair.waitingOf rival first) b (fair.waitingOf b second)
        ((rival.misjudged_iff b).mpr ⟨silenced,better⟩)
    · intro ended
      have all := answered_everyone now bidders [] auction distinct
        (fun b _ other member => (nomatch member)) (answered_nobody auction about empty)
      rw [List.append_nil] at all
      refine answered_winner s.auction _ heard _ fair.answers all ?_ ?_
      · intro b member
        exact List.mem_reverse.mpr (fair.heardOf b member)
      · intro b member
        obtain waiting | beaten := fair.beaten b (List.mem_reverse.mp member)
        · rw [ended] at waiting
          cases waiting
        · exact beaten

def gate : Task := .seventh .none

def passer (nodeId cost : Int) (etaS : ℚ) (costRange : 0 ≤ cost ∧ cost ≤ costMax) (etaNonneg : 0 ≤ etaS) :
    Bidder gate where
  nodeId := nodeId
  pending := ⟨7,gate,1,{ feasible := true, cost := cost, etaS := etaS },0,0,none,false,""⟩
  onTask := rfl
  waits := rfl
  feasible := rfl
  costRange := costRange
  etaNonneg := etaNonneg

def gateAuction : Auction :=
  { task := gate, expectedBidders := ∅, openedAt := 0, closesAt := 5, nextAnnounceAt := none, filed := Auction.filed_empty }

def near : Bidder gate := passer 3 10 4 (by decide) (by norm_num)

def far : Bidder gate := passer 2 10 5 (by decide) (by norm_num)

def dear : Bidder gate := passer 2 11 5 (by decide) (by norm_num)

theorem suppression_sound_dear : Sound [dear,near] gateAuction := by
  refine (suppression_sound [dear,near] gateAuction (by decide) rfl rfl).mpr ?_
  intro rival first b second misjudged
  unfold Bidder.Misjudged at misjudged
  simp only [List.mem_cons,List.not_mem_nil,or_false] at first second
  obtain rfl | rfl := first <;> obtain rfl | rfl := second <;> revert misjudged <;> decide +kernel

/-- At equal costs, robot 2 at five seconds sends 4 on the wire and would win by
its id, but holds back on hearing robot 3 at four seconds. -/
theorem suppression_misjudged : ¬ Sound [far,near] gateAuction := by
  intro sound
  have reached : (machine [far,near] gateAuction).Reachable ((⟨[far,near],gateAuction⟩ : Contest gate).fire near 1) :=
    .step _ (near,1) (.start _ rfl) (by simp [machine]) trivial
  have winners := (sound _ 0 reached).2 (by decide +kernel)
  revert winners
  decide +kernel

end Contest
end AmigaFleet.Coordinator
