import AmigaFleet.Coordinator.Clocks
import AmigaFleet.Coordinator.Settling
import AmigaFleet.Coordinator.Suppression

/-! One auction and every robot that hears it. The announcer chooses its window
by whether its note went out, each bidder its backoff by whether it finds a
finished note in its cache, and neither knows of the other's choice. Frames
other than fragments arrive at once, one at a time, and timers fire in order. -/
namespace AmigaFleet.Coordinator
open Lib AmigaFleet.Codec AmigaFleet.Reliability

/-- A robot that is offered the task, and what its nodes say it would cost. -/
structure Candidate where
  cfg : Config
  fitness : Fitness
  costRange : 0 ≤ fitness.cost ∧ fitness.cost ≤ costMax
  etaNonneg : 0 ≤ fitness.etaS

namespace Candidate

def id (c : Candidate) : Int := c.cfg.nodeId

def rank (c : Candidate) : Rank := rankOf c.fitness.cost (quantizedEta c.fitness.etaS) c.id

def Silences (rival c : Candidate) : Prop :=
  rival.rank < rankOf c.fitness.cost (truncate c.fitness.etaS) c.id

/-- `rival` silences `c` although the announcer would prefer `c`. -/
def Misjudges (rival c : Candidate) : Prop :=
  rival.fitness.cost = c.fitness.cost ∧
    toLex (quantizedEta c.fitness.etaS,c.id) < toLex (quantizedEta rival.fitness.etaS,rival.id) ∧
    toLex (quantizedEta rival.fitness.etaS,rival.id) < toLex (truncate c.fitness.etaS,c.id)

theorem misjudges_iff (rival c : Candidate) : Misjudges rival c ↔ Silences rival c ∧ c.rank < rival.rank :=
  (Bidder.rankOf_between _ _ _ _ _ _ _).symm

end Candidate

abbrev Entry : Type := Candidate × PendingBid

/-- What a robot is told by its ports at the moment it hears an announcement:
among other things whether its cache holds a note. -/
structure Hearing where
  world : World
  log : Log

/-- An auction as it opens, and the live capable peers it is announced to. -/
structure Offer where
  params : CoordinatorParams
  announcer : Int
  record : OwnedTask
  peers : Registry
  /-- Whether `send_note` returned. -/
  noted : Bool
  openedAt : ℚ
  robots : List Candidate
  /-- The bids on the task that are still on file from before. -/
  held : List Entry
  shared : ∀ c ∈ robots, c.cfg.params = params
  distinct : (robots.map Candidate.id).Nodup
  live : ∀ c ∈ robots, c.id ∈ (peers.capable record.task.requiredCapabilities).map PeerRecord.robotId
  onFile : ∀ w ∈ held, w.1 ∈ robots ∧ w.2.taskId = record.task.taskId ∧
    (w.2.sentAt = none → w.2.fitness = w.1.fitness)
  keyed : (held.map (fun w => w.1.id)).Nodup

namespace Offer
variable (o : Offer)

def auction : Auction := Desk.openAuction o.params o.peers o.record o.noted o.openedAt

def closesAt : ℚ := o.auction.closesAt

def announce : TaskAnnounce := { Desk.announcement o.record with src := o.announcer }

def found (h : Hearing) : Option CompletedNote :=
  h.world.completedNote h.log o.announcer o.record.task.taskId

/-- The bid `_on_announce` makes. -/
def bid (c : Candidate) (h : Hearing) (now : ℚ) : PendingBid :=
  Session.answer c.cfg h.world o.announce o.record.task c.fitness (o.found h) now h.log

def onAir (entry : Entry) : Bid := { entry.2.wire with src := entry.1.id }

/-- The owner hears a Bid. One of a robot it has excluded is dropped. -/
def hears (a : Auction) (bid : Bid) (now : ℚ) : Auction :=
  if bid.src ∈ o.record.excludedBidders then a else Contest.take a bid now

/-- What becomes of another entry when a backoff expires. -/
def overhear (entry other : Entry) : Option Entry :=
  if other.1.id = entry.1.id then some (other.1,{ other.2 with sentAt := some entry.2.sendAt })
  else if other.2.sentAt = none ∧ other.2.suppressedBy (onAir entry) other.1.id = true then none
  else some other

def idle (entries : List Entry) : List Candidate :=
  o.robots.filter (fun c => decide (c.id ∉ entries.map (fun w => w.1.id)))

end Offer

structure Round where
  now : ℚ
  entries : List Entry
  auction : Auction
  /-- The bids made on the first announcement. -/
  created : List PendingBid := []
  announced : Bool := false
  closed : Bool := false

inductive RoundLabel where
  /-- The announcement, first or repeated, and what the idle robots are told. -/
  | announce (now : ℚ) (answers : List (Candidate × Hearing))
  | fire (entry : Entry)
  /-- A robot's tick forgets an old bid. -/
  | prune (now : ℚ) (robot : Int)
  | close

namespace Offer
variable (o : Offer)

def next (s : Round) : RoundLabel → Round
  | .announce now answers =>
    let bids := answers.map (fun answer => (answer.1,o.bid answer.1 answer.2 now))
    { s with
      now := now
      entries := s.entries ++ bids
      created := if s.announced then s.created else bids.map Prod.snd
      announced := true }
  | .fire entry =>
    let auction := o.hears s.auction (onAir entry) entry.2.sendAt
    { s with
      now := entry.2.sendAt
      entries := s.entries.filterMap (overhear entry)
      auction := auction
      closed := decide (entry.1.id ∉ o.record.excludedBidders) && auction.shouldClose entry.2.sendAt }
  | .prune now robot =>
    { s with
      now := now
      entries := s.entries.filter (fun w => w.1.id ≠ robot || Session.remembered o.params now w.2) }
  | .close => { s with now := o.closesAt, closed := true }

/-- The next timer to expire is the one that fires, a tick finds nothing due
before it prunes, and the window ends when no earlier timer is left. -/
def Enabled (s : Round) : RoundLabel → Prop
  | .announce now answers => s.closed = false ∧ s.now ≤ now ∧ now < o.closesAt ∧
      (∀ w ∈ s.entries, w.2.sentAt = none → now ≤ w.2.sendAt) ∧
      answers.map Prod.fst = o.idle s.entries ∧ (s.announced = false → now = o.openedAt)
  | .fire entry => s.closed = false ∧ s.announced = true ∧ entry ∈ s.entries ∧ entry.2.sentAt = none ∧
      s.now ≤ entry.2.sendAt ∧ entry.2.sendAt ≤ o.closesAt ∧
      ∀ w ∈ s.entries, w.2.sentAt = none → entry.2.sendAt ≤ w.2.sendAt
  | .prune now _ => s.closed = false ∧ s.announced = true ∧ s.now ≤ now ∧ now ≤ o.closesAt ∧
      ∀ w ∈ s.entries, w.2.sentAt = none → now < w.2.sendAt
  | .close => s.closed = false ∧ s.announced = true ∧
      ∀ w ∈ s.entries, w.2.sentAt = none → o.closesAt ≤ w.2.sendAt

def machine : Machine Round RoundLabel where
  initial s := s = { now := o.openedAt, entries := o.held, auction := o.auction }
  enabled := o.Enabled
  next := o.next

def picked (s : Round) : Option Int := s.auction.winner.map ReceivedBid.bidderId

/-- Nobody finds a note: every fragment was lost everywhere. -/
def Deaf (_ : Round) : RoundLabel → Prop
  | .announce _ answers => ∀ answer ∈ answers, o.found answer.2 = none
  | _ => True

def longest (c : Candidate) (deliberative : Bool) : ℚ :=
  backoffFor (o.params.maxBackoffSec deliberative) o.params.bidJitterFraction 1
    (if c.fitness.feasible then c.fitness.cost else costMax)

/-- Whoever finds a note on the first announcement waits no longer than the
window the announcer chose, and than bids are remembered. -/
def Heeded (s : Round) : RoundLabel → Prop
  | .announce _ answers => s.announced = false → ∀ answer ∈ answers, (o.found answer.2).isSome = true →
      o.longest answer.1 true < o.params.windowSec o.noted ∧ o.longest answer.1 true ≤ o.params.bidMemorySec
  | _ => True

def Asked (c : Candidate) : Prop := c.id ∉ o.record.excludedBidders

/-- A robot that may win is silenced only by one that may win too and that the
announcer prefers. -/
def Agreed : Prop :=
  ∀ rival ∈ o.robots, ∀ c ∈ o.robots, rival.fitness.feasible = true → c.fitness.feasible = true → o.Asked c →
    ¬ rival.Misjudges c ∧ (¬ o.Asked rival → ¬ rival.Silences c)

/-- A bid on file from before is remembered until it is sent, or if it is sent
already until the close, and is not due at the very instant of the close. -/
def Kept : Prop :=
  ∀ w ∈ o.held, if w.2.sentAt = none then w.2.sendAt - w.2.createdAt ≤ o.params.bidMemorySec ∧ w.2.sendAt ≠ o.closesAt
    else o.closesAt - w.2.createdAt ≤ o.params.bidMemorySec

/-- In every run whose steps are allowed the bids made on the first announcement
are due before the close, and the robot picked is the one picked when nobody
finds a note. -/
def Unmoved (allowed : Round → RoundLabel → Prop) : Prop :=
  ∀ s, o.machine.Reaches allowed s → (∀ p ∈ s.created, p.sendAt < o.closesAt) ∧
    (s.closed = true → ∀ t, o.machine.Reaches o.Deaf t → t.closed = true → picked s = picked t)

/-- A robot that may win and whose bid is made, or falls due, in this auction. -/
structure Counted (c : Candidate) : Prop where
  member : c ∈ o.robots
  asked : o.Asked c
  feasible : c.fitness.feasible = true
  timely : ∀ w ∈ o.held, w.1 = c → w.2.sentAt = none ∧ w.2.sendAt < o.closesAt

def Beaten (a : Auction) (c : Candidate) : Prop :=
  ∃ robot bid, a.bids.get? robot = some bid ∧ bid.feasible = true ∧ bid.rank ≤ c.rank

def Outdone (c : Candidate) : Prop := ∃ d, o.Counted d ∧ d.rank ≤ c.rank

def Tells (c : Candidate) (bid : ReceivedBid) : Prop :=
  bid.feasible = c.fitness.feasible ∧ (c.fitness.feasible = true → bid.rank = c.rank)

structure OnTask (w : Entry) : Prop where
  member : w.1 ∈ o.robots
  about : w.2.taskId = o.record.task.taskId
  fitness : w.2.sentAt = none → w.2.fitness = w.1.fitness

/-- An entry that is sent in time unless it is suppressed. -/
structure Due (w : Entry) : Prop where
  unsent : w.2.sentAt = none
  soon : w.2.sendAt < o.closesAt
  lasting : w.2.sendAt - w.2.createdAt ≤ o.params.bidMemorySec

def Stuck (w : Entry) : Prop :=
  if w.2.sentAt = none then o.closesAt < w.2.sendAt ∧ w.2.sendAt - w.2.createdAt ≤ o.params.bidMemorySec
  else o.closesAt - w.2.createdAt ≤ o.params.bidMemorySec

structure Even (s : Round) : Prop where
  about : s.auction.task = o.record.task
  expected : s.auction.expectedBidders = o.auction.expectedBidders
  closes : s.auction.closesAt = o.closesAt
  answers : ∀ robot bid, s.auction.bids.get? robot = some bid → ∃ c ∈ o.robots, c.id = robot ∧ Tells c bid ∧
    (c.fitness.feasible = true → o.Outdone c)
  onTask : ∀ w ∈ s.entries, o.OnTask w
  fresh : s.announced = false → s.entries = o.held
  due : s.announced = true → ∀ c, o.Counted c → (∃ w ∈ s.entries, w.1 = c ∧ o.Due w) ∨ Beaten s.auction c
  late : ∀ c ∈ o.robots, o.Asked c → c.fitness.feasible = true →
    ((∃ w ∈ s.entries, w.1 = c) ∧ ∀ w ∈ s.entries, w.1 = c → o.Stuck w) ∨ o.Outdone c
  created : ∀ p ∈ s.created, p.sendAt < o.closesAt
  ended : s.closed = true → ∀ c, o.Counted c → Beaten s.auction c

/-- The owner's desk opens this auction. -/
theorem offer_opens (world : World) (d : Desk) (noted : ((d.announcing o.openedAt).emitNote world).1 = o.noted)
    (record : ((d.announcing o.openedAt).emitNote world).2.record = o.record) :
    (d.offer o.params world o.peers o.openedAt).record.auction = some o.auction := by
  simp only [Desk.offer,Desk.put,noted,record,auction]

/-- A session that answers the announcement files this bid. -/
theorem onAnnounce_bid (c : Candidate) (h : Hearing) (now : ℚ) (s : Session) (log : s.log = h.log)
    (answers : Session.Answers c.cfg h.world o.announce s o.record.task c.fitness) :
    (s.onAnnounce c.cfg h.world o.announce now).state.bids = s.bids.set o.record.task.taskId (o.bid c h now) := by
  have unanswered : s.bids.contains o.announce.taskId = false := by
    rw [Dict.contains,answers.unanswered]
    rfl
  simp only [Session.onAnnounce,unanswered,answers.notOurs,answers.capable,answers.announced,answers.assessed,
    Bool.false_eq_true,Bool.true_eq_false,if_false]
  simp only [bid,found,← log]
  split
  · rename_i none
    rw [show o.announcer = o.announce.src from rfl,show o.record.task.taskId = o.announce.taskId from rfl,none]
    rfl
  · rename_i note some
    rw [show o.announcer = o.announce.src from rfl,show o.record.task.taskId = o.announce.taskId from rfl,some]
    rfl

/-- A session that overhears the bid keeps what `overhear` leaves. -/
theorem considerSuppression_overhear (entry other : Entry) (s : Session) (different : other.1.id ≠ entry.1.id)
    (holds : s.bids.get? entry.2.taskId = some other.2) :
    (s.considerSuppression other.1.cfg (onAir entry)).bids.get? entry.2.taskId =
      (overhear entry other).map Prod.snd := by
  have about : (onAir entry).taskId = entry.2.taskId := rfl
  simp only [Session.considerSuppression,about,holds,overhear,if_neg different]
  rw [show other.1.cfg.nodeId = other.1.id from rfl]
  split
  · exact Dict.get?_pop_self _ _
  · exact holds

/-- A session that transmits the bid when it falls due keeps it as sent. -/
theorem sendDueBid_overhear (entry : Entry) (world : World) (s : Session)
    (unsent : entry.2.sentAt = none) (holds : s.bids.get? entry.2.taskId = some entry.2)
    (heard : world.broadcast s.log (.bid entry.2.wire) = true) :
    ∃ t, s.sendDueBid world entry.2.sendAt entry.2.taskId = .returned t ∧
      t.bids.get? entry.2.taskId = (overhear entry entry).map Prod.snd ∧
      t.log = .broadcast (.bid entry.2.wire) true :: s.log := by
  simp only [Session.sendDueBid,holds,unsent,le_refl,and_self,if_true,Session.transmitBid,heard]
  refine ⟨_,rfl,?_,rfl⟩
  simp only [overhear,if_true,Option.map_some]
  exact Dict.get?_set_self _ _ _

/-- The owner's record has the auction `hears` leaves, as long as it is not to close. -/
theorem onBid_hears (cfg : Config) (world : World) (s : Session) (record : OwnedTask) (a : Auction) (bid : Bid)
    (now : ℚ) (holds : s.tasks.get? bid.taskId = some record) (collects : Session.collecting record = some a)
    (excluded : record.excludedBidders = o.record.excludedBidders)
    (waits : (o.hears a bid now).shouldClose now = false) :
    ((s.onBid cfg world bid now).state.tasks.get? bid.taskId).bind OwnedTask.auction =
      some (o.hears a bid now) := by
  have present : record.auction = some a := by
    unfold Session.collecting at collects
    split at collects
    · exact collects
    · cases collects
  have stays : ∀ t : Session, t.tasks = s.tasks →
      (t.tasks.get? bid.taskId).bind OwnedTask.auction = some a := by
    intro t same
    rw [same,holds]
    exact present
  simp only [Session.onBid,holds,collects,hears,Contest.take,excluded] at waits ⊢
  split
  · exact stays s rfl
  · rename_i asked
    rw [if_neg asked] at waits
    cases taken : a.record bid now with
    | none =>
      refine stays _ ?_
      simp only [Session.considerSuppression,Flow.state_returned]
      split
      · rfl
      · split <;> rfl
    | some filed =>
      rw [taken] at waits
      simp only
      rw [Session.state_deal bid.taskId _ s record holds]
      simp only [Session.store,Dict.get?_set_self,Option.bind_some,Session.fileBid,Desk.maybeClose,
        Desk.closeWithin,Desk.put]
      simp only [Option.getD_some] at waits ⊢
      simp [waits]

/-- When the auction closes, its first GRANT goes to the robot picked. -/
theorem maybeClose_picks (world : World) (peers : Registry) (now : ℚ) (d : Desk) (a : Auction)
    (winner : ReceivedBid) (present : d.record.auction = some a) (closes : a.shouldClose now = true)
    (best : a.winner = some winner) :
    (d.award world winner.bidderId).log <:+ (d.maybeClose o.params world peers now).state.log := by
  have closing := Desk.maybeClose_closing o.params world peers now d
  generalize d.maybeClose o.params world peers now = after at closing
  have same : ∀ b w, d.record.auction = some b → b.winner = some w → w = winner := by
    intro b w found first
    rw [present] at found
    cases found
    exact Option.some.inj (first.symm.trans best)
  cases closing with
  | still _ _ quiet =>
    rw [quiet a present] at closes
    cases closes
  | noBid _ _ b found _ nobody =>
    rw [present] at found
    cases found
    rw [nobody] at best
    cases best
  | pending _ _ b w found _ first _ =>
    obtain rfl := same b w found first
    exact List.suffix_refl _
  | delivered _ _ b w found _ first _ =>
    obtain rfl := same b w found first
    exact (Desk.grantDelivered_works _ _ _ _ (Desk.works_refl _)).grows
  | exhausted _ later _ b w shown found _ first fails _ =>
    obtain rfl := same b w found first
    rw [Desk.fails_state world _ _ _ _ _ fails]
    exact (Desk.fallBack_works o.params world peers _ later _
      (Desk.lose_works _ w.bidderId _ (Desk.works_refl _))).grows
  | again _ later _ b w shown rest found _ first fails _ more =>
    obtain rfl := same b w found first
    rw [Desk.fails_state world _ _ _ _ _ fails]
    exact ((Desk.cascades_works o.params world peers _).closing o.params world peers _ _ _ later _ _ more
      (Desk.put_works _ _ _ rfl rfl (Desk.lose_works _ w.bidderId _ (Desk.works_refl _)))).grows

theorem candidate_eq (a b : Candidate) (left : a ∈ o.robots) (right : b ∈ o.robots) (same : a.id = b.id) :
    a = b := List.inj_on_of_nodup_map o.distinct left right same

theorem onAir_tells (w : Entry) (onTask : o.OnTask w) (unsent : w.2.sentAt = none) (now : ℚ) :
    Tells w.1 (ReceivedBid.ofBid (onAir w) now) := by
  have fitness := onTask.fitness unsent
  refine ⟨congrArg Fitness.feasible fitness,fun feasible => ?_⟩
  have cost : (onAir w).cost = w.1.fitness.cost := by
    simp [onAir,PendingBid.wire,fitness,feasible,w.1.costRange.2]
  simp only [ReceivedBid.rank,ReceivedBid.ofBid,cost,Candidate.rank]
  simp [onAir,PendingBid.wire,fitness]

theorem take_even (s : Round) (even : o.Even s) (w : Entry) (onTask : o.OnTask w) (unsent : w.2.sentAt = none)
    (now : ℚ) : let a := Contest.take s.auction (onAir w) now
    (a.task = s.auction.task ∧ a.expectedBidders = s.auction.expectedBidders ∧ a.closesAt = s.auction.closesAt) ∧
      (∃ bid, a.bids.get? w.1.id = some bid ∧ Tells w.1 bid) ∧
      ∀ robot, robot ≠ w.1.id → a.bids.get? robot = s.auction.bids.get? robot := by
  have about : (onAir w).taskId = s.auction.task.taskId := by
    rw [even.about]
    exact onTask.about
  simp only [Contest.take,Auction.record,about,ne_eq,not_true_eq_false,if_false]
  split
  · rename_i newer
    refine ⟨⟨rfl,rfl,rfl⟩,?_,fun robot other => rfl⟩
    obtain ⟨bid,found,_⟩ := (Option.any_eq_true _ _).mp newer
    obtain ⟨c,member,same,tells,_⟩ := even.answers _ bid found
    have equal := o.candidate_eq c w.1 member onTask.member same
    exact ⟨bid,found,equal ▸ tells⟩
  · refine ⟨⟨rfl,rfl,rfl⟩,⟨_,Dict.get?_set_self _ _ _,o.onAir_tells w onTask unsent now⟩,fun robot other => ?_⟩
    exact Dict.get?_set_ne _ _ _ _ other

theorem hears_even (s : Round) (even : o.Even s) (w : Entry) (onTask : o.OnTask w) (unsent : w.2.sentAt = none)
    (now : ℚ) : let a := o.hears s.auction (onAir w) now
    (a.task = s.auction.task ∧ a.expectedBidders = s.auction.expectedBidders ∧ a.closesAt = s.auction.closesAt) ∧
      (o.Asked w.1 → ∃ bid, a.bids.get? w.1.id = some bid ∧ Tells w.1 bid) ∧
      (¬ o.Asked w.1 → a.bids.get? w.1.id = s.auction.bids.get? w.1.id) ∧
      ∀ robot, robot ≠ w.1.id → a.bids.get? robot = s.auction.bids.get? robot := by
  have spec := o.take_even s even w onTask unsent now
  simp only [hears]
  split
  · rename_i excluded
    exact ⟨⟨rfl,rfl,rfl⟩,fun asked => absurd excluded asked,fun _ => rfl,fun _ _ => rfl⟩
  · rename_i asked
    exact ⟨spec.1,fun _ => spec.2.1,fun excluded => absurd asked excluded,spec.2.2⟩

theorem beaten_hears (s : Round) (even : o.Even s) (w : Entry) (onTask : o.OnTask w) (unsent : w.2.sentAt = none)
    (now : ℚ) (c : Candidate) (beaten : Beaten s.auction c) : Beaten (o.hears s.auction (onAir w) now) c := by
  obtain ⟨robot,bid,found,feasible,lower⟩ := beaten
  obtain ⟨_,own,unchanged,others⟩ := o.hears_even s even w onTask unsent now
  by_cases here : robot = w.1.id
  · subst here
    by_cases asked : o.Asked w.1
    · obtain ⟨d,member,same,before,_⟩ := even.answers _ bid found
      have equal := o.candidate_eq d w.1 member onTask.member same
      subst equal
      obtain ⟨answer,there,tells⟩ := own asked
      have able : w.1.fitness.feasible = true := before.1 ▸ feasible
      exact ⟨w.1.id,answer,there,tells.1.trans able,by rw [tells.2 able,← before.2 able]; exact lower⟩
    · exact ⟨w.1.id,bid,(unchanged asked).trans found,feasible,lower⟩
  · exact ⟨robot,bid,(others robot here).trans found,feasible,lower⟩

theorem bid_due (c : Candidate) (member : c ∈ o.robots) (h : Hearing) (now : ℚ) :
    (o.bid c h now).sendAt ≤ now + o.longest c (o.found h).isSome := by
  have spread : 0 ≤ o.params.maxBackoffSec (o.found h).isSome * o.params.bidJitterFraction :=
    mul_nonneg (o.params.maxBackoff_nonneg _) o.params.jitterRange.1
  have drawn := mul_le_mul_of_nonneg_left (h.world.unit h.log).2 spread
  have shape : (o.bid c h now).sendAt = now + backoffFor (c.cfg.params.maxBackoffSec (o.found h).isSome)
    c.cfg.params.bidJitterFraction (h.world.jitter h.log) (if c.fitness.feasible then c.fitness.cost else costMax) := rfl
  rw [shape,o.shared c member,longest]
  unfold backoffFor
  simp only
  split
  · linarith
  · linarith

theorem longest_fast (c : Candidate) : o.longest c false < o.params.windowSec o.noted ∧
    o.longest c false ≤ o.params.bidMemorySec := by
  have short : o.longest c false ≤ o.params.largestBackoffSec false :=
    backoffFor_le _ _ _ _ (o.params.maxBackoff_nonneg false) o.params.jitterRange.1 ⟨zero_le_one,le_refl _⟩
  have fits := short.trans_lt (o.params.largest_lt_window false)
  exact ⟨fits.trans_le (o.params.window_le o.noted),(fits.trans o.params.memoryOutlasts).le⟩

theorem silenced_rank (agreed : o.Agreed) (rival w : Entry) (first : o.OnTask rival) (second : o.OnTask w)
    (sending : rival.2.sentAt = none) (waiting : w.2.sentAt = none) (asked : o.Asked w.1)
    (silenced : w.2.suppressedBy (onAir rival) w.1.id = true) :
    o.Asked rival.1 ∧ rival.1.fitness.feasible = true ∧ rival.1.rank ≤ w.1.rank := by
  have own := first.fitness sending
  simp only [PendingBid.suppressedBy,PendingBid.outrankedBy,Bool.and_eq_true,second.fitness waiting,
    decide_eq_true_eq] at silenced
  obtain ⟨⟨able,feasible⟩,outranked⟩ := silenced
  have fit : rival.1.fitness.feasible = true := by
    rw [← own]
    exact feasible
  have cost : (onAir rival).cost = rival.1.fitness.cost := by
    simp [onAir,PendingBid.wire,own,fit,rival.1.costRange.2]
  have silences : rival.1.Silences w.1 := by
    rw [cost] at outranked
    simpa [Candidate.Silences,Candidate.rank,onAir,PendingBid.wire,own] using outranked
  obtain ⟨judged,among⟩ := agreed rival.1 first.member w.1 second.member fit able asked
  refine ⟨not_not.mp (fun excluded => among excluded silences),fit,not_lt.mp fun better => ?_⟩
  exact judged ((Candidate.misjudges_iff _ _).mpr ⟨silences,better⟩)

theorem onTask_held (w : Entry) (member : w ∈ o.held) : o.OnTask w :=
  let ⟨inside,about,fitness⟩ := o.onFile w member
  ⟨inside,about,fitness⟩

theorem held_eq (a b : Entry) (left : a ∈ o.held) (right : b ∈ o.held) (same : a.1 = b.1) : a = b :=
  List.inj_on_of_nodup_map o.keyed left right (congrArg Candidate.id same)

theorem even_initial (kept : o.Kept) : o.Even { now := o.openedAt, entries := o.held, auction := o.auction } where
  about := rfl
  expected := rfl
  closes := rfl
  answers := fun robot bid found => by cases found
  onTask := o.onTask_held
  fresh := fun _ => rfl
  due := fun announced => by cases announced
  late := by
    intro c member asked feasible
    by_cases timely : ∀ w ∈ o.held, w.1 = c → w.2.sentAt = none ∧ w.2.sendAt < o.closesAt
    · exact .inr ⟨c,⟨member,asked,feasible,timely⟩,le_refl _⟩
    · push Not at timely
      obtain ⟨w,inside,rfl,untimely⟩ := timely
      refine .inl ⟨⟨w,inside,rfl⟩,fun other also same => ?_⟩
      rw [o.held_eq other w also inside same]
      have rule := kept w inside
      unfold Stuck
      split at rule
      · rename_i unsent
        rw [if_pos unsent]
        exact ⟨lt_of_le_of_ne (untimely unsent) rule.2.symm,rule.1⟩
      · rename_i sent
        rw [if_neg sent]
        exact rule
  created := fun p member => by cases member
  ended := fun closed => by cases closed

theorem idle_spec (entries : List Entry) (answers : List (Candidate × Hearing))
    (who : answers.map Prod.fst = o.idle entries) (answer : Candidate × Hearing) (member : answer ∈ answers) :
    answer.1 ∈ o.robots ∧ answer.1.id ∉ entries.map (fun w => w.1.id) := by
  have inside : answer.1 ∈ o.idle entries := who ▸ List.mem_map_of_mem member
  exact ⟨(List.mem_filter.mp inside).1,by simpa using (List.mem_filter.mp inside).2⟩

theorem made_due (c : Candidate) (member : c ∈ o.robots) (h : Hearing) (now : ℚ) (first : now = o.openedAt)
    (heeded : (o.found h).isSome = true → o.longest c true < o.params.windowSec o.noted ∧
      o.longest c true ≤ o.params.bidMemorySec) : o.Due (c,o.bid c h now) := by
  have soon := o.bid_due c member h now
  have fits : o.longest c (o.found h).isSome < o.params.windowSec o.noted ∧
      o.longest c (o.found h).isSome ≤ o.params.bidMemorySec := by
    cases cached : (o.found h).isSome with
    | true => exact heeded cached
    | false => exact o.longest_fast c
  have closes : o.closesAt = o.openedAt + o.params.windowSec o.noted := rfl
  have made : (o.bid c h now).createdAt = now := rfl
  refine ⟨rfl,?_,?_⟩
  · rw [closes,← first]
    simp only
    linarith
  · simp only [made]
    linarith

/-- At the first announcement a robot that may win has a bid on file, or makes one. -/
theorem announced_due (kept : o.Kept) (s : Round) (even : o.Even s) (fresh : s.announced = false) (now : ℚ)
    (answers : List (Candidate × Hearing)) (who : answers.map Prod.fst = o.idle s.entries)
    (due : ∀ answer ∈ answers, o.Due (answer.1,o.bid answer.1 answer.2 now)) (c : Candidate)
    (counted : o.Counted c) :
    ∃ w ∈ s.entries ++ answers.map (fun answer => (answer.1,o.bid answer.1 answer.2 now)), w.1 = c ∧ o.Due w := by
  by_cases onFile : c.id ∈ s.entries.map (fun w => w.1.id)
  · obtain ⟨w,inside,same⟩ := List.mem_map.mp onFile
    have equal := o.candidate_eq w.1 c (even.onTask w inside).member counted.member same
    refine ⟨w,List.mem_append_left _ inside,equal,?_⟩
    rw [even.fresh fresh] at inside
    obtain ⟨unsent,soon⟩ := counted.timely w inside equal
    have rule := kept w inside
    rw [if_pos unsent] at rule
    exact ⟨unsent,soon,rule.1⟩
  · have asked : c ∈ answers.map Prod.fst := by
      rw [who]
      exact List.mem_filter.mpr ⟨counted.member,by simpa using onFile⟩
    obtain ⟨answer,inside,rfl⟩ := List.mem_map.mp asked
    have made : (answer.1,o.bid answer.1 answer.2 now) ∈
        answers.map (fun answer => (answer.1,o.bid answer.1 answer.2 now)) := List.mem_map.mpr ⟨answer,inside,rfl⟩
    exact ⟨_,List.mem_append_right _ made,rfl,due answer inside⟩

theorem announce_even (kept : o.Kept) (s : Round) (even : o.Even s) (now : ℚ) (answers : List (Candidate × Hearing))
    (enabled : o.Enabled s (.announce now answers)) (heeded : o.Heeded s (.announce now answers)) :
    o.Even (o.next s (.announce now answers)) := by
  obtain ⟨open_,_,_,_,who,first⟩ := enabled
  have idle := o.idle_spec s.entries answers who
  have due : s.announced = false → ∀ answer ∈ answers, o.Due (answer.1,o.bid answer.1 answer.2 now) :=
    fun fresh answer member =>
      o.made_due answer.1 (idle answer member).1 answer.2 now (first fresh) (heeded fresh answer member)
  refine ⟨even.about,even.expected,even.closes,even.answers,?_,nofun,?_,?_,?_,?_⟩
  · intro w member
    obtain old | new := List.mem_append.mp member
    · exact even.onTask w old
    · obtain ⟨answer,inside,rfl⟩ := List.mem_map.mp new
      exact ⟨(idle answer inside).1,rfl,fun _ => rfl⟩
  · intro _ c counted
    cases already : s.announced with
    | true =>
      obtain ⟨w,waiting,rest⟩ | beaten := even.due already c counted
      · exact .inl ⟨w,List.mem_append_left _ waiting,rest⟩
      · exact .inr beaten
    | false => exact .inl (o.announced_due kept s even already now answers who (due already) c counted)
  · intro c member asked feasible
    obtain ⟨⟨w,inside,same⟩,stuck⟩ | outdone := even.late c member asked feasible
    · refine .inl ⟨⟨w,List.mem_append_left _ inside,same⟩,fun other also equal => ?_⟩
      obtain old | new := List.mem_append.mp also
      · exact stuck other old equal
      · obtain ⟨answer,there,rfl⟩ := List.mem_map.mp new
        refine absurd (List.mem_map.mpr ⟨w,inside,?_⟩) (idle answer there).2
        rw [same,← equal]
    · exact .inr outdone
  · intro p member
    simp only [next] at member
    split at member
    · exact even.created p member
    · rename_i fresh
      obtain ⟨w,made,rfl⟩ := List.mem_map.mp member
      obtain ⟨answer,inside,rfl⟩ := List.mem_map.mp made
      exact (due (by simpa using fresh) answer inside).soon
  · intro closed
    rw [show (o.next s (.announce now answers)).closed = s.closed from rfl,open_] at closed
    cases closed

theorem overhear_cases (entry other after : Entry) (left : overhear entry other = some after) :
    (other.1.id = entry.1.id ∧ after = (other.1,{ other.2 with sentAt := some entry.2.sendAt })) ∨
      other.1.id ≠ entry.1.id ∧ after = other := by
  unfold overhear at left
  split at left
  · rename_i same
    injection left with left
    exact .inl ⟨same,left.symm⟩
  · rename_i different
    split at left
    · cases left
    · injection left with left
      exact .inr ⟨different,left.symm⟩

theorem overhear_none (entry other : Entry) (gone : overhear entry other = none) :
    other.1.id ≠ entry.1.id ∧ other.2.sentAt = none ∧ other.2.suppressedBy (onAir entry) other.1.id = true := by
  unfold overhear at gone
  split at gone
  · cases gone
  · rename_i different
    split at gone
    · rename_i silenced
      exact ⟨different,silenced⟩
    · cases gone

theorem fired_outdone (s : Round) (even : o.Even s) (entry : Entry) (inside : entry ∈ s.entries)
    (unsent : entry.2.sentAt = none) (inTime : entry.2.sendAt ≤ o.closesAt) (asked : o.Asked entry.1)
    (feasible : entry.1.fitness.feasible = true) : o.Outdone entry.1 := by
  obtain ⟨_,stuck⟩ | outdone := even.late entry.1 (even.onTask entry inside).member asked feasible
  · have rule := stuck entry inside rfl
    rw [Stuck,if_pos unsent] at rule
    exact absurd rule.1 (not_lt.mpr inTime)
  · exact outdone

theorem fired_beaten (s : Round) (even : o.Even s) (entry : Entry) (inside : entry ∈ s.entries)
    (unsent : entry.2.sentAt = none) (asked : o.Asked entry.1) (feasible : entry.1.fitness.feasible = true) :
    Beaten (o.hears s.auction (onAir entry) entry.2.sendAt) entry.1 := by
  obtain ⟨_,own,_⟩ := o.hears_even s even entry (even.onTask entry inside) unsent entry.2.sendAt
  obtain ⟨bid,there,tells⟩ := own asked
  exact ⟨entry.1.id,bid,there,tells.1.trans feasible,(tells.2 feasible).le⟩

theorem fired_answers (s : Round) (even : o.Even s) (entry : Entry) (inside : entry ∈ s.entries)
    (unsent : entry.2.sentAt = none) (inTime : entry.2.sendAt ≤ o.closesAt) (robot : Int) (bid : ReceivedBid)
    (found : (o.hears s.auction (onAir entry) entry.2.sendAt).bids.get? robot = some bid) :
    ∃ c ∈ o.robots, c.id = robot ∧ Tells c bid ∧ (c.fitness.feasible = true → o.Outdone c) := by
  have onTask := even.onTask entry inside
  obtain ⟨_,own,unchanged,others⟩ := o.hears_even s even entry onTask unsent entry.2.sendAt
  by_cases here : robot = entry.1.id
  · subst here
    by_cases asked : o.Asked entry.1
    · obtain ⟨answer,there,tells⟩ := own asked
      have found := there.symm.trans found
      injection found with found
      exact ⟨entry.1,onTask.member,rfl,found ▸ tells,o.fired_outdone s even entry inside unsent inTime asked⟩
    · exact even.answers _ bid ((unchanged asked).symm.trans found)
  · exact even.answers robot bid ((others robot here).symm.trans found)

theorem fired_due (agreed : o.Agreed) (s : Round) (even : o.Even s) (announced : s.announced = true)
    (entry : Entry) (inside : entry ∈ s.entries) (unsent : entry.2.sentAt = none) (c : Candidate)
    (counted : o.Counted c) : (∃ w ∈ s.entries.filterMap (overhear entry), w.1 = c ∧ o.Due w) ∨
      Beaten (o.hears s.auction (onAir entry) entry.2.sendAt) c := by
  have onTask := even.onTask entry inside
  obtain ⟨w,still,rfl,soon⟩ | beaten := even.due announced c counted
  · have also := even.onTask w still
    cases left : overhear entry w with
    | none =>
      obtain ⟨_,waiting,silenced⟩ := overhear_none entry w left
      obtain ⟨asked,able,lower⟩ := o.silenced_rank agreed entry w onTask also unsent waiting counted.asked silenced
      obtain ⟨robot,bid,found,fit,below⟩ := o.fired_beaten s even entry inside unsent asked able
      exact .inr ⟨robot,bid,found,fit,below.trans lower⟩
    | some after =>
      obtain ⟨same,_⟩ | ⟨_,rfl⟩ := overhear_cases entry w after left
      · have equal := o.candidate_eq w.1 entry.1 also.member onTask.member same
        rw [equal] at counted ⊢
        exact .inr (o.fired_beaten s even entry inside unsent counted.asked counted.feasible)
      · exact .inl ⟨after,List.mem_filterMap.mpr ⟨after,still,left⟩,rfl,soon⟩
  · exact .inr (o.beaten_hears s even entry onTask unsent entry.2.sendAt c beaten)

theorem fired_late (agreed : o.Agreed) (s : Round) (even : o.Even s) (entry : Entry) (inside : entry ∈ s.entries)
    (unsent : entry.2.sentAt = none) (inTime : entry.2.sendAt ≤ o.closesAt) (c : Candidate)
    (member : c ∈ o.robots) (asked : o.Asked c) (feasible : c.fitness.feasible = true) :
    ((∃ w ∈ s.entries.filterMap (overhear entry), w.1 = c) ∧
      ∀ w ∈ s.entries.filterMap (overhear entry), w.1 = c → o.Stuck w) ∨ o.Outdone c := by
  have onTask := even.onTask entry inside
  obtain ⟨⟨w,there,rfl⟩,stuck⟩ | outdone := even.late c member asked feasible
  · cases left : overhear entry w with
    | none =>
      obtain ⟨_,waiting,silenced⟩ := overhear_none entry w left
      obtain ⟨also,able,lower⟩ :=
        o.silenced_rank agreed entry w onTask (even.onTask w there) unsent waiting asked silenced
      obtain ⟨d,counted,below⟩ := o.fired_outdone s even entry inside unsent inTime also able
      exact .inr ⟨d,counted,below.trans lower⟩
    | some after =>
      by_cases same : w.1.id = entry.1.id
      · have equal := o.candidate_eq w.1 entry.1 member onTask.member same
        rw [equal] at asked feasible ⊢
        exact .inr (o.fired_outdone s even entry inside unsent inTime asked feasible)
      · obtain ⟨equal,_⟩ | ⟨_,rfl⟩ := overhear_cases entry w after left
        · exact absurd equal same
        · refine .inl ⟨⟨after,List.mem_filterMap.mpr ⟨after,there,left⟩,rfl⟩,fun other also equal => ?_⟩
          obtain ⟨before,was,kept⟩ := List.mem_filterMap.mp also
          obtain ⟨mine,rfl⟩ | ⟨_,rfl⟩ := overhear_cases entry before other kept
          · exact absurd ((congrArg Candidate.id equal).symm.trans mine) same
          · exact stuck other was equal
  · exact .inr outdone

/-- An auction closes early only once everybody asked has answered. -/
theorem fired_closes (s : Round) (even : o.Even s) (announced : s.announced = true) (entry : Entry)
    (inside : entry ∈ s.entries) (unsent : entry.2.sentAt = none)
    (earliest : ∀ w ∈ s.entries, w.2.sentAt = none → entry.2.sendAt ≤ w.2.sendAt)
    (closed : (o.hears s.auction (onAir entry) entry.2.sendAt).shouldClose entry.2.sendAt = true)
    (c : Candidate) (counted : o.Counted c) : Beaten (o.hears s.auction (onAir entry) entry.2.sendAt) c := by
  have onTask := even.onTask entry inside
  obtain ⟨⟨_,expected,closes⟩,_,_,others⟩ := o.hears_even s even entry onTask unsent entry.2.sendAt
  simp only [Auction.shouldClose,Bool.or_eq_true,decide_eq_true_eq] at closed
  obtain late | everyone := closed
  · obtain ⟨w,still,rfl,soon⟩ | beaten := even.due announced c counted
    · have first := earliest w still soon.unsent
      rw [closes,even.closes] at late
      exact absurd (late.trans first) (not_le.mpr soon.soon)
    · exact o.beaten_hears s even entry onTask unsent entry.2.sendAt c beaten
  · simp only [Auction.heardFromEveryone,Bool.and_eq_true,decide_eq_true_eq] at everyone
    have expects : c.id ∈ (o.hears s.auction (onAir entry) entry.2.sendAt).expectedBidders := by
      rw [expected,even.expected]
      exact Finset.mem_sdiff.mpr ⟨List.mem_toFinset.mpr (o.live c counted.member),counted.asked⟩
    obtain ⟨bid,found⟩ := Option.isSome_iff_exists.mp (everyone.2 c.id expects)
    by_cases same : c.id = entry.1.id
    · have equal := o.candidate_eq c entry.1 counted.member onTask.member same
      rw [equal] at counted ⊢
      exact o.fired_beaten s even entry inside unsent counted.asked counted.feasible
    · obtain ⟨d,also,id,tells,_⟩ := even.answers c.id bid ((others c.id same).symm.trans found)
      have equal := o.candidate_eq d c also counted.member id
      subst equal
      exact ⟨d.id,bid,found,tells.1.trans counted.feasible,(tells.2 counted.feasible).le⟩

theorem fire_even (agreed : o.Agreed) (s : Round) (even : o.Even s) (entry : Entry)
    (enabled : o.Enabled s (.fire entry)) : o.Even (o.next s (.fire entry)) := by
  obtain ⟨_,announced,inside,unsent,_,inTime,earliest⟩ := enabled
  have onTask := even.onTask entry inside
  obtain ⟨⟨about,expected,closes⟩,_⟩ := o.hears_even s even entry onTask unsent entry.2.sendAt
  refine ⟨about.trans even.about,expected.trans even.expected,closes.trans even.closes,
    o.fired_answers s even entry inside unsent inTime,?_,?_,
    fun _ => o.fired_due agreed s even announced entry inside unsent,
    o.fired_late agreed s even entry inside unsent inTime,even.created,?_⟩
  · intro w member
    obtain ⟨before,there,left⟩ := List.mem_filterMap.mp member
    obtain ⟨_,rfl⟩ | ⟨_,rfl⟩ := overhear_cases entry before w left
    · have kept := even.onTask before there
      exact ⟨kept.member,kept.about,nofun⟩
    · exact even.onTask w there
  · intro fresh
    rw [show (o.next s (.fire entry)).announced = s.announced from rfl,announced] at fresh
    cases fresh
  · intro closed
    have closed : (decide (entry.1.id ∉ o.record.excludedBidders) &&
      (o.hears s.auction (onAir entry) entry.2.sendAt).shouldClose entry.2.sendAt) = true := closed
    exact o.fired_closes s even announced entry inside unsent earliest ((Bool.and_eq_true _ _).mp closed).2

theorem prune_even (s : Round) (even : o.Even s) (now : ℚ) (robot : Int)
    (enabled : o.Enabled s (.prune now robot)) : o.Even (o.next s (.prune now robot)) := by
  obtain ⟨open_,announced,_,before,nothing⟩ := enabled
  have stays : ∀ w ∈ s.entries, (w.2.sentAt = none → w.2.sendAt - w.2.createdAt ≤ o.params.bidMemorySec) →
      (w.2.sentAt ≠ none → o.closesAt - w.2.createdAt ≤ o.params.bidMemorySec) →
      w ∈ (o.next s (.prune now robot)).entries := by
    intro w inside lasting outlasting
    refine List.mem_filter.mpr ⟨inside,?_⟩
    have kept : Session.remembered o.params now w.2 = true := by
      refine decide_eq_true ?_
      by_cases unsent : w.2.sentAt = none
      · have := nothing w inside unsent
        have := lasting unsent
        linarith
      · have := outlasting unsent
        linarith
    simp [kept]
  refine ⟨even.about,even.expected,even.closes,even.answers,?_,?_,?_,?_,even.created,?_⟩
  · exact fun w member => even.onTask w (List.mem_filter.mp member).1
  · intro fresh
    rw [show (o.next s (.prune now robot)).announced = s.announced from rfl,announced] at fresh
    cases fresh
  · intro _ c counted
    obtain ⟨w,inside,same,due⟩ | beaten := even.due announced c counted
    · exact .inl ⟨w,stays w inside (fun _ => due.lasting) (fun sent => absurd due.unsent sent),same,due⟩
    · exact .inr beaten
  · intro c member asked feasible
    obtain ⟨⟨w,inside,same⟩,stuck⟩ | outdone := even.late c member asked feasible
    · refine .inl ⟨⟨w,?_,same⟩,fun other also => stuck other (List.mem_filter.mp also).1⟩
      have rule := stuck w inside same
      refine stays w inside (fun unsent => ?_) (fun sent => ?_)
      · rw [Stuck,if_pos unsent] at rule
        exact rule.2
      · rw [Stuck,if_neg sent] at rule
        exact rule
    · exact .inr outdone
  · intro closed
    rw [show (o.next s (.prune now robot)).closed = s.closed from rfl,open_] at closed
    cases closed

theorem close_even (s : Round) (even : o.Even s) (enabled : o.Enabled s .close) : o.Even (o.next s .close) := by
  obtain ⟨_,announced,nothing⟩ := enabled
  refine ⟨even.about,even.expected,even.closes,even.answers,even.onTask,even.fresh,even.due,even.late,even.created,?_⟩
  intro _ c counted
  obtain ⟨w,inside,_,due⟩ | beaten := even.due announced c counted
  · exact absurd (nothing w inside due.unsent) (not_le.mpr due.soon)
  · exact beaten

theorem reaches_even (agreed : o.Agreed) (kept : o.Kept) (s : Round) (reached : o.machine.Reaches o.Heeded s) :
    o.Even s := by
  refine reached.invariant o.Even ?_ ?_ s
  · rintro _ rfl
    exact o.even_initial kept
  · intro s label _ even enabled heeded
    cases label with
    | announce now answers => exact o.announce_even kept s even now answers enabled heeded
    | fire entry => exact o.fire_even agreed s even entry enabled
    | prune now robot => exact o.prune_even s even now robot enabled
    | close => exact o.close_even s even enabled

theorem deaf_heeded (s : Round) (label : RoundLabel) (deaf : o.Deaf s label) : o.Heeded s label := by
  cases label with
  | announce now answers =>
    intro _ answer member cached
    rw [deaf answer member] at cached
    cases cached
  | fire entry => trivial
  | prune now robot => trivial
  | close => trivial

theorem bidder_of_rank (a b : Option ReceivedBid) (same : a.map ReceivedBid.rank = b.map ReceivedBid.rank) :
    a.map ReceivedBid.bidderId = b.map ReceivedBid.bidderId := by
  have ids := congrArg (Option.map (fun rank : Rank => (ofLex (ofLex rank).2).2)) same
  rw [Option.map_map,Option.map_map] at ids
  exact ids

theorem picked_same (s t : Round) (left : o.Even s) (right : o.Even t) (closed : s.closed = true)
    (also : t.closed = true) : picked s = picked t := by
  have through : ∀ s t : Round, o.Even s → o.Even t → t.closed = true → ∀ bid ∈ s.auction.viable,
      ∃ other ∈ t.auction.viable, other.rank ≤ bid.rank := by
    intro s t left right ended bid member
    obtain ⟨⟨robot,found⟩,feasible⟩ := (s.auction.mem_viable bid).mp member
    obtain ⟨c,_,_,tells,outdone⟩ := left.answers robot bid found
    have able : c.fitness.feasible = true := tells.1 ▸ feasible
    obtain ⟨d,counted,below⟩ := outdone able
    obtain ⟨other,best,there,fit,lower⟩ := right.ended ended d counted
    exact ⟨best,(t.auction.mem_viable best).mpr ⟨⟨other,there⟩,fit⟩,(lower.trans below).trans (tells.2 able).ge⟩
  exact bidder_of_rank _ _ (Auction.winner_rank_eq _ _ (through s t left right also) (through t s right left closed))

/-- Notes that are heeded change neither whether bids are due in time nor who is
picked, where nobody is silenced that the announcer would rather have and the
bids from before are kept. -/
theorem notes_not_bearing (agreed : o.Agreed) (kept : o.Kept) : o.Unmoved o.Heeded := by
  intro s reached
  have even := o.reaches_even agreed kept s reached
  refine ⟨even.created,fun closed t deaf also => ?_⟩
  exact o.picked_same s t even (o.reaches_even agreed kept t (deaf.weaken o.deaf_heeded t)) closed also

theorem onSpot : (0 : ℚ) ≤ 0 := le_refl _

def tractor (cfg : Config) (cost : Int) (costRange : 0 ≤ cost ∧ cost ≤ costMax) : Candidate where
  cfg := cfg
  fitness := { feasible := true, cost := cost }
  costRange := costRange
  etaNonneg := onSpot

def dearer : Candidate := tractor .second 100 (by decide)

def cheaper : Candidate := tractor .third 80 (by decide)

/-- Robot 1 offers its task to both, once with its note and once when `send_note` raises. -/
def both (noted : Bool) : Offer where
  params := .standard
  announcer := 1
  record := { serial := 0, task := Session.field, note := "wet" }
  peers := (Dict.empty.set 2 { robotId := 2 }).set 3 { robotId := 3 }
  noted := noted
  openedAt := 40
  robots := [dearer,cheaper]
  held := []
  shared := by
    intro c member
    simp only [List.mem_cons,List.not_mem_nil,or_false] at member
    obtain rfl | rfl := member <;> rfl
  distinct := by decide
  live := by decide +kernel
  onFile := fun w member => by cases member
  keyed := List.nodup_nil

theorem notes_not_bearing_both : (both true).Unmoved (both true).Heeded := by
  refine notes_not_bearing (both true) ?_ (fun w member => by cases member)
  intro rival first c second _ _ _
  have first : rival ∈ [dearer,cheaper] := first
  have second : c ∈ [dearer,cheaper] := second
  simp only [List.mem_cons,List.not_mem_nil,or_false] at first second
  refine ⟨?_,fun excluded => absurd (Finset.notMem_empty _) excluded⟩
  unfold Candidate.Misjudges
  obtain rfl | rfl := first <;> obtain rfl | rfl := second <;> decide +kernel

/-- What robot 3 heard of an earlier offer's note, forty seconds ago. -/
def shelf : NoteReassembler :=
  ((Reliability.Session.init .third).notes.add ⟨1,0,7,0,0,1,[119,101,116]⟩ 0).2

def plain : Hearing := ⟨Session.clockAt 40,[]⟩

def remembering : Hearing :=
  ⟨{ Session.clockAt 40 with completedNote := fun _ src taskId => (shelf.completed src taskId 40).1 },[]⟩

def made (c : Candidate) (h : Hearing) : Entry := (c,(both false).bid c h 40)

def start : Round := { now := 40, entries := [], auction := (both false).auction }

/-- Robot 3 still holds the old note, so its better bid is late for the fast window. -/
def staleRun : List RoundLabel := [.announce 40 [(dearer,plain),(cheaper,remembering)],.fire (made dearer plain),.close]

def deafRun : List RoundLabel := [.announce 40 [(dearer,plain),(cheaper,plain)],.fire (made cheaper plain),.close]

theorem answered_follows (guard : Round → RoundLabel → Prop) (h : Hearing) (entry : Entry)
    (allowed : guard start (.announce 40 [(dearer,plain),(cheaper,h)]))
    (rest : ∀ s, guard s (.fire entry) ∧ guard s .close)
    (member : entry ∈ [made dearer plain,made cheaper h]) (unsent : entry.2.sentAt = none)
    (inTime : 40 ≤ entry.2.sendAt ∧ entry.2.sendAt ≤ 45)
    (first : ∀ w ∈ [made dearer plain,made cheaper h], entry.2.sendAt ≤ w.2.sendAt)
    (open_ : ((both false).machine.runs start [.announce 40 [(dearer,plain),(cheaper,h)],.fire entry]).closed = false)
    (quiet : ∀ w ∈ ((both false).machine.runs start
      [.announce 40 [(dearer,plain),(cheaper,h)],.fire entry]).entries, w.2.sentAt = none → 45 ≤ w.2.sendAt) :
    (both false).machine.Follows guard start [.announce 40 [(dearer,plain),(cheaper,h)],.fire entry,.close] := by
  have closes : (both false).closesAt = 45 := by decide +kernel
  refine ⟨⟨rfl,le_refl _,?_,(fun w member => by cases member),rfl,fun _ => rfl⟩,allowed,
    ⟨rfl,rfl,member,unsent,inTime.1,?_,fun w inside _ => first w inside⟩,(rest _).1,
    ⟨open_,rfl,?_⟩,(rest _).2,trivial⟩
  · rw [closes]
    norm_num
  · rw [closes]
    exact inTime.2
  · rw [closes]
    exact quiet

theorem notes_bearing : ¬ (both false).Unmoved (fun _ _ => True) := by
  intro unmoved
  have stale : (both false).machine.Reaches (fun _ _ => True) ((both false).machine.runs start staleRun) := by
    refine (both false).machine.reaches_runs _ start staleRun (.start _ rfl) ?_
    exact answered_follows _ remembering (made dearer plain) trivial (fun _ => ⟨trivial,trivial⟩)
      List.mem_cons_self rfl
      (by decide +kernel) (by decide +kernel) (by decide +kernel) (by decide +kernel)
  have deaf : (both false).machine.Reaches (both false).Deaf ((both false).machine.runs start deafRun) := by
    refine (both false).machine.reaches_runs _ start deafRun (.start _ rfl) ?_
    have nothing : ∀ answer ∈ [(dearer,plain),(cheaper,plain)], (both false).found answer.2 = none := by
      decide +kernel
    exact answered_follows _ plain (made cheaper plain) nothing (fun _ => ⟨trivial,trivial⟩)
      (List.mem_cons_of_mem _ List.mem_cons_self) rfl
      (by decide +kernel) (by decide +kernel) (by decide +kernel) (by decide +kernel)
  have same := (unmoved _ stale).2 (by decide +kernel) _ deaf (by decide +kernel)
  revert same
  decide +kernel

end Offer
end AmigaFleet.Coordinator
