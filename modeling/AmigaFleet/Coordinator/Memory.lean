import AmigaFleet.Coordinator.Clocks

/-! How long a bidder remembers its bid, against how long the announcer may
still grant on it. -/
namespace AmigaFleet.Coordinator
open Lib AmigaFleet.Codec AmigaFleet.Reliability

/-- The operations other than a tick that can take a bid on the task off the
table: a GRANT, a rival's bid, a withdrawal. -/
inductive Takes (taskId : Int) : Op → Prop
  | grant (m : Grant) (about : m.taskId = taskId) : Takes taskId (.message (.grant m))
  | suppression (m : Bid) (about : m.taskId = taskId) : Takes taskId (.message (.bid m))
  | withdrawal (reason : String) : Takes taskId (.revise taskId (some (.withdrawBid reason)))

/-- A robot hears the announcement of an auction, when it opens or later, and bids. -/
structure Answering (params : CoordinatorParams) where
  peers : Registry
  record : OwnedTask
  noted : Bool
  openedAt : ℚ
  cfg : Config
  shared : cfg.params = params
  before : Session
  reached : (machine cfg).Reachable before
  label : Label
  heard : ∃ announcer seq,
    label.op = .message ((Message.taskAnnounce (Desk.announcement record)).stamped announcer seq)
  opened : openedAt ≤ label.world.clock before.log
  unanswered : before.bids.get? record.task.taskId = none
  made : ((machine cfg).next before label).bids.contains record.task.taskId = true

namespace Answering
variable {params : CoordinatorParams} (a : Answering params)

def auction : Auction := Desk.openAuction params a.peers a.record a.noted a.openedAt

def taskId : Int := a.record.task.taskId

def madeAt : ℚ := a.label.world.clock a.before.log

def after : Session := (machine a.cfg).next a.before a.label

def OnFile (s : Session) : Prop := ∃ p, s.bids.get? a.taskId = some p ∧ p.createdAt = a.madeAt

/-- A step that reads no clock past the close of the auction when it ticks, and
that takes the bid neither by a GRANT nor by suppression nor by a withdrawal. -/
def Spared (s : Session) (label : Label) : Prop :=
  (label.op = .tick → label.world.clock s.log ≤ a.auction.closesAt) ∧
    (Takes a.taskId label.op → ((machine a.cfg).next s label).bids.contains a.taskId = true)

end Answering

/-- A bid that was transmitted is in the table until the auction closes. -/
def Remembers (params : CoordinatorParams) : Prop :=
  ∀ (a : Answering params) (early late : List Label),
    (machine a.cfg).Follows a.Spared a.after (early ++ late) →
    (∃ p, ((machine a.cfg).runs a.after early).bids.get? a.taskId = some p ∧ p.sentAt.isSome = true) →
    a.OnFile ((machine a.cfg).runs a.after (early ++ late))

namespace Session

def Older (s t : Session) : Prop :=
  ∀ id q, t.bids.get? id = some q → ∃ p, s.bids.get? id = some p ∧ q.createdAt = p.createdAt

theorem turn_older (op : Op) (s t : Session) (turn : Turn op s t) : Older s t := by
  intro id q found
  cases turn with
  | beside t beside => exact ⟨q,beside.bids ▸ found,rfl⟩
  | heard message same other => exact ⟨q,found,rfl⟩
  | granted grant same => exact ⟨q,pop_fewer s grant.taskId id q found,rfl⟩
  | dropped taskId pending known waits => exact ⟨q,pop_fewer s taskId id q found,rfl⟩
  | revised taskId pending after known waits same =>
    obtain ⟨rfl,rfl⟩ | ⟨_,found⟩ := Dict.get?_set_cases found
    · exact ⟨pending,known,by rw [same]⟩
    · exact ⟨q,found,rfl⟩
  | sent taskId pending now known waits =>
    obtain ⟨rfl,rfl⟩ | ⟨_,found⟩ := Dict.get?_set_cases found
    · exact ⟨pending,known,rfl⟩
    · exact ⟨q,found,rfl⟩

theorem turns_older (op : Op) (s t : Session) (turns : Turns op s t) : Older s t := by
  refine turns.keeps op (Older s) ?_ s t (fun id q found => ⟨q,found,rfl⟩)
  intro u v turn before id q found
  obtain ⟨p,known,same⟩ := turn_older op u v turn id q found
  obtain ⟨o,older,also⟩ := before id p known
  exact ⟨o,older,same.trans also⟩

variable (cfg : Config) (world : World)

theorem considerSuppression_other (bid : Bid) (s : Session) (id : Int) (other : bid.taskId ≠ id) :
    (s.considerSuppression cfg bid).bids.get? id = s.bids.get? id := by
  unfold considerSuppression
  split
  · rfl
  · split
    · exact Dict.get?_pop_ne _ _ _ other.symm
    · rfl

theorem onBid_other (bid : Bid) (now : ℚ) (s : Session) (id : Int) (other : bid.taskId ≠ id) :
    (s.onBid cfg world bid now).state.bids.get? id = s.bids.get? id := by
  unfold onBid
  split
  · exact considerSuppression_other cfg bid s id other
  split
  · exact considerSuppression_other cfg bid s id other
  split
  · rfl
  split
  · exact considerSuppression_other cfg bid s id other
  · rw [(deal_beside _ _ (fileBid_stays cfg world s _ now) s).bids]

theorem reviseBid_other (taskId : Int) (revision : Option BidRevision) (s : Session) (id : Int)
    (spares : ¬ Takes id (.revise taskId revision)) (holds : s.bids.contains id = true) :
    (s.reviseBid cfg world taskId revision).bids.contains id = true := by
  unfold reviseBid
  split
  · exact holds
  · exact holds
  split
  · exact holds
  split
  · exact holds
  · rename_i reason
    have other : id ≠ taskId := by
      rintro rfl
      exact spares (.withdrawal reason)
    rw [Dict.contains,Dict.get?_pop_ne _ _ _ other]
    exact holds
  · rw [Dict.contains,Dict.get?_set]
    split
    · rfl
    · exact holds

/-- Only a GRANT, a rival's bid, a withdrawal and a tick can take a bid. -/
theorem perform_spares (op : Op) (notTick : op ≠ .tick) (s : Session) (id : Int) (spares : ¬ Takes id op)
    (holds : s.bids.contains id = true) : (s.perform cfg world op).state.bids.contains id = true := by
  have beside : ∀ t, Beside s t → t.bids.contains id = true := by
    intro t beside
    rw [beside.bids]
    exact holds
  cases op with
  | own task => exact beside _ (own_beside task s)
  | report task detail reasonCode door => exact beside _ (report_beside cfg world task detail reasonCode door s)
  | note note => exact beside _ (onNote_beside cfg world note s)
  | takeNoteRequests => exact holds
  | revise taskId revision => exact reviseBid_other cfg world taskId revision s id spares holds
  | outcome future outcome => exact beside _ (resolve_beside cfg world future outcome s)
  | tick => exact absurd rfl notTick
  | message message =>
    simp only [perform,onMessage]
    split
    · exact holds
    · cases message with
      | heartbeat m =>
        simp only [Flow.state_handled,Flow.state_map]
        exact holds
      | taskAnnounce m =>
        simp only [Flow.state_handled]
        obtain ⟨same,_⟩ | ⟨task,fitness,_,requests,note,same⟩ := onAnnounce_cases cfg world m
          (world.clock s.log) (s.say (.received (.taskAnnounce m) s.tasks))
        · rw [same]
          exact holds
        · rw [same]
          simp only [Dict.contains,Dict.get?_set]
          split
          · rfl
          · exact holds
      | bid m =>
        have other : m.taskId ≠ id := fun about => spares (.suppression m about)
        rw [Dict.contains,Flow.state_handled,onBid_other cfg world m _ _ id other]
        exact holds
      | grant m =>
        have other : m.taskId ≠ id := fun about => spares (.grant m about)
        have same := (onGrant_beside cfg world m (world.clock s.log) (s.say (.received (.grant m) s.tasks))).bids
        rw [Dict.contains,Flow.state_handled,same,Dict.get?_pop_ne _ _ _ other.symm]
        exact holds
      | ack m => exact holds
      | freeform m => exact holds

theorem perform_older (op : Op) (notTick : op ≠ .tick) (s : Session) (id : Int) (p q : PendingBid)
    (known : s.bids.get? id = some p) (found : (s.perform cfg world op).state.bids.get? id = some q) :
    q.createdAt = p.createdAt := by
  by_cases isAnnounce : ∃ m, op = .message (.taskAnnounce m)
  · obtain ⟨m,rfl⟩ := isAnnounce
    simp only [perform,onMessage] at found
    split at found
    · rw [Flow.state_returned,known] at found
      injection found with found
      rw [found]
    · obtain ⟨same,_⟩ | ⟨task,fitness,answers,requests,note,same⟩ := onAnnounce_cases cfg world m
        (world.clock s.log) (s.say (.received (.taskAnnounce m) s.tasks))
      · rw [Flow.state_handled,same] at found
        have found := known.symm.trans found
        injection found with found
        rw [found]
      · have free : s.bids.get? m.taskId = none := answers.unanswered
        have other : id ≠ m.taskId := by
          rintro rfl
          rw [known] at free
          cases free
        rw [Flow.state_handled,same,Dict.get?_set_ne _ _ _ _ other] at found
        have found := known.symm.trans found
        injection found with found
        rw [found]
  · push Not at isAnnounce
    obtain ⟨o,older,same⟩ := turns_older op s _ (perform_turns cfg world op notTick isAnnounce s) id q found
    rw [known] at older
    injection older with older
    rw [same,older]

theorem tick_remembers (s : Session) (id : Int) (p : PendingBid) (known : s.bids.get? id = some p)
    (recent : world.clock s.log - p.createdAt ≤ cfg.params.bidMemorySec) :
    ∃ q, (s.tick cfg world).state.bids.get? id = some q ∧ q.createdAt = p.createdAt := by
  obtain ⟨t,⟨q,found,same⟩,shape⟩ := tick_rule cfg world
    (fun t => ∃ q, t.bids.get? id = some q ∧ q.createdAt = p.createdAt) s ⟨p,known,rfl⟩
    (fun t u beside holds => by rw [beside.bids]; exact holds)
    (by
      rintro taskId t ⟨q,found,same⟩
      unfold sendDueBid
      split
      · exact ⟨q,found,same⟩
      rename_i pending here
      split
      · unfold transmitBid
        simp only
        split
        · simp only [Flow.state_returned,Dict.get?_set]
          split
          · rename_i about
            subst about
            rw [show t.bids.get? id = some pending from here] at found
            injection found with found
            exact ⟨_,rfl,by rw [← same,← found]⟩
          · exact ⟨q,found,same⟩
        · exact ⟨q,found,same⟩
      · exact ⟨q,found,same⟩)
  obtain shape | shape := shape
  · rw [shape]
    exact ⟨q,found,same⟩
  · rw [shape]
    refine ⟨q,(Dict.get?_retain _ _ _ _).mpr ⟨found,?_⟩,same⟩
    simpa [remembered,same] using recent

end Session

namespace Answering
variable {params : CoordinatorParams} (a : Answering params)

theorem made_onFile : a.OnFile a.after := by
  obtain ⟨announcer,seq,heard⟩ := a.heard
  have made := a.made
  have unanswered := a.unanswered
  simp only [OnFile,after,machine,heard,Session.perform,Session.onMessage,Message.stamped] at made ⊢
  split at made
  · simp [Dict.contains,unanswered] at made
  rename_i other
  rw [if_neg other]
  simp only [Flow.state_handled] at made ⊢
  obtain ⟨same,_⟩ | ⟨task,fitness,_,requests,note,same⟩ := Session.onAnnounce_cases a.cfg a.label.world
    { Desk.announcement a.record with src := announcer, seq := seq } (a.label.world.clock a.before.log)
    (a.before.say (.received (.taskAnnounce { Desk.announcement a.record with src := announcer, seq := seq })
      a.before.tasks))
  · rw [same] at made
    simp [Session.say,Dict.contains,unanswered] at made
  · rw [same]
    exact ⟨_,Dict.get?_set_self _ _ _,rfl⟩

theorem spared_onFile (long : params.windowSec a.noted ≤ params.bidMemorySec) (s : Session) (label : Label)
    (holds : a.OnFile s) (spared : a.Spared s label) : a.OnFile ((machine a.cfg).next s label) := by
  obtain ⟨p,known,made⟩ := holds
  by_cases isTick : label.op = .tick
  · have closed : label.world.clock s.log ≤ a.openedAt + params.windowSec a.noted := spared.1 isTick
    have opened : a.openedAt ≤ a.madeAt := a.opened
    obtain ⟨q,found,same⟩ := Session.tick_remembers a.cfg label.world s a.taskId p known (by
      rw [a.shared,made]
      linarith)
    refine ⟨q,?_,same.trans made⟩
    simpa [machine,isTick,Session.perform] using found
  · have stays : ((machine a.cfg).next s label).bids.contains a.taskId = true := by
      by_cases takes : Takes a.taskId label.op
      · exact spared.2 takes
      · exact Session.perform_spares a.cfg label.world label.op isTick s a.taskId takes (by simp [Dict.contains,known])
    obtain ⟨q,found⟩ := Option.isSome_iff_exists.mp stays
    exact ⟨q,found,(Session.perform_older a.cfg label.world label.op isTick s a.taskId p q known found).trans made⟩

theorem follows_onFile (long : params.windowSec a.noted ≤ params.bidMemorySec) (labels : List Label)
    (follows : (machine a.cfg).Follows a.Spared a.after labels) : a.OnFile ((machine a.cfg).runs a.after labels) :=
  follows.keeps a.OnFile (fun s label holds _ spared => a.spared_onFile long s label holds spared)
    _ _ a.made_onFile

end Answering
namespace Forgetting
variable (params : CoordinatorParams)

def orchard : Task := .seventh { kind := .tree, a := 5, wordA := Target.row.wordA, wordB := Target.row.wordB }

def bidder : Config := { Config.second with params := params }

def at_ (now : ℚ) : World := { clock := fun _ => now, unit := World.still }

def prompt : PendingBid :=
  { taskId := 7, task := orchard, announcerId := 1, fitness := { feasible := true }, sendAt := 0, createdAt := 0 }

def hears : Label :=
  ⟨at_ 0,.message ((Message.taskAnnounce (Desk.announcement { serial := 0, task := orchard })).stamped 1 0)⟩

theorem hears_bids : ((machine (bidder params)).next {} hears).bids = Dict.empty.set 7 prompt := by
  have free : backoffFor params.bidMaxBackoffSec params.bidJitterFraction 0 0 = 0 := by
    simp [backoffFor,show (0 : Int) ≤ costMax by decide]
  have made : ((machine (bidder params)).next {} hears).bids = Dict.empty.set 7 { prompt with
      sendAt := 0 + backoffFor params.bidMaxBackoffSec params.bidJitterFraction 0 0 } := rfl
  rw [made,free,zero_add]
  rfl

theorem tick_idle (cfg : Config) (world : World) (s u : Session) (heard : ∀ log m, world.broadcast log m = true)
    (tasks : s.tasks = .empty)
    (sent : Session.sendDueBids world (world.clock s.log) (s.agePeers cfg (world.clock s.log)) = .returned u) :
    ∃ t : Session, (s.tick cfg world).state = t.prune cfg (world.clock s.log) ∧ t.bids = u.bids ∧ t.tasks = u.tasks := by
  have idle : (s.agePeers cfg (world.clock s.log)).runAuctions cfg world (world.clock s.log) =
      .returned (s.agePeers cfg (world.clock s.log)) := by
    simp only [Session.runAuctions,Session.agePeers,tasks]
    rfl
  have beat : ∃ t : Session, u.maybeHeartbeat cfg world (world.clock s.log) = .returned t ∧ t.bids = u.bids ∧
      t.tasks = u.tasks := by
    unfold Session.maybeHeartbeat
    split
    · exact ⟨u,rfl,rfl,rfl⟩
    · simp only [heard,if_true]
      exact ⟨_,rfl,rfl,rfl⟩
  obtain ⟨t,beats,bids,own⟩ := beat
  refine ⟨t,?_,bids,own⟩
  simp only [Session.tick,idle,Flow.andThen_returned,sent,beats,Flow.state_returned]

theorem tick_sends (s : Session) (tasks : s.tasks = .empty) (bids : s.bids = Dict.empty.set 7 prompt) :
    ∃ t : Session, (machine (bidder params)).next s ⟨at_ 0,.tick⟩ = t.prune (bidder params) 0 ∧
      t.bids = Dict.empty.set 7 { prompt with sentAt := some 0 } ∧ t.tasks = .empty := by
  have sent : Session.sendDueBids (at_ 0) 0 (s.agePeers (bidder params) 0) =
      .returned { (s.agePeers (bidder params) 0).say (.broadcast (.bid prompt.wire) true) with
        bids := Dict.empty.set 7 { prompt with sentAt := some 0 } } := by
    have bids : (s.agePeers (bidder params) 0).bids = Dict.empty.set 7 prompt := bids
    have due : (0 : ℚ) ≤ 0 := le_refl 0
    simp only [Session.sendDueBids,bids]
    simp [Dict.keys,Dict.set,Dict.assign,Dict.empty,Flow.forEach,Session.sendDueBid,Dict.get?,bids,Dict.find,
      prompt,Session.transmitBid,Session.say,at_]
  obtain ⟨t,shape,after,own⟩ := tick_idle (bidder params) (at_ 0) s _ (fun _ _ => rfl) tasks sent
  refine ⟨t,shape,after,own.trans ?_⟩
  simp only [Session.say,Session.agePeers,tasks]
  rfl

theorem tick_forgets (short : params.bidMemorySec < params.noteAnnounceWindowSec) (s : Session) (p : PendingBid)
    (tasks : s.tasks = .empty) (bids : s.bids = Dict.empty.set 7 p) (sent : p.sentAt.isSome = true)
    (made : p.createdAt = 0) :
    ((machine (bidder params)).next s ⟨at_ params.noteAnnounceWindowSec,.tick⟩).bids.get? 7 = none := by
  have silent : Session.sendDueBids (at_ params.noteAnnounceWindowSec) params.noteAnnounceWindowSec
      (s.agePeers (bidder params) params.noteAnnounceWindowSec) =
      .returned (s.agePeers (bidder params) params.noteAnnounceWindowSec) := by
    have bids : (s.agePeers (bidder params) params.noteAnnounceWindowSec).bids = Dict.empty.set 7 p := bids
    have waits : p.sentAt ≠ none := Option.isSome_iff_ne_none.mp sent
    simp only [Session.sendDueBids,bids]
    simp [Dict.keys,Dict.set,Dict.assign,Dict.empty,Flow.forEach,Session.sendDueBid,Dict.get?,bids,Dict.find,waits]
  obtain ⟨t,shape,after,_⟩ := tick_idle (bidder params) (at_ params.noteAnnounceWindowSec) s _ (fun _ _ => rfl)
    tasks silent
  have shape : (machine (bidder params)).next s ⟨at_ params.noteAnnounceWindowSec,.tick⟩ =
    t.prune (bidder params) params.noteAnnounceWindowSec := shape
  rw [shape,Option.eq_none_iff_forall_ne_some]
  intro q found
  obtain ⟨found,recent⟩ := (Dict.get?_retain _ _ _ _).mp found
  rw [show t.bids = Dict.empty.set 7 p from after.trans bids,Dict.get?_set_self] at found
  injection found with found
  subst found
  simp only [Session.remembered,made,decide_eq_true_eq,sub_zero] at recent
  exact absurd recent (not_le.mpr short)

def annotated : Answering params where
  peers := .empty
  record := { serial := 0, task := orchard }
  noted := true
  openedAt := 0
  cfg := bidder params
  shared := rfl
  before := {}
  reached := .start _ rfl
  label := hears
  heard := ⟨1,0,rfl⟩
  opened := le_refl _
  unanswered := rfl
  made := by
    rw [hears_bids]
    rfl

theorem tick_spared (now : ℚ) (open_ : now ≤ params.noteAnnounceWindowSec) (s : Session) :
    (annotated params).Spared s ⟨at_ now,.tick⟩ := by
  refine ⟨fun _ => ?_,fun takes => by cases takes⟩
  have closes : (annotated params).auction.closesAt = 0 + params.noteAnnounceWindowSec := rfl
  rw [closes,zero_add]
  exact open_

theorem forgets (short : params.bidMemorySec < params.noteAnnounceWindowSec) : ¬ Remembers params := by
  intro remembers
  have positive : 0 ≤ params.noteAnnounceWindowSec := (params.windowPositive.trans_le (params.window_le true)).le
  obtain ⟨t,shape,bids,tasks⟩ := tick_sends params (annotated params).after rfl (hears_bids params)
  have sent : ((machine (bidder params)).next (annotated params).after ⟨at_ 0,.tick⟩).bids =
      Dict.empty.set 7 { prompt with sentAt := some 0 } := by
    have kept : (0 : ℚ) ≤ params.bidMemorySec := (params.windowPositive.trans params.memoryOutlasts).le
    rw [shape]
    simp [Session.prune,bids,Dict.retain,Dict.set,Dict.assign,Dict.empty,Session.remembered,prompt,bidder,kept]
  have own : ((machine (bidder params)).next (annotated params).after ⟨at_ 0,.tick⟩).tasks = .empty := by
    rw [shape]
    simp only [Session.prune,tasks]
    rfl
  obtain ⟨p,found,_⟩ := remembers (annotated params) [⟨at_ 0,.tick⟩] [⟨at_ params.noteAnnounceWindowSec,.tick⟩]
    ⟨trivial,tick_spared params 0 positive _,trivial,tick_spared params _ (le_refl _) _,trivial⟩
    ⟨{ prompt with sentAt := some 0 },by
      change ((machine (bidder params)).next (annotated params).after ⟨at_ 0,.tick⟩).bids.get? 7 = _
      rw [sent,Dict.get?_set_self],rfl⟩
  have gone := tick_forgets params short _ _ own sent rfl rfl
  simp only [Machine.runs,List.singleton_append,List.foldl_cons,List.foldl_nil] at found
  exact absurd (found.symm.trans gone) (Option.some_ne_none p)

end Forgetting

/-- The stock clocks, with a memory of 40 s: accepted, and shorter than 45 s. -/
def brief : CoordinatorParams :=
  { CoordinatorParams.standard with bidMemorySec := 40, memoryOutlasts := by norm_num [CoordinatorParams.standard] }

end AmigaFleet.Coordinator
