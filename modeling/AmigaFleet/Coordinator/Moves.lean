import AmigaFleet.Coordinator.Session
import Mathlib.Logic.Relation

/-! Every operation but a delivery outcome is a sequence of the moves below, so
an invariant of the task table is checked once for each move. -/
namespace AmigaFleet.Coordinator
open Lib AmigaFleet.Codec AmigaFleet.Reliability

def Call.plain : Call → Bool
  | .broadcast (.bid _) _ => true
  | .broadcast (.heartbeat _) _ => true
  | .interpretAnomaly _ => true
  | .received .. => true
  | .apply (.addTask ..) .. => true
  | _ => false

def Heard (message : Message) (log : Log) : Prop := ∃ tasks, .received message tasks ∈ log

namespace Session

def Free (taskId : Int) (s : Session) : Prop := (s.tasks.get? taskId).any OwnedTask.ours = false

inductive Move (cfg : Config) (world : World) : Session → Session → Prop
  | aside (s t : Session) (tasks : t.tasks = s.tasks) (log : t.log = s.log)
      (futures : t.futures = s.futures) (serial : t.nextSerial = s.nextSerial) : Move cfg world s t
  | told (s : Session) (call : Call) (plain : call.plain = true) : Move cfg world s (s.say call)
  | enrolled (s : Session) (task : Task) (free : s.Free task.taskId) : Move cfg world s (s.enter task)
  | absorbed (s : Session) (task : Task) (cause note : String) (free : s.Free task.taskId) :
      Move cfg world s (s.absorb world task cause note).2
  | unabsorbed (s : Session) (task : Task) (cause note : String) (free : s.Free task.taskId) :
      Move cfg world s ((s.absorb world task cause note).2.unabsorb task)
  | delegated (s : Session) (task : Task) (reasonCode : Int) (fallback : LocalDisposition)
      (note : String) (now : ℚ) : Move cfg world s
        ((s.say (.apply (.reDelegate task reasonCode fallback note) now s.tasks s.futures)).beginDelegation cfg
          world task reasonCode fallback note now).state
  | dropped (s : Session) (task : Task) (disposition : LocalDisposition) (reasonCode : Int) (now : ℚ) :
      Move cfg world s ((s.say (.apply (.dropTask task disposition reasonCode) now s.tasks s.futures)).dropTask
        task disposition now).state
  | filed (s : Session) (bid : Bid) (now : ℚ) (record : OwnedTask) (auction after : Auction)
      (found : s.tasks.get? bid.taskId = some record) (collects : collecting record = some auction)
      (welcome : bid.src ∉ record.excludedBidders) (taken : auction.record bid now = some after)
      (heard : Heard (.bid bid) s.log) :
      Move cfg world s (s.deal bid.taskId (s.fileBid cfg world after now)).state
  | ran (s : Session) (taskId : Int) (now : ℚ) :
      Move cfg world s (s.deal taskId (runAuction cfg world s.peers now)).state
  | forgot (s : Session) (gone : List PeerRecord) :
      Move cfg world s { s with tasks := s.tasks.mapValues (forgetGone gone) }
  | pruned (s : Session) (now : ℚ) : Move cfg world s
      { s with tasks := s.tasks.retain (fun _ r => retained cfg.params now r) }

abbrev Moves (cfg : Config) (world : World) : Session → Session → Prop :=
  Relation.ReflTransGen (Move cfg world)

variable (cfg : Config) (world : World)

/-- What every move keeps, every sequence of them keeps. -/
theorem Moves.keeps (I : Session → Prop) (keeps : ∀ s t, Move cfg world s t → I s → I t)
    (s t : Session) (moves : Moves cfg world s t) (holds : I s) : I t := by
  induction moves with
  | refl => exact holds
  | tail _ last ih => exact keeps _ _ last ih

theorem aside_moves (s t : Session) (tasks : t.tasks = s.tasks) (log : t.log = s.log)
    (futures : t.futures = s.futures) (serial : t.nextSerial = s.nextSerial) : Moves cfg world s t :=
  .single (.aside s t tasks log futures serial)

theorem free_of_missing (s : Session) (taskId : Int) (missing : s.tasks.contains taskId = false) :
    s.Free taskId := by
  rw [Dict.contains,Option.isSome_eq_false_iff,Option.isNone_iff_eq_none] at missing
  simp [Free,missing]

theorem enrollReported_moves (task : Option Task) (s : Session) :
    Moves cfg world s (s.enrollReported task) := by
  cases task with
  | none => exact .refl
  | some task =>
    simp only [enrollReported]
    split
    · exact .refl
    · rename_i missing
      exact .single (.enrolled s task (free_of_missing s task.taskId (by simpa using missing)))

theorem apply_moves (take : Task → ℚ → String → String → Session → Flow Session)
    (taken : ∀ task now cause note s, Moves cfg world s (take task now cause note s).state)
    (action : Action) (now : ℚ) (s : Session) :
    Moves cfg world s (s.apply cfg world take action now).state := by
  cases action with
  | reDelegate task reasonCode fallback note =>
    exact .single (.delegated s task reasonCode fallback note now)
  | addTask task reasonCode =>
    exact .head (.told s _ rfl) (taken task now "add_task" "" _)
  | dropTask task disposition reasonCode =>
    exact .single (.dropped s task disposition reasonCode now)

theorem reportWith_moves (take : Task → ℚ → String → String → Session → Flow Session)
    (taken : ∀ task now cause note s, Moves cfg world s (take task now cause note s).state)
    (task : Option Task) (detail : String) (reasonCode : Int) (door : Door) (s : Session) :
    Moves cfg world s (s.reportWith cfg world take task detail reasonCode door).state := by
  have enrolled := enrollReported_moves cfg world task s
  refine enrolled.trans ?_
  simp only [reportWith]
  generalize s.enrollReported task = t
  cases door with
  | given answer =>
    cases answer with
    | none => exact .refl
    | some action => exact apply_moves cfg world take taken action _ t
  | asked =>
    refine .head (.told t (.interpretAnomaly
      (t.anomalyContext world task detail reasonCode (world.clock s.log))) rfl) ?_
    simp only
    split
    · exact .refl
    · exact apply_moves cfg world take taken _ _ _

theorem takeOn_moves (depth : Nat) (task : Task) (now : ℚ) (cause note : String) (s : Session) :
    Moves cfg world s (takeOn cfg world depth task now cause note s).state := by
  induction depth generalizing task now cause note s with
  | zero => exact .refl
  | succ depth ih =>
    simp only [takeOn]
    split
    · exact .refl
    · rename_i free
      have free : s.Free task.taskId := by simpa [Free] using free
      have absorbed : Moves cfg world s (s.absorb world task cause note).2 :=
        .single (.absorbed s task cause note free)
      split
      · rename_i result t same
        rw [show t = (s.absorb world task cause note).2 by rw [same]]
        exact absorbed
      · rename_i result t same
        rw [show t = (s.absorb world task cause note).2 by rw [same]]
        split
        · exact .head (.unabsorbed s task cause note free)
            (reportWith_moves cfg world _ (fun task now cause note s => ih task now cause note s) _ _ _ _ _)
        · exact absorbed

theorem report_moves (task : Option Task) (detail : String) (reasonCode : Int) (door : Door)
    (s : Session) : Moves cfg world s (s.report cfg world task detail reasonCode door).state :=
  reportWith_moves cfg world _ (fun task now cause note s =>
    takeOn_moves cfg world (world.depth + 1) task now cause note s) task detail reasonCode door s

theorem considerSuppression_moves (bid : Bid) (s : Session) :
    Moves cfg world s (s.considerSuppression cfg bid) := by
  unfold considerSuppression
  split
  · exact .refl
  · split
    · exact aside_moves cfg world _ _ rfl rfl rfl rfl
    · exact .refl

theorem onBid_moves (bid : Bid) (now : ℚ) (s : Session) (heard : Heard (.bid bid) s.log) :
    Moves cfg world s (s.onBid cfg world bid now).state := by
  unfold onBid
  split
  · exact considerSuppression_moves cfg world bid s
  · rename_i record found
    split
    · exact considerSuppression_moves cfg world bid s
    · rename_i auction collects
      split
      · exact .refl
      · rename_i welcome
        split
        · exact considerSuppression_moves cfg world bid s
        · rename_i after taken
          exact .single (.filed s bid now record auction after found collects welcome taken heard)

theorem onAnnounce_aside (announce : TaskAnnounce) (now : ℚ) (s : Session) :
    ∃ bids requests, (s.onAnnounce cfg world announce now).state =
      { s with bids := bids, noteRequests := requests } := by
  unfold onAnnounce
  split
  · exact ⟨_,_,rfl⟩
  split
  · exact ⟨_,_,rfl⟩
  split
  · exact ⟨_,_,rfl⟩
  split
  · exact ⟨_,_,rfl⟩
  split
  · exact ⟨_,_,rfl⟩
  simp only
  split
  · exact ⟨_,_,rfl⟩
  · exact ⟨_,_,rfl⟩

theorem onGrant_moves (grant : Grant) (now : ℚ) (s : Session) :
    Moves cfg world s (s.onGrant cfg world grant now).state := by
  have popped : Moves cfg world s { s with bids := s.bids.pop grant.taskId } :=
    aside_moves cfg world _ _ rfl rfl rfl rfl
  unfold onGrant
  simp only
  split
  · exact popped
  split
  · exact popped
  · exact popped.trans (takeOn_moves cfg world _ _ _ _ _ _)

theorem onMessage_moves (message : Message) (s : Session) :
    Moves cfg world s (s.onMessage cfg world message).state := by
  unfold onMessage
  simp only
  split
  · exact .refl
  · refine .head (.told s (.received message s.tasks) rfl) ?_
    cases message with
    | heartbeat m =>
      simp only [Flow.state_handled,Flow.state_map]
      exact aside_moves cfg world _ _ rfl rfl rfl rfl
    | taskAnnounce m =>
      obtain ⟨bids,requests,shape⟩ := onAnnounce_aside cfg world m (world.clock s.log)
        (s.say (.received (.taskAnnounce m) s.tasks))
      simp only [Flow.state_handled,shape]
      exact aside_moves cfg world _ _ rfl rfl rfl rfl
    | bid m => exact onBid_moves cfg world m _ _ ⟨s.tasks,List.mem_cons_self⟩
    | grant m => exact onGrant_moves cfg world m _ _
    | ack m => exact .refl
    | freeform m => exact .refl

theorem onNote_moves (note : CompletedNote) (s : Session) :
    Moves cfg world s (s.onNote cfg world note) := by
  unfold onNote
  split
  · exact .refl
  split
  · exact .refl
  split
  · exact .refl
  · exact aside_moves cfg world _ _ rfl rfl rfl rfl

theorem reviseBid_moves (taskId : Int) (revision : Option BidRevision) (s : Session) :
    Moves cfg world s (s.reviseBid cfg world taskId revision) := by
  unfold reviseBid
  split
  · exact .refl
  · exact .refl
  · split
    · exact .refl
    · split
      · exact .refl
      · exact aside_moves cfg world _ _ rfl rfl rfl rfl
      · exact aside_moves cfg world _ _ rfl rfl rfl rfl

theorem own_moves (task : Task) (s : Session) : Moves cfg world s (s.own task) := by
  unfold own
  split
  · exact .refl
  · rename_i free
    exact .single (.enrolled s task (by simpa [Free] using free))

theorem runAuctions_moves (now : ℚ) (s : Session) :
    Moves cfg world s (s.runAuctions cfg world now).state := by
  apply Flow.forEach_keeps (fun t => Moves cfg world s t)
  · exact .refl
  · intro taskId _ t before
    exact before.tail (.ran t taskId now)

theorem sendDueBid_moves (now : ℚ) (taskId : Int) (s : Session) :
    Moves cfg world s (s.sendDueBid world now taskId).state := by
  unfold sendDueBid
  split
  · exact .refl
  rename_i pending _
  split
  · have told : Move cfg world s (s.say (.broadcast (.bid pending.wire)
        (world.broadcast s.log (.bid pending.wire)))) := .told s _ rfl
    unfold transmitBid
    simp only
    split
    · exact .head told (aside_moves cfg world _ _ rfl rfl rfl rfl)
    · exact .single told
  · exact .refl

theorem maybeHeartbeat_moves (now : ℚ) (s : Session) :
    Moves cfg world s (s.maybeHeartbeat cfg world now).state := by
  unfold maybeHeartbeat
  split
  · exact .refl
  · have moved : Moves cfg world s { s with nextHeartbeatAt := now + cfg.params.heartbeatPeriodSec } :=
      aside_moves cfg world _ _ rfl rfl rfl rfl
    simp only
    split <;> exact moved.tail (.told _ _ rfl)

theorem agePeers_moves (now : ℚ) (s : Session) : Moves cfg world s (s.agePeers cfg now) :=
  .head (.forgot s (s.peers.ageOut cfg.params.peerTimeoutSec now).1)
    (aside_moves cfg world _ _ rfl rfl rfl rfl)

theorem prune_moves (now : ℚ) (s : Session) : Moves cfg world s (s.prune cfg now) :=
  .head (.pruned s now) (aside_moves cfg world _ _ rfl rfl rfl rfl)

theorem tick_moves (s : Session) : Moves cfg world s (s.tick cfg world).state := by
  unfold tick
  simp only
  generalize world.clock s.log = now
  apply Flow.andThen_keeps (fun t => Moves cfg world s t)
  · apply Flow.andThen_keeps (fun t => Moves cfg world s t)
    · exact (agePeers_moves cfg world now s).trans (runAuctions_moves cfg world now _)
    · intro t before
      apply Flow.forEach_keeps (fun t => Moves cfg world s t)
      · exact before
      · intro taskId _ u moved
        exact moved.trans (sendDueBid_moves cfg world now taskId u)
  · intro t before
    apply Flow.andThen_keeps (fun t => Moves cfg world s t)
    · exact before.trans (maybeHeartbeat_moves cfg world now t)
    · intro u moved
      exact moved.trans (prune_moves cfg world now u)

theorem perform_moves (op : Op) (notOutcome : ∀ id outcome, op ≠ .outcome id outcome) (s : Session) :
    Moves cfg world s (s.perform cfg world op).state := by
  cases op with
  | own task => exact own_moves cfg world task s
  | report task detail reasonCode door => exact report_moves cfg world task detail reasonCode door s
  | message message => exact onMessage_moves cfg world message s
  | note note => exact onNote_moves cfg world note s
  | takeNoteRequests => exact aside_moves cfg world _ _ rfl rfl rfl rfl
  | revise taskId revision => exact reviseBid_moves cfg world taskId revision s
  | outcome id outcome => exact absurd rfl (notOutcome id outcome)
  | tick => exact tick_moves cfg world s

end Session
end AmigaFleet.Coordinator
