import AmigaFleet.Coordinator.Closing
import AmigaFleet.Lib.Machine

/-! The contract-net session: both roles, every public operation. Counters and
event texts are left out; nothing the session decides depends on them. -/
namespace AmigaFleet.Coordinator
open Lib AmigaFleet.Codec AmigaFleet.Reliability

structure Config where
  nodeId : Int
  params : CoordinatorParams := {}
  capMask : Int := 0
  valid : 0 < nodeId ∧ nodeId ≤ 255 := by decide

namespace Config

def first : Config := { nodeId := 1, params := .standard }

def second : Config := { nodeId := 2, params := .standard }

def third : Config := { nodeId := 3, params := .standard }

end Config

structure Session where
  tasks : Dict Int OwnedTask := .empty
  bids : Dict Int PendingBid := .empty
  peers : Registry := .empty
  nextHeartbeatAt : ℚ := 0
  noteRequests : List NoteContext := []
  log : Log := []
  futures : List GrantFuture := []
  nextSerial : Nat := 0

/-- Who interprets an anomaly: the interpreter now, or a caller beforehand. An
answer of the wrong type is `none`. -/
inductive Door where
  | asked
  | given (answer : Option Action)
  deriving DecidableEq

inductive Op where
  | own (task : Task)
  | report (task : Option Task) (detail : String) (reasonCode : Int) (door : Door)
  | message (message : Message)
  | note (note : CompletedNote)
  | takeNoteRequests
  | revise (taskId : Int) (revision : Option BidRevision)
  | outcome (id : Nat) (outcome : Outcome)
  | tick

namespace Session

def say (call : Call) (s : Session) : Session := { s with log := call :: s.log }

def enroll (task : Task) (s : Session) : Session :=
  { s with
    tasks := s.tasks.set task.taskId { serial := s.nextSerial, task := task }
    nextSerial := s.nextSerial + 1 }

def enrollMissing (task : Task) (s : Session) : Session :=
  if s.tasks.contains task.taskId then s else s.enroll task

/-- A new record that no action asked for. -/
def enter (task : Task) (s : Session) : Session := (s.say (.entered task s.futures)).enroll task

/-- A report about work we were never told we had takes ownership of it. -/
def enrollReported (task : Option Task) (s : Session) : Session :=
  match task with
  | none => s
  | some task => if s.tasks.contains task.taskId then s else s.enter task

def own (task : Task) (s : Session) : Session :=
  if (s.tasks.get? task.taskId).any OwnedTask.ours then s else s.enter task

def store (taskId : Int) (s : Session) (d : Desk) : Session :=
  { s with tasks := s.tasks.set taskId d.record, log := d.log, futures := d.futures }

/-- Work on the record of one task. -/
def deal (taskId : Int) (work : Desk → Flow Desk) (s : Session) : Flow Session :=
  match s.tasks.get? taskId with
  | none => .returned s
  | some record => (work ⟨record,s.log,s.futures⟩).map (s.store taskId)

def openAuctions (s : Session) : Nat := s.tasks.countValues (fun r => r.state = .announced)

def cooling (params : CoordinatorParams) (now : ℚ) (r : OwnedTask) : Bool :=
  r.lastAnnouncedAt.any (fun last => now - last < params.redelegationCooldownSec)

/-- `_begin_delegation`, on the record it finds. -/
def delegate (cfg : Config) (world : World) (peers : Registry) (openAuctions : Nat) (reasonCode : Int)
    (fallback : LocalDisposition) (note : String) (now : ℚ) (d : Desk) : Flow Desk :=
  let d := d.put { d.record with fallback := fallback, reasonCode := reasonCode, note := note }
  if d.record.state = .announced ∨ d.record.state = .granted then .returned d
  else if !d.record.task.delegable then .returned (d.disposeLocally fallback now)
  else if cooling cfg.params now d.record then .returned (d.disposeLocally fallback now)
  else if cfg.params.maxOpenAuctions ≤ (openAuctions : Int) then
    .returned (d.disposeLocally fallback now)
  else d.announce cfg.params world peers now

def beginDelegation (cfg : Config) (world : World) (task : Task) (reasonCode : Int)
    (fallback : LocalDisposition) (note : String) (now : ℚ) (s : Session) : Flow Session :=
  let s := s.enrollMissing task
  s.deal task.taskId (delegate cfg world s.peers s.openAuctions reasonCode fallback note now)

def dropTask (task : Task) (disposition : LocalDisposition) (now : ℚ) (s : Session) : Flow Session :=
  (s.enrollMissing task).deal task.taskId (fun d => .returned (d.disposeLocally disposition now))

/-- `_apply`, with `_take_on` as a parameter. -/
def apply (cfg : Config) (world : World) (takeOn : Task → ℚ → String → String → Session → Flow Session)
    (action : Action) (now : ℚ) (s : Session) : Flow Session :=
  let s := s.say (.apply action now s.tasks s.futures)
  match action with
  | .reDelegate task reasonCode fallback note =>
    s.beginDelegation cfg world task reasonCode fallback note now
  | .addTask task _ => takeOn task now "add_task" "" s
  | .dropTask task disposition _ => s.dropTask task disposition now

def anomalyContext (world : World) (task : Option Task) (detail : String) (reasonCode : Int)
    (now : ℚ) (s : Session) : AnomalyContext where
  task := task
  detail := detail
  reasonCode := reasonCode
  peers := s.peers.values
  battery := safe (world.batteryPercent s.log) 0
  location := world.currentLocation s.log
  at_ := now

/-- `report_infeasible`, with `_take_on` as a parameter. -/
def reportWith (cfg : Config) (world : World)
    (takeOn : Task → ℚ → String → String → Session → Flow Session) (task : Option Task)
    (detail : String) (reasonCode : Int) (door : Door) (s : Session) : Flow Session :=
  let now := world.clock s.log
  let s := s.enrollReported task
  match door with
  | .given none => .returned s
  | .given (some action) => s.apply cfg world takeOn action now
  | .asked =>
    let s := s.say (.interpretAnomaly (s.anomalyContext world task detail reasonCode now))
    match world.interpret s.log with
    | none => .returned s
    | some action => s.apply cfg world takeOn action now

/-- The task put in the table and in the mission, and the mission re-planned. -/
def absorb (world : World) (task : Task) (cause note : String) (s : Session) :
    Option ReplanResult × Session :=
  let t := ((s.enter task).say (.absorb task)).say
    (.requestYield ("task " ++ toString task.taskId ++ " absorbed (" ++ cause ++ ")"))
  let delta : MissionDelta := { added := [task], cause := cause, note := note }
  (world.replan t.log delta,t.say (.replanAndVerify s.nextSerial delta))

def unabsorb (task : Task) (s : Session) : Session :=
  { s.say (.release task) with tasks := s.tasks.pop task.taskId }

/-- `_take_on`. A rejected replan goes back through the interpreter, which may
ask for the task again; without room on the stack the call raises. -/
def takeOn (cfg : Config) (world : World) : Nat → Task → ℚ → String → String → Session → Flow Session
  | 0,_,_,_,_,s => .raised s
  | depth+1,task,_,cause,note,s =>
    if (s.tasks.get? task.taskId).any OwnedTask.ours then .returned s
    else
      match s.absorb world task cause note with
      | (none,s) => .returned s
      | (some result,s) =>
        if result.rejected then
          (s.unabsorb task).reportWith cfg world (takeOn cfg world depth) (some task)
            ("replan rejected: " ++ result.reason) ReasonCode.taskFailed .asked
        else .returned s

def report (cfg : Config) (world : World) (task : Option Task) (detail : String) (reasonCode : Int)
    (door : Door) (s : Session) : Flow Session :=
  s.reportWith cfg world (takeOn cfg world (world.depth + 1)) task detail reasonCode door

def fileBid (cfg : Config) (world : World) (auction : Auction) (now : ℚ) (s : Session) (d : Desk) :
    Flow Desk :=
  (d.put { d.record with auction := some auction }).maybeClose cfg.params world s.peers now

def considerSuppression (cfg : Config) (bid : Bid) (s : Session) : Session :=
  match s.bids.get? bid.taskId with
  | none => s
  | some pending =>
    if pending.sentAt = none ∧ pending.suppressedBy bid cfg.nodeId = true then
      { s with bids := s.bids.pop bid.taskId }
    else s

def collecting (r : OwnedTask) : Option Auction := if r.state = .announced then r.auction else none

def onBid (cfg : Config) (world : World) (bid : Bid) (now : ℚ) (s : Session) : Flow Session :=
  match s.tasks.get? bid.taskId with
  | none => .returned (s.considerSuppression cfg bid)
  | some record =>
    match collecting record with
    | none => .returned (s.considerSuppression cfg bid)
    | some auction =>
      if bid.src ∈ record.excludedBidders then .returned s
      else
        match auction.record bid now with
        | none => .returned (s.considerSuppression cfg bid)
        | some auction => s.deal bid.taskId (s.fileBid cfg world auction now)

def assess (world : World) (task : Task) (log : Log) : Option Fitness :=
  if safe (world.canReach log task.location) false = false then
    some { feasible := false, reason := "unreachable" }
  else if safe (world.canAbsorb log task) false = false then
    some { feasible := false, reason := "mission cannot absorb it" }
  else
    match world.eta log task.location with
    | none => some { feasible := false, reason := "no ETA available" }
    | some eta =>
      world.fitness log task eta (safe (world.batteryPercent log) 0)
        (decide (safe (world.currentTaskId log) taskNone ≠ taskNone))

def backoff (params : CoordinatorParams) (world : World) (log : Log) (deliberative : Bool)
    (cost : Int) : ℚ :=
  backoffFor (if deliberative then params.noteBidMaxBackoffSec else params.bidMaxBackoffSec)
    params.bidJitterFraction (world.jitter log) cost

def requestInterpretation (note : CompletedNote) (pending : PendingBid) (now : ℚ) (s : Session) :
    Session :=
  { s with noteRequests := s.noteRequests ++ [⟨note.text,note.taskId,note.src,pending.task,
      pending.fitness.cost,pending.fitness.etaS,pending.fitness.feasible,now⟩] }

/-- The bid an announcement is answered with. -/
def answer (cfg : Config) (world : World) (announce : TaskAnnounce) (task : Task) (fitness : Fitness)
    (note : Option CompletedNote) (now : ℚ) (log : Log) : PendingBid where
  taskId := announce.taskId
  task := task
  announcerId := announce.src
  fitness := fitness
  sendAt := now + backoff cfg.params world log note.isSome
    (if fitness.feasible then fitness.cost else costMax)
  createdAt := now
  deliberative := note.isSome
  note := (note.map CompletedNote.text).getD ""

def announcedTask (announce : TaskAnnounce) : Option Task :=
  (Target.ofWords? announce.targetKind announce.targetA announce.targetB).bind (fun location =>
    Task.build announce.taskId announce.reqCapMask location announce.priority)

def onAnnounce (cfg : Config) (world : World) (announce : TaskAnnounce) (now : ℚ) (s : Session) :
    Flow Session :=
  if s.bids.contains announce.taskId then .returned s
  else if (s.tasks.get? announce.taskId).any OwnedTask.ours then .returned s
  else if hasCapabilities cfg.capMask announce.reqCapMask = false then .returned s
  else
    match announcedTask announce with
    | none => .raised s
    | some task =>
      match assess world task s.log with
      | none => .raised s
      | some fitness =>
        let note := world.completedNote s.log announce.src announce.taskId
        let pending := answer cfg world announce task fitness note now s.log
        let s := { s with bids := s.bids.set announce.taskId pending }
        match note with
        | none => .returned s
        | some note => .returned (s.requestInterpretation note pending now)

def onGrant (cfg : Config) (world : World) (grant : Grant) (now : ℚ) (s : Session) : Flow Session :=
  let after := { s with bids := s.bids.pop grant.taskId }
  if grant.winnerId ≠ cfg.nodeId then .returned after
  else
    match s.bids.get? grant.taskId with
    | none => .returned after
    | some pending =>
      after.takeOn cfg world (world.depth + 1) pending.task now
        ("won auction from " ++ toString grant.src) pending.note

/-- One inbound message. Never raises. -/
def onMessage (cfg : Config) (world : World) (message : Message) (s : Session) : Flow Session :=
  let now := world.clock s.log
  if message.src = cfg.nodeId then .returned s
  else
    let s := s.say (.received message s.tasks)
    Flow.handled (match message with
      | .heartbeat m => (s.peers.observe m now).map (fun peers => { s with peers := peers })
      | .taskAnnounce m => s.onAnnounce cfg world m now
      | .bid m => s.onBid cfg world m now
      | .grant m => s.onGrant cfg world m now
      | _ => .returned s)

def onNote (cfg : Config) (world : World) (note : CompletedNote) (s : Session) : Session :=
  if note.src = cfg.nodeId then s
  else
    match s.bids.get? note.taskId with
    | none => s
    | some pending =>
      if pending.sentAt.isSome then s
      else s.requestInterpretation note pending (world.clock s.log)

/-- The bid as revised, its wait re-derived from when it was made. -/
def revised (cfg : Config) (world : World) (pending : PendingBid) (costDelta : Int) (now : ℚ)
    (log : Log) : PendingBid :=
  let cost := max 0 (min (pending.fitness.cost + costDelta) costMax)
  { pending with
    fitness := { pending.fitness with cost := cost }
    sendAt := max now (pending.createdAt + backoff cfg.params world log pending.deliberative cost) }

def reviseBid (cfg : Config) (world : World) (taskId : Int) (revision : Option BidRevision)
    (s : Session) : Session :=
  match revision,s.bids.get? taskId with
  | none,_ => s
  | _,none => s
  | some revision,some pending =>
    if pending.sentAt.isSome then s
    else
      match revision with
      | .keepBid _ => s
      | .withdrawBid _ => { s with bids := s.bids.pop taskId }
      | .reviseBid costDelta _ =>
        let pending := revised cfg world pending costDelta (world.clock s.log) s.log
        { s with bids := s.bids.set taskId pending }

def forgetGone (gone : List PeerRecord) (r : OwnedTask) : OwnedTask :=
  { r with auction := r.auction.map (fun a => gone.foldl (fun a peer => a.forget peer.robotId) a) }

def agePeers (cfg : Config) (now : ℚ) (s : Session) : Session :=
  let (gone,peers) := s.peers.ageOut cfg.params.peerTimeoutSec now
  { s with peers := peers, tasks := s.tasks.mapValues (forgetGone gone) }

/-- One auction under `tick`: a repeat if one is due, then the question of closing. -/
def runAuction (cfg : Config) (world : World) (peers : Registry) (now : ℚ) (d : Desk) : Flow Desk :=
  match collecting d.record with
  | none => .returned d
  | some auction =>
    let repeated := if auction.nextAnnounceAt.any (fun due => decide (due ≤ now)) = true ∧
        now < auction.closesAt then d.emitAnnounce cfg.params world now else .returned d
    repeated.andThen (fun d => d.maybeClose cfg.params world peers now)

def runAuctions (cfg : Config) (world : World) (now : ℚ) (s : Session) : Flow Session :=
  Flow.forEach (fun taskId s => s.deal taskId (runAuction cfg world s.peers now)) s.tasks.keys s

def transmitBid (world : World) (taskId : Int) (pending : PendingBid) (now : ℚ) (s : Session) :
    Flow Session :=
  let message := Message.bid pending.wire
  let sent := world.broadcast s.log message
  let s := s.say (.broadcast message sent)
  if sent then .returned { s with bids := s.bids.set taskId { pending with sentAt := some now } }
  else .raised s

def sendDueBid (world : World) (now : ℚ) (taskId : Int) (s : Session) : Flow Session :=
  match s.bids.get? taskId with
  | none => .returned s
  | some pending =>
    if pending.sentAt = none ∧ pending.sendAt ≤ now then s.transmitBid world taskId pending now
    else .returned s

def sendDueBids (world : World) (now : ℚ) (s : Session) : Flow Session :=
  Flow.forEach (sendDueBid world now) s.bids.keys s

def heartbeat (cfg : Config) (world : World) (log : Log) : Heartbeat :=
  let here := (world.currentLocation log).getD Target.none
  { src := 0
    seq := 0
    capMask := cfg.capMask
    targetKind := here.kind.code
    targetA := here.a
    targetB := here.b
    battery := max 0 (min (safe (world.batteryPercent log) 0) 100)
    curTask := safe (world.currentTaskId log) taskNone }

def maybeHeartbeat (cfg : Config) (world : World) (now : ℚ) (s : Session) : Flow Session :=
  if cfg.params.heartbeatPeriodSec ≤ 0 ∨ now < s.nextHeartbeatAt then .returned s
  else
    let s := { s with nextHeartbeatAt := now + cfg.params.heartbeatPeriodSec }
    let message := Message.heartbeat (heartbeat cfg world s.log)
    let sent := world.broadcast s.log message
    let s := s.say (.broadcast message sent)
    if sent then .returned s else .raised s

def retained (params : CoordinatorParams) (now : ℚ) (r : OwnedTask) : Bool :=
  r.settledAt.all (fun settled => decide (now - settled ≤ params.settledRetentionSec))

def remembered (params : CoordinatorParams) (now : ℚ) (p : PendingBid) : Bool :=
  now - p.createdAt ≤ params.bidMemorySec

def prune (cfg : Config) (now : ℚ) (s : Session) : Session :=
  { s with
    tasks := s.tasks.retain (fun _ r => retained cfg.params now r)
    bids := s.bids.retain (fun _ p => remembered cfg.params now p) }

def tick (cfg : Config) (world : World) (s : Session) : Flow Session :=
  let now := world.clock s.log
  (((s.agePeers cfg now).runAuctions cfg world now).andThen (sendDueBids world now)).andThen
    (fun s => (s.maybeHeartbeat cfg world now).andThen (fun s => .returned (s.prune cfg now)))

def without (id : Nat) (s : Session) : Session :=
  { s with futures := s.futures.filter (fun f => f.id ≠ id) }

/-- A GRANT's future resolves: its callback runs, and what that raises is swallowed. -/
def resolve (cfg : Config) (world : World) (id : Nat) (outcome : Outcome) (s : Session) : Flow Session :=
  match s.futures.find? (fun f => f.id = id) with
  | none => .returned s
  | some future =>
    ((s.without id).deal future.taskId (fun d =>
      d.settle cfg.params world s.peers future.winnerId outcome)).handled

def perform (cfg : Config) (world : World) (s : Session) : Op → Flow Session
  | .own task => .returned (s.own task)
  | .report task detail reasonCode door => s.report cfg world task detail reasonCode door
  | .message message => s.onMessage cfg world message
  | .note note => .returned (s.onNote cfg world note)
  | .takeNoteRequests => .returned { s with noteRequests := [] }
  | .revise taskId revision => .returned (s.reviseBid cfg world taskId revision)
  | .outcome id outcome => s.resolve cfg world id outcome
  | .tick => s.tick cfg world

end Session

/-- One public operation, and every answer its ports give. -/
structure Label where
  world : World
  op : Op

/-- A session run: any operation at any time, an outcome only for a future still open. -/
def machine (cfg : Config) : Machine Session Label where
  initial s := s = {}
  enabled s label :=
    match label.op with
    | .outcome id _ => ∃ future ∈ s.futures, future.id = id
    | _ => True
  next s label := (s.perform cfg label.world label.op).state

instance (cfg : Config) (s : Session) : (label : Label) → Decidable ((machine cfg).enabled s label)
  | ⟨_,.outcome id _⟩ => inferInstanceAs (Decidable (∃ future ∈ s.futures, future.id = id))
  | ⟨_,.own ..⟩ | ⟨_,.report ..⟩ | ⟨_,.message ..⟩ | ⟨_,.note ..⟩ | ⟨_,.takeNoteRequests⟩ |
    ⟨_,.revise ..⟩ | ⟨_,.tick⟩ => inferInstanceAs (Decidable True)

end AmigaFleet.Coordinator
