import AmigaFleet.Coordinator.World

/-! The owner's side of one record: announce, arbitrate, grant, and every way a
GRANT or an auction can end. `_maybe_close`, `_grant`, the future's callback and
`_grant_failed` call each other; the recursion is bounded here by a number of
rounds, and `closing_total` says how many always suffice. -/
namespace AmigaFleet.Coordinator
open Lib AmigaFleet.Codec AmigaFleet.Reliability

/-- One record, with the log and the open futures it adds to. -/
structure Desk where
  record : OwnedTask
  log : Log
  futures : List GrantFuture

namespace Desk

def say (call : Call) (d : Desk) : Desk := { d with log := call :: d.log }

def put (record : OwnedTask) (d : Desk) : Desk := { d with record := record }

def requestYield (reason : String) (d : Desk) : Desk := d.say (.requestYield reason)

def subject (d : Desk) : String := "task " ++ toString d.record.task.taskId

def leaveMission (cause : String) (d : Desk) : Desk :=
  if d.record.inMission then
    (d.put { d.record with inMission := false }).say
      (.replanAndVerify d.record.serial { removed := [d.record.task], cause := cause })
  else d

def rejoinMission (cause : String) (d : Desk) : Desk :=
  if d.record.inMission then d
  else
    (d.put { d.record with inMission := true }).say
      (.replanAndVerify d.record.serial { added := [d.record.task], cause := cause })

def disposeLocally (disposition : LocalDisposition) (now : ℚ) (d : Desk) : Desk :=
  match disposition with
  | .drop =>
    (((d.put { d.record with
        auction := none, state := .relinquished, settledAt := some now }).say
      (.release d.record.task)).requestYield (d.subject ++ " dropped")).leaveMission
      "dropped, undelegable"
  | .hold =>
    (d.put { d.record with auction := none, state := .ours }).rejoinMission
      "held after delegation failed"
  | .requestHuman =>
    ((d.put { d.record with auction := none, state := .ours }).requestYield
      (d.subject ++ " needs an operator")).rejoinMission "escalated to an operator"

def emitNote (world : World) (d : Desk) : Bool × Desk :=
  if d.record.note = "" then (false,d)
  else
    let sent := world.sendNote d.log
    (sent,d.say (.sendNote d.record.task.taskId d.record.note sent))

def announcement (r : OwnedTask) : TaskAnnounce where
  src := 0
  seq := 0
  taskId := r.task.taskId
  reqCapMask := r.task.requiredCapabilities
  targetKind := r.task.location.kind.code
  targetA := r.task.location.a
  targetB := r.task.location.b
  priority := r.task.priority
  reasonCode := r.reasonCode

def nextRepeat (params : CoordinatorParams) (now : ℚ) : Option ℚ :=
  if 0 < params.announceRepeatSec then some (now + params.announceRepeatSec) else none

def repeated (params : CoordinatorParams) (now : ℚ) (a : Auction) : Auction :=
  { a with announcements := a.announcements + 1, nextAnnounceAt := nextRepeat params now }

def emitAnnounce (params : CoordinatorParams) (world : World) (now : ℚ) (d : Desk) : Flow Desk :=
  let message := Message.taskAnnounce (announcement d.record)
  let sent := world.broadcast d.log message
  let d := d.say (.broadcast message sent)
  if sent then
    .returned (d.put { d.record with auction := d.record.auction.map (repeated params now) })
  else .raised d

def openAuction (params : CoordinatorParams) (peers : Registry) (r : OwnedTask) (noted : Bool)
    (now : ℚ) : Auction where
  task := r.task
  expectedBidders := ((peers.capable r.task.requiredCapabilities).map PeerRecord.robotId).toFinset \
    r.excludedBidders
  openedAt := now
  closesAt := now + if noted then params.noteAnnounceWindowSec else params.announceWindowSec
  nextAnnounceAt := some (now + params.announceRepeatSec)

/-- The record once `_announce` has moved it and before the radio is used. -/
def announcing (now : ℚ) (d : Desk) : Desk :=
  (d.put { d.record with
    state := .announced
    delegationAttempts := d.record.delegationAttempts + 1
    lastAnnouncedAt := some now }).say (.opened d.record)

/-- The note first, then the auction on the clock the note calls for. -/
def offer (params : CoordinatorParams) (world : World) (peers : Registry) (now : ℚ) (d : Desk) : Desk :=
  let (noted,d) := (d.announcing now).emitNote world
  d.put { d.record with auction := some (openAuction params peers d.record noted now) }

def standDown (d : Desk) : Desk :=
  (d.requestYield (d.subject ++ " announced to the fleet")).leaveMission "announced to the fleet"

def announce (params : CoordinatorParams) (world : World) (peers : Registry) (now : ℚ) (d : Desk) :
    Flow Desk :=
  ((d.offer params world peers now).emitAnnounce params world now).andThen
    (fun d => .returned d.standDown)

def noViableBid (now : ℚ) (d : Desk) : Desk :=
  (d.put { d.record with auction := none, state := .ours }).disposeLocally d.record.fallback now

/-- The record with its GRANT sent: GRANTED before the send, and the reply on the log. -/
def award (world : World) (winnerId : Int) (d : Desk) : Desk :=
  let d := d.put { d.record with state := .granted, grantedTo := some winnerId }
  d.say (.sendReliable d.record winnerId (.grant ⟨0,0,d.record.task.taskId,winnerId⟩)
    (world.sendReliable d.log))

def await (winnerId : Int) (d : Desk) : Desk :=
  { d with futures := ⟨d.log.length,d.record.task.taskId,winnerId⟩ :: d.futures }

def grantDelivered (winnerId : Int) (now : ℚ) (d : Desk) : Desk :=
  (((d.put { d.record with
      state := .transferred, auction := none, settledAt := some now }).say
    (.markTransferred d.record.task)).requestYield
    (d.subject ++ " transferred to robot " ++ toString winnerId)).leaveMission
    ("transferred to robot " ++ toString winnerId)

/-- The record once a GRANT is known lost: ours again, its winner excluded and forgotten. -/
def lose (winnerId : Int) (d : Desk) : Desk :=
  d.put { d.record with
    state := .ours
    grantedTo := none
    excludedBidders := insert winnerId d.record.excludedBidders
    auction := d.record.auction.map (fun a => a.forget winnerId) }

def runnerUp (d : Desk) : Option ReceivedBid := d.record.auction.bind Auction.winner

def reopen (d : Desk) : Desk := d.put { d.record with state := .announced }

/-- No runner-up is left: another cycle if the budget allows, else local handling. -/
def fallBack (params : CoordinatorParams) (world : World) (peers : Registry) (now : ℚ) (d : Desk) :
    Flow Desk :=
  let d := d.put { d.record with auction := none }
  if d.record.delegationAttempts < params.maxDelegationAttempts then
    (d.put { d.record with lastAnnouncedAt := none }).announce params world peers now
  else .returned (d.disposeLocally d.record.fallback now)

/-- `_grant_failed`, with `_maybe_close` as a parameter. -/
def grantFailed (params : CoordinatorParams) (world : World) (peers : Registry)
    (again : ℚ → Desk → Option (Flow Desk)) (winnerId : Int) (now : ℚ) (d : Desk) :
    Option (Flow Desk) :=
  let d := d.lose winnerId
  match d.runnerUp with
  | some _ => again now d.reopen
  | none => some (d.fallBack params world peers now)

/-- `_on_grant_outcome`, on the record it finds. The clock is read again. -/
def onGrantOutcome (params : CoordinatorParams) (world : World) (peers : Registry)
    (again : ℚ → Desk → Option (Flow Desk)) (winnerId : Int) (outcome : Outcome) (d : Desk) :
    Option (Flow Desk) :=
  if d.record.state ≠ .granted then some (.returned d)
  else
    match outcome with
    | .delivered => some (.returned (d.grantDelivered winnerId (world.clock d.log)))
    | .failed => d.grantFailed params world peers again winnerId (world.clock d.log)

/-- `_grant`. A future already resolved runs its callback at once, and swallows what it raises. -/
def grant (params : CoordinatorParams) (world : World) (peers : Registry)
    (again : ℚ → Desk → Option (Flow Desk)) (winnerId : Int) (now : ℚ) (d : Desk) :
    Option (Flow Desk) :=
  let reply := world.sendReliable d.log
  let d := d.award world winnerId
  match reply with
  | .refused => d.grantFailed params world peers again winnerId now
  | .pending => some (.returned (d.await winnerId))
  | .resolved outcome =>
    (d.onGrantOutcome params world peers again winnerId outcome).map Flow.handled

/-- `_maybe_close`, in at most so many rounds. -/
def closeWithin (params : CoordinatorParams) (world : World) (peers : Registry) :
    Nat → ℚ → Desk → Option (Flow Desk)
  | 0,_,_ => none
  | rounds+1,now,d =>
    match d.record.auction with
    | none => some (.returned d)
    | some auction =>
      if auction.shouldClose now then
        match auction.winner with
        | none => some (.returned (d.noViableBid now))
        | some winner => d.grant params world peers (closeWithin params world peers rounds)
            winner.bidderId now
      else some (.returned d)

def viableBids (d : Desk) : Nat := (d.record.auction.map (fun a => a.viable.length)).getD 0

/-- `_maybe_close`. One round for each viable bid is enough (`closing_total`). -/
def maybeClose (params : CoordinatorParams) (world : World) (peers : Registry) (now : ℚ) (d : Desk) :
    Flow Desk :=
  (closeWithin params world peers (d.viableBids + 1) now d).getD (.returned d)

/-- The outcome of a GRANT sent earlier, on its own thread. -/
def settle (params : CoordinatorParams) (world : World) (peers : Registry) (winnerId : Int)
    (outcome : Outcome) (d : Desk) : Flow Desk :=
  (d.onGrantOutcome params world peers (fun now d => some (d.maybeClose params world peers now))
    winnerId outcome).getD (.returned d)

end Desk
end AmigaFleet.Coordinator
