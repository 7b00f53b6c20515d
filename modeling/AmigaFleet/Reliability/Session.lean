import AmigaFleet.Codec.Codec
import AmigaFleet.Lib.Flow
import AmigaFleet.Reliability.Notes
import AmigaFleet.Reliability.Addressing

/-! The reliability session: sequence numbers, retransmit campaigns, ACKs and
duplicate suppression. The history fields record what was stamped, handed to
the link, passed up and resolved; no branch reads them. -/
namespace AmigaFleet.Reliability
open Lib AmigaFleet.Codec

abbrev Packet : Type := List UInt8

inductive Outcome where
  | delivered
  | failed
  deriving DecidableEq, Repr

structure ReliabilityParams where
  retransmitTimeoutSec : ℚ := 3
  maxRetries : Int := 3
  retransmitBackoff : ℚ := 3/2
  maxRetransmitTimeoutSec : ℚ := 10
  dedupTtlSec : ℚ := 120
  dedupMaxEntries : Nat := 512
  maxPending : Int := 32
  maxPayloadBytes : Int := defaultMaxPayloadBytes
  noteTtlSec : ℚ := 30
  noteCompletedTtlSec : ℚ := 60
  maxNoteFragments : Int := Codec.maxNoteFragments
  timeoutPositive : 0 < retransmitTimeoutSec := by norm_num
  retriesNonneg : 0 ≤ maxRetries := by decide
  backoffGrows : 1 ≤ retransmitBackoff := by norm_num
  ceilingAbove : retransmitTimeoutSec ≤ maxRetransmitTimeoutSec := by norm_num
  somePending : 1 ≤ maxPending := by decide
  noteLasting : 0 < noteTtlSec := by norm_num
  noteCompletedLasting : 0 < noteCompletedTtlSec := by norm_num
  someFragments : 1 ≤ maxNoteFragments := by decide
  -- The last two are refused by the dedup cache, which the session constructs.
  dedupLasting : 0 < dedupTtlSec := by norm_num
  dedupRoomy : 1 ≤ dedupMaxEntries := by decide

theorem ReliabilityParams.lasting : (0 : ℚ) < 30 := by norm_num

def ReliabilityParams.standard : ReliabilityParams := { noteLasting := ReliabilityParams.lasting }

structure Node where
  id : Int
  params : ReliabilityParams := {}
  valid : robotIdNone < id ∧ id ≤ srcMax := by decide

namespace Node

def first : Node := { id := 1, params := .standard }

def second : Node := { id := 2, params := .standard }

def third : Node := { id := 3, params := .standard }

end Node

structure Pending where
  seq : Int
  dst : Int
  payload : Packet
  future : Nat
  attempts : Int := 0
  deadline : ℚ
  kind : MessageType
  priority : Int

structure Counters where
  txBroadcast : Nat := 0
  txReliable : Nat := 0
  txRetransmits : Nat := 0
  txAcks : Nat := 0
  txLinkErrors : Nat := 0
  txDelivered : Nat := 0
  txFailed : Nat := 0
  txRejected : Nat := 0
  rxFrames : Nat := 0
  rxDelivered : Nat := 0
  rxDuplicates : Nat := 0
  rxAcks : Nat := 0
  rxSelf : Nat := 0
  rxUnknownType : Nat := 0
  rxReservedType : Nat := 0
  rxMalformed : Nat := 0
  ackUnmatched : Nat := 0
  ackWrongSrc : Nat := 0
  deriving DecidableEq

structure Send where
  future : Nat
  dst : Int
  message : Message
  deriving DecidableEq

structure Session where
  nextSeq : Int := 0
  pending : Dict Int Pending := .empty
  dedup : DedupCache
  notes : NoteReassembler
  counters : Counters := {}
  futures : Nat := 0
  stamped : List Message := []
  sends : List Send := []
  transmitted : List (Packet × Int) := []
  delivered : List Message := []
  deliveredNotes : List CompletedNote := []
  resolved : List (Nat × Outcome) := []

/-- What the clock reads during a call, and which hand-overs the link takes. -/
structure Env where
  clock : ℚ
  accepts : Nat → Bool := fun _ => true

inductive ReliabilityError where
  | ackBySession
  | broadcastType (type : MessageType)
  | unicastType (type : MessageType)
  | dstRange (dst : Int)
  | addressee (named dst : Int)
  | codec (error : CodecError)
  deriving DecidableEq

namespace Session

def init (node : Node) : Session where
  dedup :=
    { ttl := node.params.dedupTtlSec, maxEntries := node.params.dedupMaxEntries,
      lasting := node.params.dedupLasting, roomy := node.params.dedupRoomy }
  notes :=
    { ttl := node.params.noteTtlSec, completedTtl := node.params.noteCompletedTtlSec,
      maxFragments := node.params.maxNoteFragments, lasting := node.params.noteLasting,
      completedLasting := node.params.noteCompletedLasting,
      someFragments := node.params.someFragments }

def count (s : Session) (change : Counters → Counters) : Session :=
  { s with counters := change s.counters }

/-- `msg.src = self.node_id; msg.seq = self.next_seq()`. -/
def stamp (node : Node) (message : Message) (s : Session) : Message × Session :=
  let message := message.stamped node.id s.nextSeq
  (message,{ s with nextSeq := (s.nextSeq + 1) % (seqMax + 1), stamped := message :: s.stamped })

/-- `_send_frame`. A link that raises is counted, never propagated. -/
def sendFrame (env : Env) (payload : Packet) (priority : Int) (s : Session) : Bool × Session :=
  if env.accepts (s.transmitted.length + s.counters.txLinkErrors) then
    (true,{ s with transmitted := (payload,priority) :: s.transmitted })
  else (false,s.count (fun c => { c with txLinkErrors := c.txLinkErrors + 1 }))

def transmit (env : Env) (payload : Packet) (priority : Int) (s : Session) (ack : Bool := false) :
    Bool × Session :=
  (if ack then s.count (fun c => { c with txAcks := c.txAcks + 1 }) else s).sendFrame env payload
    priority

def finish (pending : Pending) (outcome : Outcome) (s : Session) : Session :=
  { s with resolved := (pending.future,outcome) :: s.resolved }

def sendReliable (node : Node) (env : Env) (dst : Int) (message : Message) (s : Session) :
    Except ReliabilityError Nat × Session :=
  if isAck message then (.error .ackBySession,s)
  else if !isReliable message then (.error (.broadcastType message.type),s)
  else if ¬(1 ≤ dst ∧ dst ≤ srcMax) then (.error (.dstRange dst),s)
  else if (addresseeOf message).any (fun named => named ≠ dst) then
    (.error (.addressee ((addresseeOf message).getD 0) dst),s)
  else
    let future := s.futures
    let s := { s with futures := s.futures + 1 }
    if node.params.maxPending ≤ (s.pending.size : Int) then
      let s := s.count (fun c => { c with txRejected := c.txRejected + 1 })
      (.ok future,{ s with resolved := (future,.failed) :: s.resolved })
    else
      let (message,s) := s.stamp node message
      match encode message node.params.maxPayloadBytes with
      | .error error => (.error (.codec error),s)
      | .ok payload =>
        let entry : Pending :=
          { seq := message.seq, dst := dst, payload := payload, future := future
            deadline := env.clock + node.params.retransmitTimeoutSec
            kind := message.type, priority := priorityOf message }
        let s := { s with
          pending := s.pending.set message.seq entry
          sends := ⟨future,dst,message⟩ :: s.sends }
        let s := s.count (fun c => { c with txReliable := c.txReliable + 1 })
        (.ok future,(s.transmit env payload (priorityOf message)).2)

def sendBroadcast (node : Node) (env : Env) (message : Message) (s : Session) :
    Except ReliabilityError Bool × Session :=
  if isAck message then (.error .ackBySession,s)
  else if isUnicast message then (.error (.unicastType message.type),s)
  else
    let (message,s) := s.stamp node message
    match encode message node.params.maxPayloadBytes with
    | .error error => (.error (.codec error),s)
    | .ok payload =>
      let s := s.count (fun c => { c with txBroadcast := c.txBroadcast + 1 })
      let (reached,s) := s.transmit env payload (priorityOf message)
      (.ok reached,s)

def matchAck (node : Node) (ack : Ack) (s : Session) : Option Pending × Session :=
  if ack.ackSrc ≠ node.id then (none,s)
  else
    match s.pending.get? ack.ackSeq with
    | none => (none,s.count (fun c => { c with ackUnmatched := c.ackUnmatched + 1 }))
    | some entry =>
      if ack.src ≠ entry.dst then
        (none,s.count (fun c => { c with ackWrongSrc := c.ackWrongSrc + 1 }))
      else (some entry,{ s with pending := s.pending.pop ack.ackSeq })

def onAck (node : Node) (ack : Ack) (s : Session) : Session :=
  let s := s.count (fun c => { c with rxAcks := c.rxAcks + 1 })
  match s.matchAck node ack with
  | (none,s) => s
  | (some entry,s) => (s.count (fun c => { c with txDelivered := c.txDelivered + 1 })).finish entry .delivered

def accept (env : Env) (message : Message) (s : Session) : Session :=
  let (first,dedup) := s.dedup.firstSight (message.src,message.seq) env.clock
  let s := { s with dedup := dedup }
  if first then
    match message with
    | .freeform m =>
      let (note,notes) := s.notes.add m env.clock
      { s with notes := notes, deliveredNotes := note.toList ++ s.deliveredNotes }
    | _ =>
      let s := s.count (fun c => { c with rxDelivered := c.rxDelivered + 1 })
      { s with delivered := message :: s.delivered }
  else s.count (fun c => { c with rxDuplicates := c.rxDuplicates + 1 })

def owesAck (node : Node) (message : Message) : Bool :=
  isReliable message && addresseeOf message = some node.id

/-- A message from another robot. The ACK precedes the duplicate check. -/
def onData (node : Node) (env : Env) (message : Message) (s : Session) : Flow Session :=
  if owesAck node message then
    let (ack,s) := s.stamp node (.ack ⟨0,0,message.src,message.seq⟩)
    match encode ack node.params.maxPayloadBytes with
    | .error _ => .raised s
    | .ok payload => .returned ((s.accept env message).transmit env payload urgent true).2
  else .returned (s.accept env message)

def onFrame (node : Node) (env : Env) (payload : Packet) (s : Session) : Flow Session :=
  let s := s.count (fun c => { c with rxFrames := c.rxFrames + 1 })
  match decode payload with
  | .error (.unknownMessageType _) =>
    .returned (s.count (fun c => { c with rxUnknownType := c.rxUnknownType + 1 }))
  | .error (.reservedMessageType _) =>
    .returned (s.count (fun c => { c with rxReservedType := c.rxReservedType + 1 }))
  | .error _ => .returned (s.count (fun c => { c with rxMalformed := c.rxMalformed + 1 }))
  | .ok (.ack ack) => .returned (s.onAck node ack)
  | .ok message =>
    if message.src = node.id then .returned (s.count (fun c => { c with rxSelf := c.rxSelf + 1 }))
    else s.onData node env message

def interval (params : ReliabilityParams) (attempts : Int) : ℚ :=
  min (params.retransmitTimeoutSec * params.retransmitBackoff^attempts.toNat)
    params.maxRetransmitTimeoutSec

structure Sweep where
  session : Session
  retransmit : List (Packet × Int) := []
  expired : List Pending := []

def sweepOne (node : Node) (now : ℚ) (sweep : Sweep) (seq : Int) : Sweep :=
  match sweep.session.pending.get? seq with
  | none => sweep
  | some entry =>
    if entry.deadline > now then sweep
    else if node.params.maxRetries ≤ entry.attempts then
      { sweep with
        session := { sweep.session with pending := sweep.session.pending.pop seq }.count
          (fun c => { c with txFailed := c.txFailed + 1 })
        expired := sweep.expired ++ [entry] }
    else
      let attempts := entry.attempts + 1
      let entry := { entry with
        attempts := attempts, deadline := now + interval node.params attempts }
      { sweep with
        session := { sweep.session with pending := sweep.session.pending.set seq entry }.count
          (fun c => { c with txRetransmits := c.txRetransmits + 1 })
        retransmit := sweep.retransmit ++ [(entry.payload,entry.priority)] }

def tick (node : Node) (env : Env) (s : Session) : Session :=
  let sweep := s.pending.keys.foldl (sweepOne node env.clock) { session := s }
  let s := { sweep.session with
    dedup := sweep.session.dedup.prune env.clock
    notes := sweep.session.notes.prune env.clock }
  let s := sweep.retransmit.foldl (fun s packet => (s.transmit env packet.1 packet.2).2) s
  sweep.expired.foldl (fun s entry => s.finish entry .failed) s

end Session
end AmigaFleet.Reliability
