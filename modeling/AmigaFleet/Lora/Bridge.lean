import AmigaFleet.Lora.Parser
import AmigaFleet.Lora.Queues
import AmigaFleet.Lora.SerialLink

/-! The bridge node: its parameters, and its three threads and its callback as steps,
each up to the next place where another thread can come between. What the device and
the clock do is an input of the step; log lines are left out. -/
namespace AmigaFleet.Lora
open Lib

structure LoRaFrame where
  data : List UInt8
  priority : UInt8 := 0
  deriving DecidableEq

def txBandNames : List String := ["urgent","bulk"]
def linkStatsModes : List String := ["none","header"]

structure BridgeParams where
  serialPort : String := "/dev/ttyUSB0"
  baud : Int := 115200
  maxPayloadBytes : Int := 200
  txQueueDepth : Int := 32
  rxQueueDepth : Int := 64
  txOverflowPolicy : String := "drop_oldest"
  rxOverflowPolicy : String := "drop_oldest"
  rxLinkStats : String := "none"
  reconnectPeriodSec : ℚ := 2

namespace BridgeParams

def payloadLimit (p : BridgeParams) : Int :=
  maxBodyBytes - (if p.rxLinkStats = "header" then (linkStatsBytes : Int) else 0)

def validatedMaxPayload (p : BridgeParams) : Int :=
  if 1 ≤ p.maxPayloadBytes ∧ p.maxPayloadBytes ≤ p.payloadLimit then p.maxPayloadBytes
  else max 1 (min p.maxPayloadBytes p.payloadLimit)

def validatedPolicy (name : String) : String := if (Policy.ofName? name).isSome then name else "drop_oldest"

def validatedLinkStats (p : BridgeParams) : String := if p.rxLinkStats ∈ linkStatsModes then p.rxLinkStats else "none"

end BridgeParams

/-- Where the writer thread stands. -/
inductive Writer where
  | ready
  | waiting
  | taken (payload : List UInt8)
  | writing (payload wire : List UInt8)
  | finished

inductive Reader where
  | ready
  | reading
  | handing (frames : List Frame)
  | finished

inductive Publisher where
  | ready
  | waiting
  | publishing (frame : Frame)
  | finished

structure LoRaBridge (H : Type) where
  maxPayload : Int
  linkStats : Bool
  txQueue : BoundedPriorityRingQueue (List UInt8)
  rxQueue : BoundedRingQueue Frame
  parser : FrameParser := {}
  link : SerialLink H
  txFrames : Nat := 0
  txOversize : Nat := 0
  txWriteErrors : Nat := 0
  rxPublished : Nat := 0
  stopped : Bool := false
  writer : Writer := .ready
  reader : Reader := .ready
  publisher : Publisher := .ready

/-- What the port did with a frame: it may have taken the front of it before it failed. -/
inductive WriteOutcome where
  | flushed
  | timedOut (written : Nat)
  | failed (written : Nat) (now : ℚ) (reason : String)

inductive ReadOutcome where
  | bytes (chunk : List UInt8)
  | failed (now : ℚ) (reason : String)

namespace LoRaBridge
variable {H : Type}

def build (p : BridgeParams) : Except QueueError (LoRaBridge H) := do
  let txQueue ← BoundedPriorityRingQueue.build p.txQueueDepth (BridgeParams.validatedPolicy p.txOverflowPolicy)
    txBandNames.length
  let rxQueue ← BoundedRingQueue.build p.rxQueueDepth (BridgeParams.validatedPolicy p.rxOverflowPolicy)
  return {
    maxPayload := p.validatedMaxPayload
    linkStats := p.validatedLinkStats = "header"
    txQueue := txQueue
    rxQueue := rxQueue
    link := { port := p.serialPort, baud := p.baud, reconnectPeriod := p.reconnectPeriodSec } }

def config (b : LoRaBridge H) : ParserConfig := ⟨b.maxPayload,b.linkStats⟩

/-! #### The outbound side -/

def onTx (b : LoRaBridge H) (msg : LoRaFrame) : LoRaBridge H :=
  if (msg.data.length : Int) > b.maxPayload then { b with txOversize := b.txOversize + 1 }
  else { b with txQueue := (b.txQueue.put msg.data msg.priority.toNat).2 }

/-- The head of the writer's loop. -/
def writerLoop (b : LoRaBridge H) : LoRaBridge H :=
  match b.writer with
  | .ready => { b with writer := if b.stopped then .finished else .waiting }
  | _ => b

def writerGet (b : LoRaBridge H) : LoRaBridge H :=
  match b.writer with
  | .waiting =>
    match b.txQueue.get with
    | (none,_) => { b with writer := .ready }
    | (some payload,queue) => { b with txQueue := queue, writer := .taken payload }
  | _ => b

def writerLink (b : LoRaBridge H) (now : ℚ) (opens : Except String H) : LoRaBridge H :=
  match b.writer with
  | .taken payload =>
    let (port,link,_) := b.link.get now opens
    match port with
    | none => { b with link := link, txWriteErrors := b.txWriteErrors + 1, writer := .ready }
    | some _ =>
      match encodeFrame payload with
      | .error _ => { b with link := link, txOversize := b.txOversize + 1, writer := .ready }
      | .ok wire => { b with link := link, writer := .writing payload wire }
  | _ => b

/-- The bytes that leave on the port. -/
def writerBytes (b : LoRaBridge H) (outcome : WriteOutcome) : List UInt8 :=
  match b.writer with
  | .writing _ wire =>
    match outcome with
    | .flushed => wire
    | .timedOut written | .failed written .. => wire.take written
  | _ => []

def writerWrite (b : LoRaBridge H) (outcome : WriteOutcome) : LoRaBridge H :=
  match b.writer with
  | .writing _ _ =>
    match outcome with
    | .flushed => { b with txFrames := b.txFrames + 1, writer := .ready }
    | .timedOut _ => { b with txWriteErrors := b.txWriteErrors + 1, writer := .ready }
    | .failed _ now reason =>
      { b with
        txWriteErrors := b.txWriteErrors + 1
        link := (b.link.drop now ("write failed: " ++ reason)).1
        writer := .ready }
  | _ => b

/-! #### The inbound side -/

/-- The head of the reader's loop and its port. -/
def readerLoop (b : LoRaBridge H) (now : ℚ) (opens : Except String H) : LoRaBridge H :=
  match b.reader with
  | .ready =>
    if b.stopped then { b with reader := .finished }
    else
      let (port,link,_) := b.link.get now opens
      { b with link := link, reader := if port.isSome then .reading else .ready }
  | _ => b

def readerRead (b : LoRaBridge H) (outcome : ReadOutcome) : LoRaBridge H :=
  match b.reader with
  | .reading =>
    match outcome with
    | .failed now reason => { b with link := (b.link.drop now ("read failed: " ++ reason)).1, reader := .ready }
    | .bytes chunk =>
      let (parser,frames) := b.parser.feed b.config chunk
      { b with parser := parser, reader := .handing frames }
  | _ => b

def readerPut (b : LoRaBridge H) : LoRaBridge H :=
  match b.reader with
  | .handing [] => { b with reader := .ready }
  | .handing (frame::frames) => { b with rxQueue := (b.rxQueue.put frame).2, reader := .handing frames }
  | _ => b

def publishLoop (b : LoRaBridge H) : LoRaBridge H :=
  match b.publisher with
  | .ready => { b with publisher := if b.stopped then .finished else .waiting }
  | _ => b

def publishGet (b : LoRaBridge H) : LoRaBridge H :=
  match b.publisher with
  | .waiting =>
    match b.rxQueue.get with
    | (none,_) => { b with publisher := .ready }
    | (some frame,queue) => { b with rxQueue := queue, publisher := .publishing frame }
  | _ => b

def publish (b : LoRaBridge H) : LoRaBridge H :=
  match b.publisher with
  | .publishing _ => { b with rxPublished := b.rxPublished + 1, publisher := .ready }
  | _ => b

/-- The node stops; its link is closed apart, when the threads were given their time. -/
def shutdown (b : LoRaBridge H) : LoRaBridge H :=
  if b.stopped then b else { b with stopped := true, txQueue := b.txQueue.close, rxQueue := b.rxQueue.close }

def closeLink (b : LoRaBridge H) : LoRaBridge H := { b with link := b.link.close }

/-! #### What the threads hold -/

def inHand (b : LoRaBridge H) : List (List UInt8) :=
  match b.writer with
  | .taken payload | .writing payload _ => [payload]
  | _ => []

def parsed (b : LoRaBridge H) : List Frame :=
  match b.reader with
  | .handing frames => frames
  | _ => []

def leaving (b : LoRaBridge H) : List Frame :=
  match b.publisher with
  | .publishing frame => [frame]
  | _ => []

end LoRaBridge
end AmigaFleet.Lora
