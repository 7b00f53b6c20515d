import AmigaFleet.Lora.Bridge

/-! A bridge at work: every interleaving of its three threads, its callback and its
shutdown, with what was offered to it, what left on the port, what came in on it and
what was published. -/
namespace AmigaFleet.Lora
open Lib

/-- The band that a message asks for. -/
def band (msg : LoRaFrame) : Nat := (max 0 (min (msg.priority.toNat : Int) ((txBandNames.length : Nat) - 1))).toNat

/-- The record of the outbound side. A write stands with its payload and the bytes that left. -/
structure Sending where
  offered : List LoRaFrame := []
  late : Nat := 0
  puts : List (Nat × List UInt8) := []
  returned : List (Nat × List UInt8) := []
  writes : List (List UInt8 × List UInt8) := []

/-- The record of the inbound side. -/
structure Receiving where
  chunks : List (List UInt8) := []
  puts : List Frame := []
  refused : List Frame := []
  returned : List Frame := []
  published : List Frame := []

structure Service (H : Type) where
  bridge : LoRaBridge H
  sending : Sending := {}
  receiving : Receiving := {}

inductive Duty (H : Type) where
  | onTx (msg : LoRaFrame)
  | writerLoop
  | writerGet
  | writerLink (now : ℚ) (opens : Except String H)
  | writerWrite (outcome : WriteOutcome)
  | readerLoop (now : ℚ) (opens : Except String H)
  | readerRead (outcome : ReadOutcome)
  | readerPut
  | publishLoop
  | publishGet
  | publish
  | shutdown
  | closeLink

namespace LoRaBridge
variable {H : Type}

def perform (b : LoRaBridge H) : Duty H → LoRaBridge H
  | .onTx msg => b.onTx msg
  | .writerLoop => b.writerLoop
  | .writerGet => b.writerGet
  | .writerLink now opens => b.writerLink now opens
  | .writerWrite outcome => b.writerWrite outcome
  | .readerLoop now opens => b.readerLoop now opens
  | .readerRead outcome => b.readerRead outcome
  | .readerPut => b.readerPut
  | .publishLoop => b.publishLoop
  | .publishGet => b.publishGet
  | .publish => b.publish
  | .shutdown => b.shutdown
  | .closeLink => b.closeLink

/-- The payload that is let go of between two states of the writer, and its bytes. -/
def settled (before after : LoRaBridge H) (bytes : List UInt8) : List (List UInt8 × List UInt8) :=
  if after.inHand = [] then before.inHand.map (fun payload => (payload,bytes)) else []

/-- What leaves the outbound queue. -/
def returning (b : LoRaBridge H) : List (Nat × List UInt8) :=
  match b.writer with
  | .waiting => b.txQueue.returns
  | _ => []

def readIn (b : LoRaBridge H) (outcome : ReadOutcome) : List (List UInt8) :=
  match b.reader,outcome with
  | .reading,.bytes chunk => [chunk]
  | _,_ => []

/-- What leaves the inbound queue. -/
def arriving (b : LoRaBridge H) : List Frame :=
  match b.publisher with
  | .waiting => b.rxQueue.get.1.toList
  | _ => []

def noteSent (b : LoRaBridge H) (o : Sending) : Duty H → Sending
  | .onTx msg =>
    if (msg.data.length : Int) > b.maxPayload then { o with offered := o.offered ++ [msg] }
    else if b.txQueue.closed then { o with offered := o.offered ++ [msg], late := o.late + 1 }
    else { o with
      offered := o.offered ++ [msg]
      puts := o.puts ++ [(b.txQueue.bandIndex msg.priority.toNat,msg.data)] }
  | .writerGet => { o with returned := o.returned ++ b.returning }
  | .writerLink now opens => { o with writes := o.writes ++ b.settled (b.writerLink now opens) [] }
  | .writerWrite outcome =>
    { o with writes := o.writes ++ b.settled (b.writerWrite outcome) (b.writerBytes outcome) }
  | _ => o

def noteReceived (b : LoRaBridge H) (r : Receiving) : Duty H → Receiving
  | .readerRead outcome => { r with chunks := r.chunks ++ b.readIn outcome }
  | .readerPut =>
    if b.rxQueue.closed then { r with refused := r.refused ++ b.parsed.take 1 }
    else { r with puts := r.puts ++ b.parsed.take 1 }
  | .publishGet => { r with returned := r.returned ++ b.arriving }
  | .publish => { r with published := r.published ++ b.leaving }
  | _ => r

end LoRaBridge

namespace Service
variable {H : Type}

def perform (s : Service H) (d : Duty H) : Service H :=
  ⟨s.bridge.perform d,s.bridge.noteSent s.sending d,s.bridge.noteReceived s.receiving d⟩

/-- A node just built does anything its threads and its callback do, in any order. -/
def duties (H : Type) : Machine (Service H) (Duty H) where
  initial := fun s => (∃ params, LoRaBridge.build params = .ok s.bridge) ∧ s.sending = {} ∧ s.receiving = {}
  enabled := fun s d =>
    match d with
    | .closeLink => s.bridge.stopped = true
    | _ => True
  next := perform

end Service

namespace LoRaBridge
variable {H : Type}

/-! ### The node as built -/

theorem validatedMaxPayload_range (p : BridgeParams) :
    1 ≤ p.validatedMaxPayload ∧ p.validatedMaxPayload ≤ p.payloadLimit ∧ p.payloadLimit ≤ maxBodyBytes := by
  have limit : 1 ≤ p.payloadLimit ∧ p.payloadLimit ≤ maxBodyBytes := by
    unfold BridgeParams.payloadLimit maxBodyBytes linkStatsBytes
    split <;> omega
  unfold BridgeParams.validatedMaxPayload
  split
  · rename_i within
    exact ⟨within.1,within.2,limit.2⟩
  · exact ⟨le_max_left _ _,max_le limit.1 (min_le_right _ _),limit.2⟩

theorem priority_build (capacity : Int) (policy : String) (levels : Int) (q : BoundedPriorityRingQueue (List UInt8))
    (ok : BoundedPriorityRingQueue.build capacity policy levels = .ok q) :
    ∃ kind roomy leveled, q = .create capacity.toNat kind levels.toNat roomy leveled := by
  unfold BoundedPriorityRingQueue.build at ok
  split at ok
  · cases ok
  · split at ok
    · cases ok
    · split at ok
      · cases ok
      · injection ok with ok
        exact ⟨_,_,_,ok.symm⟩

theorem fifo_build (capacity : Int) (policy : String) (q : BoundedRingQueue Frame)
    (ok : BoundedRingQueue.build capacity policy = .ok q) :
    ∃ kind roomy, q = .create capacity.toNat kind roomy := by
  unfold BoundedRingQueue.build at ok
  split at ok
  · cases ok
  · split at ok
    · cases ok
    · injection ok with ok
      exact ⟨_,_,ok.symm⟩

theorem build_cases (p : BridgeParams) (b : LoRaBridge H) (ok : build p = .ok b) :
    ∃ txQueue rxQueue,
      BoundedPriorityRingQueue.build p.txQueueDepth (BridgeParams.validatedPolicy p.txOverflowPolicy)
        txBandNames.length = .ok txQueue ∧
      BoundedRingQueue.build p.rxQueueDepth (BridgeParams.validatedPolicy p.rxOverflowPolicy) = .ok rxQueue ∧
      b = {
        maxPayload := p.validatedMaxPayload
        linkStats := p.validatedLinkStats = "header"
        txQueue := txQueue
        rxQueue := rxQueue
        link := { port := p.serialPort, baud := p.baud, reconnectPeriod := p.reconnectPeriodSec } } := by
  simp only [build,bind,Except.bind] at ok
  split at ok
  · cases ok
  · rename_i txQueue tx
    split at ok
    · cases ok
    · rename_i rxQueue rx
      injection ok with ok
      exact ⟨txQueue,rxQueue,tx,rx,ok.symm⟩

end LoRaBridge

namespace Service

theorem txRoom : 0 < 32 := Nat.succ_pos 31

theorem rxRoom : 0 < 64 := Nat.succ_pos 63

/-- A node with its defaults. -/
def fresh : LoRaBridge Nat where
  maxPayload := 200
  linkStats := false
  txQueue := .create 32 .dropOldest 2 txRoom Nat.two_pos
  rxQueue := .create 64 .dropOldest rxRoom
  link := { port := "/dev/ttyUSB0", baud := 115200, reconnectPeriod := 2 }

theorem fresh_built : LoRaBridge.build {} = .ok fresh := rfl

/-- Two messages, of which the urgent one leaves first, and a frame that comes in two pieces. -/
def busy : Service Nat := (duties Nat).runs ⟨fresh,{},{}⟩
  [.onTx ⟨[1,2],1⟩,.onTx ⟨[3],0⟩,.writerLoop,.writerGet,.writerLink 1 (.ok 7),.writerWrite .flushed,
    .readerLoop 1 (.ok 8),.readerRead (.bytes [0x05,0x02,0x61]),.readerPut,.readerLoop 2 (.ok 8),
    .readerRead (.bytes [0x62,0xC9,0x00]),.readerPut,.publishLoop,.publishGet,.publish]

theorem busy_reachable : (duties Nat).Reachable busy := by
  apply (duties Nat).reaches_runs _ _ _ (.start _ ⟨⟨{},fresh_built⟩,rfl,rfl⟩)
  simp only [Machine.Follows,duties,and_self]

end Service
end AmigaFleet.Lora
