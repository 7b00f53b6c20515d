import AmigaFleet.Lora.Airtime
import AmigaFleet.Lora.Parser
import Mathlib.Data.List.Sort

/-! The virtual medium: one thread that carries frames between the radios, each after its
time on air. Arithmetic is exact, the clock and what a port takes are inputs, and of
an event its numbers stand for its text. -/
namespace AmigaFleet.Lora
open Lib

def readChunk : Nat := 4096

inductive MediumError where
  | noRadio
  | notUnique (names : List String)
  deriving DecidableEq, Repr

inductive MediumEvent where
  | dwell (size : Nat) (air limit : ℚ)
  | unparseable (name : String) (newErrors : Nat)
  deriving DecidableEq

structure MediumStats where
  framesSent : Nat := 0
  framesDelivered : Nat := 0
  txFrameErrors : Nat := 0

structure Radio where
  parser : FrameParser := {}
  freeAt : ℚ := 0
  reportedDrops : Nat := 0

/-- An entry of the heap. -/
structure Flight where
  deliverAt : ℚ
  seq : Nat
  sender : String
  payload : List UInt8
  deriving DecidableEq

/-- The order of the tuples, whose second component no two entries share. -/
def Flight.Before (a b : Flight) : Prop := a.deliverAt < b.deliverAt ∨ (a.deliverAt = b.deliverAt ∧ a.seq ≤ b.seq)

instance : DecidableRel Flight.Before := fun a b =>
  inferInstanceAs (Decidable (a.deliverAt < b.deliverAt ∨ (a.deliverAt = b.deliverAt ∧ a.seq ≤ b.seq)))

/-- A flight that is over, and what each listener's port took of it. -/
structure Aired where
  flight : Flight
  writes : List (String × List UInt8)

structure VirtualLoRaMedium where
  names : List String
  radioConfig : RadioConfig
  maxPayloadBytes : Int
  dwellLimitSec : ℚ
  radios : String → Radio := fun _ => {}
  stats : MediumStats := {}
  dwellWarned : Bool := false
  inflight : List Flight := []
  seq : Nat := 0
  populated : names ≠ []
  distinct : names.Nodup

namespace VirtualLoRaMedium

/-- The constructor with its checks. -/
def build (names : List String) (radioConfig : RadioConfig) (maxPayloadBytes : Int) (dwellLimitSec : ℚ) :
    Except MediumError VirtualLoRaMedium :=
  if populated : names ≠ [] then
    if distinct : names.Nodup then
      .ok {
        names := names
        radioConfig := radioConfig
        maxPayloadBytes := maxPayloadBytes
        dwellLimitSec := dwellLimitSec
        populated := populated
        distinct := distinct }
    else .error (.notUnique names)
  else .error .noRadio

def config (m : VirtualLoRaMedium) : ParserConfig := { maxPayloadBytes := m.maxPayloadBytes }

def withRadio (m : VirtualLoRaMedium) (name : String) (radio : Radio) : VirtualLoRaMedium :=
  { m with radios := Function.update m.radios name radio }

/-- The warning comes once. -/
def warnDwell (m : VirtualLoRaMedium) (size : Nat) (air : ℚ) : VirtualLoRaMedium × List MediumEvent :=
  if m.dwellWarned = false ∧ 0 < m.dwellLimitSec ∧ m.dwellLimitSec < air then
    ({ m with dwellWarned := true },[.dwell size air m.dwellLimitSec])
  else (m,[])

/-- Chained off `free_at`, not off now. An exception would end the thread; there is none. -/
def transmit (m : VirtualLoRaMedium) (name : String) (payload : List UInt8) (now : ℚ) :
    VirtualLoRaMedium × List MediumEvent :=
  match airtimeSec payload.length m.radioConfig with
  | .error _ => (m,[])
  | .ok air =>
    let (m,events) := m.warnDwell payload.length air
    let start := max now (m.radios name).freeAt
    let m := m.withRadio name { m.radios name with freeAt := start + air }
    ({ m with
      stats := { m.stats with framesSent := m.stats.framesSent + 1 }
      inflight := m.inflight.orderedInsert Flight.Before ⟨start + air,m.seq,name,payload⟩
      seq := m.seq + 1 },events)

/-- The loop over the frames of a chunk; each has a reading of the clock. -/
def transmitAll (m : VirtualLoRaMedium) (name : String) : List Frame → List ℚ → VirtualLoRaMedium × List MediumEvent
  | frame::frames,now::stamps =>
    let (m,events) := m.transmit name frame.payload now
    let (m,more) := m.transmitAll name frames stamps
    (m,events ++ more)
  | _,_ => (m,[])

def reportTxFrameErrors (m : VirtualLoRaMedium) (name : String) : VirtualLoRaMedium × List MediumEvent :=
  let drops := (m.radios name).parser.stats.drops
  if drops = (m.radios name).reportedDrops then (m,[])
  else
    let newErrors := drops - (m.radios name).reportedDrops
    let m := m.withRadio name { m.radios name with reportedDrops := drops }
    ({ m with stats := { m.stats with txFrameErrors := m.stats.txFrameErrors + newErrors } },
      [.unparseable name newErrors])

def parse (m : VirtualLoRaMedium) (name : String) (chunk : List UInt8) : FrameParser × List Frame :=
  (m.radios name).parser.feed m.config chunk

def readFrom (m : VirtualLoRaMedium) (name : String) (chunk : List UInt8) (stamps : List ℚ) :
    VirtualLoRaMedium × List MediumEvent :=
  let (parser,frames) := m.parse name chunk
  let m := m.withRadio name { m.radios name with parser := parser }
  let (m,events) := m.transmitAll name frames stamps
  let (m,more) := m.reportTxFrameErrors name
  (m,events ++ more)

/-- What one port takes of a frame; none when the write raises. -/
def written (wire : List UInt8) : Option Nat → List UInt8
  | none => []
  | some n => wire.take n

/-- Each listener's port, and the bytes it took. -/
def broadcast (m : VirtualLoRaMedium) (flight : Flight) (taken : String → Option Nat) :
    VirtualLoRaMedium × List (String × List UInt8) :=
  match encodeFrame flight.payload with
  | .error _ => (m,[])
  | .ok wire =>
    let writes := (m.names.filter (fun name => name ≠ flight.sender)).map (fun name => (name,written wire (taken name)))
    ({ m with stats := { m.stats with
      framesDelivered := m.stats.framesDelivered + (writes.filter (fun w => w.2.length = wire.length)).length } },writes)

def deliverFrom (now : ℚ) (taken : Nat → String → Option Nat) (m : VirtualLoRaMedium) :
    List Flight → VirtualLoRaMedium × List Aired
  | [] => ({ m with inflight := [] },[])
  | flight::rest =>
    if now < flight.deliverAt then ({ m with inflight := flight::rest },[])
    else
      let (m,writes) := m.broadcast flight (taken flight.seq)
      let (m,more) := deliverFrom now taken m rest
      (m,⟨flight,writes⟩ :: more)

def deliverDue (m : VirtualLoRaMedium) (now : ℚ) (taken : Nat → String → Option Nat) : VirtualLoRaMedium × List Aired :=
  deliverFrom now taken m m.inflight

/-- The radios whose ports are read in this turn. -/
def idle (m : VirtualLoRaMedium) (now : ℚ) : List String := m.names.filter (fun name => (m.radios name).freeAt ≤ now)

def maxWaitSec : ℚ := 1/20

def nextWait (m : VirtualLoRaMedium) (now : ℚ) : ℚ :=
  let deadlines := ((m.names.map (fun name => (m.radios name).freeAt)).filter (fun at_ => now < at_)) ++
    (m.inflight.head?.map Flight.deliverAt).toList
  match deadlines with
  | [] => maxWaitSec
  | first::rest => max 0 (min (rest.foldl min first - now) maxWaitSec)

end VirtualLoRaMedium
end AmigaFleet.Lora
