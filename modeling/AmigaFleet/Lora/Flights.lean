import AmigaFleet.Lib.Agenda
import AmigaFleet.Lora.Medium
import Mathlib.Data.List.TakeWhile

/-! What the medium does with a chunk and with what is due: the flights that frames become,
the order they keep on the heap and off it, and what each port is given. -/
namespace AmigaFleet.Lora
open Lib

/-! ### How many frames a chunk can hold -/

theorem cobsBlocks_shorter (fuel : Nat) (data out : List UInt8) (ok : cobsBlocks fuel data = .ok out) :
    out.length ≤ data.length - 1 := by
  induction fuel generalizing data out with
  | zero =>
    cases data with
    | nil =>
      injection ok with ok
      simp [← ok]
    | cons code rest =>
      injection ok with ok
      simp [← ok]
  | succ fuel ih =>
    cases data with
    | nil =>
      injection ok with ok
      simp [← ok]
    | cons code rest =>
      simp only [cobsBlocks] at ok
      split at ok
      · cases ok
      split at ok
      · cases ok
      rename_i within
      cases later : cobsBlocks fuel (rest.drop (code.toNat - 1)) with
      | error e =>
        rw [later] at ok
        cases ok
      | ok out' =>
        have shorter := ih _ out' later
        rw [later] at ok
        injection ok with ok
        have taken : (rest.take (code.toNat - 1)).length = code.toNat - 1 := List.length_take_of_le (by omega)
        have dropped := List.length_drop (i := code.toNat - 1) (l := rest)
        rw [← ok,List.length_append,List.length_append,taken,List.length_cons]
        split
        · rename_i more
          have some_ := List.length_pos_iff.mpr more.2
          simp only [List.length_singleton]
          omega
        · simp only [List.length_nil]
          omega

theorem decodeFrame_least (encoded : List UInt8) (cfg : ParserConfig) (frame : Frame)
    (ok : decodeFrame encoded cfg.maxPayloadBytes cfg.withLinkStats = .ok frame) : 3 ≤ encoded.length := by
  obtain ⟨body,_,decodes,_⟩ := decodeFrame_sound encoded _ _ frame ok
  have shorter := cobsBlocks_shorter encoded.length encoded _ decodes
  rw [logicalFrame_length] at shorter
  omega

theorem stripStats_shorter (body : List UInt8) (frame : Frame) (ok : stripStats body = .ok frame) :
    frame.payload.length ≤ body.length := by
  rw [stripStats] at ok
  split at ok
  · cases ok
  · injection ok with ok
    rw [← ok]
    simp

theorem openBody_shorter (body : List UInt8) (maxPayloadBytes : Int) (withLinkStats : Bool) (frame : Frame)
    (ok : openBody body maxPayloadBytes withLinkStats = .ok frame) : frame.payload.length ≤ body.length := by
  simp only [openBody,bind,Except.bind,throw,throwThe,MonadExceptOf.throw,pure,Except.pure] at ok
  cases withLinkStats with
  | false =>
    simp only [Bool.false_eq_true,if_false] at ok
    split at ok
    · cases ok
    · injection ok with ok
      rw [← ok]
  | true =>
    simp only [if_true] at ok
    cases stripped : stripStats body with
    | error e =>
      rw [stripped] at ok
      cases ok
    | ok other =>
      rw [stripped] at ok
      dsimp only at ok
      split at ok
      · cases ok
      · injection ok with ok
        rw [← ok]
        exact stripStats_shorter body other stripped

namespace FrameParser
variable (cfg : ParserConfig)

theorem feedByte_room (p : FrameParser) (byte : UInt8) :
    4 * (p.feedByte cfg byte).2.toList.length + min (p.feedByte cfg byte).1.buffer.length 3 ≤
      1 + min p.buffer.length 3 := by
  unfold feedByte
  split
  · dsimp only
    split
    · simp
    · simp only [Option.toList_none,List.length_nil,List.length_append,List.length_singleton]
      omega
  · split
    · simp only [Option.toList_none,List.length_nil]
      omega
    · split
      · rename_i frame decoded
        have least := decodeFrame_least p.buffer cfg frame decoded
        simp only [Option.toList_some,List.length_singleton,List.length_nil]
        omega
      · simp

/-- A frame takes four bytes at least, three of which an earlier chunk may have brought. -/
theorem feed_room (p : FrameParser) (chunk : List UInt8) :
    4 * (p.feed cfg chunk).2.length ≤ chunk.length + min p.buffer.length 3 := by
  induction chunk generalizing p with
  | nil => simp [feed]
  | cons byte rest ih =>
    have first := p.feedByte_room cfg byte
    have later := ih (p.feedByte cfg byte).1
    simp only [feed,List.length_append,List.length_cons]
    omega

theorem feed_short_payloads (p : FrameParser) (chunk : List UInt8) :
    ∀ frame ∈ (p.feed cfg chunk).2, frame.payload.length ≤ maxBodyBytes := by
  induction chunk generalizing p with
  | nil => exact fun frame here => absurd here List.not_mem_nil
  | cons byte rest ih =>
    intro frame here
    simp only [feed] at here
    obtain now | later := List.mem_append.mp here
    · unfold feedByte at now
      split at now
      · dsimp only at now
        split at now
        · cases now
        · cases now
      · split at now
        · cases now
        · split at now
          · rename_i frame' decoded
            obtain rfl := List.mem_singleton.mp now
            obtain ⟨body,fits,_,opened⟩ := decodeFrame_sound _ _ _ frame decoded
            exact (openBody_shorter body _ _ frame opened).trans fits
          · cases now
    · exact ih _ frame later

theorem feed_drops (p : FrameParser) (chunk : List UInt8) : p.stats.drops ≤ (p.feed cfg chunk).1.stats.drops := by
  induction chunk generalizing p with
  | nil => exact le_rfl
  | cons byte rest ih =>
    apply le_trans _ (ih (p.feedByte cfg byte).1)
    unfold feedByte
    split
    · dsimp only
      split
      · simp only [ParserStats.drops]
        omega
      · exact le_rfl
    · split
      · exact le_rfl
      · split
        · exact le_rfl
        · rename_i e _
          cases e.kind <;> simp only [ParserStats.drops,ParserStats.count] <;> omega

end FrameParser

/-! ### Flights -/

theorem RadioConfig.airtime_pos (radio : RadioConfig) (n : Int) : 0 < radio.airtime n := by
  have led : (0 : ℚ) ≤ radio.preambleSymbols := by exact_mod_cast radio.led
  have counted : (0 : ℚ) ≤ radio.symbols n := by
    have least : 0 ≤ radio.symbols n := by
      unfold RadioConfig.symbols
      omega
    exact_mod_cast least
  have symbol := radio.symbolTime_pos
  unfold RadioConfig.airtime
  positivity

namespace Flight

/-- Strictly ahead in the heap. -/
def Earlier (a b : Flight) : Prop := a.deliverAt < b.deliverAt ∨ (a.deliverAt = b.deliverAt ∧ a.seq < b.seq)

theorem Earlier.trans (a b c : Flight) (first : a.Earlier b) (second : b.Earlier c) : a.Earlier c := by
  obtain less | ⟨same,less⟩ := first
  · obtain less' | ⟨same',_⟩ := second
    · exact .inl (less.trans less')
    · exact .inl (less.trans_eq same')
  · obtain less' | ⟨same',less'⟩ := second
    · exact .inl (same.trans_lt less')
    · exact .inr ⟨same.trans same',less.trans less'⟩

instance : IsTrans Flight Earlier := ⟨fun a b c first second => first.trans a b c second⟩

theorem Earlier.asymmetric (a b : Flight) (first : a.Earlier b) : ¬ b.Earlier a := by
  intro second
  obtain less | ⟨_,less⟩ := first.trans a b a second
  · exact lt_irrefl _ less
  · exact lt_irrefl _ less

theorem Earlier.le (a b : Flight) (first : a.Earlier b) : a.deliverAt ≤ b.deliverAt := by
  obtain less | ⟨same,_⟩ := first
  · exact less.le
  · exact same.le

/-- Against an entry with a smaller number the two orders agree. -/
theorem before_or (a b : Flight) (newer : b.seq < a.seq) : (a.Before b → a.Earlier b) ∧ (¬ a.Before b → b.Earlier a) := by
  constructor
  · intro before
    obtain less | ⟨_,number⟩ := before
    · exact .inl less
    · omega
  · intro after
    rcases lt_trichotomy a.deliverAt b.deliverAt with less | same | more
    · exact absurd (.inl less) after
    · exact .inr ⟨same.symm,newer⟩
    · exact .inl more

end Flight

namespace VirtualLoRaMedium

def air (m : VirtualLoRaMedium) (payload : List UInt8) : ℚ := m.radioConfig.airtime payload.length

def launch (m : VirtualLoRaMedium) (name : String) (payload : List UInt8) (now : ℚ) : Flight :=
  ⟨max now (m.radios name).freeAt + m.air payload,m.seq,name,payload⟩

theorem transmit_eq (m : VirtualLoRaMedium) (name : String) (payload : List UInt8) (now : ℚ) :
    ∃ warned, (m.transmit name payload now).1 = { m with
      dwellWarned := warned
      radios := Function.update m.radios name { m.radios name with freeAt := (m.launch name payload now).deliverAt }
      stats := { m.stats with framesSent := m.stats.framesSent + 1 }
      inflight := m.inflight.orderedInsert Flight.Before (m.launch name payload now)
      seq := m.seq + 1 } := by
  have timed := airtimeSec_eq m.radioConfig payload.length (Int.natCast_nonneg _)
  unfold transmit
  rw [timed]
  dsimp only
  unfold warnDwell
  split
  · exact ⟨true,rfl⟩
  · exact ⟨m.dwellWarned,rfl⟩

/-- The flights that the frames of a chunk become. -/
def launches (m : VirtualLoRaMedium) (name : String) : List Frame → List ℚ → List Flight
  | frame::frames,now::stamps =>
    m.launch name frame.payload now :: (m.transmit name frame.payload now).1.launches name frames stamps
  | _,_ => []

theorem launches_payloads (m : VirtualLoRaMedium) (name : String) (frames : List Frame) (stamps : List ℚ)
    (enough : frames.length = stamps.length) :
    (m.launches name frames stamps).map Flight.payload = frames.map Frame.payload ∧
      ∀ f ∈ m.launches name frames stamps, f.sender = name := by
  induction frames generalizing m stamps with
  | nil => simp [launches]
  | cons frame frames ih =>
    cases stamps with
    | nil => cases enough
    | cons now stamps =>
      obtain ⟨payloads,senders⟩ := ih (m.transmit name frame.payload now).1 stamps (Nat.succ.inj enough)
      rw [launches]
      constructor
      · rw [List.map_cons,List.map_cons,payloads]
        rfl
      · exact List.forall_mem_cons.mpr ⟨rfl,senders⟩

/-- What the medium keeps of the flights it took off the heap and of all it transmitted. -/
structure Carried (m : VirtualLoRaMedium) (clock : ℚ) (taken sent : List Flight) : Prop where
  timely : Agenda.Timely Flight.Earlier taken m.inflight sent
  spaced : sent.Pairwise (fun a b => a.sender = b.sender → a.deliverAt + m.air b.payload ≤ b.deliverAt)
  free : ∀ f ∈ sent, f.deliverAt ≤ (m.radios f.sender).freeAt
  numbered : ∀ f ∈ sent, f.seq < m.seq
  past : ∀ f ∈ taken, f.deliverAt ≤ clock
  counted : m.stats.framesSent = sent.length
  fits : ∀ f ∈ sent, f.payload.length ≤ maxBodyBytes
  known : ∀ f ∈ sent, f.sender ∈ m.names

theorem Carried.frame (m after : VirtualLoRaMedium) (clock : ℚ) (taken sent : List Flight)
    (carried : m.Carried clock taken sent) (names : after.names = m.names) (radio : after.radioConfig = m.radioConfig)
    (inflight : after.inflight = m.inflight) (seq : after.seq = m.seq)
    (framesSent : after.stats.framesSent = m.stats.framesSent)
    (freeAt : ∀ name, (after.radios name).freeAt = (m.radios name).freeAt) : after.Carried clock taken sent := by
  constructor
  · rw [inflight]
    exact carried.timely
  · unfold air
    rw [radio]
    exact carried.spaced
  · intro f here
    rw [freeAt]
    exact carried.free f here
  · rw [seq]
    exact carried.numbered
  · exact carried.past
  · rw [framesSent]
    exact carried.counted
  · exact carried.fits
  · rw [names]
    exact carried.known

theorem Carried.pending (m : VirtualLoRaMedium) (clock : ℚ) (taken sent : List Flight)
    (carried : m.Carried clock taken sent) : ∀ f ∈ m.inflight, f ∈ sent := by
  intro f here
  exact carried.timely.same.subset (List.mem_append_right _ here)

theorem Carried.transmit (m : VirtualLoRaMedium) (clock : ℚ) (taken sent : List Flight)
    (carried : m.Carried clock taken sent) (name : String) (payload : List UInt8) (now : ℚ) (later : clock ≤ now)
    (inside : name ∈ m.names) (short : payload.length ≤ maxBodyBytes) :
    (m.transmit name payload now).1.Carried now taken (sent ++ [m.launch name payload now]) := by
  obtain ⟨warned,next⟩ := m.transmit_eq name payload now
  have positive := m.radioConfig.airtime_pos payload.length
  have after : now < (m.launch name payload now).deliverAt :=
    (le_max_left _ _).trans_lt (lt_add_of_pos_right _ positive)
  have freed : (m.radios name).freeAt + m.air payload ≤ (m.launch name payload now).deliverAt :=
    add_le_add_left (le_max_right _ _) _
  rw [next]
  constructor
  · apply carried.timely.push Flight.Before
    · intro f here
      exact (m.launch name payload now).before_or f (carried.numbered f (carried.pending m clock taken sent f here))
    · intro f here
      exact .inl (((carried.past f here).trans later).trans_lt after)
  · apply List.pairwise_append.mpr ⟨carried.spaced,List.pairwise_singleton _ _,_⟩
    intro f here g new same
    obtain rfl := List.mem_singleton.mp new
    have earlier := carried.free f here
    rw [same] at earlier
    exact (add_le_add_left earlier _).trans freed
  · intro f here
    obtain old | new := List.mem_append.mp here
    · have earlier := carried.free f old
      dsimp only
      by_cases same : f.sender = name
      · rw [same] at earlier ⊢
        rw [Function.update_self]
        have step : (m.radios name).freeAt ≤ (m.radios name).freeAt + m.air payload := by
          exact le_add_of_nonneg_right positive.le
        exact (earlier.trans step).trans freed
      · rw [Function.update_of_ne same]
        exact earlier
    · obtain rfl := List.mem_singleton.mp new
      dsimp only [launch]
      rw [Function.update_self]
  · intro f here
    obtain old | new := List.mem_append.mp here
    · exact (carried.numbered f old).trans (Nat.lt_succ_self _)
    · obtain rfl := List.mem_singleton.mp new
      exact Nat.lt_succ_self _
  · exact fun f here => (carried.past f here).trans later
  · rw [List.length_append,List.length_singleton,← carried.counted]
  · intro f here
    obtain old | new := List.mem_append.mp here
    · exact carried.fits f old
    · obtain rfl := List.mem_singleton.mp new
      exact short
  · intro f here
    obtain old | new := List.mem_append.mp here
    · exact carried.known f old
    · obtain rfl := List.mem_singleton.mp new
      exact inside

theorem transmit_names (m : VirtualLoRaMedium) (name : String) (payload : List UInt8) (now : ℚ) :
    (m.transmit name payload now).1.names = m.names := by
  obtain ⟨warned,next⟩ := m.transmit_eq name payload now
  rw [next]

/-- The loop over the frames of a chunk, with a reading of the clock for each. -/
theorem Carried.transmitAll (m : VirtualLoRaMedium) (clock : ℚ) (taken sent : List Flight)
    (carried : m.Carried clock taken sent) (name : String) (frames : List Frame) (stamps : List ℚ)
    (later : (clock::stamps).Pairwise (· ≤ ·)) (enough : frames.length = stamps.length) (inside : name ∈ m.names)
    (short : ∀ frame ∈ frames, frame.payload.length ≤ maxBodyBytes) :
    (m.transmitAll name frames stamps).1.Carried (stamps.getLastD clock) taken (sent ++ m.launches name frames stamps) := by
  induction frames generalizing m clock sent stamps with
  | nil =>
    obtain rfl : stamps = [] := List.length_eq_zero_iff.mp enough.symm
    simpa [VirtualLoRaMedium.transmitAll,launches] using carried
  | cons frame frames ih =>
    cases stamps with
    | nil => cases enough
    | cons now stamps =>
      obtain ⟨first,others⟩ := List.pairwise_cons.mp later
      obtain ⟨fits,rest⟩ := List.forall_mem_cons.mp short
      have next := carried.transmit m clock taken sent name frame.payload now (first now List.mem_cons_self) inside fits
      have all := ih (m.transmit name frame.payload now).1 now (sent ++ [m.launch name frame.payload now]) next stamps
        others (Nat.succ.inj enough) ((m.transmit_names _ _ _).symm ▸ inside) rest
      rw [List.append_assoc,List.singleton_append] at all
      simpa only [VirtualLoRaMedium.transmitAll,launches,List.getLastD_cons] using all

/-- What transmitting leaves alone. -/
theorem transmitAll_frame (m : VirtualLoRaMedium) (name : String) (frames : List Frame) (stamps : List ℚ) :
    (m.transmitAll name frames stamps).1.names = m.names ∧
      (m.transmitAll name frames stamps).1.config = m.config ∧
      (∀ other, ((m.transmitAll name frames stamps).1.radios other).parser = (m.radios other).parser ∧
        ((m.transmitAll name frames stamps).1.radios other).reportedDrops = (m.radios other).reportedDrops) ∧
      (m.transmitAll name frames stamps).1.stats.framesDelivered = m.stats.framesDelivered ∧
      (m.transmitAll name frames stamps).1.stats.txFrameErrors = m.stats.txFrameErrors := by
  induction frames generalizing m stamps with
  | nil => exact ⟨rfl,rfl,fun _ => ⟨rfl,rfl⟩,rfl,rfl⟩
  | cons frame frames ih =>
    cases stamps with
    | nil => exact ⟨rfl,rfl,fun _ => ⟨rfl,rfl⟩,rfl,rfl⟩
    | cons now stamps =>
      obtain ⟨warned,next⟩ := m.transmit_eq name frame.payload now
      obtain ⟨names,config,radios,delivered,errors⟩ := ih (m.transmit name frame.payload now).1 stamps
      simp only [VirtualLoRaMedium.transmitAll]
      rw [next] at names config radios delivered errors ⊢
      refine ⟨names,config,?_,delivered,errors⟩
      intro other
      obtain ⟨parser,drops⟩ := radios other
      rw [parser,drops]
      by_cases same : other = name
      · rw [same]
        simp
      · simp [Function.update_of_ne same]

theorem reportTxFrameErrors_eq (m : VirtualLoRaMedium) (name : String) :
    (m.reportTxFrameErrors name).1 = { m with
      radios := Function.update m.radios name { m.radios name with reportedDrops := (m.radios name).parser.stats.drops }
      stats := { m.stats with
        txFrameErrors := m.stats.txFrameErrors + ((m.radios name).parser.stats.drops - (m.radios name).reportedDrops) } } := by
  unfold reportTxFrameErrors
  dsimp only
  split
  · rename_i same
    have radio : { m.radios name with reportedDrops := (m.radios name).parser.stats.drops } = m.radios name := by rw [same]
    rw [radio,Function.update_eq_self,same,Nat.sub_self]
    rfl
  · rfl

/-- A heap in order gives up what is due and nothing else. -/
theorem deliverFrom_eq (now : ℚ) (taken : Nat → String → Option Nat) (m : VirtualLoRaMedium) (flights : List Flight) :
    (deliverFrom now taken m flights).1.names = m.names ∧
      (deliverFrom now taken m flights).1.radioConfig = m.radioConfig ∧
      (deliverFrom now taken m flights).1.config = m.config ∧
      (deliverFrom now taken m flights).1.radios = m.radios ∧
      (deliverFrom now taken m flights).1.seq = m.seq ∧
      (deliverFrom now taken m flights).1.stats.framesSent = m.stats.framesSent ∧
      (deliverFrom now taken m flights).1.stats.txFrameErrors = m.stats.txFrameErrors ∧
      (deliverFrom now taken m flights).1.inflight = flights.dropWhile (fun f => f.deliverAt ≤ now) ∧
      (deliverFrom now taken m flights).2.map Aired.flight = flights.takeWhile (fun f => f.deliverAt ≤ now) := by
  induction flights generalizing m with
  | nil => exact ⟨rfl,rfl,rfl,rfl,rfl,rfl,rfl,rfl,rfl⟩
  | cons flight rest ih =>
    rw [deliverFrom]
    split
    · rename_i early
      have due : decide (flight.deliverAt ≤ now) = false := decide_eq_false (not_le.mpr early)
      simp [due,config]
    · rename_i reached
      have due : decide (flight.deliverAt ≤ now) = true := decide_eq_true (not_lt.mp reached)
      have kept : (m.broadcast flight (taken flight.seq)).1.names = m.names ∧
          (m.broadcast flight (taken flight.seq)).1.radioConfig = m.radioConfig ∧
          (m.broadcast flight (taken flight.seq)).1.config = m.config ∧
          (m.broadcast flight (taken flight.seq)).1.radios = m.radios ∧
          (m.broadcast flight (taken flight.seq)).1.seq = m.seq ∧
          (m.broadcast flight (taken flight.seq)).1.stats.framesSent = m.stats.framesSent ∧
          (m.broadcast flight (taken flight.seq)).1.stats.txFrameErrors = m.stats.txFrameErrors := by
        unfold broadcast
        split
        · exact ⟨rfl,rfl,rfl,rfl,rfl,rfl,rfl⟩
        · exact ⟨rfl,rfl,rfl,rfl,rfl,rfl,rfl⟩
      obtain ⟨names,radio,config,radios,seq,counted,errors,left,gone⟩ := ih (m.broadcast flight (taken flight.seq)).1
      obtain ⟨names',radio',config',radios',seq',counted',errors'⟩ := kept
      dsimp only
      refine ⟨names.trans names',radio.trans radio',config.trans config',radios.trans radios',seq.trans seq',
        counted.trans counted',errors.trans errors',?_,?_⟩
      · rw [left,List.dropWhile_cons,due]
        rfl
      · rw [List.map_cons,gone,List.takeWhile_cons,due]
        rfl

theorem Carried.deliverDue (m : VirtualLoRaMedium) (clock : ℚ) (taken sent : List Flight)
    (carried : m.Carried clock taken sent) (now : ℚ) (later : clock ≤ now) (room : Nat → String → Option Nat) :
    (m.deliverDue now room).1.Carried now (taken ++ (m.deliverDue now room).2.map Aired.flight) sent ∧
      ∀ f ∈ (m.deliverDue now room).1.inflight, now < f.deliverAt := by
  obtain ⟨names,radio,_,radios,seq,counted,_,left,gone⟩ := deliverFrom_eq now room m m.inflight
  have whole := List.takeWhile_append_dropWhile (p := fun f : Flight => decide (f.deliverAt ≤ now)) (l := m.inflight)
  have timely := carried.timely
  rw [← whole] at timely
  have sorted := (List.pairwise_append.mp timely.pop.sorted).2.1
  constructor
  · constructor
    · rw [VirtualLoRaMedium.deliverDue,left,gone]
      exact timely.pop
    · unfold air
      rw [VirtualLoRaMedium.deliverDue,radio]
      exact carried.spaced
    · rw [VirtualLoRaMedium.deliverDue,radios]
      exact carried.free
    · rw [VirtualLoRaMedium.deliverDue,seq]
      exact carried.numbered
    · intro f here
      obtain old | new := List.mem_append.mp here
      · exact (carried.past f old).trans later
      · rw [VirtualLoRaMedium.deliverDue,gone] at new
        have due := List.mem_takeWhile_imp (p := fun f : Flight => decide (f.deliverAt ≤ now)) new
        exact of_decide_eq_true due
    · rw [VirtualLoRaMedium.deliverDue,counted]
      exact carried.counted
    · exact carried.fits
    · rw [VirtualLoRaMedium.deliverDue,names]
      exact carried.known
  · rw [VirtualLoRaMedium.deliverDue,left]
    cases rest : m.inflight.dropWhile (fun f => decide (f.deliverAt ≤ now)) with
    | nil => exact fun f here => absurd here List.not_mem_nil
    | cons first others =>
      have early : now < first.deliverAt := by
        have refused := List.dropWhile_get_zero_not (p := fun f : Flight => decide (f.deliverAt ≤ now)) m.inflight
          (by rw [rest]; exact Nat.succ_pos _)
        simp only [rest,List.get_eq_getElem,List.getElem_cons_zero,decide_eq_true_eq,not_le] at refused
        exact refused
      rw [rest] at sorted
      intro f here
      obtain rfl | behind := List.mem_cons.mp here
      · exact early
      · exact early.trans_le (Flight.Earlier.le first f ((List.pairwise_cons.mp sorted).1 f behind))

theorem transmitAll_inflight (m : VirtualLoRaMedium) (name : String) (frames : List Frame) (stamps : List ℚ) :
    (m.transmitAll name frames stamps).1.inflight.Perm (m.launches name frames stamps ++ m.inflight) := by
  induction frames generalizing m stamps with
  | nil => exact List.Perm.refl _
  | cons frame frames ih =>
    cases stamps with
    | nil => exact List.Perm.refl _
    | cons now stamps =>
      obtain ⟨warned,next⟩ := m.transmit_eq name frame.payload now
      have inserted : (m.transmit name frame.payload now).1.inflight.Perm
          (m.launch name frame.payload now :: m.inflight) := by
        rw [next]
        exact List.perm_orderedInsert _ _ _
      have later := ih (m.transmit name frame.payload now).1 stamps
      simp only [VirtualLoRaMedium.transmitAll,launches]
      exact (later.trans (inserted.append_left _)).trans List.perm_middle

/-! ### What the ports are given -/

end VirtualLoRaMedium

namespace Aired

/-- Every other radio's port is given the frame or the front of it. -/
def Spread (names : List String) (e : Aired) : Prop :=
  ∃ wire, encodeFrame e.flight.payload = .ok wire ∧
    e.writes.map Prod.fst = names.filter (fun name => name ≠ e.flight.sender) ∧ ∀ w ∈ e.writes, w.2 <+: wire

/-- The ports that took the whole frame. -/
def whole (e : Aired) : List (String × List UInt8) := e.writes.filter (fun w => encodeFrame e.flight.payload = .ok w.2)

end Aired

namespace VirtualLoRaMedium

theorem written_prefix (wire : List UInt8) (taken : Option Nat) : written wire taken <+: wire := by
  cases taken with
  | none => exact List.nil_prefix
  | some n => exact List.take_prefix n wire

theorem broadcast_spread (m : VirtualLoRaMedium) (flight : Flight) (taken : String → Option Nat)
    (short : flight.payload.length ≤ maxBodyBytes) :
    Aired.Spread m.names ⟨flight,(m.broadcast flight taken).2⟩ ∧
      (m.broadcast flight taken).1.stats.framesDelivered =
        m.stats.framesDelivered + (Aired.whole ⟨flight,(m.broadcast flight taken).2⟩).length := by
  obtain ⟨wire,framed⟩ : ∃ wire, encodeFrame flight.payload = .ok wire :=
    ⟨_,(encodeFrame_eq_ok flight.payload _).mpr ⟨short,rfl⟩⟩
  unfold broadcast
  rw [framed]
  have fronts : ∀ w ∈ (m.names.filter (fun name => name ≠ flight.sender)).map
      (fun name => (name,written wire (taken name))), w.2 <+: wire := by
    intro w here
    obtain ⟨name,_,rfl⟩ := List.mem_map.mp here
    exact written_prefix wire (taken name)
  constructor
  · refine ⟨wire,framed,?_,fronts⟩
    rw [List.map_map]
    exact List.map_id _
  · dsimp only
    congr 2
    apply List.filter_congr
    intro w here
    rw [decide_eq_decide]
    constructor
    · intro full
      rw [framed,(fronts w here).eq_of_length full]
    · intro same
      rw [framed] at same
      injection same with same
      rw [same]

theorem deliverFrom_spread (now : ℚ) (taken : Nat → String → Option Nat) (m : VirtualLoRaMedium) (flights : List Flight)
    (short : ∀ f ∈ flights, f.payload.length ≤ maxBodyBytes) :
    (∀ e ∈ (deliverFrom now taken m flights).2, e.Spread m.names) ∧
      (deliverFrom now taken m flights).1.stats.framesDelivered =
        m.stats.framesDelivered + ((deliverFrom now taken m flights).2.map (fun e => e.whole.length)).sum := by
  induction flights generalizing m with
  | nil => exact ⟨fun e here => absurd here List.not_mem_nil,rfl⟩
  | cons flight rest ih =>
    rw [deliverFrom]
    split
    · exact ⟨fun e here => absurd here List.not_mem_nil,rfl⟩
    · obtain ⟨fits,others⟩ := List.forall_mem_cons.mp short
      obtain ⟨spread,counted⟩ := m.broadcast_spread flight (taken flight.seq) fits
      obtain ⟨later,total⟩ := ih (m.broadcast flight (taken flight.seq)).1 others
      have names : (m.broadcast flight (taken flight.seq)).1.names = m.names := by
        unfold broadcast
        split
        · rfl
        · rfl
      rw [names] at later
      constructor
      · exact List.forall_mem_cons.mpr ⟨spread,later⟩
      · dsimp only
        rw [total,counted,List.map_cons,List.sum_cons,Nat.add_assoc]

end VirtualLoRaMedium

end AmigaFleet.Lora
