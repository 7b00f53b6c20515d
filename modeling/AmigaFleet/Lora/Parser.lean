import AmigaFleet.Lora.Framing

/-! The incremental parser: bytes in, whole frames out. What it makes of a stream
is said of the runs between delimiters, however the stream is cut into chunks. -/
namespace AmigaFleet.Lora
open Lib

structure ParserStats where
  frames : Nat := 0
  crcErrors : Nat := 0
  cobsErrors : Nat := 0
  lengthErrors : Nat := 0
  oversizeErrors : Nat := 0
  resyncs : Nat := 0
  deriving DecidableEq, Repr

namespace ParserStats

def drops (s : ParserStats) : Nat :=
  s.crcErrors + s.cobsErrors + s.lengthErrors + s.oversizeErrors + s.resyncs

def count (s : ParserStats) : FrameErrorKind → ParserStats
  | .cobs => { s with cobsErrors := s.cobsErrors + 1 }
  | .crc => { s with crcErrors := s.crcErrors + 1 }
  | .length => { s with lengthErrors := s.lengthErrors + 1 }
  | .oversize => { s with oversizeErrors := s.oversizeErrors + 1 }

end ParserStats

structure ParserConfig where
  maxPayloadBytes : Int := maxBodyBytes
  withLinkStats : Bool := false

structure FrameParser where
  stats : ParserStats := {}
  buffer : List UInt8 := []
  deriving DecidableEq

/-- Sized to the protocol ceiling, not to `max_payload_bytes`. -/
def maxWire : Nat := maxWireFrameBytes maxBodyBytes

theorem filterMap_shorter {α β : Type} (f g : α → Option β) (l : List α)
    (less : ∀ a ∈ l, g a = f a ∨ g a = none) : (l.filterMap g).length ≤ (l.filterMap f).length := by
  induction l with
  | nil => exact le_rfl
  | cons b rest ih =>
    have deeper := ih (fun c inside => less c (List.mem_cons_of_mem _ inside))
    obtain agree | silent := less b List.mem_cons_self
    · cases value : f b with
      | none => simpa [List.filterMap_cons,agree,value] using deeper
      | some c => simpa [List.filterMap_cons,agree,value] using deeper
    · cases value : f b with
      | none => simpa [List.filterMap_cons,silent,value] using deeper
      | some c =>
        simp only [List.filterMap_cons,silent,value,List.length_cons]
        omega

/-- Two ways to read a list, one of which only leaves out: where the lists read
are the same, so is every reading. -/
theorem filterMap_agree {α β : Type} (f g : α → Option β) (l : List α) (less : ∀ a ∈ l, g a = f a ∨ g a = none)
    (same : l.filterMap f = l.filterMap g) (a : α) (member : a ∈ l) : g a = f a := by
  induction l with
  | nil => cases member
  | cons b rest ih =>
    have others := fun c inside => less c (List.mem_cons_of_mem b inside)
    obtain agree | silent := less b List.mem_cons_self
    · obtain rfl | inside := List.mem_cons.mp member
      · exact agree
      · refine ih others ?_ inside
        cases value : f b with
        | none => simpa [List.filterMap_cons,agree,value] using same
        | some c => simpa [List.filterMap_cons,agree,value] using same
    · cases value : f b with
      | none =>
        obtain rfl | inside := List.mem_cons.mp member
        · rw [silent,value]
        · exact ih others (by simpa [List.filterMap_cons,silent,value] using same) inside
      | some c =>
        have counted := congrArg List.length same
        have bound := filterMap_shorter f g rest others
        simp only [List.filterMap_cons,silent,value,List.length_cons] at counted
        omega

namespace FrameParser
variable (cfg : ParserConfig)

def feedByte (p : FrameParser) (byte : UInt8) : FrameParser × Option Frame :=
  if byte ≠ delimiter then
    let buffer := p.buffer ++ [byte]
    if maxWire < buffer.length then (⟨{ p.stats with resyncs := p.stats.resyncs + 1 },[]⟩,none)
    else (⟨p.stats,buffer⟩,none)
  else if p.buffer = [] then (p,none)
  else
    match decodeFrame p.buffer cfg.maxPayloadBytes cfg.withLinkStats with
    | .ok frame => (⟨{ p.stats with frames := p.stats.frames + 1 },[]⟩,some frame)
    | .error e => (⟨p.stats.count e.kind,[]⟩,none)

def feed (p : FrameParser) : List UInt8 → FrameParser × List Frame
  | [] => (p,[])
  | byte::rest =>
    let (next,frame) := p.feedByte cfg byte
    let (last,frames) := next.feed rest
    (last,frame.toList ++ frames)

def feedAll (p : FrameParser) : List (List UInt8) → FrameParser × List Frame
  | [] => (p,[])
  | chunk::chunks =>
    let (next,frames) := p.feed cfg chunk
    let (last,more) := next.feedAll chunks
    (last,frames ++ more)

theorem feed_append (p : FrameParser) (first second : List UInt8) : p.feed cfg (first ++ second) =
    (((p.feed cfg first).1.feed cfg second).1,(p.feed cfg first).2 ++ ((p.feed cfg first).1.feed cfg second).2) := by
  induction first generalizing p with
  | nil => rfl
  | cons byte rest ih => simp [feed,ih]

theorem feedAll_flatten (p : FrameParser) (chunks : List (List UInt8)) :
    p.feedAll cfg chunks = p.feed cfg chunks.flatten := by
  induction chunks generalizing p with
  | nil => rfl
  | cons chunk chunks ih => simp [feedAll,ih,feed_append]

theorem feedByte_buffer (p : FrameParser) (byte : UInt8) (within : p.buffer.length ≤ maxWire) :
    (p.feedByte cfg byte).1.buffer.length ≤ maxWire := by
  unfold feedByte
  split
  · dsimp only
    split
    · exact Nat.zero_le _
    · rename_i small
      exact not_lt.mp small
  · split
    · exact within
    · split
      · exact Nat.zero_le _
      · exact Nat.zero_le _

theorem feed_buffer (p : FrameParser) (stream : List UInt8) (within : p.buffer.length ≤ maxWire) :
    (p.feed cfg stream).1.buffer.length ≤ maxWire := by
  induction stream generalizing p with
  | nil => exact within
  | cons byte rest ih => exact ih _ (feedByte_buffer cfg p byte within)

/-- What the guard leaves of a run. -/
def kept (run : List UInt8) : List UInt8 := run.drop ((maxWire + 1) * (run.length / (maxWire + 1)))

theorem kept_short (run : List UInt8) (short : run.length ≤ maxWire) : kept run = run := by
  rw [kept,Nat.div_eq_of_lt (by omega)]
  rfl

theorem kept_full (window rest : List UInt8) (full : window.length = maxWire + 1) :
    kept (window ++ rest) = kept rest := by
  have quotient : (window ++ rest).length / (maxWire + 1) = rest.length / (maxWire + 1) + 1 := by
    rw [List.length_append,full,Nat.add_comm,Nat.add_div_right _ (by omega)]
  rw [kept,quotient,Nat.mul_add,Nat.mul_one,Nat.add_comm,← full,← List.drop_drop,List.drop_left,full,kept]

theorem feed_run (p : FrameParser) (run : List UInt8) (clean : 0 ∉ run) (within : p.buffer.length ≤ maxWire) :
    (p.feed cfg run).1.buffer = kept (p.buffer ++ run) ∧ (p.feed cfg run).2 = [] := by
  induction run generalizing p with
  | nil => exact ⟨by rw [List.append_nil,kept_short _ within]; rfl,rfl⟩
  | cons byte rest ih =>
    simp only [List.mem_cons,not_or] at clean
    have data : byte ≠ delimiter := Ne.symm clean.1
    have split_ : p.buffer ++ byte::rest = (p.buffer ++ [byte]) ++ rest := by simp
    simp only [feed,feedByte,if_pos data]
    split
    · rename_i exceeds
      have full : (p.buffer ++ [byte]).length = maxWire + 1 := by
        simp only [List.length_append,List.length_singleton] at exceeds ⊢
        omega
      obtain ⟨buffer,silent⟩ := ih ⟨{ p.stats with resyncs := p.stats.resyncs + 1 },[]⟩ clean.2 (Nat.zero_le _)
      rw [split_,kept_full _ _ full]
      exact ⟨buffer,silent⟩
    · rename_i small
      obtain ⟨buffer,silent⟩ := ih ⟨p.stats,p.buffer ++ [byte]⟩ clean.2 (not_lt.mp small)
      rw [split_]
      exact ⟨buffer,silent⟩

theorem feed_short (p : FrameParser) (run : List UInt8) (clean : 0 ∉ run)
    (within : p.buffer.length + run.length ≤ maxWire) : p.feed cfg run = (⟨p.stats,p.buffer ++ run⟩,[]) := by
  induction run generalizing p with
  | nil => simp [feed]
  | cons byte rest ih =>
    simp only [List.mem_cons,not_or] at clean
    simp only [List.length_cons] at within
    have data : byte ≠ delimiter := Ne.symm clean.1
    have small : ¬ maxWire < (p.buffer ++ [byte]).length := by
      simp only [List.length_append,List.length_singleton]
      omega
    have next := ih ⟨p.stats,p.buffer ++ [byte]⟩ clean.2 (by simpa using by omega)
    simp only [feed,feedByte,if_pos data,if_neg small,next]
    simp

def frame? (run : List UInt8) : Option Frame :=
  (decodeFrame run cfg.maxPayloadBytes cfg.withLinkStats).toOption

theorem frame?_nil : frame? cfg [] = none := rfl

theorem feedByte_delimiter (p : FrameParser) : (p.feedByte cfg delimiter).1.buffer = [] ∧
    (p.feedByte cfg delimiter).2 = frame? cfg p.buffer := by
  simp only [feedByte,ne_eq,not_true_eq_false,if_false]
  split
  · rename_i empty
    rw [empty]
    exact ⟨rfl,(frame?_nil cfg).symm⟩
  · split
    · rename_i frame same
      exact ⟨rfl,by rw [frame?,same]; rfl⟩
    · rename_i e same
      exact ⟨rfl,by rw [frame?,same]; rfl⟩

theorem feed_delimited (p : FrameParser) (run : List UInt8) (clean : 0 ∉ run) (fresh : p.buffer = []) :
    (p.feed cfg (run ++ [delimiter])).1.buffer = [] ∧
      (p.feed cfg (run ++ [delimiter])).2 = (frame? cfg (kept run)).toList := by
  obtain ⟨buffer,silent⟩ := feed_run cfg p run clean (by rw [fresh]; exact Nat.zero_le _)
  rw [fresh,List.nil_append] at buffer
  obtain ⟨emptied,published⟩ := feedByte_delimiter cfg (p.feed cfg run).1
  rw [feed_append]
  simp only [feed,silent,List.nil_append,List.append_nil,published,buffer]
  exact ⟨emptied,trivial⟩

/-- The complete runs of a stream: each ended by a delimiter. -/
def completeRuns (stream : List UInt8) : List (List UInt8) := (stream.splitOn delimiter).dropLast

theorem completeRuns_clean (run : List UInt8) (clean : 0 ∉ run) : completeRuns run = [] := by
  rw [completeRuns,delimiter,List.splitOn_eq_singleton clean]
  rfl

theorem completeRuns_cons (run rest : List UInt8) (clean : 0 ∉ run) :
    completeRuns (run ++ delimiter :: rest) = run :: completeRuns rest := by
  rw [completeRuns,delimiter,List.splitOn_append_cons_self_of_not_mem clean,
    List.dropLast_cons_of_ne_nil (List.splitOn_ne_nil _ _)]
  rfl

/-- What a stream publishes: for each complete run, the frame in what the guard left of it. -/
theorem feed_frames (p : FrameParser) (stream : List UInt8) (fresh : p.buffer = []) :
    (p.feed cfg stream).2 = (completeRuns stream).filterMap (fun run => frame? cfg (kept run)) := by
  induction size : stream.length using Nat.strong_induction_on generalizing p stream with
  | _ n ih =>
    by_cases ends : delimiter ∈ stream
    · obtain ⟨run,rest,rfl,clean⟩ := List.eq_append_cons_of_mem ends
      obtain ⟨emptied,published⟩ := feed_delimited cfg p run clean fresh
      have later := ih rest.length (by simp at size; omega) _ rest emptied rfl
      have split_ : run ++ delimiter :: rest = (run ++ [delimiter]) ++ rest := by simp
      rw [split_,feed_append,published,later,← split_,completeRuns_cons run rest clean]
      rw [List.filterMap_cons]
      cases frame? cfg (kept run) <;> rfl
    · rw [completeRuns_clean stream ends]
      exact (feed_run cfg p stream ends (by rw [fresh]; exact Nat.zero_le _)).2

theorem mem_completeRuns_clean (stream run : List UInt8) (member : run ∈ completeRuns stream) : 0 ∉ run := by
  induction size : stream.length using Nat.strong_induction_on generalizing stream with
  | _ n ih =>
    by_cases ends : delimiter ∈ stream
    · obtain ⟨first,rest,rfl,clean⟩ := List.eq_append_cons_of_mem ends
      rw [completeRuns_cons first rest clean] at member
      obtain rfl | later := List.mem_cons.mp member
      · exact clean
      · exact ih rest.length (by simp at size; omega) rest later rfl
    · rw [completeRuns_clean stream ends] at member
      cases member

/-- Every frame returned is the decoding of a complete run, and no run over the
ceiling yields one. -/
def WholeRuns (chunks : List (List UInt8)) : Prop :=
  (feedAll cfg {} chunks).2 = (completeRuns chunks.flatten).filterMap (frame? cfg) ∧
    ∀ run ∈ completeRuns chunks.flatten, maxWire < run.length → frame? cfg run = none

/-- Only whole runs become frames exactly when no run over the ceiling ends in
what is itself a frame, from the place where the guard fired last. -/
theorem wholeRuns_iff (chunks : List (List UInt8)) : WholeRuns cfg chunks ↔
    ∀ run ∈ completeRuns chunks.flatten, maxWire < run.length → frame? cfg (kept run) = none := by
  have frames := feed_frames cfg {} chunks.flatten rfl
  have long : ∀ run ∈ completeRuns chunks.flatten, maxWire < run.length → frame? cfg run = none := by
    intro run member exceeds
    have clean := mem_completeRuns_clean _ run member
    cases decoded : decodeFrame run cfg.maxPayloadBytes cfg.withLinkStats with
    | error e =>
      rw [frame?,decoded]
      rfl
    | ok frame =>
      have within := decodeFrame_long run _ _ frame clean decoded
      rw [maxWire] at exceeds
      omega
  have less : ∀ run ∈ completeRuns chunks.flatten,
      frame? cfg run = frame? cfg (kept run) ∨ frame? cfg run = none := by
    intro run member
    by_cases exceeds : maxWire < run.length
    · exact .inr (long run member exceeds)
    · exact .inl (by rw [kept_short run (not_lt.mp exceeds)])
  rw [WholeRuns,feedAll_flatten,frames]
  constructor
  · rintro ⟨same,_⟩ run member exceeds
    have agree := filterMap_agree _ _ _ less same run member
    rw [← agree]
    exact long run member exceeds
  · intro refused
    refine ⟨?_,long⟩
    apply List.filterMap_congr
    intro run member
    by_cases exceeds : maxWire < run.length
    · rw [refused run member exceeds,long run member exceeds]
    · rw [kept_short run (not_lt.mp exceeds)]

/-- A run of noise over the ceiling, and a frame with no delimiter before it. -/
def swallowed : List UInt8 := List.replicate 261 0xAA ++ cobsEncode (logicalFrame [0x6F,0x6B]) ++ [delimiter]

theorem noise_published : ¬ WholeRuns {} [swallowed] := by
  rw [WholeRuns]
  decide +kernel

/-! ### Frames after noise -/

/-- A frame on the wire, and the delimiters that follow it beyond its own. -/
structure Sent where
  payload : List UInt8
  wire : List UInt8
  encoded : encodeFrame payload = .ok wire
  padding : Nat := 0

def onWire (sent : List Sent) : List UInt8 :=
  sent.flatMap (fun t => t.wire ++ List.replicate t.padding delimiter)

theorem feed_padding (p : FrameParser) (n : Nat) (fresh : p.buffer = []) :
    p.feed cfg (List.replicate n delimiter) = (p,[]) := by
  induction n with
  | zero => rfl
  | succ n ih =>
    rw [List.replicate_succ,feed,feedByte,if_neg (by simp),if_pos fresh]
    simp [ih]

theorem feed_sent (bare : cfg.withLinkStats = false) (p : FrameParser) (fresh : p.buffer = []) (t : Sent)
    (fits : (t.payload.length : Int) ≤ cfg.maxPayloadBytes) : p.feed cfg t.wire =
      (⟨{ p.stats with frames := p.stats.frames + 1 },[]⟩,[⟨t.payload,none,none⟩]) := by
  obtain ⟨small,shape⟩ := (encodeFrame_eq_ok _ _).mp t.encoded
  have clean := cobsEncode_clean (logicalFrame t.payload)
  have length := cobsEncode_length t.payload small
  have decoded : decodeFrame (cobsEncode (logicalFrame t.payload)) cfg.maxPayloadBytes cfg.withLinkStats =
      .ok ⟨t.payload,none,none⟩ := by
    rw [decodeFrame_body _ _ _ _ small (cobsDecode_encode _),openBody,bare]
    simp [bind,Except.bind,pure,Except.pure,fits]
  have nonempty : cobsEncode (logicalFrame t.payload) ≠ [] := by
    intro empty
    rw [empty] at decoded
    cases decoded
  have inside : p.feed cfg (cobsEncode (logicalFrame t.payload)) =
      (⟨p.stats,cobsEncode (logicalFrame t.payload)⟩,[]) := by
    rw [feed_short cfg p _ clean (by rw [fresh,maxWire,List.length_nil]; omega),fresh]
    rfl
  rw [shape,feed_append,inside]
  simp [feed,feedByte,nonempty,decoded]

theorem feed_onWire (bare : cfg.withLinkStats = false) (p : FrameParser) (fresh : p.buffer = []) (sent : List Sent)
    (fits : ∀ t ∈ sent, (t.payload.length : Int) ≤ cfg.maxPayloadBytes) : p.feed cfg (onWire sent) =
      (⟨{ p.stats with frames := p.stats.frames + sent.length },[]⟩,sent.map (fun t => ⟨t.payload,none,none⟩)) := by
  induction sent generalizing p with
  | nil =>
    have same : p = ⟨p.stats,[]⟩ := by rw [← fresh]
    simpa [onWire,feed] using same
  | cons t rest ih =>
    have later := ih ⟨{ p.stats with frames := p.stats.frames + 1 },[]⟩ rfl
      (fun u inside => fits u (List.mem_cons_of_mem _ inside))
    rw [onWire,List.flatMap_cons,← onWire,feed_append,feed_append,
      feed_sent cfg bare p fresh t (fits t List.mem_cons_self),feed_padding cfg _ _ rfl,later]
    simp [Nat.add_assoc,Nat.add_comm 1]

/-- After any noise and one delimiter, every frame is returned, in order and with
no error counted, however the bytes are cut; and the buffer keeps to its bound
after each byte. -/
theorem stream_recovered (bare : cfg.withLinkStats = false) (noise : List UInt8) (sent : List Sent)
    (fits : ∀ t ∈ sent, (t.payload.length : Int) ≤ cfg.maxPayloadBytes) (chunks : List (List UInt8))
    (cut : chunks.flatten = noise ++ delimiter :: onWire sent) :
    feedAll cfg {} chunks =
      (⟨{ (feed cfg {} (noise ++ [delimiter])).1.stats with
          frames := (feed cfg {} (noise ++ [delimiter])).1.stats.frames + sent.length },[]⟩,
        (feed cfg {} (noise ++ [delimiter])).2 ++ sent.map (fun t => ⟨t.payload,none,none⟩)) ∧
      ∀ fed rest, chunks.flatten = fed ++ rest → (feed cfg {} fed).1.buffer.length ≤ maxWire := by
  have emptied : (feed cfg {} (noise ++ [delimiter])).1.buffer = [] := by
    rw [feed_append]
    exact (feedByte_delimiter cfg _).1
  constructor
  · have split_ : noise ++ delimiter :: onWire sent = (noise ++ [delimiter]) ++ onWire sent := by simp
    rw [feedAll_flatten,cut,split_,feed_append,feed_onWire cfg bare _ emptied sent fits]
  · exact fun fed rest _ => feed_buffer cfg {} fed (Nat.zero_le _)

/-- Two frames and a spare delimiter after line noise, cut in the middle of both. -/
theorem stream_recovered_two : (feedAll {} {} [[0x07,0xAA],[0x00,0x05,0x02,0x61],[0x62,0xC9],[0x00,0x00,0x01],
    [0x01,0x01,0x00]]).2 = [⟨[0x61,0x62],none,none⟩,⟨[],none,none⟩] := by
  have recovered := (stream_recovered {} rfl [0x07,0xAA]
    [⟨[0x61,0x62],[0x05,0x02,0x61,0x62,0xC9,0x00],by decide +kernel,1⟩,⟨[],[0x01,0x01,0x01,0x00],by decide +kernel,0⟩]
    (by decide) [[0x07,0xAA],[0x00,0x05,0x02,0x61],[0x62,0xC9],[0x00,0x00,0x01],[0x01,0x01,0x00]] (by decide)).1
  have refused : (feed {} {} ([0x07,0xAA] ++ [delimiter])).2 = [] := by decide +kernel
  rw [recovered,refused]
  rfl

end FrameParser
end AmigaFleet.Lora
