import AmigaFleet.Lib.Machine
import AmigaFleet.Lora.Flights

/-! The air in any run of the medium: what was read from each port, what was put on the
air and when, and what every other port was given. -/
namespace AmigaFleet.Lora
open Lib

/-- The medium at work. What was read of a port is a stream; the log has each frame that
went out, with what every port took of it. -/
structure Air where
  medium : VirtualLoRaMedium
  clock : ℚ := 0
  idle : List String := []
  fed : String → List UInt8 := fun _ => []
  sent : List Flight := []
  log : List Aired := []

inductive Turn where
  | turn (now : ℚ) (taken : Nat → String → Option Nat)
  | read (name : String) (chunk : List UInt8) (stamps : List ℚ)

namespace Air

def aired (a : Air) : List Flight := a.log.map Aired.flight

/-- The flights that a chunk becomes. -/
def launched (a : Air) (name : String) (chunk : List UInt8) (stamps : List ℚ) : List Flight :=
  (a.medium.withRadio name { a.medium.radios name with parser := (a.medium.parse name chunk).1 }).launches name
    (a.medium.parse name chunk).2 stamps

def perform (a : Air) : Turn → Air
  | .turn now taken =>
    { a with
      medium := (a.medium.deliverDue now taken).1
      clock := now
      idle := (a.medium.deliverDue now taken).1.idle now
      log := a.log ++ (a.medium.deliverDue now taken).2 }
  | .read name chunk stamps =>
    { a with
      medium := (a.medium.readFrom name chunk stamps).1
      clock := stamps.getLastD a.clock
      idle := a.idle.filter (fun other => other ≠ name)
      fed := Function.update a.fed name (a.fed name ++ chunk)
      sent := a.sent ++ a.launched name chunk stamps }

/-- The thread's loop: a turn, then a read of each idle port that has bytes; the clock
does not go back. -/
def turns : Machine Air Turn where
  initial := fun a => (∃ names radio most dwell, VirtualLoRaMedium.build names radio most dwell = .ok a.medium) ∧
    a.clock = 0 ∧ a.idle = [] ∧ (a.fed = fun _ => []) ∧ a.sent = [] ∧ a.log = []
  enabled := fun a t =>
    match t with
    | .turn now _ => a.clock ≤ now
    | .read name chunk stamps => name ∈ a.idle ∧ chunk ≠ [] ∧ chunk.length ≤ readChunk ∧
        (a.medium.parse name chunk).2.length = stamps.length ∧ (a.clock::stamps).Pairwise (· ≤ ·)
  next := perform

structure Aloft (a : Air) : Prop where
  carried : a.medium.Carried a.clock a.aired a.sent
  listening : ∀ name ∈ a.idle, name ∈ a.medium.names ∧ ∀ f ∈ a.medium.inflight, f.sender ≠ name
  crowd : ∀ name, (a.medium.inflight.filter (fun f => f.sender = name)).length ≤ 1024
  parsed : ∀ name, (FrameParser.feed a.medium.config {} (a.fed name)).1 = (a.medium.radios name).parser ∧
    (FrameParser.feed a.medium.config {} (a.fed name)).2.map Frame.payload =
      (a.sent.filter (fun f => f.sender = name)).map Flight.payload
  reported : ∀ name, (a.medium.radios name).reportedDrops = (a.medium.radios name).parser.stats.drops
  errors : a.medium.stats.txFrameErrors = (a.medium.names.map (fun name => (a.medium.radios name).parser.stats.drops)).sum
  spread : ∀ e ∈ a.log, e.Spread a.medium.names
  delivered : a.medium.stats.framesDelivered = (a.log.map (fun e => e.whole.length)).sum

theorem Aloft.turn (a : Air) (aloft : a.Aloft) (now : ℚ) (taken : Nat → String → Option Nat) (later : a.clock ≤ now) :
    (a.perform (.turn now taken)).Aloft := by
  obtain ⟨carried,_,crowd,parsed,reported,errors,spread,delivered⟩ := aloft
  obtain ⟨next,left⟩ := carried.deliverDue a.medium a.clock a.aired a.sent now later taken
  obtain ⟨names,_,config,radios,_,_,counted,inflight,_⟩ :=
    VirtualLoRaMedium.deliverFrom_eq now taken a.medium a.medium.inflight
  have short : ∀ f ∈ a.medium.inflight, f.payload.length ≤ maxBodyBytes := fun f here =>
    carried.fits f (carried.pending a.medium a.clock a.aired a.sent f here)
  obtain ⟨given,total⟩ := VirtualLoRaMedium.deliverFrom_spread now taken a.medium a.medium.inflight short
  constructor
  · rw [aired,perform,List.map_append]
    exact next
  · intro name here
    obtain ⟨known,free⟩ := List.mem_filter.mp here
    refine ⟨known,?_⟩
    rintro f pending rfl
    have due := next.free f (next.pending _ _ _ _ f pending)
    have early := left f pending
    exact absurd (due.trans (of_decide_eq_true free)) (not_le.mpr early)
  · intro name
    simp only [perform,VirtualLoRaMedium.deliverDue,inflight]
    exact ((List.dropWhile_sublist _).filter _).length_le.trans (crowd name)
  · intro name
    simp only [perform,VirtualLoRaMedium.deliverDue,config,radios]
    exact parsed name
  · intro name
    simp only [perform,VirtualLoRaMedium.deliverDue,radios]
    exact reported name
  · simp only [perform,VirtualLoRaMedium.deliverDue,names,radios,counted]
    exact errors
  · simp only [perform,VirtualLoRaMedium.deliverDue,names]
    intro e here
    obtain old | new := List.mem_append.mp here
    · exact spread e old
    · exact given e new
  · simp only [perform,VirtualLoRaMedium.deliverDue,total,List.map_append,List.sum_append,delivered]

/-- The medium when a chunk is parsed, and when its frames are transmitted. -/
def opened (a : Air) (name : String) (chunk : List UInt8) : VirtualLoRaMedium :=
  a.medium.withRadio name { a.medium.radios name with parser := (a.medium.parse name chunk).1 }

def loaded (a : Air) (name : String) (chunk : List UInt8) (stamps : List ℚ) : VirtualLoRaMedium :=
  ((a.opened name chunk).transmitAll name (a.medium.parse name chunk).2 stamps).1

theorem readFrom_eq (a : Air) (name : String) (chunk : List UInt8) (stamps : List ℚ) :
    (a.medium.readFrom name chunk stamps).1 = ((a.loaded name chunk stamps).reportTxFrameErrors name).1 := rfl

theorem opened_radio (a : Air) (name other : String) (chunk : List UInt8) :
    ((a.opened name chunk).radios other).freeAt = (a.medium.radios other).freeAt ∧
      ((a.opened name chunk).radios other).reportedDrops = (a.medium.radios other).reportedDrops ∧
      ((a.opened name chunk).radios other).parser =
        if other = name then (a.medium.parse name chunk).1 else (a.medium.radios other).parser := by
  by_cases same : other = name
  · subst same
    simp [opened,VirtualLoRaMedium.withRadio]
  · simp [opened,VirtualLoRaMedium.withRadio,same]

theorem loaded_radio (a : Air) (name other : String) (chunk : List UInt8) (stamps : List ℚ) :
    ((a.loaded name chunk stamps).radios other).reportedDrops = (a.medium.radios other).reportedDrops ∧
      ((a.loaded name chunk stamps).radios other).parser =
        if other = name then (a.medium.parse name chunk).1 else (a.medium.radios other).parser := by
  obtain ⟨_,_,radios,_,_⟩ := (a.opened name chunk).transmitAll_frame name (a.medium.parse name chunk).2 stamps
  obtain ⟨parser,drops⟩ := radios other
  obtain ⟨_,drops',parser'⟩ := a.opened_radio name other chunk
  exact ⟨drops.trans drops',parser.trans parser'⟩

theorem sum_update (names : List String) (distinct : names.Nodup) (f : String → Nat) (name : String)
    (inside : name ∈ names) (value : Nat) :
    (names.map (Function.update f name value)).sum + f name = (names.map f).sum + value := by
  induction names with
  | nil => cases inside
  | cons first rest ih =>
    obtain ⟨fresh,distinct'⟩ := List.nodup_cons.mp distinct
    rw [List.map_cons,List.map_cons,List.sum_cons,List.sum_cons]
    by_cases same : name = first
    · subst same
      have others : rest.map (Function.update f name value) = rest.map f := by
        apply List.map_congr_left
        intro other here
        apply Function.update_of_ne
        rintro rfl
        exact fresh here
      rw [others,Function.update_self]
      omega
    · obtain rfl | deeper := List.mem_cons.mp inside
      · exact absurd rfl same
      · have smaller := ih distinct' deeper
        rw [Function.update_of_ne (Ne.symm same)]
        omega

theorem Aloft.carry (a : Air) (aloft : a.Aloft) (name : String) (chunk : List UInt8) (stamps : List ℚ)
    (inside : name ∈ a.medium.names) (enough : (a.medium.parse name chunk).2.length = stamps.length)
    (later : (a.clock::stamps).Pairwise (· ≤ ·)) :
    (a.loaded name chunk stamps).Carried (stamps.getLastD a.clock) a.aired (a.sent ++ a.launched name chunk stamps) := by
  have opened : (a.opened name chunk).Carried a.clock a.aired a.sent :=
    aloft.carried.frame a.medium _ _ _ _ rfl rfl rfl rfl rfl (fun other => (a.opened_radio name other chunk).1)
  exact opened.transmitAll _ _ _ _ name _ stamps later enough inside
    (FrameParser.feed_short_payloads a.medium.config (a.medium.radios name).parser chunk)

theorem Aloft.read (a : Air) (aloft : a.Aloft) (name : String) (chunk : List UInt8) (stamps : List ℚ)
    (idle : name ∈ a.idle) (size : chunk.length ≤ readChunk)
    (enough : (a.medium.parse name chunk).2.length = stamps.length)
    (later : (a.clock::stamps).Pairwise (· ≤ ·)) : (a.perform (.read name chunk stamps)).Aloft := by
  obtain ⟨inside,free⟩ := aloft.listening name idle
  have carried := aloft.carry a name chunk stamps inside enough later
  obtain ⟨payloads,senders⟩ : (a.launched name chunk stamps).map Flight.payload =
      (a.medium.parse name chunk).2.map Frame.payload ∧ ∀ f ∈ a.launched name chunk stamps, f.sender = name :=
    (a.opened name chunk).launches_payloads name _ stamps enough
  obtain ⟨names,config,_,delivered,errors⟩ :=
    (a.opened name chunk).transmitAll_frame name (a.medium.parse name chunk).2 stamps
  have flights := (a.opened name chunk).transmitAll_inflight name (a.medium.parse name chunk).2 stamps
  have reported := (a.loaded name chunk stamps).reportTxFrameErrors_eq name
  have next : (a.perform (.read name chunk stamps)).medium =
      ((a.loaded name chunk stamps).reportTxFrameErrors name).1 := rfl
  have known : ((a.loaded name chunk stamps).reportTxFrameErrors name).1.names = a.medium.names := by
    rw [reported]
    exact names
  have parser : ∀ other, (((a.loaded name chunk stamps).reportTxFrameErrors name).1.radios other).parser =
      if other = name then (a.medium.parse name chunk).1 else (a.medium.radios other).parser := by
    intro other
    rw [← (a.loaded_radio name other chunk stamps).2,reported]
    by_cases same : other = name
    · subst same
      simp
    · simp [same]
  have senders' : ∀ other, (a.launched name chunk stamps).filter (fun f => f.sender = other) =
      if other = name then a.launched name chunk stamps else [] := by
    intro other
    split
    · rename_i same
      exact List.filter_eq_self.mpr (fun f here => by simp [senders f here,same])
    · rename_i differ
      exact List.filter_eq_nil_iff.mpr (fun f here => by simpa [senders f here] using Ne.symm differ)
  constructor
  · rw [next]
    apply carried.frame
    · rw [reported]
    · rw [reported]
    · rw [reported]
    · rw [reported]
    · rw [reported]
    · intro other
      rw [reported]
      by_cases same : other = name
      · subst same
        simp
      · simp [same]
  · intro other here
    obtain ⟨before,differ⟩ := List.mem_filter.mp here
    obtain ⟨known',free'⟩ := aloft.listening other before
    rw [next,known]
    refine ⟨known',?_⟩
    intro f pending
    rw [reported] at pending
    obtain new | old := List.mem_append.mp (flights.subset pending)
    · rw [senders f new]
      exact Ne.symm (of_decide_eq_true differ)
    · exact free' f old
  · intro other
    have counted := (flights.filter (fun f => f.sender = other)).length_eq
    rw [List.filter_append,List.length_append] at counted
    rw [next,reported]
    change ((a.loaded name chunk stamps).inflight.filter (fun f => f.sender = other)).length ≤ 1024
    change ((a.loaded name chunk stamps).inflight.filter (fun f => f.sender = other)).length =
      ((a.launched name chunk stamps).filter (fun f => f.sender = other)).length +
        (a.medium.inflight.filter (fun f => f.sender = other)).length at counted
    rw [counted,senders' other]
    split
    · rename_i same
      -- Nothing else of this radio is in flight.
      have none : a.medium.inflight.filter (fun f => f.sender = other) = [] :=
        List.filter_eq_nil_iff.mpr (fun f here => by simpa [same] using free f here)
      have room := FrameParser.feed_room a.medium.config (a.medium.radios name).parser chunk
      have length := congrArg List.length payloads
      rw [List.length_map,List.length_map] at length
      change (a.launched name chunk stamps).length = _ at length
      change 4 * (a.medium.parse name chunk).2.length ≤ _ at room
      rw [none,List.length_nil,length]
      unfold readChunk at size
      omega
    · rw [List.length_nil,Nat.zero_add]
      exact aloft.crowd other
  · intro other
    obtain ⟨before,frames⟩ := aloft.parsed other
    have config' : ((a.loaded name chunk stamps).reportTxFrameErrors name).1.config = a.medium.config := by
      rw [reported]
      exact config
    rw [next,parser,config']
    simp only [perform,List.filter_append,List.map_append,senders']
    by_cases same : other = name
    · subst same
      rw [Function.update_self,FrameParser.feed_append,if_pos rfl,if_pos rfl,before,List.map_append,frames]
      exact ⟨rfl,by rw [payloads]; rfl⟩
    · rw [Function.update_of_ne same,if_neg same,if_neg same]
      exact ⟨before,by simpa using frames⟩
  · intro other
    rw [next,reported]
    by_cases same : other = name
    · subst same
      simp
    · have old := aloft.reported other
      obtain ⟨drops,parsed⟩ := a.loaded_radio name other chunk stamps
      rw [if_neg same] at parsed
      simp [same,drops,parsed,old]
  · have drops : ∀ other, (((a.loaded name chunk stamps).reportTxFrameErrors name).1.radios other).parser.stats.drops =
        Function.update (fun other => (a.medium.radios other).parser.stats.drops) name
          (a.medium.parse name chunk).1.stats.drops other := by
      intro other
      rw [parser]
      by_cases same : other = name
      · subst same
        simp
      · simp [same]
    have sum := sum_update a.medium.names a.medium.distinct (fun other => (a.medium.radios other).parser.stats.drops) name
      inside (a.medium.parse name chunk).1.stats.drops
    have grown := FrameParser.feed_drops a.medium.config (a.medium.radios name).parser chunk
    change (a.medium.radios name).parser.stats.drops ≤ (a.medium.parse name chunk).1.stats.drops at grown
    obtain ⟨old,new⟩ := a.loaded_radio name name chunk stamps
    rw [next,known,funext drops,reported]
    change (a.loaded name chunk stamps).stats.txFrameErrors +
      (((a.loaded name chunk stamps).radios name).parser.stats.drops -
        ((a.loaded name chunk stamps).radios name).reportedDrops) = _
    rw [old,new,if_pos rfl,aloft.reported name]
    have kept : (a.loaded name chunk stamps).stats.txFrameErrors = a.medium.stats.txFrameErrors := errors
    rw [kept,aloft.errors]
    omega
  · rw [next,known]
    exact aloft.spread
  · rw [next,reported]
    exact delivered.trans aloft.delivered

theorem Aloft.start (a : Air) (new : turns.initial a) : a.Aloft := by
  obtain ⟨⟨names,radio,most,dwell,built⟩,clock,idle,fed,sent,log⟩ := new
  have fresh : a.medium.inflight = [] ∧ a.medium.radios = (fun _ => {}) ∧ a.medium.stats = {} := by
    unfold VirtualLoRaMedium.build at built
    split at built
    · split at built
      · injection built with built
        rw [← built]
        exact ⟨rfl,rfl,rfl⟩
      · cases built
    · cases built
  obtain ⟨inflight,radios,stats⟩ := fresh
  constructor
  · rw [aired,log,sent]
    constructor
    · rw [inflight]
      exact .start
    · exact List.Pairwise.nil
    · exact fun f here => absurd here List.not_mem_nil
    · exact fun f here => absurd here List.not_mem_nil
    · exact fun f here => absurd here List.not_mem_nil
    · rw [stats]
      rfl
    · exact fun f here => absurd here List.not_mem_nil
    · exact fun f here => absurd here List.not_mem_nil
  · rw [idle]
    exact fun name here => absurd here List.not_mem_nil
  · intro name
    rw [inflight]
    exact Nat.zero_le _
  · intro name
    rw [radios,fed,sent]
    exact ⟨rfl,rfl⟩
  · intro name
    rw [radios]
    rfl
  · rw [stats,radios]
    simp [ParserStats.drops]
  · rw [log]
    exact fun e here => absurd here List.not_mem_nil
  · rw [stats,log]
    rfl

theorem reachable_aloft (a : Air) (reached : turns.Reachable a) : a.Aloft := by
  apply reached.invariant Aloft
  · exact fun a new => .start a new
  · intro a t _ aloft enabled _
    cases t with
    | turn now taken => exact aloft.turn a now taken enabled
    | read name chunk stamps =>
      obtain ⟨idle,_,size,enough,later⟩ := enabled
      exact aloft.read a name chunk stamps idle size enough later

/-- What was read from a robot's port and made a frame. -/
def offered (a : Air) (name : String) : List (List UInt8) :=
  (FrameParser.feed a.medium.config {} (a.fed name)).2.map Frame.payload

/-- What a robot's port was given, broadcast by broadcast. -/
def heard (a : Air) (name : String) : List (Flight × List UInt8) :=
  a.log.flatMap (fun e => (e.writes.filter (fun w => w.1 = name)).map (fun w => (e.flight,w.2)))

theorem spread_heard (names : List String) (distinct : names.Nodup) (e : Aired) (spread : e.Spread names) (name : String)
    (inside : name ∈ names) : ((e.writes.filter (fun w => w.1 = name)).map (fun w => (e.flight,w.2))).map Prod.fst =
      [e.flight].filter (fun f => f.sender ≠ name) := by
  obtain ⟨_,_,ports,_⟩ := spread
  have count : (e.writes.filter (fun w => w.1 = name)).length = ((e.writes.map Prod.fst).filter (fun n => n = name)).length := by
    rw [List.filter_map,List.length_map]
    rfl
  rw [List.map_map]
  have same : (e.writes.filter (fun w => w.1 = name)).map (Prod.fst ∘ fun w => (e.flight,w.2)) =
      List.replicate ((e.writes.map Prod.fst).filter (fun n => n = name)).length e.flight := by
    rw [← count]
    exact List.map_const'
  rw [same,ports,List.filter_filter]
  by_cases own : e.flight.sender = name
  · have none : names.filter (fun n => decide (n = name) && decide (n ≠ e.flight.sender)) = [] := by
      apply List.filter_eq_nil_iff.mpr
      intro n _
      simp [own]
    rw [none]
    simp [own]
  · have one : (names.filter (fun n => decide (n = name) && decide (n ≠ e.flight.sender))).length = 1 := by
      have equal : names.filter (fun n => decide (n = name) && decide (n ≠ e.flight.sender)) =
          names.filter (fun n => n = name) := by
        apply List.filter_congr
        intro n _
        by_cases here : n = name
        · simp [here,Ne.symm own]
        · simp [here]
      rw [equal]
      have counted := List.count_eq_one_of_mem distinct inside
      rw [List.count_eq_length_filter] at counted
      exact counted
    rw [one]
    simp [own]

theorem Aloft.heard (a : Air) (aloft : a.Aloft) (name : String) (inside : name ∈ a.medium.names) :
    (a.heard name).map Prod.fst = a.aired.filter (fun f => f.sender ≠ name) ∧
      ∀ h ∈ a.heard name, ∃ wire, encodeFrame h.1.payload = .ok wire ∧ h.2 <+: wire := by
  have spread := aloft.spread
  have distinct := a.medium.distinct
  unfold Air.heard aired
  generalize a.log = log at spread
  constructor
  · induction log with
    | nil => rfl
    | cons e rest ih =>
      obtain ⟨first,others⟩ := List.forall_mem_cons.mp spread
      rw [List.flatMap_cons,List.map_append,spread_heard a.medium.names distinct e first name inside,ih others,
        ← List.filter_append]
      rfl
  · intro h here
    obtain ⟨e,logged,member⟩ := List.mem_flatMap.mp here
    obtain ⟨w,written,rfl⟩ := List.mem_map.mp member
    obtain ⟨wire,framed,_,fronts⟩ := spread e logged
    exact ⟨wire,framed,fronts w (List.mem_filter.mp written).1⟩

/-- Of one sender, the flights are in order of time, so they come off the heap as they went on it. -/
theorem Aloft.streams (a : Air) (aloft : a.Aloft) (name : String) :
    (a.aired ++ a.medium.inflight).filter (fun f => f.sender = name) = a.sent.filter (fun f => f.sender = name) := by
  apply aloft.carried.timely.stream Flight.Earlier.asymmetric _ _ _ (fun f => f.sender = name)
  apply (List.pairwise_filter.mpr (aloft.carried.spaced.imp _))
  intro f g spaced first second
  have same : f.sender = g.sender := (of_decide_eq_true first).trans (of_decide_eq_true second).symm
  have positive := a.medium.radioConfig.airtime_pos g.payload.length
  exact .inl ((lt_add_of_pos_right _ positive).trans_le (spaced same))

theorem Aloft.offered (a : Air) (aloft : a.Aloft) (name : String) :
    ((a.aired ++ a.medium.inflight).filter (fun f => f.sender = name)).map Flight.payload = a.offered name := by
  rw [aloft.streams,Air.offered,(aloft.parsed name).2]

/-- A broadcast in one order for all. What a robot's port was read of goes out once and in
the order it was written; transmissions of one radio do not overlap; no frame is
delivered before its time on air is over; and every other robot's port is given the
same sequence without its own frames, each frame whole or the front of it. -/
theorem air_ordered (a : Air) (reached : turns.Reachable a) :
    (a.aired ++ a.medium.inflight).Pairwise Flight.Earlier ∧
      (∀ name, ((a.aired ++ a.medium.inflight).filter (fun f => f.sender = name)).map Flight.payload = a.offered name) ∧
      (a.aired ++ a.medium.inflight).Pairwise
        (fun f g => f.sender = g.sender → f.deliverAt + a.medium.air g.payload ≤ g.deliverAt) ∧
      (∀ f ∈ a.aired, f.deliverAt ≤ a.clock) ∧
      ∀ name ∈ a.medium.names, (a.heard name).map Prod.fst = a.aired.filter (fun f => f.sender ≠ name) ∧
        ∀ h ∈ a.heard name, ∃ wire, encodeFrame h.1.payload = .ok wire ∧ h.2 <+: wire := by
  have aloft := reachable_aloft a reached
  have carried := aloft.carried
  refine ⟨carried.timely.sorted,aloft.offered,?_,carried.past,fun name inside => aloft.heard a name inside⟩
  · -- Two flights of one sender stand in the same order in both lists.
    apply List.pairwise_iff_forall_sublist.mpr
    intro f g pair same
    have both := pair.filter (fun h => h.sender = g.sender)
    rw [aloft.streams] at both
    have kept : [f,g].filter (fun h => h.sender = g.sender) = [f,g] := by simp [same]
    rw [kept] at both
    exact List.pairwise_iff_forall_sublist.mp carried.spaced (both.trans List.filter_sublist) same

theorem foldl_min_le (first : ℚ) (rest : List ℚ) : ∀ x ∈ first::rest, rest.foldl min first ≤ x := by
  induction rest generalizing first with
  | nil =>
    intro x here
    rw [List.mem_singleton.mp here]
    exact le_rfl
  | cons second rest ih =>
    intro x here
    rw [List.foldl_cons]
    obtain rfl | later := List.mem_cons.mp here
    · exact (ih _ _ List.mem_cons_self).trans (min_le_left _ _)
    · obtain rfl | deeper := List.mem_cons.mp later
      · exact (ih _ _ List.mem_cons_self).trans (min_le_right _ _)
      · exact ih _ x (List.mem_cons_of_mem _ deeper)

/-- The loop is up again when the next frame is due. -/
theorem nextWait_within (m : VirtualLoRaMedium) (now : ℚ) (flight : Flight) (first : m.inflight.head? = some flight)
    (early : now ≤ flight.deliverAt) : now + m.nextWait now ≤ flight.deliverAt := by
  unfold VirtualLoRaMedium.nextWait
  rw [first]
  dsimp only [Option.map_some,Option.toList_some]
  have listed : flight.deliverAt ∈ (m.names.map (fun name => (m.radios name).freeAt)).filter (fun at_ => now < at_) ++
      [flight.deliverAt] := List.mem_append_right _ (List.mem_singleton_self _)
  split
  · rename_i none
    rw [none] at listed
    cases listed
  · rename_i deadline rest same
    rw [same] at listed
    have soonest := foldl_min_le deadline rest flight.deliverAt listed
    have waits := min_le_left (rest.foldl min deadline - now) VirtualLoRaMedium.maxWaitSec
    obtain none | some_ := max_choice 0 (min (rest.foldl min deadline - now) VirtualLoRaMedium.maxWaitSec)
    · rw [none]
      linarith
    · rw [some_]
      linarith

/-- The counters are exact, the loop does not sleep past the next delivery, and a busy modem
is not read: of one radio no more is in flight than one chunk of its port can hold. -/
theorem air_counted (a : Air) (reached : turns.Reachable a) :
    a.medium.stats.framesSent = a.log.length + a.medium.inflight.length ∧
      a.medium.stats.framesDelivered = (a.log.map (fun e => e.whole.length)).sum ∧
      a.medium.stats.txFrameErrors =
        (a.medium.names.map (fun name => (FrameParser.feed a.medium.config {} (a.fed name)).1.stats.drops)).sum ∧
      (∀ name, (a.medium.inflight.filter (fun f => f.sender = name)).length ≤ 1024) ∧
      a.medium.inflight.length ≤ 1024 * a.medium.names.length ∧
      ∀ now, (∀ f ∈ a.medium.inflight, now ≤ f.deliverAt) →
        ∀ f ∈ a.medium.inflight, now + a.medium.nextWait now ≤ f.deliverAt := by
  have aloft := reachable_aloft a reached
  have carried := aloft.carried
  refine ⟨?_,aloft.delivered,?_,aloft.crowd,?_,?_⟩
  · have counted := carried.timely.same.length_eq
    rw [List.length_append,aired,List.length_map] at counted
    rw [carried.counted,← counted]
  · rw [aloft.errors]
    congr 1
    apply List.map_congr_left
    intro name _
    rw [(aloft.parsed name).1]
  · exact Agenda.length_sources Flight.sender a.medium.names 1024 a.medium.inflight
      (fun f here => carried.known f (carried.pending a.medium _ _ _ f here)) (fun name _ => aloft.crowd name)
  · intro now early f here
    have sorted := (List.pairwise_append.mp carried.timely.sorted).2.1
    cases heap : a.medium.inflight with
    | nil =>
      rw [heap] at here
      cases here
    | cons first rest =>
      rw [heap] at here sorted
      have wakes := nextWait_within a.medium now first (by rw [heap]; rfl)
        (early first (by rw [heap]; exact List.mem_cons_self))
      obtain rfl | behind := List.mem_cons.mp here
      · exact wakes
      · exact wakes.trans (Flight.Earlier.le first f ((List.pairwise_cons.mp sorted).1 f behind))

instance (a : Air) (t : Turn) : Decidable (turns.enabled a t) :=
  match t with
  | .turn now _ => inferInstanceAs (Decidable (a.clock ≤ now))
  | .read name chunk stamps => inferInstanceAs (Decidable (name ∈ a.idle ∧ chunk ≠ [] ∧ chunk.length ≤ readChunk ∧
      (a.medium.parse name chunk).2.length = stamps.length ∧ (a.clock::stamps).Pairwise (· ≤ ·)))

def trio : VirtualLoRaMedium where
  names := ["robot1","robot2","robot3"]
  radioConfig := defaultRadio
  maxPayloadBytes := maxBodyBytes
  dwellLimitSec := dwellLimitSec
  populated := List.cons_ne_nil _ _
  distinct := by decide

theorem trio_built : VirtualLoRaMedium.build ["robot1","robot2","robot3"] defaultRadio maxBodyBytes dwellLimitSec =
    .ok trio := by
  have populated : ["robot1","robot2","robot3"] ≠ [] := trio.populated
  have distinct : ["robot1","robot2","robot3"].Nodup := trio.distinct
  rw [VirtualLoRaMedium.build,dif_pos populated,dif_pos distinct]
  rfl

/-- Two robots write at once; the shorter frame is over first. The third is given both,
and its port takes three bytes of the second. -/
def exchanged : Air := turns.runs ⟨trio,0,[],fun _ => [],[],[]⟩
  [.turn 0 (fun _ _ => none),.read "robot1" [13,10,97,98,99,100,101,102,103,104,105,106,35,0] [0],
    .read "robot2" [0x01,0x01,0x01,0x00] [0],.turn 1 (fun seq _ => some (if seq = 0 then 3 else 300))]

theorem exchanged_reachable : turns.Reachable exchanged := by
  apply turns.reaches_runs _ _ _ (.start _ ⟨⟨_,_,_,_,trio_built⟩,rfl,rfl,rfl,rfl,rfl⟩)
  decide +kernel

theorem air_ordered_exchanged : exchanged.aired.map Flight.sender = ["robot2","robot1"] ∧
    (exchanged.heard "robot3").map Prod.snd = [[1,1,1,0],[13,10,97]] ∧
    (exchanged.heard "robot3").map Prod.fst = exchanged.aired.filter (fun f => f.sender ≠ "robot3") ∧
    (exchanged.aired ++ exchanged.medium.inflight).Pairwise Flight.Earlier := by
  have kept := air_ordered exchanged exchanged_reachable
  refine ⟨by decide +kernel,by decide +kernel,?_,kept.1⟩
  exact (kept.2.2.2.2 "robot3" (by decide +kernel)).1

theorem air_counted_exchanged : exchanged.medium.stats.framesSent = 2 ∧ exchanged.medium.stats.framesDelivered = 2 ∧
    exchanged.medium.stats.framesSent = exchanged.log.length + exchanged.medium.inflight.length := by
  have kept := air_counted exchanged exchanged_reachable
  exact ⟨by decide +kernel,by decide +kernel,kept.1⟩

end Air
end AmigaFleet.Lora
