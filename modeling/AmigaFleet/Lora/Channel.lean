import AmigaFleet.Lora.Air
import AmigaFleet.Lora.Receiving
import AmigaFleet.Lora.Sending

/-! The whole channel: a bridge on each robot, the medium between them, and serial ports
that are byte pipes. What a robot publishes is set against what the others were asked
to send. -/
namespace AmigaFleet.Lora
open Lib

/-! ### Frames on a pipe -/

theorem drops_count (s : ParserStats) (kind : FrameErrorKind) : (s.count kind).drops = s.drops + 1 := by
  cases kind <;> simp only [ParserStats.drops,ParserStats.count] <;> omega

/-- Each payload with its frame, or with nothing where the port took nothing. -/
def AllOrNothing (writes : List (List UInt8 × List UInt8)) : Prop :=
  ∀ w ∈ writes, w.2 = [] ∨ encodeFrame w.1 = .ok w.2

namespace FrameParser
variable (cfg : ParserConfig)

/-- A whole frame is published or dropped, and leaves the parser between frames. -/
theorem feed_wire (bare : cfg.withLinkStats = false) (p : FrameParser) (fresh : p.buffer = []) (payload wire : List UInt8)
    (framed : encodeFrame payload = .ok wire) : (p.feed cfg wire).1.buffer = [] ∧
      ((p.feed cfg wire).2.map Frame.payload = [payload] ∧ (p.feed cfg wire).1.stats.drops = p.stats.drops ∨
        (p.feed cfg wire).2 = [] ∧ (p.feed cfg wire).1.stats.drops = p.stats.drops + 1) := by
  obtain ⟨small,rfl⟩ := (encodeFrame_eq_ok payload wire).mp framed
  have clean := cobsEncode_clean (logicalFrame payload)
  have length := cobsEncode_length payload small
  have decoded := decodeFrame_body (cobsEncode (logicalFrame payload)) payload cfg.maxPayloadBytes cfg.withLinkStats
    small (cobsDecode_encode _)
  have nonempty : cobsEncode (logicalFrame payload) ≠ [] := by
    intro empty
    have none := cobsDecode_encode (logicalFrame payload)
    rw [empty] at none
    cases none
  have inside : p.feed cfg (cobsEncode (logicalFrame payload)) = (⟨p.stats,cobsEncode (logicalFrame payload)⟩,[]) := by
    rw [feed_short cfg p _ clean (by rw [fresh,maxWire,List.length_nil]; omega),fresh]
    rfl
  rw [feed_append,inside]
  simp only [feed,feedByte,ne_eq,not_true_eq_false,if_false,if_neg nonempty,decoded,List.nil_append,List.append_nil]
  rw [bare]
  by_cases fits : (payload.length : Int) > cfg.maxPayloadBytes
  · have refused : openBody payload cfg.maxPayloadBytes false = .error (.oversize payload.length cfg.maxPayloadBytes) := by
      simp [openBody,bind,Except.bind,throw,throwThe,MonadExceptOf.throw,fits]
    rw [refused]
    exact ⟨rfl,.inr ⟨rfl,drops_count p.stats _⟩⟩
  · have opened : openBody payload cfg.maxPayloadBytes false = .ok ⟨payload,none,none⟩ := by
      simp [openBody,bind,Except.bind,pure,Except.pure,fits]
    rw [opened]
    exact ⟨rfl,.inl ⟨rfl,rfl⟩⟩

/-- Of frames that come whole, the payloads come out in order, and each that does not is counted. -/
theorem feed_writes (bare : cfg.withLinkStats = false) (p : FrameParser) (fresh : p.buffer = [])
    (writes : List (List UInt8 × List UInt8)) (whole : AllOrNothing writes) :
    ((p.feed cfg (writes.flatMap Prod.snd)).2.map Frame.payload).Sublist (writes.map Prod.fst) ∧
      (p.feed cfg (writes.flatMap Prod.snd)).2.length + (p.feed cfg (writes.flatMap Prod.snd)).1.stats.drops =
        p.stats.drops + (writes.filter (fun w => w.2 ≠ [])).length := by
  induction writes generalizing p with
  | nil => exact ⟨List.Sublist.refl _,Nat.add_comm _ _⟩
  | cons w rest ih =>
    obtain ⟨first,others⟩ := List.forall_mem_cons.mp whole
    rw [List.flatMap_cons,List.map_cons]
    obtain empty | framed := first
    · obtain ⟨sub,counted⟩ := ih p fresh others
      rw [empty,List.nil_append]
      refine ⟨sub.trans (List.sublist_cons_self _ _),?_⟩
      rw [List.filter_cons_of_neg (by simp [empty])]
      exact counted
    · obtain ⟨emptied,either⟩ := feed_wire cfg bare p fresh w.1 w.2 framed
      obtain ⟨sub,counted⟩ := ih _ emptied others
      have some_ : w.2 ≠ [] := by
        intro none
        obtain ⟨_,shape⟩ := (encodeFrame_eq_ok _ _).mp framed
        rw [none] at shape
        exact List.append_ne_nil_of_right_ne_nil _ (List.cons_ne_nil _ _) shape.symm
      rw [feed_append,List.filter_cons_of_pos (by simp [some_]),List.length_cons,List.map_append]
      obtain ⟨published,same⟩ | ⟨silent,more⟩ := either
      · have one := congrArg List.length published
        rw [published]
        rw [List.length_map,List.length_singleton] at one
        refine ⟨sub.cons_cons _,?_⟩
        simp only [List.length_append]
        omega
      · rw [silent]
        refine ⟨sub.trans (List.sublist_cons_self _ _),?_⟩
        simp only [List.nil_append]
        omega

/-- The front of a pipe publishes the front. -/
theorem feed_prefix (p : FrameParser) (front whole : List UInt8) (cut : front <+: whole) :
    (p.feed cfg front).2 <+: (p.feed cfg whole).2 := by
  obtain ⟨rest,rfl⟩ := cut
  rw [feed_append]
  exact List.prefix_append _ _

end FrameParser

/-! ### The system -/

namespace Service
variable {H : Type}

/-- What left on the port, and what was read from it. -/
def wire (s : Service H) : List UInt8 := s.sending.writes.flatMap Prod.snd

def took (s : Service H) : List UInt8 := s.receiving.chunks.flatten

end Service

/-- A read takes what comes next on the pipe. -/
def Duty.Reads {H : Type} (took given : List UInt8) : Duty H → Prop
  | .readerRead (.bytes chunk) => (took ++ chunk) <+: given
  | _ => True

def Turn.Reads (fed wire : String → List UInt8) : Turn → Prop
  | .read name chunk _ => (fed name ++ chunk) <+: wire name
  | .turn .. => True

structure Channel (H : Type) where
  services : String → Service H
  air : Air

inductive Hop (H : Type) where
  | duty (name : String) (d : Duty H)
  | turn (t : Turn)

namespace Channel
variable {H : Type}

/-- All that a robot's port was given. -/
def given (c : Channel H) (name : String) : List UInt8 := (c.air.heard name).flatMap Prod.snd

/-- A step of a bridge or of the medium. Each end reads what the other wrote, in order;
the modem adds no statistics. -/
def links (H : Type) : Machine (Channel H) (Hop H) where
  initial := fun c => Air.turns.initial c.air ∧
    ∀ name, (Service.duties H).initial (c.services name) ∧ (c.services name).bridge.linkStats = false
  enabled := fun c hop =>
    match hop with
    | .duty name d => name ∈ c.air.medium.names ∧ (Service.duties H).enabled (c.services name) d ∧
        d.Reads (c.services name).took (c.given name)
    | .turn t => Air.turns.enabled c.air t ∧ t.Reads c.air.fed (fun name => (c.services name).wire)
  next := fun c hop =>
    match hop with
    | .duty name d => { c with services := Function.update c.services name ((c.services name).perform d) }
    | .turn t => { c with air := c.air.perform t }

/-- A port takes a frame whole or not at all. -/
def Whole (c : Channel H) : Hop H → Prop
  | .duty name (.writerWrite outcome) => ∀ payload wire, (c.services name).bridge.writer = .writing payload wire →
      (c.services name).bridge.writerBytes outcome = wire ∨ (c.services name).bridge.writerBytes outcome = []
  | .turn (.turn _ taken) => ∀ f ∈ c.air.medium.inflight, ∀ name wire, encodeFrame f.payload = .ok wire →
      VirtualLoRaMedium.written wire (taken f.seq name) = wire ∨ VirtualLoRaMedium.written wire (taken f.seq name) = []
  | _ => True

/-- Each part of the channel is in a state that it can reach by itself. -/
theorem parts_reachable (guard : Channel H → Hop H → Prop) (c : Channel H) (reached : (links H).Reaches guard c) :
    Air.turns.Reachable c.air ∧ ∀ name, (Service.duties H).Reachable (c.services name) := by
  apply reached.invariant (fun c => Air.turns.Reachable c.air ∧ ∀ name, (Service.duties H).Reachable (c.services name))
  · intro c new
    exact ⟨.start _ new.1,fun name => .start _ (new.2 name).1⟩
  · intro c hop _ parts enabled _
    obtain ⟨air,services⟩ := parts
    cases hop with
    | duty name d =>
      refine ⟨air,?_⟩
      intro other
      by_cases same : other = name
      · subst same
        simp only [links,Function.update_self]
        exact .step _ d (services other) enabled.2.1 trivial
      · simp only [links,Function.update_of_ne same]
        exact services other
    | turn t => exact ⟨.step _ t air enabled.1 trivial,services⟩

end Channel

/-! ### What a duty adds -/

namespace Service
variable {H : Type}

theorem settled_bytes (before after : LoRaBridge H) (bytes : List UInt8) :
    ∀ w ∈ before.settled after bytes, w.2 = bytes ∧ w.1 ∈ before.inHand := by
  intro w here
  unfold LoRaBridge.settled at here
  split at here
  · obtain ⟨payload,held,rfl⟩ := List.mem_map.mp here
    exact ⟨rfl,held⟩
  · cases here

theorem perform_writes (s : Service H) (d : Duty H) : ∃ more,
    (s.perform d).sending.writes = s.sending.writes ++ more ∧
      ∀ w ∈ more, w.2 = [] ∨ ∃ outcome, d = .writerWrite outcome ∧ w.2 = s.bridge.writerBytes outcome ∧
        w.1 ∈ s.bridge.inHand := by
  cases d with
  | onTx msg =>
    refine ⟨[],?_,fun w here => absurd here List.not_mem_nil⟩
    simp only [perform,LoRaBridge.noteSent,List.append_nil]
    split
    · rfl
    · split <;> rfl
  | writerLink now opens =>
    refine ⟨s.bridge.settled (s.bridge.writerLink now opens) [],rfl,?_⟩
    exact fun w here => .inl (settled_bytes s.bridge _ [] w here).1
  | writerWrite outcome =>
    refine ⟨s.bridge.settled (s.bridge.writerWrite outcome) (s.bridge.writerBytes outcome),rfl,?_⟩
    intro w here
    obtain ⟨bytes,held⟩ := settled_bytes s.bridge _ _ w here
    exact .inr ⟨outcome,rfl,bytes,held⟩
  | _ => exact ⟨[],(List.append_nil _).symm,fun w here => absurd here List.not_mem_nil⟩

theorem perform_wire (s : Service H) (d : Duty H) : s.wire <+: (s.perform d).wire := by
  obtain ⟨more,same,_⟩ := s.perform_writes d
  unfold wire
  rw [same,List.flatMap_append]
  exact List.prefix_append _ _

theorem perform_took (s : Service H) (d : Duty H) : (s.perform d).took = s.took ∨
    ∃ chunk, d = .readerRead (.bytes chunk) ∧ (s.perform d).took = s.took ++ chunk := by
  cases d with
  | readerRead outcome =>
    unfold took perform
    simp only [LoRaBridge.noteReceived,List.flatten_append]
    cases outcome with
    | failed now reason =>
      apply Or.inl
      unfold LoRaBridge.readIn
      cases s.bridge.reader <;> simp
    | bytes chunk =>
      unfold LoRaBridge.readIn
      cases s.bridge.reader with
      | reading => exact .inr ⟨chunk,rfl,by simp⟩
      | _ => exact .inl (by simp)
  | readerPut =>
    apply Or.inl
    simp only [took,perform,LoRaBridge.noteReceived]
    split <;> rfl
  | _ => exact .inl rfl

end Service

namespace LoRaBridge
variable {H : Type}

theorem perform_linkStats (b : LoRaBridge H) (d : Duty H) : (b.perform d).linkStats = b.linkStats := by
  cases d with
  | onTx msg => exact congrArg (fun v => v.1.withLinkStats) (b.onTx_inbound msg)
  | writerLoop => exact congrArg (fun v => v.1.withLinkStats) b.writerLoop_inbound
  | writerGet => exact congrArg (fun v => v.1.withLinkStats) b.writerGet_inbound
  | writerLink now opens => exact congrArg (fun v => v.1.withLinkStats) (b.writerLink_inbound now opens)
  | writerWrite outcome => exact congrArg (fun v => v.1.withLinkStats) (b.writerWrite_inbound outcome)
  | readerLoop now opens =>
    obtain same | ⟨_,link,reader,_,same⟩ := b.readerLoop_cases now opens
    · rw [perform,same]
    · rw [perform,same]
  | readerRead outcome =>
    simp only [perform,readerRead]
    split
    · split <;> rfl
    · rfl
  | readerPut =>
    simp only [perform,readerPut]
    split <;> rfl
  | publishLoop =>
    simp only [perform,publishLoop]
    split <;> rfl
  | publishGet =>
    simp only [perform,publishGet]
    split
    · split <;> rfl
    · rfl
  | publish =>
    simp only [perform,publish]
    split <;> rfl
  | shutdown =>
    simp only [perform,shutdown]
    split <;> rfl
  | closeLink => rfl

end LoRaBridge

/-! ### What a turn adds -/

namespace VirtualLoRaMedium

theorem deliverFrom_written (now : ℚ) (taken : Nat → String → Option Nat) (m : VirtualLoRaMedium)
    (flights : List Flight) : ∀ e ∈ (deliverFrom now taken m flights).2, e.flight ∈ flights ∧
      ∀ w ∈ e.writes, ∃ wire name, encodeFrame e.flight.payload = .ok wire ∧
        w.2 = written wire (taken e.flight.seq name) := by
  induction flights generalizing m with
  | nil => exact fun e here => absurd here List.not_mem_nil
  | cons flight rest ih =>
    rw [deliverFrom]
    split
    · exact fun e here => absurd here List.not_mem_nil
    · intro e here
      obtain rfl | later := List.mem_cons.mp here
      · refine ⟨List.mem_cons_self,?_⟩
        intro w member
        dsimp only at member ⊢
        unfold broadcast at member
        split at member
        · cases member
        · rename_i wire framed
          obtain ⟨name,_,rfl⟩ := List.mem_map.mp member
          exact ⟨wire,name,framed,rfl⟩
      · obtain ⟨inside,parts⟩ := ih _ e later
        exact ⟨List.mem_cons_of_mem _ inside,parts⟩

end VirtualLoRaMedium

namespace Channel
variable {H : Type}

/-- The seams of the channel, where ports take frames whole or not at all. -/
structure Joined (c : Channel H) : Prop where
  fed : ∀ name, c.air.fed name <+: (c.services name).wire
  took : ∀ name, (c.services name).took <+: c.given name
  bare : ∀ name, (c.services name).bridge.linkStats = false
  sent : ∀ name, AllOrNothing (c.services name).sending.writes
  heard : ∀ e ∈ c.air.log, ∀ w ∈ e.writes, w.2 = [] ∨ encodeFrame e.flight.payload = .ok w.2

theorem Joined.duty (c : Channel H) (joined : c.Joined) (name : String) (d : Duty H)
    (out : (c.services name).bridge.Outbound (c.services name).sending)
    (reads : d.Reads (c.services name).took (c.given name))
    (whole : c.Whole (.duty name d)) : ((links H).next c (.duty name d)).Joined := by
  have other : ∀ n, n ≠ name → Function.update c.services name ((c.services name).perform d) n = c.services n :=
    fun n differ => Function.update_of_ne differ _ _
  constructor
  · intro n
    by_cases same : n = name
    · subst same
      simp only [links,Function.update_self]
      exact (joined.fed n).trans ((c.services n).perform_wire d)
    · simp only [links,other n same]
      exact joined.fed n
  · intro n
    by_cases same : n = name
    · subst same
      simp only [links,Function.update_self]
      obtain still | ⟨chunk,rfl,more⟩ := (c.services n).perform_took d
      · rw [still]
        exact joined.took n
      · rw [more]
        exact reads
    · simp only [links,other n same]
      exact joined.took n
  · intro n
    by_cases same : n = name
    · subst same
      simp only [links,Function.update_self]
      exact ((c.services n).bridge.perform_linkStats d).trans (joined.bare n)
    · simp only [links,other n same]
      exact joined.bare n
  · intro n
    by_cases same : n = name
    · subst same
      simp only [links,Function.update_self]
      obtain ⟨more,writes,added⟩ := (c.services n).perform_writes d
      rw [writes]
      intro w here
      obtain old | new := List.mem_append.mp here
      · exact joined.sent n w old
      · obtain none | ⟨outcome,rfl,bytes,held⟩ := added w new
        · exact .inl none
        · -- The writer holds a payload with its frame, or no byte leaves.
          cases writer : (c.services n).bridge.writer with
          | writing payload wire =>
            rw [LoRaBridge.inHand,writer] at held
            obtain all | none := whole payload wire writer
            · rw [List.mem_singleton.mp held,bytes,all]
              exact .inr (out.framed payload wire writer)
            · exact .inl (bytes.trans none)
          | _ => exact .inl (by rw [bytes,LoRaBridge.writerBytes,writer])
    · simp only [links,other n same]
      exact joined.sent n
  · exact joined.heard

theorem Joined.turn (c : Channel H) (joined : c.Joined) (t : Turn)
    (reads : t.Reads c.air.fed (fun name => (c.services name).wire)) (whole : c.Whole (.turn t)) : ((links H).next c (.turn t)).Joined := by
  cases t with
  | turn now taken =>
    constructor
    · exact joined.fed
    · intro name
      apply (joined.took name).trans
      simp only [given,Air.heard,links,Air.perform,List.flatMap_append]
      exact List.prefix_append _ _
    · exact joined.bare
    · exact joined.sent
    · intro e here w member
      obtain old | new := List.mem_append.mp here
      · exact joined.heard e old w member
      · obtain ⟨flying,parts⟩ := VirtualLoRaMedium.deliverFrom_written now taken c.air.medium c.air.medium.inflight e new
        obtain ⟨wire,name,framed,bytes⟩ := parts w member
        obtain all | none := whole e.flight flying name wire framed
        · exact .inr (by rw [bytes,all]; exact framed)
        · exact .inl (bytes.trans none)
  | read name chunk stamps =>
    constructor
    · intro n
      by_cases same : n = name
      · subst same
        simp only [links,Air.perform,Function.update_self]
        exact reads
      · simp only [links,Air.perform,Function.update_of_ne same]
        exact joined.fed n
    · exact joined.took
    · exact joined.bare
    · exact joined.sent
    · exact joined.heard

theorem reaches_joined (c : Channel H) (reached : (links H).Reaches Whole c) : c.Joined := by
  apply reached.invariant Joined
  · rintro c ⟨⟨_,_,_,fed,_,log⟩,services⟩
    constructor
    · intro name
      rw [fed]
      exact List.nil_prefix
    · intro name
      obtain ⟨_,_,receiving⟩ := (services name).1
      rw [Service.took,receiving]
      exact List.nil_prefix
    · exact fun name => (services name).2
    · intro name
      obtain ⟨_,sending,_⟩ := (services name).1
      rw [sending]
      exact fun w here => absurd here List.not_mem_nil
    · rw [log]
      exact fun e here => absurd here List.not_mem_nil
  · intro c hop before joined enabled whole
    cases hop with
    | duty name d =>
      have out := Service.reachable_outbound _ ((parts_reachable Whole c before).2 name)
      exact joined.duty c name d out enabled.2.2 whole
    | turn t => exact joined.turn c t enabled.2 whole

/-- What a robot was told to send in one band. -/
def asked (c : Channel H) (name : String) (index : Nat) : List (List UInt8) :=
  ((c.services name).sending.offered.filter (fun msg => band msg = index)).map LoRaFrame.data

/-- The air as all hear it: each frame with its robot. -/
def airOf (c : Channel H) (name : String) : List (List UInt8) :=
  (c.air.aired.filter (fun f => f.sender = name)).map Flight.payload

def airWithout (c : Channel H) (name : String) : List (List UInt8) :=
  (c.air.aired.filter (fun f => f.sender ≠ name)).map Flight.payload

def published (c : Channel H) (name : String) : List (List UInt8) :=
  (c.services name).receiving.published.map Frame.payload

theorem given_writes (c : Channel H) (joined : c.Joined) (name : String) :
    c.given name = ((c.air.heard name).map (fun h => (h.1.payload,h.2))).flatMap Prod.snd ∧
      AllOrNothing ((c.air.heard name).map (fun h => (h.1.payload,h.2))) := by
  constructor
  · rw [given,List.flatMap_map]
  · intro w here
    obtain ⟨h,member,rfl⟩ := List.mem_map.mp here
    obtain ⟨e,logged,inside⟩ := List.mem_flatMap.mp member
    obtain ⟨v,written,rfl⟩ := List.mem_map.mp inside
    exact joined.heard e logged v (List.mem_filter.mp written).1

/-- A robot publishes what its port was given, in order. -/
theorem published_air (c : Channel H) (joined : c.Joined) (parts : Air.turns.Reachable c.air)
    (service : ∀ name, (Service.duties H).Reachable (c.services name)) (name : String)
    (inside : name ∈ c.air.medium.names) : (c.published name).Sublist (c.airWithout name) := by
  obtain ⟨same,whole⟩ := c.given_writes joined name
  have inn := Service.reachable_inbound _ (service name)
  have aloft := (Air.reachable_aloft c.air parts).heard c.air name inside
  have bare : (c.services name).bridge.config.withLinkStats = false := joined.bare name
  obtain ⟨sub,_⟩ := FrameParser.feed_writes _ bare {} rfl _ whole
  have front := FrameParser.feed_prefix (c.services name).bridge.config {} _ _ (joined.took name)
  rw [← same] at sub
  have payloads : ((c.air.heard name).map (fun h => (h.1.payload,h.2))).map Prod.fst = c.airWithout name := by
    rw [airWithout,← aloft.1,List.map_map,List.map_map]
    rfl
  rw [payloads] at sub
  exact ((inn.published.trans front.sublist).map Frame.payload).trans sub

/-- What of a robot is on the air, its writer wrote, in that order. -/
theorem offered_writes (c : Channel H) (joined : c.Joined) (name : String) :
    (c.air.offered name).Sublist ((c.services name).sending.writes.map Prod.fst) := by
  obtain ⟨sub,_⟩ := FrameParser.feed_writes c.air.medium.config rfl {} rfl _ (joined.sent name)
  have front := FrameParser.feed_prefix c.air.medium.config {} _ _ (joined.fed name)
  exact (front.sublist.map Frame.payload).trans sub

theorem airOf_offered (c : Channel H) (parts : Air.turns.Reachable c.air) (name : String) :
    (c.airOf name).Sublist (c.air.offered name) := by
  rw [← (Air.reachable_aloft c.air parts).offered,airOf]
  exact ((List.sublist_append_left _ _).filter _).map _

theorem airOf_asked (c : Channel H) (joined : c.Joined) (parts : Air.turns.Reachable c.air)
    (service : ∀ name, (Service.duties H).Reachable (c.services name)) (name : String) :
    ∃ banded : List (Nat × List UInt8), banded.map Prod.snd = c.airOf name ∧
      ∀ index, (BoundedPriorityRingQueue.inBand index banded).Sublist (c.asked name index) := by
  have out := Service.reachable_outbound _ (service name)
  have written : (c.airOf name).Sublist ((c.services name).sending.returned.map Prod.snd) := by
    rw [out.taken]
    exact ((c.airOf_offered parts name).trans (c.offered_writes joined name)).trans (List.sublist_append_left _ _)
  obtain ⟨banded,sub,same⟩ := List.sublist_map_iff.mp written
  refine ⟨banded,same.symm,?_⟩
  intro index
  exact ((sub.filter _).map Prod.snd).trans (out.ordered _ _ index)

/-- One air for all robots. Where ports take frames whole or not at all, what a robot publishes
is in the order of the air and none of its own; and what of a robot is on the air it was
told to send, each message once at most and in each band in the order it was told. -/
theorem channel_ordered (c : Channel H) (reached : (links H).Reaches Whole c) :
    (∀ name ∈ c.air.medium.names, (c.published name).Sublist (c.airWithout name)) ∧
      ∀ name, ∃ banded : List (Nat × List UInt8), banded.map Prod.snd = c.airOf name ∧
        ∀ index, (BoundedPriorityRingQueue.inBand index banded).Sublist (c.asked name index) := by
  have joined := reaches_joined c reached
  obtain ⟨parts,service⟩ := parts_reachable Whole c reached
  exact ⟨fun name inside => c.published_air joined parts service name inside,
    fun name => c.airOf_asked joined parts service name⟩

/-! ### Nothing is lost without a counter -/

/-- A robot with nothing on the way and nothing counted: every message went out and was read,
every frame it was given was read, parsed and published. -/
structure Settled (c : Channel H) (name : String) : Prop where
  sent : (c.services name).bridge.txFrames = (c.services name).sending.offered.length
  drained : c.air.fed name = (c.services name).wire
  clear : (c.air.medium.radios name).parser.stats.drops = 0
  whole : ∀ h ∈ c.air.heard name, h.2 ≠ []
  read : (c.services name).took = c.given name
  clean : (c.services name).bridge.parser.stats.drops = 0
  published : (c.services name).bridge.parser.stats.frames = (c.services name).bridge.rxPublished

theorem filter_all {α : Type} (p : α → Bool) (l : List α) (all : (l.filter p).length = l.length) : ∀ x ∈ l, p x = true :=
  List.length_filter_eq_length_iff.mp all

/-- A pipe of whole frames of which none is dropped publishes them all. -/
theorem feed_all (cfg : ParserConfig) (bare : cfg.withLinkStats = false) (writes : List (List UInt8 × List UInt8))
    (whole : AllOrNothing writes) (some_ : ∀ w ∈ writes, w.2 ≠ [])
    (clean : (FrameParser.feed cfg {} (writes.flatMap Prod.snd)).1.stats.drops = 0) :
    (FrameParser.feed cfg {} (writes.flatMap Prod.snd)).2.map Frame.payload = writes.map Prod.fst := by
  obtain ⟨sub,counted⟩ := FrameParser.feed_writes cfg bare {} rfl writes whole
  have all : writes.filter (fun w => w.2 ≠ []) = writes :=
    List.filter_eq_self.mpr (fun w here => decide_eq_true (some_ w here))
  have start : ({} : FrameParser).stats.drops = 0 := rfl
  apply sub.eq_of_length
  rw [List.length_map,List.length_map]
  rw [all,clean,start] at counted
  omega

theorem Settled.publishes (c : Channel H) (joined : c.Joined) (parts : Air.turns.Reachable c.air)
    (service : ∀ name, (Service.duties H).Reachable (c.services name)) (name : String)
    (inside : name ∈ c.air.medium.names) (settled : c.Settled name) : c.published name = c.airWithout name := by
  obtain ⟨same,whole⟩ := c.given_writes joined name
  have inn := Service.reachable_inbound _ (service name)
  have bare : (c.services name).bridge.config.withLinkStats = false := joined.bare name
  have stream : (c.services name).receiving.chunks.flatten = c.given name := settled.read
  have clean := settled.clean
  have all := inn.whole _ _ settled.published
  rw [← inn.parser,stream,same] at clean
  rw [stream,same] at all
  have some_ : ∀ w ∈ (c.air.heard name).map (fun h => (h.1.payload,h.2)), w.2 ≠ [] := by
    intro w here
    obtain ⟨h,member,rfl⟩ := List.mem_map.mp here
    exact settled.whole h member
  have fed := feed_all _ bare _ whole some_ clean
  rw [Channel.published,all,fed,airWithout,← ((Air.reachable_aloft c.air parts).heard c.air name inside).1,List.map_map,List.map_map]
  rfl

theorem Settled.writes (c : Channel H) (service : ∀ name, (Service.duties H).Reachable (c.services name)) (name : String)
    (settled : c.Settled name) :
    (∀ w ∈ (c.services name).sending.writes, w.2 ≠ []) ∧
      ((c.services name).sending.writes.map Prod.fst).Perm ((c.services name).sending.offered.map LoRaFrame.data) := by
  have out := Service.reachable_outbound _ (service name)
  have sums := out.sums
  have taken := congrArg List.length out.taken
  have offered := out.offered
  have counted := out.counted
  have flushed := out.flushed
  have sent := settled.sent
  have fewer := List.length_filter_le (fun w => decide (encodeFrame w.1 = .ok w.2)) (c.services name).sending.writes
  simp only [List.length_map,List.length_append] at taken
  constructor
  · intro w here empty
    have framed := of_decide_eq_true (filter_all (fun w => decide (encodeFrame w.1 = .ok w.2)) _ (by omega) w here)
    obtain ⟨_,shape⟩ := (encodeFrame_eq_ok _ _).mp framed
    rw [empty] at shape
    exact List.append_ne_nil_of_right_ne_nil _ (List.cons_ne_nil _ _) shape.symm
  · -- What left the queue is, band by band, all that was put in it, and that is all that was offered.
    have hand : (c.services name).bridge.inHand = [] := List.length_eq_zero_iff.mp (by omega)
    have puts := out.asked.eq_of_length (by rw [List.length_map]; omega)
    have same := out.taken
    rw [hand,List.append_nil] at same
    rw [← same]
    have data : (c.services name).sending.offered.map LoRaFrame.data = (c.services name).sending.puts.map Prod.snd := by
      rw [puts,List.map_map]
      rfl
    rw [data]
    have perm := BoundedPriorityRingQueue.Usage.Accounted.emptied _ out.queue out.bands out.within
      (by change (c.services name).sending.puts.length = (c.services name).sending.returned.length; omega)
    exact perm

/-- Each of them went out: where every robot is settled and nothing is in the air, every robot
has published, in one order, all that the others were told to send, each once. -/
theorem channel_complete (c : Channel H) (reached : (links H).Reaches Whole c) (landed : c.air.medium.inflight = [])
    (settled : ∀ name ∈ c.air.medium.names, c.Settled name) :
    (∀ name ∈ c.air.medium.names, c.published name = c.airWithout name) ∧
      ∀ name ∈ c.air.medium.names, (c.airOf name).Perm ((c.services name).sending.offered.map LoRaFrame.data) := by
  have joined := reaches_joined c reached
  obtain ⟨parts,service⟩ := parts_reachable Whole c reached
  have aloft := Air.reachable_aloft c.air parts
  refine ⟨fun name inside => (settled name inside).publishes c joined parts service name inside,?_⟩
  intro name inside
  obtain ⟨some_,perm⟩ := (settled name inside).writes c service name
  have offered := aloft.offered c.air name
  have clear := (settled name inside).clear
  rw [landed,List.append_nil] at offered
  rw [← (aloft.parsed name).1,(settled name inside).drained] at clear
  have all := feed_all c.air.medium.config rfl _ (joined.sent name) some_ clear
  have written : c.airOf name = (c.services name).sending.writes.map Prod.fst := by
    rw [airOf,offered,Air.offered,(settled name inside).drained]
    exact all
  rw [written]
  exact perm

/-! ### Two robots hear the third -/

theorem whole_flushed (name : String) (c : Channel H) : c.Whole (.duty name (.writerWrite .flushed)) := by
  intro payload wire writer
  exact .inl (by rw [LoRaBridge.writerBytes,writer])

/-- A port with room for any frame. -/
theorem whole_roomy (now : ℚ) (room : Nat) (enough : maxWireFrameBytes maxBodyBytes ≤ room) (c : Channel H) :
    c.Whole (.turn (.turn now (fun _ _ => some room))) := by
  intro f _ name wire framed
  obtain ⟨small,rfl⟩ := (encodeFrame_eq_ok _ wire).mp framed
  have length := cobsEncode_length f.payload small
  apply Or.inl
  apply List.take_of_length_le
  rw [List.length_append,List.length_singleton]
  omega

instance (took given : List UInt8) (d : Duty H) : Decidable (d.Reads took given) := by
  unfold Duty.Reads
  split
  · infer_instance
  · infer_instance

instance (fed wire : String → List UInt8) (t : Turn) : Decidable (t.Reads fed wire) := by
  unfold Turn.Reads
  split
  · infer_instance
  · infer_instance

instance (s : Service H) (d : Duty H) : Decidable ((Service.duties H).enabled s d) := by
  simp only [Service.duties]
  split
  · infer_instance
  · infer_instance

instance (c : Channel H) (hop : Hop H) : Decidable ((links H).enabled c hop) :=
  match hop with
  | .duty name d => inferInstanceAs (Decidable (name ∈ c.air.medium.names ∧ (Service.duties H).enabled (c.services name) d ∧
      d.Reads (c.services name).took (c.given name)))
  | .turn t => inferInstanceAs (Decidable (Air.turns.enabled c.air t ∧
      t.Reads c.air.fed (fun name => (c.services name).wire)))

def silent : Channel Nat := ⟨fun _ => ⟨Service.fresh,{},{}⟩,⟨Air.trio,0,[],fun _ => [],[],[]⟩⟩

/-- What a robot does to publish one frame that its port was given. -/
def receives (name : String) (frame : List UInt8) : List (Hop Nat) :=
  [.readerLoop 1 (.ok 8),.readerRead (.bytes frame),.readerPut,.publishLoop,.publishGet,.publish].map (.duty name)

def conversation : List (Hop Nat) :=
  [.onTx ⟨[0x61,0x62],0⟩,.writerLoop,.writerGet,.writerLink 0 (.ok 7),.writerWrite .flushed].map (.duty "robot1") ++
    [.turn (.turn 0 (fun _ _ => some 300)),.turn (.read "robot1" [5,2,97,98,201,0] [0]),
      .turn (.turn 1 (fun _ _ => some 300))] ++
    receives "robot2" [5,2,97,98,201,0] ++ receives "robot3" [5,2,97,98,201,0]

def spoken : Channel Nat := (links Nat).runs silent conversation

theorem conversation_whole : ∀ hop ∈ conversation, ∀ c : Channel Nat, c.Whole hop := by
  simp only [conversation,receives,List.map_cons,List.map_nil,List.cons_append,List.nil_append,List.forall_mem_cons]
  refine ⟨?_,?_,?_,?_,whole_flushed "robot1",whole_roomy 0 300 ?_,?_,whole_roomy 1 300 ?_,?_⟩
  · exact fun _ => trivial
  · exact fun _ => trivial
  · exact fun _ => trivial
  · exact fun _ => trivial
  · decide
  · exact fun _ => trivial
  · decide
  · simp [Whole]

theorem spoken_reached : (links Nat).Reaches Whole spoken := by
  apply (links Nat).reaches_runs Whole silent conversation
  · apply Machine.Reaches.start
    refine ⟨⟨⟨_,_,_,_,Air.trio_built⟩,rfl,rfl,rfl,rfl,rfl⟩,?_⟩
    exact fun name => ⟨⟨⟨{},Service.fresh_built⟩,rfl,rfl⟩,rfl⟩
  · apply Machine.Follows.guarded silent conversation _ conversation_whole
    decide +kernel

instance (c : Channel H) (name : String) : Decidable (c.Settled name) :=
  decidable_of_iff
    ((c.services name).bridge.txFrames = (c.services name).sending.offered.length ∧
      c.air.fed name = (c.services name).wire ∧ (c.air.medium.radios name).parser.stats.drops = 0 ∧
      (∀ h ∈ c.air.heard name, h.2 ≠ []) ∧ (c.services name).took = c.given name ∧
      (c.services name).bridge.parser.stats.drops = 0 ∧
      (c.services name).bridge.parser.stats.frames = (c.services name).bridge.rxPublished)
    ⟨fun ⟨a,b,c,d,e,f,g⟩ => ⟨a,b,c,d,e,f,g⟩,fun ⟨a,b,c,d,e,f,g⟩ => ⟨a,b,c,d,e,f,g⟩⟩

theorem channel_ordered_spoken : spoken.published "robot2" = [[0x61,0x62]] ∧
    (spoken.published "robot2").Sublist (spoken.airWithout "robot2") ∧ spoken.airOf "robot1" = [[0x61,0x62]] := by
  have kept := channel_ordered spoken spoken_reached
  exact ⟨by decide +kernel,kept.1 "robot2" (by decide +kernel),by decide +kernel⟩

theorem channel_complete_spoken : spoken.published "robot3" = spoken.airWithout "robot3" ∧
    (spoken.airOf "robot1").Perm [[0x61,0x62]] := by
  have complete := channel_complete spoken spoken_reached (by decide +kernel) (by decide +kernel)
  exact ⟨complete.1 "robot3" (by decide +kernel),complete.2 "robot1" (by decide +kernel)⟩

end Channel
end AmigaFleet.Lora
