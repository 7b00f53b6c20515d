import AmigaFleet.Codec.Canonical
import AmigaFleet.Reliability.Books

/-! What becomes of the frames a session hears. Every frame is counted in one
class, or is a fragment seen for the first time, unless the session owes an
ACK that its own packet budget has no room for. -/
namespace AmigaFleet.Reliability
open Lib AmigaFleet.Codec

def Counters.classified (c : Counters) : Nat :=
  c.rxUnknownType + c.rxReservedType + c.rxMalformed + c.rxAcks + c.rxSelf + c.rxDuplicates + c.rxDelivered

/-- The step hears nothing. -/
structure Unheard (s after : Session) : Prop where
  frames : after.counters.rxFrames = s.counters.rxFrames
  classified : after.counters.classified = s.counters.classified

theorem Unheard.refl (s : Session) : Unheard s s := ⟨rfl,rfl⟩

theorem Unheard.trans (s mid after : Session) (first : Unheard s mid) (second : Unheard mid after) : Unheard s after :=
  ⟨second.frames.trans first.frames,second.classified.trans first.classified⟩

namespace Session

theorem transmit_unheard (env : Env) (payload : Packet) (priority : Int) (s : Session) (ack : Bool) :
    Unheard s (s.transmit env payload priority ack).2 := by
  cases ack <;> simp only [transmit,sendFrame,Bool.false_eq_true,if_true,if_false] <;> split <;> exact ⟨rfl,rfl⟩

theorem sendReliable_unheard (node : Node) (env : Env) (dst : Int) (message : Message) (s : Session) :
    Unheard s (s.sendReliable node env dst message).2 := by
  unfold sendReliable
  split
  · exact .refl s
  split
  · exact .refl s
  split
  · exact .refl s
  split
  · exact .refl s
  simp only
  split
  · exact ⟨rfl,rfl⟩
  split
  · exact ⟨rfl,rfl⟩
  · apply Unheard.trans _ _ _ _ (transmit_unheard ..)
    exact ⟨rfl,rfl⟩

theorem sendBroadcast_unheard (node : Node) (env : Env) (message : Message) (s : Session) :
    Unheard s (s.sendBroadcast node env message).2 := by
  unfold sendBroadcast
  split
  · exact .refl s
  split
  · exact .refl s
  simp only
  split
  · exact ⟨rfl,rfl⟩
  · apply Unheard.trans _ _ _ _ (transmit_unheard ..)
    exact ⟨rfl,rfl⟩

theorem sendFragments_unheard (node : Node) (env : Env) (fragments : List Freeform) (s : Session) :
    Unheard s (s.sendFragments node env fragments).2 := by
  induction fragments generalizing s with
  | nil => exact .refl s
  | cons fragment rest ih =>
    have first := sendBroadcast_unheard node env (.freeform fragment) s
    unfold sendFragments
    split
    · rename_i sent
      rw [sent] at first
      exact first.trans _ _ _ (ih _)
    · rename_i sent
      rw [sent] at first
      exact first

theorem sendNote_unheard (node : Node) (env : Env) (taskId : Int) (text : String) (noteId : Option Int) (s : Session) :
    Unheard s (s.sendNote node env taskId text noteId).2 := by
  unfold sendNote
  split
  · exact .refl s
  · rename_i fragments _
    have sent := sendFragments_unheard node env fragments s
    split
    · rename_i ran
      rw [ran] at sent
      exact sent
    · rename_i ran
      rw [ran] at sent
      exact sent

theorem sweepOne_unheard (node : Node) (now : ℚ) (sweep : Sweep) (seq : Int) :
    Unheard sweep.session (sweepOne node now sweep seq).session := by
  unfold sweepOne
  split
  · exact .refl _
  split
  · exact .refl _
  split <;> exact ⟨rfl,rfl⟩

theorem sweep_unheard (node : Node) (now : ℚ) (seqs : List Int) (sweep : Sweep) :
    Unheard sweep.session (seqs.foldl (sweepOne node now) sweep).session := by
  induction seqs generalizing sweep with
  | nil => exact .refl _
  | cons seq seqs ih => exact (sweepOne_unheard node now sweep seq).trans _ _ _ (ih _)

theorem resend_unheard (env : Env) (packets : List (Packet × Int)) (s : Session) :
    Unheard s (packets.foldl (fun s packet => (s.transmit env packet.1 packet.2).2) s) := by
  induction packets generalizing s with
  | nil => exact .refl s
  | cons packet packets ih => exact (transmit_unheard env packet.1 packet.2 s false).trans _ _ _ (ih _)

theorem finish_unheard (expired : List Pending) (s : Session) :
    Unheard s (expired.foldl (fun s entry => s.finish entry .failed) s) := by
  induction expired generalizing s with
  | nil => exact .refl s
  | cons entry expired ih => exact Unheard.trans _ (s.finish entry .failed) _ ⟨rfl,rfl⟩ (ih _)

theorem tick_unheard (node : Node) (env : Env) (s : Session) : Unheard s (s.tick node env) := by
  have swept := sweep_unheard node env.clock s.pending.keys { session := s }
  unfold tick
  generalize s.pending.keys.foldl (sweepOne node env.clock) { session := s } = sweep at swept ⊢
  apply Unheard.trans _ _ _ _ (finish_unheard sweep.expired _)
  apply Unheard.trans _ _ _ _ (resend_unheard env sweep.retransmit _)
  exact swept.trans _ sweep.session _ ⟨rfl,rfl⟩

end Session

/-- The budget has room for the ACK, where one is owed. -/
def Answerable (node : Node) (payload : Packet) : Prop :=
  ∀ message, decode payload = .ok message → message.src ≠ node.id → Session.owesAck node message = true →
    7 ≤ node.params.maxPayloadBytes

theorem decode_range (data : List UInt8) (message : Message) (ok : decode data = .ok message) :
    (0 ≤ message.src ∧ message.src ≤ srcMax) ∧ 0 ≤ message.seq ∧ message.seq ≤ seqMax := by
  obtain ⟨source,number,raws,first,second,_⟩ :=
    encode_packet message data.length data (encode_decode data message ok data.length (le_refl _))
  obtain ⟨_,same,low,high,-⟩ := toRaw_number _ _ _ _ rfl first
  cases same
  obtain ⟨_,same,least,most,-⟩ := toRaw_number _ _ _ _ rfl second
  cases same
  exact ⟨⟨low,high⟩,least,most⟩

theorem ack_length (ack : Ack) (maxPayloadBytes : Int) (packet : Packet)
    (ok : encode (.ack ack) maxPayloadBytes = .ok packet) : 7 ≤ maxPayloadBytes := by
  obtain ⟨source,number,raws,first,second,third,shape,small⟩ := encode_packet _ _ _ ok
  have body : (Struct.packAll (slots .ack) raws).length = Struct.size (slots .ack) :=
    Struct.packAll_length _ _ (toRaws_fits _ _ _ _ (layout_length (.ack ack)) third).length_eq
  have length : packet.length = headerBytes + Struct.size (slots .ack) := by
    rw [shape,List.length_append,List.length_append,Struct.packAll_length _ _ rfl]
    exact congrArg (fun n => headerBytes + n) body
  have seven : headerBytes + Struct.size (slots .ack) = 7 := rfl
  omega

theorem ack_encodes (ack : Ack) (maxPayloadBytes : Int) (src : 0 ≤ ack.src ∧ ack.src ≤ srcMax)
    (seq : 0 ≤ ack.seq ∧ ack.seq ≤ seqMax) (ackSrc : 0 ≤ ack.ackSrc ∧ ack.ackSrc ≤ srcMax)
    (ackSeq : 0 ≤ ack.ackSeq ∧ ack.ackSeq ≤ seqMax) (room : 7 ≤ maxPayloadBytes) :
    ∃ packet, encode (.ack ack) maxPayloadBytes = .ok packet := by
  have values : toRaws (className .ack) (layout .ack) (Message.ack ack).values = .ok [ack.ackSrc,ack.ackSeq] :=
    toRaws_of_range _ _ _ _ _ _ rfl rfl ackSrc (toRaws_of_range _ _ _ _ _ _ rfl rfl ackSeq rfl)
  exact encode_of_parts (.ack ack) maxPayloadBytes _ _ _ (toRaw_of_range _ srcField _ rfl rfl src)
    (toRaw_of_range _ seqField _ rfl rfl seq) values room

/-- One if the frame is a fragment seen for the first time. -/
def fragment (node : Node) (env : Env) (payload : Packet) (s : Session) : Nat :=
  match decode payload with
  | .ok (.freeform m) =>
    if m.src ≠ node.id ∧ (s.dedup.firstSight (m.src,m.seq) env.clock).1 = true then 1 else 0
  | _ => 0

/-- One more frame, one more in a class. -/
structure Counted (s after : Session) (fragments : Nat) : Prop where
  frames : after.counters.rxFrames = s.counters.rxFrames + 1
  classified : after.counters.classified + fragments = s.counters.classified + 1

namespace Session

theorem onAck_counted (node : Node) (ack : Ack) (s : Session) :
    (s.onAck node ack).counters.rxFrames = s.counters.rxFrames ∧
      (s.onAck node ack).counters.classified = s.counters.classified + 1 := by
  have counted : ∀ after : Session, after.counters.rxFrames = s.counters.rxFrames →
      after.counters.classified = (s.count (fun c => { c with rxAcks := c.rxAcks + 1 })).counters.classified →
      after.counters.rxFrames = s.counters.rxFrames ∧ after.counters.classified = s.counters.classified + 1 := by
    intro after frames classified
    apply And.intro frames
    rw [classified]
    simp only [count,Counters.classified]
    omega
  unfold onAck matchAck
  apply counted
  · by_cases ours : ack.ackSrc = node.id
    · simp only [count,ours,ne_eq,not_true_eq_false,if_false]
      cases s.pending.get? ack.ackSeq with
      | none => rfl
      | some entry =>
        by_cases addressee : ack.src = entry.dst <;> simp [addressee,finish]
    · simp only [count,ours,ne_eq,not_false_eq_true,if_true]
  · by_cases ours : ack.ackSrc = node.id
    · simp only [count,ours,ne_eq,not_true_eq_false,if_false]
      cases s.pending.get? ack.ackSeq with
      | none => rfl
      | some entry =>
        by_cases addressee : ack.src = entry.dst <;> simp [addressee,finish,Counters.classified]
    · simp only [count,ours,ne_eq,not_false_eq_true,if_true]

theorem accept_counted (env : Env) (message : Message) (s : Session) :
    (s.accept env message).counters.rxFrames = s.counters.rxFrames ∧
      (s.accept env message).counters.classified +
          (if message.type = .freeform ∧ (s.dedup.firstSight (message.src,message.seq) env.clock).1 = true then 1 else 0) =
        s.counters.classified + 1 := by
  unfold accept
  simp only
  by_cases first : (s.dedup.firstSight (message.src,message.seq) env.clock).1 = true
  · rw [if_pos first]
    cases message with
    | freeform m =>
      simp only [Message.type,first,and_self,if_true]
    | _ =>
      simp only [count,Counters.classified,Message.type,reduceCtorEq,false_and,if_false,true_and]
      omega
  · rw [if_neg first]
    simp only [first,Bool.false_eq_true,and_false,if_false,count,Counters.classified,true_and]
    omega

/-- A message that is answered, or needs no answer, is accepted. -/
theorem onData_counted (node : Node) (env : Env) (message : Message) (s : Session) (src : 0 ≤ message.src ∧ message.src ≤ srcMax)
    (seq : 0 ≤ message.seq ∧ message.seq ≤ seqMax) (next : 0 ≤ s.nextSeq ∧ s.nextSeq ≤ seqMax)
    (room : owesAck node message = true → 7 ≤ node.params.maxPayloadBytes) :
    ∃ after, s.onData node env message = .returned after ∧ after.counters.rxFrames = s.counters.rxFrames ∧
      after.counters.classified +
          (if message.type = .freeform ∧ (s.dedup.firstSight (message.src,message.seq) env.clock).1 = true then 1 else 0) =
        s.counters.classified + 1 := by
  unfold onData
  by_cases owed : owesAck node message = true
  · rw [if_pos owed]
    obtain ⟨packet,ok⟩ := ack_encodes ⟨node.id,s.nextSeq,message.src,message.seq⟩ node.params.maxPayloadBytes
      ⟨le_of_lt node.valid.1,node.valid.2⟩ next src seq (room owed)
    have stamped : (s.stamp node (.ack ⟨0,0,message.src,message.seq⟩)).1 =
      .ack ⟨node.id,s.nextSeq,message.src,message.seq⟩ := rfl
    simp only [stamped,ok]
    obtain ⟨frames,classified⟩ := accept_counted env message (s.stamp node (.ack ⟨0,0,message.src,message.seq⟩)).2
    have unheard := transmit_unheard env packet urgent
      ((s.stamp node (.ack ⟨0,0,message.src,message.seq⟩)).2.accept env message) true
    refine ⟨_,rfl,unheard.frames.trans frames,?_⟩
    rw [unheard.classified]
    exact classified
  · rw [if_neg owed]
    exact ⟨_,rfl,accept_counted env message s⟩

/-- A message that cannot be answered raises, before it is in any class. -/
theorem onData_raised (node : Node) (env : Env) (message : Message) (s : Session)
    (owed : owesAck node message = true) (small : ¬7 ≤ node.params.maxPayloadBytes) :
    ∃ after, s.onData node env message = .raised after ∧ Unheard s after := by
  unfold onData
  rw [if_pos owed]
  simp only
  split
  · exact ⟨_,rfl,rfl,rfl⟩
  · rename_i packet ok
    exact absurd (ack_length _ _ _ ok) small

theorem onFrame_data (node : Node) (env : Env) (payload : Packet) (message : Message) (s : Session)
    (read : decode payload = .ok message) (data : message.type ≠ .ack) :
    s.onFrame node env payload =
      if message.src = node.id then .returned ((s.count (fun c => { c with rxFrames := c.rxFrames + 1 })).count
        (fun c => { c with rxSelf := c.rxSelf + 1 }))
      else (s.count (fun c => { c with rxFrames := c.rxFrames + 1 })).onData node env message := by
  cases message <;> simp_all [onFrame,Message.type]

theorem owesAck_data (node : Node) (message : Message) (owed : owesAck node message = true) : message.type ≠ .ack := by
  cases message <;> simp_all [owesAck,isReliable,isAck,isUnicast,Message.type]

theorem onFrame_counted (node : Node) (env : Env) (payload : Packet) (s : Session)
    (next : 0 ≤ s.nextSeq ∧ s.nextSeq ≤ seqMax) (room : Answerable node payload) :
    ∃ after, s.onFrame node env payload = .returned after ∧ Counted s after (fragment node env payload s) := by
  cases read : decode payload with
  | error error =>
    have none : fragment node env payload s = 0 := by simp [fragment,read]
    rw [none]
    cases error <;>
      · simp only [onFrame,read]
        refine ⟨_,rfl,rfl,?_⟩
        simp only [count,Counters.classified]
        omega
  | ok message =>
    by_cases kind : message.type = .ack
    · obtain ⟨ack,rfl⟩ : ∃ ack, message = .ack ack := by
        cases message <;> simp_all [Message.type]
      have none : fragment node env payload s = 0 := by simp [fragment,read]
      rw [none]
      simp only [onFrame,read]
      obtain ⟨frames,classified⟩ := onAck_counted node ack (s.count (fun c => { c with rxFrames := c.rxFrames + 1 }))
      exact ⟨_,rfl,frames,classified⟩
    · rw [onFrame_data node env payload message s read kind]
      by_cases own : message.src = node.id
      · have none : fragment node env payload s = 0 := by
          cases message <;> simp_all [fragment,Message.src]
        rw [none,if_pos own]
        refine ⟨_,rfl,rfl,?_⟩
        simp only [count,Counters.classified]
        omega
      · rw [if_neg own]
        obtain ⟨src,seq⟩ := decode_range payload message read
        obtain ⟨after,returned,frames,classified⟩ := onData_counted node env message
          (s.count (fun c => { c with rxFrames := c.rxFrames + 1 })) src seq next (room message read own)
        refine ⟨after,returned,frames,?_⟩
        have same : fragment node env payload s = if message.type = .freeform ∧
            (s.dedup.firstSight (message.src,message.seq) env.clock).1 = true then 1 else 0 := by
          cases message <;> simp_all [fragment,Message.type,Message.src,Message.seq]
        rw [same]
        exact classified

theorem onFrame_raised (node : Node) (env : Env) (payload : Packet) (s : Session) (silent : ¬Answerable node payload) :
    ∃ after, s.onFrame node env payload = .raised after ∧ after.counters.rxFrames = s.counters.rxFrames + 1 ∧
      after.counters.classified = s.counters.classified ∧ fragment node env payload s = 0 := by
  simp only [Answerable,not_forall] at silent
  obtain ⟨message,read,foreign,owed,small⟩ := silent
  have none : fragment node env payload s = 0 := by
    cases message <;> simp_all [fragment,owesAck,isReliable,isUnicast,isAck,Message.type]
  rw [onFrame_data node env payload message s read (owesAck_data node message owed),if_neg foreign]
  obtain ⟨after,raised,unheard⟩ := onData_raised node env message
    (s.count (fun c => { c with rxFrames := c.rxFrames + 1 })) owed small
  exact ⟨after,raised,unheard.frames,unheard.classified,none⟩

end Session

/-- The calls of a session, and the number of fragments seen for the first time. -/
def hearing (node : Node) : Machine (Ledger × Nat) LedgerLabel :=
  (Ledger.machine node).withHistory 0 (fun l seen label =>
    match label.request with
    | .call (.onFrame payload) => seen + fragment node label.env payload l.session
    | _ => seen)

def Answered (node : Node) (_ : Ledger × Nat) (label : LedgerLabel) : Prop :=
  match label.request with
  | .call (.onFrame payload) => Answerable node payload
  | _ => True

/-- Every frame is in exactly one class, or was a fragment seen for the first time. -/
def Balanced (c : Ledger × Nat) : Prop := c.1.session.counters.rxFrames = c.1.session.counters.classified + c.2

instance (c : Ledger × Nat) : Decidable (Balanced c) := inferInstanceAs (Decidable (_ = _))

theorem Balanced.unheard (l after : Ledger) (seen : Nat) (balanced : Balanced (l,seen))
    (unheard : Unheard l.session after.session) : Balanced (after,seen) := by
  rw [Balanced,unheard.frames,unheard.classified]
  exact balanced

theorem balanced_next (node : Node) (c : Ledger × Nat) (env : Env) (payload : Packet) (sound : Sound node c.1.session)
    (balanced : Balanced c) :
    ((c.1.session.onFrame node env payload).finished = true ↔ Answerable node payload) ∧
      (Balanced ((hearing node).next c ⟨env,.call (.onFrame payload)⟩) ↔ Answerable node payload) := by
  have range : 0 ≤ c.1.session.nextSeq ∧ c.1.session.nextSeq ≤ seqMax := by
    have next := sound.next
    simp only [seqMax] at next ⊢
    omega
  have moved : Balanced ((hearing node).next c ⟨env,.call (.onFrame payload)⟩) ↔
    (c.1.session.onFrame node env payload).state.counters.rxFrames =
      (c.1.session.onFrame node env payload).state.counters.classified +
        (c.2 + fragment node env payload c.1.session) := Iff.rfl
  rw [Balanced] at balanced
  by_cases room : Answerable node payload
  · obtain ⟨after,returned,frames,classified⟩ := Session.onFrame_counted node env payload c.1.session range room
    rw [moved,returned]
    refine ⟨⟨fun _ => room,fun _ => rfl⟩,⟨fun _ => room,fun _ => ?_⟩⟩
    simp only [Flow.state_returned]
    omega
  · obtain ⟨after,raised,frames,classified,none⟩ := Session.onFrame_raised node env payload c.1.session room
    rw [moved,raised]
    constructor
    · constructor
      · intro finished
        cases finished
      · exact fun able => absurd able room
    · constructor
      · intro even
        simp only [Flow.state] at even
        omega
      · exact fun able => absurd able room

theorem hearing_balanced (node : Node) (c : Ledger × Nat) (reached : (hearing node).Reaches (Answered node) c) :
    Sound node c.1.session ∧ Balanced c := by
  apply reached.invariant (fun c => Sound node c.1.session ∧ Balanced c)
  · intro c new
    obtain ⟨l,seen⟩ := c
    obtain ⟨rfl,rfl⟩ : l = ⟨Session.init node,[]⟩ ∧ seen = 0 := new
    exact ⟨Session.init_sound node,rfl⟩
  · intro c label _ before _ answered
    obtain ⟨sound,balanced⟩ := before
    obtain ⟨env,request⟩ := label
    cases request with
    | call call =>
      cases call with
      | sendReliable dst message =>
        exact ⟨Session.sendReliable_sound node env dst message _ sound,
          balanced.unheard _ _ _ (Session.sendReliable_unheard node env dst message _)⟩
      | sendBroadcast message =>
        exact ⟨Session.sendBroadcast_sound node env message _ sound,
          balanced.unheard _ _ _ (Session.sendBroadcast_unheard node env message _)⟩
      | tick => exact ⟨Session.tick_sound node env _ sound,balanced.unheard _ _ _ (Session.tick_unheard node env _)⟩
      | onFrame payload =>
        exact ⟨Session.onFrame_sound node env payload _ sound,
          (balanced_next node c env payload sound balanced).2.mpr answered⟩
    | sendNote taskId text noteId =>
      exact ⟨Session.sendNote_sound node env taskId text noteId _ sound,
        balanced.unheard _ _ _ (Session.sendNote_unheard node env taskId text noteId _)⟩

/-- As long as every ACK owed fits the budget, no frame raises and every frame is classified once. -/
theorem frames_classified (node : Node) (c : Ledger × Nat) (reached : (hearing node).Reaches (Answered node) c) :
    Balanced c ∧ ∀ env payload,
      ((c.1.session.onFrame node env payload).finished = true ↔ Answerable node payload) ∧
        (Balanced ((hearing node).next c ⟨env,.call (.onFrame payload)⟩) ↔ Answerable node payload) := by
  obtain ⟨sound,balanced⟩ := hearing_balanced node c reached
  exact ⟨balanced,fun env payload => balanced_next node c env payload sound balanced⟩

/-- A GRANT of task 1 from robot 2 to robot 1. -/
def grantFrame : Packet := [4,2,0,0,0,1,1]

theorem grantFrame_answerable : Answerable Node.first grantFrame := by
  intro message _ _ _
  decide

/-- One grant, heard by robot 1. -/
def heardOnce : Ledger × Nat :=
  (hearing Node.first).runs (⟨Session.init Node.first,[]⟩,0) [⟨{ clock := 0 },.call (.onFrame grantFrame)⟩]

theorem frames_classified_grant : Balanced heardOnce ∧ heardOnce.1.session.counters.rxDelivered = 1 := by
  have reached := (hearing Node.first).reaches_runs (Answered Node.first) (⟨Session.init Node.first,[]⟩,0)
    [⟨{ clock := 0 },.call (.onFrame grantFrame)⟩] (.start _ ⟨rfl,rfl⟩) ⟨trivial,grantFrame_answerable,trivial⟩
  exact ⟨(frames_classified Node.first heardOnce reached).1,by decide +kernel⟩

def terse : Node := { Node.first with params := { ReliabilityParams.standard with maxPayloadBytes := 6 } }

/-- The ACK takes seven bytes. The frame raises, and is in no class. -/
theorem grant_raises :
    ((Session.init terse).onFrame terse { clock := 0 } grantFrame).finished = false ∧
      ¬Balanced ((hearing terse).next (⟨Session.init terse,[]⟩,0) ⟨{ clock := 0 },.call (.onFrame grantFrame)⟩) := by
  decide +kernel

end AmigaFleet.Reliability
