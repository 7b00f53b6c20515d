import AmigaFleet.Lib.Machine
import AmigaFleet.Reliability.Campaign

/-! Two sessions over a medium that loses, copies, delays and reorders frames
and forges none. A frame heard was handed to the link by one of the two, or
came from a third robot, or is noise. -/
namespace AmigaFleet.Reliability
open Lib AmigaFleet.Codec

structure Pair where
  node : Bool → Node
  differ : (node false).id ≠ (node true).id

inductive Call where
  | sendReliable (dst : Int) (message : Message)
  | sendBroadcast (message : Message)
  | tick
  | onFrame (payload : Packet)

structure Label where
  side : Bool
  env : Env
  call : Call

abbrev Sessions : Type := Bool → Session

def perform (node : Node) (env : Env) (s : Session) : Call → Session
  | .sendReliable dst message => (s.sendReliable node env dst message).2
  | .sendBroadcast message => (s.sendBroadcast node env message).2
  | .tick => s.tick node env
  | .onFrame payload => (s.onFrame node env payload).state

def OnAir (s : Sessions) (payload : Packet) : Prop :=
  payload ∈ (s false).transmitted.map Prod.fst ∨ payload ∈ (s true).transmitted.map Prod.fst

instance (s : Sessions) (payload : Packet) : Decidable (OnAir s payload) :=
  inferInstanceAs (Decidable (_ ∨ _))

namespace Pair
variable (p : Pair)

/-- Bytes that read as a message of neither robot, or as none. -/
def Foreign (payload : Packet) : Prop :=
  ∀ message, decode payload = .ok message → ∀ side, message.src ≠ (p.node side).id

def Audible (s : Sessions) (label : Label) : Prop :=
  match label.call with
  | .onFrame payload => OnAir s payload ∨ p.Foreign payload
  | _ => True

def machine : Machine Sessions Label where
  initial s := ∀ side, s side = Session.init (p.node side)
  enabled := p.Audible
  next s label := fun side =>
    if side = label.side then perform (p.node side) label.env (s side) label.call else s side

/-- No entry of the cache reaches its expiry or is evicted in this call. -/
def KeepsCache (node : Node) (env : Env) (s : Session) : Call → Prop
  | .tick => s.dedup.Unexpired env.clock
  | .onFrame payload => ∀ message, decode payload = .ok message → message.type ≠ .ack →
    message.src ≠ node.id → s.dedup.Unexpired env.clock ∧
      (s.onFrame node env payload).state.dedup.evicted = s.dedup.evicted
  | _ => True

/-- Each side allocates fewer than 65536 numbers, and the receiver keeps its cache. -/
def InScope (receiver : Bool) (s : Sessions) (label : Label) : Prop :=
  (∀ side, (p.machine.next s label side).stamped.length < 65536) ∧
    (label.side = receiver → KeepsCache (p.node receiver) label.env (s receiver) label.call)

theorem differ_not (side : Bool) : (p.node (!side)).id ≠ (p.node side).id := by
  cases side
  · exact p.differ.symm
  · exact p.differ

theorem next_self (s : Sessions) (label : Label) : p.machine.next s label label.side =
    perform (p.node label.side) label.env (s label.side) label.call := by simp [machine]

theorem next_other (s : Sessions) (label : Label) (side : Bool) (other : side ≠ label.side) :
    p.machine.next s label side = s side := by simp [machine,other]

theorem perform_sound (node : Node) (env : Env) (s : Session) (call : Call) (sound : Sound node s) :
    Sound node (perform node env s call) := by
  cases call with
  | sendReliable dst message => exact Session.sendReliable_sound node env dst message s sound
  | sendBroadcast message => exact Session.sendBroadcast_sound node env message s sound
  | tick => exact Session.tick_sound node env s sound
  | onFrame payload => exact Session.onFrame_sound node env payload s sound

/-- An audible frame in a robot's name was stamped and sent by that robot. -/
theorem origin (s : Sessions) (sound : ∀ side, Sound (p.node side) (s side)) (side : Bool)
    (payload : Packet) (audible : OnAir s payload ∨ p.Foreign payload) (message : Message)
    (read : decode payload = .ok message) (source : message.src = (p.node side).id) :
    payload ∈ (s side).transmitted.map Prod.fst ∧
      ∃ original ∈ (s side).stamped, message = original.onWire := by
  have heard : ∀ from_, payload ∈ (s from_).transmitted.map Prod.fst → from_ = side ∧
      ∃ original ∈ (s from_).stamped, message = original.onWire := by
    intro from_ member
    obtain ⟨packet,inside,rfl⟩ := List.mem_map.mp member
    obtain ⟨original,stamped,carries⟩ := (sound from_).packets packet inside
    have same := carries.decode _ _ _ read
    have sender := (sound from_).numbered.src _ _ original stamped
    refine ⟨?_,original,stamped,same⟩
    by_contra different
    have opposite : from_ = !side := by cases from_ <;> cases side <;> simp_all
    rw [same,Message.onWire_src,sender,opposite] at source
    exact p.differ_not side source
  rcases audible with (left | right) | foreign
  · obtain ⟨rfl,rest⟩ := heard false left
    exact ⟨left,rest⟩
  · obtain ⟨rfl,rest⟩ := heard true right
    exact ⟨right,rest⟩
  · exact absurd source (foreign message read side)

/-- What holds between the side `!b` that sends and the side `b` that receives. -/
structure Agreed (b : Bool) (s : Sessions) : Prop where
  sound : ∀ side, Sound (p.node side) (s side)
  lap : (s (!b)).stamped.length < 65536
  seen : ∀ seq, ((s b).dedup.seen.get? ((p.node (!b)).id,seq)).isSome →
    ∃ message ∈ (s (!b)).stamped, message.seq = seq ∧
      (message.type = .freeform ∨ message.onWire ∈ (s b).delivered)
  keys : ∀ message ∈ (s b).delivered, ((s b).dedup.seen.get? (message.src,message.seq)).isSome
  once : ((s b).delivered.map (fun message => (message.src,message.seq))).Nodup
  acked : ∀ packet ∈ (s b).transmitted, ∀ ack, decode packet.1 = .ok (.ack ack) →
    ack.ackSrc = (p.node (!b)).id → ∃ grant, .grant grant ∈ (s (!b)).stamped ∧
      grant.seq = ack.ackSeq ∧ .grant grant ∈ (s b).delivered
  confirmed : ∀ send ∈ (s (!b)).sends, (send.future,.delivered) ∈ (s (!b)).resolved →
    send.dst = (p.node b).id → send.message ∈ (s b).delivered

theorem agreed_initial (b : Bool) (s : Sessions) (initial : p.machine.initial s) : p.Agreed b s where
  sound side := initial side ▸ Session.init_sound _
  lap := by simp [initial (!b),Session.init]
  seen := by simp [initial b,Session.init]
  keys := by simp [initial b,Session.init]
  once := by simp [initial b,Session.init]
  acked := by simp [initial b,Session.init]
  confirmed := by simp [initial (!b),Session.init]

theorem agreed_sender (b : Bool) (s t : Sessions) (agreed : p.Agreed b s)
    (sound : ∀ side, Sound (p.node side) (t side)) (lap : (t (!b)).stamped.length < 65536)
    (still : t b = s b) (stamped : ∀ message ∈ (s (!b)).stamped, message ∈ (t (!b)).stamped)
    (resolved : ∀ future, (future,.delivered) ∈ (t (!b)).resolved →
      (future,.delivered) ∈ (s (!b)).resolved)
    (sends : ∀ send ∈ (t (!b)).sends, send ∈ (s (!b)).sends ∨ send.future = (s (!b)).futures) :
    p.Agreed b t where
  sound := sound
  lap := lap
  seen := by
    intro seq present
    rw [still] at present ⊢
    obtain ⟨message,member,rest⟩ := agreed.seen seq present
    exact ⟨message,stamped message member,rest⟩
  keys := by
    rw [still]
    exact agreed.keys
  once := by
    rw [still]
    exact agreed.once
  acked := by
    intro packet member ack read ours
    rw [still] at member ⊢
    obtain ⟨grant,held,rest⟩ := agreed.acked packet member ack read ours
    exact ⟨grant,stamped _ held,rest⟩
  confirmed := by
    intro send member confirmed addressee
    rw [still]
    have before := resolved send.future confirmed
    rcases sends send member with old | fresh
    · exact agreed.confirmed send old before addressee
    · have early := (agreed.sound (!b)).issued _ before
      simp only at early
      omega

theorem agreed_receiver (b : Bool) (s t : Sessions) (agreed : p.Agreed b s)
    (sound : ∀ side, Sound (p.node side) (t side)) (still : t (!b) = s (!b))
    (seen : (t b).dedup.seen = (s b).dedup.seen) (delivered : (t b).delivered = (s b).delivered)
    (packets : ∀ packet ∈ (t b).transmitted, packet ∈ (s b).transmitted ∨
      ∃ message, message.type ≠ .ack ∧ Carries packet.1 message) : p.Agreed b t where
  sound := sound
  lap := still ▸ agreed.lap
  seen := by
    intro seq present
    rw [seen] at present
    rw [still,delivered]
    exact agreed.seen seq present
  keys := by
    rw [delivered,seen]
    exact agreed.keys
  once := by
    rw [delivered]
    exact agreed.once
  acked := by
    intro packet member ack read ours
    rw [still,delivered]
    rcases packets packet member with old | ⟨message,data,carries⟩
    · exact agreed.acked packet old ack read ours
    · have same := onWire_ack _ _ (carries.decode _ _ _ read).symm
      exact absurd (by rw [same]; rfl) data
  confirmed := by
    rw [still,delivered]
    exact agreed.confirmed

theorem agreed_confirm (b : Bool) (s t : Sessions) (payload : Packet) (agreed : p.Agreed b s)
    (sound : ∀ side, Sound (p.node side) (t side)) (still : t b = s b)
    (audible : OnAir s payload ∨ p.Foreign payload) (ack : Ack) (counters : Counters)
    (entry : Pending) (read : decode payload = .ok (.ack ack)) (ours : ack.ackSrc = (p.node (!b)).id)
    (found : (s (!b)).pending.get? ack.ackSeq = some entry) (addressee : ack.src = entry.dst)
    (closed : t (!b) = ({ s (!b) with
      counters := counters, pending := (s (!b)).pending.pop ack.ackSeq } : Session).finish entry
        .delivered) : p.Agreed b t where
  sound := sound
  lap := by simpa [closed,Session.finish] using agreed.lap
  seen := by simpa [still,closed,Session.finish] using agreed.seen
  keys := by simpa [still] using agreed.keys
  once := by simpa [still] using agreed.once
  acked := by simpa [still,closed,Session.finish] using agreed.acked
  confirmed := by
    intro send member resolved destination
    simp only [closed,Session.finish] at member resolved
    rw [still]
    rcases List.mem_cons.mp resolved with equal | before
    · -- The campaign this ACK closes: the ACK came from the addressee, who had accepted the GRANT.
      injection equal with same
      obtain ⟨campaign,held,future,dst,number,_⟩ := (agreed.sound (!b)).pending _ _ found
      obtain rfl : send = campaign := (agreed.sound (!b)).single send member campaign held
        (by rw [same,future])
      have source : (Message.ack ack).src = (p.node b).id := by
        rw [← destination,dst]
        exact addressee
      obtain ⟨onAir,_⟩ := p.origin s agreed.sound b payload audible _ read source
      obtain ⟨packet,sent,rfl⟩ := List.mem_map.mp onAir
      obtain ⟨grant,stamped,seq,delivered⟩ := agreed.acked packet sent ack read ours
      have message : send.message = .grant grant :=
        (agreed.sound (!b)).numbered.unique _ _ (le_of_lt agreed.lap) _ _
          ((agreed.sound (!b)).sends send member).1 stamped (number.trans seq.symm)
      rw [message]
      exact delivered
    · exact agreed.confirmed send member before destination

theorem accept_grows (env : Env) (s after : Session) (message m : Message)
    (delivered : after.delivered = if Session.passesUp env message s then
      message :: s.delivered else s.delivered) (member : m ∈ s.delivered) : m ∈ after.delivered := by
  rw [delivered]
  split
  · exact List.mem_cons_of_mem _ member
  · exact member

/-- The message itself, once its id is in the cache. -/
theorem accept_recorded (b : Bool) (env : Env) (s : Sessions) (after : Session) (payload : Packet)
    (agreed : p.Agreed b s) (audible : OnAir s payload ∨ p.Foreign payload) (message : Message)
    (read : decode payload = .ok message) (unexpired : (s b).dedup.Unexpired env.clock)
    (delivered : after.delivered = if Session.passesUp env message (s b) then
      message :: (s b).delivered else (s b).delivered)
    (source : message.src = (p.node (!b)).id) : ∃ original ∈ (s (!b)).stamped,
      original.seq = message.seq ∧ (original.type = .freeform ∨ original.onWire ∈ after.delivered) := by
  obtain ⟨_,original,stamped,same⟩ := p.origin s agreed.sound (!b) payload audible message read source
  cases known : (s b).dedup.seen.get? (message.src,message.seq) with
  | some expiry =>
    rw [source] at known
    obtain ⟨earlier,member,number,passed⟩ := agreed.seen message.seq (by simp [known])
    exact ⟨earlier,member,number,passed.imp_right (accept_grows env _ after message _ delivered)⟩
  | none =>
    refine ⟨original,stamped,by rw [same,Message.onWire_seq],?_⟩
    by_cases fragment : original.type = .freeform
    · exact .inl fragment
    · refine .inr ?_
      have fresh := DedupCache.firstSight_fst (s b).dedup (message.src,message.seq) env.clock unexpired
      have passes : Session.passesUp env message (s b) = true := by
        have kind : message.type ≠ .freeform := by rwa [same,onWire_type]
        simp [Session.passesUp,fresh.mpr known,kind]
      rw [delivered,if_pos passes,← same]
      exact List.mem_cons_self ..

/-- The ACK just stamped names this very message, a GRANT to us from the other side. -/
theorem accept_acks (b : Bool) (env : Env) (s : Sessions) (after : Session) (payload packet : Packet)
    (agreed : p.Agreed b s) (audible : OnAir s payload ∨ p.Foreign payload) (message : Message)
    (read : decode payload = .ok message) (unexpired : (s b).dedup.Unexpired env.clock)
    (delivered : after.delivered = if Session.passesUp env message (s b) then
      message :: (s b).delivered else (s b).delivered)
    (owed : Session.owesAck (p.node b) message = true)
    (carries : Carries packet (Session.ackFor (p.node b) message (s b)).1) (ack : Ack)
    (decoded : decode packet = .ok (.ack ack)) (ours : ack.ackSrc = (p.node (!b)).id) :
    ∃ grant, .grant grant ∈ (s (!b)).stamped ∧ grant.seq = ack.ackSeq ∧ .grant grant ∈ after.delivered := by
  have same := onWire_ack _ _ (carries.decode _ _ _ decoded).symm
  simp only [Session.ackFor,Session.stamp_fst,Message.stamped,Message.ack.injEq] at same
  subst same
  simp only at ours ⊢
  obtain ⟨original,stamped,number,passed⟩ :=
    p.accept_recorded b env s after payload agreed audible message read unexpired delivered ours
  obtain ⟨_,source,inside,wire⟩ := p.origin s agreed.sound (!b) payload audible message read ours
  have only := (agreed.sound (!b)).numbered.unique _ _ (le_of_lt agreed.lap) _ _ stamped inside
    (by rw [number,wire,Message.onWire_seq])
  simp only [Session.owesAck,Bool.and_eq_true] at owed
  obtain ⟨grant,kind⟩ := isReliable_grant message owed.1
  have sourceKind : source = .grant grant := by
    cases source <;> simp_all [Message.onWire]
  rw [only,sourceKind] at passed stamped
  refine ⟨grant,stamped,by rw [kind]; rfl,?_⟩
  exact passed.resolve_left (by simp [Message.type])

/-- A message accepted by the receiver, before any ACK of it leaves. -/
theorem agreed_accept (b : Bool) (env : Env) (s t : Sessions) (payload : Packet)
    (agreed : p.Agreed b s) (sound : ∀ side, Sound (p.node side) (t side)) (still : t (!b) = s (!b))
    (audible : OnAir s payload ∨ p.Foreign payload) (message : Message)
    (read : decode payload = .ok message)
    (unexpired : (s b).dedup.Unexpired env.clock)
    (kept : ((s b).dedup.firstSight (message.src,message.seq) env.clock).2.evicted =
      (s b).dedup.evicted)
    (seen : (t b).dedup.seen =
      ((s b).dedup.firstSight (message.src,message.seq) env.clock).2.seen)
    (delivered : (t b).delivered = if Session.passesUp env message (s b) then
      message :: (s b).delivered else (s b).delivered)
    (packets : ∀ packet ∈ (t b).transmitted, packet ∈ (s b).transmitted ∨
      (Session.owesAck (p.node b) message = true ∧
        Carries packet.1 (Session.ackFor (p.node b) message (s b)).1)) : p.Agreed b t := by
  have grows := fun m => accept_grows env (s b) (t b) message m delivered
  have fresh := DedupCache.firstSight_fst (s b).dedup (message.src,message.seq) env.clock unexpired
  have table := fun other => DedupCache.firstSight_get? (s b).dedup (message.src,message.seq) other
    env.clock unexpired kept
  refine ⟨sound,still ▸ agreed.lap,?_,?_,?_,?_,?_⟩
  · intro seq present
    rw [still]
    rw [seen] at present
    rcases (table _).mp present with same | before
    · injection same with source number
      rw [number]
      exact p.accept_recorded b env s (t b) payload agreed audible message read unexpired delivered source.symm
    · obtain ⟨earlier,member,number,passed⟩ := agreed.seen seq before
      exact ⟨earlier,member,number,passed.imp_right (grows _)⟩
  · intro m member
    rw [seen,table]
    rw [delivered] at member
    split at member
    · rcases List.mem_cons.mp member with rfl | inside
      · exact .inl rfl
      · exact .inr (agreed.keys m inside)
    · exact .inr (agreed.keys m member)
  · rw [delivered]
    split
    · rename_i passes
      simp only [Session.passesUp,Bool.and_eq_true] at passes
      have unknown := fresh.mp passes.1
      simp only [List.map_cons,List.nodup_cons]
      refine ⟨?_,agreed.once⟩
      intro member
      obtain ⟨m,inside,same⟩ := List.mem_map.mp member
      have present := agreed.keys m inside
      rw [same,unknown] at present
      cases present
    · exact agreed.once
  · intro packet member ack decoded ours
    rw [still]
    rcases packets packet member with old | ⟨owed,carries⟩
    · obtain ⟨grant,stamped,number,passed⟩ := agreed.acked packet old ack decoded ours
      exact ⟨grant,stamped,number,grows _ passed⟩
    · exact p.accept_acks b env s (t b) payload packet.1 agreed audible message read unexpired delivered owed
        carries ack decoded ours
  · intro send member resolved destination
    rw [still] at member resolved
    exact grows _ (agreed.confirmed send member resolved destination)

theorem agreed_sender_hears (b : Bool) (env : Env) (s t : Sessions) (payload : Packet)
    (agreed : p.Agreed b s) (sound : ∀ side, Sound (p.node side) (t side))
    (lap : (t (!b)).stamped.length < 65536) (still : t b = s b)
    (audible : OnAir s payload ∨ p.Foreign payload)
    (received : Session.Received (p.node (!b)) env payload (s (!b)) (t (!b))) : p.Agreed b t := by
  generalize after : t (!b) = u at received
  cases received with
  | counted counters =>
    exact p.agreed_sender b s t agreed sound lap still (by simp [after]) (by simp [after])
      (by simp +contextual [after])
  | confirmed ack counters entry read ours found addressee =>
    exact p.agreed_confirm b s t payload agreed sound still audible ack counters entry read ours found
      addressee after
  | heard message counters =>
    obtain ⟨notes,changed,deliveredNotes,shape⟩ := Session.accept_cases env message
      { s (!b) with counters := counters }
    rw [shape] at after
    exact p.agreed_sender b s t agreed sound lap still (by simp [after]) (by simp [after])
      (by simp +contextual [after])
  | unackable message counters =>
    exact p.agreed_sender b s t agreed sound lap still
      (by simp +contextual [after,Session.ackFor,Session.stamp])
      (by simp [after,Session.ackFor,Session.stamp])
      (by simp +contextual [after,Session.ackFor,Session.stamp])
  | acked message counters packet =>
    obtain ⟨notes,changed,deliveredNotes,shape⟩ := Session.accept_cases env message
      (Session.ackFor (p.node (!b)) message { s (!b) with counters := counters }).2
    rw [shape] at after
    obtain ⟨last,same | sent⟩ := Session.transmit_cases env packet urgent _ true
    · rw [same] at after
      exact p.agreed_sender b s t agreed sound lap still
        (by simp +contextual [after,Session.ackFor,Session.stamp])
        (by simp [after,Session.ackFor,Session.stamp])
        (by simp +contextual [after,Session.ackFor,Session.stamp])
    · rw [sent] at after
      exact p.agreed_sender b s t agreed sound lap still
        (by simp +contextual [after,Session.ackFor,Session.stamp])
        (by simp [after,Session.ackFor,Session.stamp])
        (by simp +contextual [after,Session.ackFor,Session.stamp])

theorem agreed_receiver_hears (b : Bool) (env : Env) (s t : Sessions) (payload : Packet)
    (agreed : p.Agreed b s) (sound : ∀ side, Sound (p.node side) (t side)) (still : t (!b) = s (!b))
    (audible : OnAir s payload ∨ p.Foreign payload)
    (keeps : ∀ message, decode payload = .ok message → message.type ≠ .ack →
      message.src ≠ (p.node b).id →
        (s b).dedup.Unexpired env.clock ∧ (t b).dedup.evicted = (s b).dedup.evicted)
    (received : Session.Received (p.node b) env payload (s b) (t b)) : p.Agreed b t := by
  generalize after : t b = u at received
  cases received with
  | counted counters =>
    exact p.agreed_receiver b s t agreed sound still (by simp [after]) (by simp [after])
      (by simp +contextual [after])
  | confirmed ack counters entry =>
    exact p.agreed_receiver b s t agreed sound still (by simp [after,Session.finish])
      (by simp [after,Session.finish]) (by simp +contextual [after,Session.finish])
  | heard message counters read data foreign =>
    obtain ⟨unexpired,kept⟩ := keeps message read data foreign
    obtain ⟨notes,changed,deliveredNotes,shape⟩ := Session.accept_cases env message
      { s b with counters := counters }
    rw [shape] at after
    rw [after] at kept
    exact p.agreed_accept b env s t payload agreed sound still audible message read unexpired kept
      (by rw [after]) (by rw [after]; rfl) (by simp +contextual [after])
  | unackable message counters =>
    exact p.agreed_receiver b s t agreed sound still (by simp [after,Session.ackFor,Session.stamp])
      (by simp [after,Session.ackFor,Session.stamp])
      (by simp +contextual [after,Session.ackFor,Session.stamp])
  | acked message counters packet read data foreign owed ok =>
    obtain ⟨unexpired,kept⟩ := keeps message read data foreign
    obtain ⟨notes,changed,deliveredNotes,shape⟩ := Session.accept_cases env message
      (Session.ackFor (p.node b) message { s b with counters := counters }).2
    rw [shape] at after
    obtain ⟨last,same | sent⟩ := Session.transmit_cases env packet urgent _ true
    · rw [same] at after
      rw [after] at kept
      exact p.agreed_accept b env s t payload agreed sound still audible message read unexpired kept
        (by rw [after]; rfl) (by rw [after]; rfl)
        (by simp +contextual [after,Session.ackFor,Session.stamp])
    · rw [sent] at after
      rw [after] at kept
      refine p.agreed_accept b env s t payload agreed sound still audible message read unexpired kept
        (by rw [after]; rfl) (by rw [after]; rfl) ?_
      intro sentPacket member
      rw [after] at member
      rcases List.mem_cons.mp member with rfl | inside
      · exact .inr ⟨owed,_,ok⟩
      · exact .inl inside

theorem agreed_step (b : Bool) (s : Sessions) (label : Label) (agreed : p.Agreed b s)
    (audible : p.machine.enabled s label) (scope : p.InScope b s label) :
    p.Agreed b (p.machine.next s label) := by
  obtain ⟨side,env,call⟩ := label
  have sound : ∀ other, Sound (p.node other) (p.machine.next s ⟨side,env,call⟩ other) := by
    intro other
    by_cases same : other = side
    · subst same
      rw [p.next_self s ⟨other,env,call⟩]
      exact perform_sound _ env _ call (agreed.sound other)
    · rw [p.next_other s ⟨side,env,call⟩ other same]
      exact agreed.sound other
  have lap := scope.1 (!b)
  by_cases receiver : side = b
  · subst receiver
    have still : p.machine.next s ⟨side,env,call⟩ (!side) = s (!side) :=
      p.next_other s ⟨side,env,call⟩ (!side) (by simp)
    have moved := p.next_self s ⟨side,env,call⟩
    have keeps := scope.2 rfl
    have silent : Session.Quiet env (s side) (perform (p.node side) env (s side) call) →
        (perform (p.node side) env (s side) call).dedup.seen = (s side).dedup.seen →
          p.Agreed side (p.machine.next s ⟨side,env,call⟩) := by
      intro quiet seen
      rw [← moved] at quiet seen
      exact p.agreed_receiver side s _ agreed sound still seen quiet.delivered quiet.packets
    cases call with
    | sendReliable dst message =>
      exact silent (Session.sendReliable_quiet _ _ _ _ _) (congrArg _ (Session.sendReliable_dedup _ _ _ _ _))
    | sendBroadcast message =>
      exact silent (Session.sendBroadcast_quiet _ _ _ _) (congrArg _ (Session.sendBroadcast_dedup _ _ _ _))
    | tick =>
      have quiet := Session.tick_quiet (p.node side) env (s side) (agreed.sound side)
      exact silent quiet (quiet.seen keeps)
    | onFrame payload =>
      have received := Session.onFrame_received (p.node side) env payload (s side)
      rw [show ((s side).onFrame (p.node side) env payload).state =
        p.machine.next s ⟨side,env,.onFrame payload⟩ side from moved.symm] at received
      refine p.agreed_receiver_hears side env s _ payload agreed sound still audible ?_ received
      rw [moved]
      exact keeps
  · obtain rfl : side = !b := by cases side <;> cases b <;> simp_all
    have still : p.machine.next s ⟨!b,env,call⟩ b = s b :=
      p.next_other s ⟨!b,env,call⟩ b (by simp)
    have moved := p.next_self s ⟨!b,env,call⟩
    have silent : ∀ quiet : Session.Quiet env (s (!b)) (perform (p.node (!b)) env (s (!b)) call),
        p.Agreed b (p.machine.next s ⟨!b,env,call⟩) := by
      intro quiet
      rw [← moved] at quiet
      exact p.agreed_sender b s _ agreed sound lap still quiet.stamped quiet.confirmed quiet.sends
    cases call with
    | sendReliable dst message => exact silent (Session.sendReliable_quiet _ _ _ _ _)
    | sendBroadcast message => exact silent (Session.sendBroadcast_quiet _ _ _ _)
    | tick => exact silent (Session.tick_quiet _ _ _ (agreed.sound (!b)))
    | onFrame payload =>
      have received := Session.onFrame_received (p.node (!b)) env payload (s (!b))
      rw [show ((s (!b)).onFrame (p.node (!b)) env payload).state =
        p.machine.next s ⟨!b,env,.onFrame payload⟩ (!b) from moved.symm] at received
      exact p.agreed_sender_hears b env s _ payload agreed sound lap still audible received

theorem agreed_reached (b : Bool) (s : Sessions) (reached : p.machine.Reaches (p.InScope b) s) :
    p.Agreed b s :=
  reached.invariant (p.Agreed b) (p.agreed_initial b)
    (fun s label _ agreed audible scope => p.agreed_step b s label agreed audible scope) s

/-- A future resolves DELIVERED only on an ACK of its own send, from its addressee. -/
def ConfirmedByAddressee (s : Sessions) (label : Label) : Prop :=
  ∀ side future, (future,.delivered) ∈ (p.machine.next s label side).resolved →
    (future,.delivered) ∉ (s side).resolved → ∃ payload ack, label.side = side ∧
      label.call = .onFrame payload ∧ decode payload = .ok (.ack ack) ∧ ∃ send ∈ (s side).sends,
        send.future = future ∧ ack.src = send.dst ∧ ack.ackSrc = (p.node side).id ∧
          ack.ackSeq = send.message.seq

theorem confirmed_by_addressee (s : Sessions) (label : Label)
    (sound : ∀ side, Sound (p.node side) (s side)) : p.ConfirmedByAddressee s label := by
  intro side future resolved before
  obtain ⟨side',env,call⟩ := label
  by_cases same : side = side'
  · subst same
    rw [p.next_self s ⟨side,env,call⟩] at resolved
    cases call with
    | sendReliable dst message =>
      exact absurd ((Session.sendReliable_quiet _ env _ _ _).confirmed future resolved) before
    | sendBroadcast message =>
      exact absurd ((Session.sendBroadcast_quiet _ env _ _).confirmed future resolved) before
    | tick => exact absurd ((Session.tick_quiet _ env _ (sound side)).confirmed future resolved) before
    | onFrame payload =>
      have received := Session.onFrame_received (p.node side) env payload (s side)
      simp only [perform] at resolved
      generalize ((s side).onFrame (p.node side) env payload).state = after at received resolved
      cases received with
      | counted counters => exact absurd resolved before
      | confirmed ack counters entry read ours found addressee =>
        rcases List.mem_cons.mp resolved with equal | old
        · injection equal with equal
          obtain ⟨send,member,number,dst,seq,_⟩ := (sound side).pending _ _ found
          exact ⟨payload,ack,rfl,rfl,read,send,member,by rw [number,equal],by rw [dst,addressee],ours,
            seq.symm⟩
        · exact absurd old before
      | heard message counters =>
        obtain ⟨notes,changed,deliveredNotes,shape⟩ := Session.accept_cases env message
          { s side with counters := counters }
        rw [shape] at resolved
        exact absurd resolved before
      | unackable message counters => exact absurd resolved before
      | acked message counters packet =>
        obtain ⟨notes,changed,deliveredNotes,shape⟩ := Session.accept_cases env message
          (Session.ackFor (p.node side) message { s side with counters := counters }).2
        rw [shape] at resolved
        obtain ⟨last,kept | sent⟩ := Session.transmit_cases env packet urgent _ true
        · rw [kept] at resolved
          exact absurd resolved before
        · rw [sent] at resolved
          exact absurd resolved before
  · rw [p.next_other s ⟨side',env,call⟩ side same] at resolved
    exact absurd resolved before

/-- Delivered means the addressee got it, exactly once. -/
theorem delivered_exactly_once (b : Bool) (s : Sessions)
    (reached : p.machine.Reaches (p.InScope b) s) :
    (∀ send ∈ (s (!b)).sends, (send.future,.delivered) ∈ (s (!b)).resolved →
      send.dst = (p.node b).id → (s b).delivered.count send.message = 1) ∧
    (∀ message ∈ (s (!b)).stamped, (s b).delivered.countP
      (fun heard => heard.src = message.src ∧ heard.seq = message.seq) ≤ 1) ∧
    (∀ side, ((s side).resolved.map Prod.fst).Nodup) ∧
    (∀ label, p.ConfirmedByAddressee s label) := by
  have agreed := p.agreed_reached b s reached
  have atMostOnce : ∀ message : Message, (s b).delivered.countP
      (fun heard => heard.src = message.src ∧ heard.seq = message.seq) ≤ 1 := by
    intro message
    have single := List.nodup_iff_count_le_one.mp agreed.once (message.src,message.seq)
    rw [List.count,List.countP_map] at single
    refine le_trans (List.countP_mono_left ?_) single
    intro heard _ same
    simpa using same
  refine ⟨?_,fun message _ => atMostOnce message,fun side => (agreed.sound side).once,
    fun label => p.confirmed_by_addressee s label agreed.sound⟩
  intro send member resolved destination
  have present := agreed.confirmed send member resolved destination
  have positive := List.count_pos_iff.mpr present
  have bounded : (s b).delivered.count send.message ≤ 1 := by
    refine le_trans (List.countP_mono_left ?_) (atMostOnce send.message)
    intro heard _ same
    simp_all
  omega

def grantRun : List Label :=
  [⟨false,{ clock := 0 },.sendReliable 2 (.grant ⟨0,0,7,2⟩)⟩,
   ⟨true,{ clock := 1 },.onFrame [4,1,0,0,0,7,2]⟩,
   ⟨true,{ clock := 2 },.onFrame [4,1,0,0,0,7,2]⟩,
   ⟨false,{ clock := 3 },.onFrame [5,2,0,1,1,0,0]⟩]

def duo : Pair where
  node side := if side then .second else .first
  differ := by decide

def duoStart : Sessions := fun side => Session.init (duo.node side)

theorem grantRun_follows : duo.machine.Follows (duo.InScope true) duoStart grantRun := by
  refine ⟨trivial,⟨by decide +kernel,fun same => nomatch same⟩,
    .inl (by decide +kernel),⟨by decide +kernel,?_⟩,.inl (by decide +kernel),⟨by decide +kernel,?_⟩,
    .inl (by decide +kernel),⟨by decide +kernel,fun same => nomatch same⟩,trivial⟩
  · exact fun _ _ _ _ _ => ⟨by decide +kernel,by decide +kernel⟩
  · exact fun _ _ _ _ _ => ⟨by decide +kernel,by decide +kernel⟩

theorem delivered_exactly_once_grant :
    (duo.machine.runs duoStart grantRun true).delivered.count (.grant ⟨1,0,7,2⟩) = 1 := by
  have reached := duo.machine.reaches_runs _ duoStart grantRun (.start _ (fun _ => rfl)) grantRun_follows
  exact (duo.delivered_exactly_once true _ reached).1 ⟨0,2,.grant ⟨1,0,7,2⟩⟩
    (by decide +kernel) (by decide +kernel) rfl

end Pair
end AmigaFleet.Reliability
