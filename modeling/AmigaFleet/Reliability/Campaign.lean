import AmigaFleet.Codec.RoundTrip
import AmigaFleet.Reliability.Session

/-! What one session keeps: its numbering, the origin of every packet it hands
to the link, and one future for each campaign, resolved once. -/
namespace AmigaFleet.Reliability
open Lib AmigaFleet.Codec

/-- Messages newest first, numbered from zero modulo the sequence space. -/
def Numbered (id : Int) : List Message → Prop
  | [] => True
  | message::earlier =>
    (message.src = id ∧ message.seq = (earlier.length : Int) % (seqMax + 1)) ∧ Numbered id earlier

theorem Numbered.src (id : Int) (messages : List Message) (numbered : Numbered id messages)
    (message : Message) (member : message ∈ messages) : message.src = id := by
  induction messages with
  | nil => cases member
  | cons first earlier ih =>
    rcases List.mem_cons.mp member with rfl | inside
    · exact numbered.1.1
    · exact ih numbered.2 inside

theorem Numbered.seq_lt (id : Int) (messages : List Message) (numbered : Numbered id messages)
    (few : messages.length ≤ 65536) (message : Message) (member : message ∈ messages) :
    0 ≤ message.seq ∧ message.seq < messages.length := by
  induction messages with
  | nil => cases member
  | cons first earlier ih =>
    simp only [List.length_cons] at few ⊢
    rcases List.mem_cons.mp member with rfl | inside
    · have number := numbered.1.2
      simp only [seqMax] at number
      omega
    · have before := ih numbered.2 (by omega) inside
      omega

theorem Numbered.unique (id : Int) (messages : List Message) (numbered : Numbered id messages)
    (few : messages.length ≤ 65536) (a b : Message) (left : a ∈ messages) (right : b ∈ messages)
    (same : a.seq = b.seq) : a = b := by
  induction messages with
  | nil => cases left
  | cons first earlier ih =>
    simp only [List.length_cons] at few
    have number := numbered.1.2
    simp only [seqMax] at number
    rcases List.mem_cons.mp left with rfl | left'
    · rcases List.mem_cons.mp right with rfl | right
      · rfl
      · have before := Numbered.seq_lt id earlier numbered.2 (by omega) b right
        omega
    · rcases List.mem_cons.mp right with rfl | right
      · have before := Numbered.seq_lt id earlier numbered.2 (by omega) a left'
        omega
      · exact ih numbered.2 (by omega) left' right

def Carries (packet : Packet) (message : Message) : Prop :=
  ∃ budget, encode message budget = .ok packet

theorem Carries.decode (packet : Packet) (message received : Message)
    (carries : Carries packet message) (read : Codec.decode packet = .ok received) :
    received = message.onWire := by
  obtain ⟨budget,ok⟩ := carries
  rw [decode_encode message budget packet ok,checkTarget] at read
  split at read
  · injection read with read
    exact read.symm
  · split at read
    · injection read with read
      exact read.symm
    · cases read

theorem onWire_type (message : Message) : message.onWire.type = message.type := by
  cases message <;> rfl

theorem onWire_ack (message : Message) (ack : Ack) (same : message.onWire = .ack ack) :
    message = .ack ack := by
  cases message <;> simp_all [Message.onWire]

structure Sound (node : Node) (s : Session) : Prop where
  numbered : Numbered node.id s.stamped
  next : s.nextSeq = (s.stamped.length : Int) % (seqMax + 1)
  packets : ∀ packet ∈ s.transmitted, ∃ message ∈ s.stamped, Carries packet.1 message
  sends : ∀ send ∈ s.sends, send.message ∈ s.stamped ∧ send.future < s.futures ∧
    ∃ grant, send.message = .grant grant ∧ grant.winnerId = send.dst
  single : ∀ a ∈ s.sends, ∀ b ∈ s.sends, a.future = b.future → a = b
  pending : ∀ seq entry, s.pending.get? seq = some entry →
    ∃ send ∈ s.sends, send.future = entry.future ∧ send.dst = entry.dst ∧
      send.message.seq = seq ∧ Carries entry.payload send.message
  open_ : ∀ seq entry, s.pending.get? seq = some entry → ∀ outcome, (entry.future,outcome) ∉ s.resolved
  apart : ∀ seq other entry rival, s.pending.get? seq = some entry →
    s.pending.get? other = some rival → entry.future = rival.future → seq = other
  issued : ∀ entry ∈ s.resolved, entry.1 < s.futures
  once : (s.resolved.map Prod.fst).Nodup

namespace Session

theorem init_sound (node : Node) : Sound node (init node) where
  numbered := trivial
  next := rfl
  packets := by simp [init]
  sends := by simp [init]
  single := by simp [init]
  pending := by simp [init]
  open_ := by simp [init]
  apart := by simp [init]
  issued := by simp [init]
  once := by simp [init]

theorem count_sound (node : Node) (s : Session) (change : Counters → Counters) (sound : Sound node s) :
    Sound node (s.count change) :=
  ⟨sound.numbered,sound.next,sound.packets,sound.sends,sound.single,sound.pending,sound.open_,
    sound.apart,sound.issued,sound.once⟩

theorem stamp_fst (node : Node) (message : Message) (s : Session) :
    (s.stamp node message).1 = message.stamped node.id s.nextSeq := rfl

theorem stamp_sound (node : Node) (message : Message) (s : Session) (sound : Sound node s) :
    Sound node (s.stamp node message).2 where
  numbered := ⟨⟨Message.stamped_src _ _ _,(Message.stamped_seq _ _ _).trans sound.next⟩,sound.numbered⟩
  next := by
    have next := sound.next
    simp only [stamp,seqMax,List.length_cons] at next ⊢
    omega
  packets := by
    intro packet member
    obtain ⟨m,inside,carries⟩ := sound.packets packet member
    exact ⟨m,List.mem_cons_of_mem _ inside,carries⟩
  sends := by
    intro send member
    obtain ⟨inside,rest⟩ := sound.sends send member
    exact ⟨List.mem_cons_of_mem _ inside,rest⟩
  single := sound.single
  pending := sound.pending
  open_ := sound.open_
  apart := sound.apart
  issued := sound.issued
  once := sound.once

theorem sendFrame_cases (env : Env) (payload : Packet) (priority : Int) (s : Session) :
    ∃ counters, (s.sendFrame env payload priority).2 = { s with counters := counters } ∨
      (s.sendFrame env payload priority).2 =
        { s with counters := counters, transmitted := (payload,priority) :: s.transmitted } := by
  unfold sendFrame
  split
  · exact ⟨s.counters,.inr rfl⟩
  · exact ⟨{ s.counters with txLinkErrors := s.counters.txLinkErrors + 1 },.inl rfl⟩

theorem transmit_cases (env : Env) (payload : Packet) (priority : Int) (s : Session) (ack : Bool) :
    ∃ counters, (s.transmit env payload priority ack).2 = { s with counters := counters } ∨
      (s.transmit env payload priority ack).2 =
        { s with counters := counters, transmitted := (payload,priority) :: s.transmitted } := by
  cases ack
  · exact sendFrame_cases env payload priority s
  · exact sendFrame_cases env payload priority
      (s.count (fun c => { c with txAcks := c.txAcks + 1 }))

theorem transmit_sound (node : Node) (env : Env) (payload : Packet) (priority : Int) (s : Session)
    (ack : Bool) (sound : Sound node s) (source : ∃ message ∈ s.stamped, Carries payload message) :
    Sound node (s.transmit env payload priority ack).2 := by
  have extended : ∀ packet ∈ (payload,priority)::s.transmitted,
      ∃ message ∈ s.stamped, Carries packet.1 message := by
    intro packet member
    rcases List.mem_cons.mp member with rfl | inside
    · exact source
    · exact sound.packets packet inside
  obtain ⟨counters,same | sent⟩ := transmit_cases env payload priority s ack
  · rw [same]
    exact ⟨sound.numbered,sound.next,sound.packets,sound.sends,sound.single,sound.pending,sound.open_,
      sound.apart,sound.issued,sound.once⟩
  · rw [sent]
    exact ⟨sound.numbered,sound.next,extended,sound.sends,sound.single,sound.pending,sound.open_,
      sound.apart,sound.issued,sound.once⟩

theorem resolve_sound (node : Node) (s : Session) (seq : Int) (entry : Pending) (outcome : Outcome)
    (sound : Sound node s) (found : s.pending.get? seq = some entry) :
    Sound node (({ s with pending := s.pending.pop seq } : Session).finish entry outcome) where
  numbered := sound.numbered
  next := sound.next
  packets := sound.packets
  sends := sound.sends
  single := sound.single
  pending := by
    intro other rival here
    exact sound.pending other rival (Dict.get?_pop_cases here).2
  open_ := by
    intro other rival here result member
    obtain ⟨different,here⟩ := Dict.get?_pop_cases here
    rcases List.mem_cons.mp member with equal | inside
    · injection equal with equal
      exact different (sound.apart other seq rival entry here found equal)
    · exact sound.open_ other rival here result inside
  apart := by
    intro a b left right first second
    exact sound.apart a b left right (Dict.get?_pop_cases first).2 (Dict.get?_pop_cases second).2
  issued := by
    intro result member
    rcases List.mem_cons.mp member with rfl | inside
    · obtain ⟨send,inside,future,_⟩ := sound.pending seq entry found
      exact future ▸ (sound.sends send inside).2.1
    · exact sound.issued result inside
  once := by
    simp only [finish,List.map_cons,List.nodup_cons]
    refine ⟨?_,sound.once⟩
    intro member
    obtain ⟨⟨future,result⟩,inside,same⟩ := List.mem_map.mp member
    exact sound.open_ seq entry found result (same ▸ inside)

theorem reserve_sound (node : Node) (s : Session) (sound : Sound node s) :
    Sound node { s with futures := s.futures + 1 } :=
  ⟨sound.numbered,sound.next,sound.packets,
    fun send member => by
      obtain ⟨inside,early,rest⟩ := sound.sends send member
      exact ⟨inside,Nat.lt_succ_of_lt early,rest⟩,
    sound.single,sound.pending,sound.open_,sound.apart,
    fun entry member => Nat.lt_succ_of_lt (sound.issued entry member),sound.once⟩

theorem reject_sound (node : Node) (s : Session) (sound : Sound node s) :
    Sound node { s with futures := s.futures + 1, resolved := (s.futures,.failed) :: s.resolved } where
  numbered := sound.numbered
  next := sound.next
  packets := sound.packets
  sends := (reserve_sound node s sound).sends
  single := sound.single
  pending := sound.pending
  open_ := by
    intro seq entry found outcome member
    rcases List.mem_cons.mp member with equal | inside
    · obtain ⟨send,held,future,_⟩ := sound.pending seq entry found
      have early := (sound.sends send held).2.1
      injection equal with equal
      omega
    · exact sound.open_ seq entry found outcome inside
  apart := sound.apart
  issued := by
    intro entry member
    rcases List.mem_cons.mp member with rfl | inside
    · exact Nat.lt_succ_self _
    · exact Nat.lt_succ_of_lt (sound.issued entry inside)
  once := by
    simp only [List.map_cons,List.nodup_cons]
    refine ⟨?_,sound.once⟩
    intro member
    obtain ⟨entry,inside,same⟩ := List.mem_map.mp member
    have early := sound.issued entry inside
    omega

theorem open_sound (node : Node) (s : Session) (message : Message) (grant : Grant) (entry : Pending)
    (sound : Sound node s) (stamped : message ∈ s.stamped) (kind : message = .grant grant)
    (winner : grant.winnerId = entry.dst) (future : entry.future = s.futures)
    (carries : Carries entry.payload message) :
    Sound node { s with
      futures := s.futures + 1
      pending := s.pending.set message.seq entry
      sends := ⟨s.futures,entry.dst,message⟩ :: s.sends } where
  numbered := sound.numbered
  next := sound.next
  packets := sound.packets
  sends := by
    intro send member
    rcases List.mem_cons.mp member with rfl | inside
    · exact ⟨stamped,Nat.lt_succ_self _,grant,kind,winner⟩
    · exact (reserve_sound node s sound).sends send inside
  single := by
    intro a left b right same
    rcases List.mem_cons.mp left with rfl | left'
    · rcases List.mem_cons.mp right with rfl | right
      · rfl
      · have early := (sound.sends b right).2.1
        simp only at same
        omega
    · rcases List.mem_cons.mp right with rfl | right
      · have early := (sound.sends a left').2.1
        simp only at same
        omega
      · exact sound.single a left' b right same
  pending := by
    intro seq held found
    obtain ⟨same,rfl⟩ | ⟨_,found⟩ := Dict.get?_set_cases found
    · exact ⟨⟨s.futures,held.dst,message⟩,by simp,future.symm,rfl,same.symm,carries⟩
    · obtain ⟨send,inside,rest⟩ := sound.pending seq held found
      exact ⟨send,List.mem_cons_of_mem _ inside,rest⟩
  open_ := by
    intro seq held found outcome member
    obtain ⟨_,rfl⟩ | ⟨_,found⟩ := Dict.get?_set_cases found
    · have early := sound.issued _ member
      simp only at early
      omega
    · exact sound.open_ seq held found outcome member
  apart := by
    intro a b left right first second same
    obtain ⟨here,rfl⟩ | ⟨_,before⟩ := Dict.get?_set_cases first <;>
      obtain ⟨there,rfl⟩ | ⟨_,also⟩ := Dict.get?_set_cases second
    · exact here.trans there.symm
    · obtain ⟨send,inside,number,_⟩ := sound.pending b right also
      have early := (sound.sends send inside).2.1
      omega
    · obtain ⟨send,inside,number,_⟩ := sound.pending a left before
      have early := (sound.sends send inside).2.1
      omega
    · exact sound.apart a b left right before also same
  issued := (reserve_sound node s sound).issued
  once := sound.once

theorem sendReliable_sound (node : Node) (env : Env) (dst : Int) (message : Message) (s : Session)
    (sound : Sound node s) : Sound node (s.sendReliable node env dst message).2 := by
  unfold sendReliable
  split
  · exact sound
  split
  · exact sound
  split
  · exact sound
  split
  · exact sound
  rename_i reliable _ named
  simp only
  split
  · exact count_sound node _ (fun c => { c with txRejected := c.txRejected + 1 })
      (reject_sound node s sound)
  obtain ⟨grant,rfl⟩ := isReliable_grant message (by simpa using reliable)
  have winner : grant.winnerId = dst := by simpa [addresseeOf] using named
  have stamped := stamp_sound node (.grant grant) s sound
  split
  · exact reserve_sound node _ stamped
  · rename_i payload ok
    have opened := open_sound node (s.stamp node (.grant grant)).2 _ _
      { seq := (Message.grant grant).stamped node.id s.nextSeq |>.seq, dst := dst, payload := payload,
        future := s.futures, deadline := env.clock + node.params.retransmitTimeoutSec,
        kind := .grant, priority := urgent }
      stamped (List.mem_cons_self ..) rfl winner rfl ⟨_,ok⟩
    refine transmit_sound node env payload _ _ false (count_sound node _ _ opened) ?_
    exact ⟨_,List.mem_cons_self ..,_,ok⟩

theorem sendBroadcast_sound (node : Node) (env : Env) (message : Message) (s : Session)
    (sound : Sound node s) : Sound node (s.sendBroadcast node env message).2 := by
  unfold sendBroadcast
  split
  · exact sound
  split
  · exact sound
  have stamped := stamp_sound node message s sound
  simp only
  split
  · exact stamped
  · rename_i payload ok
    refine transmit_sound node env payload _ _ false (count_sound node _ _ stamped) ?_
    exact ⟨_,List.mem_cons_self ..,_,ok⟩

theorem pop_sound (node : Node) (s : Session) (seq : Int) (sound : Sound node s) :
    Sound node { s with pending := s.pending.pop seq } where
  numbered := sound.numbered
  next := sound.next
  packets := sound.packets
  sends := sound.sends
  single := sound.single
  pending := by
    intro other entry found
    exact sound.pending other entry (Dict.get?_pop_cases found).2
  open_ := by
    intro other entry found
    exact sound.open_ other entry (Dict.get?_pop_cases found).2
  apart := by
    intro a b left right first second
    exact sound.apart a b left right (Dict.get?_pop_cases first).2 (Dict.get?_pop_cases second).2
  issued := sound.issued
  once := sound.once

theorem renew_sound (node : Node) (s : Session) (seq : Int) (entry later : Pending)
    (sound : Sound node s) (found : s.pending.get? seq = some entry)
    (future : later.future = entry.future) (dst : later.dst = entry.dst)
    (payload : later.payload = entry.payload) :
    Sound node { s with pending := s.pending.set seq later } where
  numbered := sound.numbered
  next := sound.next
  packets := sound.packets
  sends := sound.sends
  single := sound.single
  pending := by
    intro other held here
    obtain ⟨rfl,rfl⟩ | ⟨_,here⟩ := Dict.get?_set_cases here
    · rw [future,dst,payload]
      exact sound.pending other entry found
    · exact sound.pending other held here
  open_ := by
    intro other held here
    obtain ⟨_,rfl⟩ | ⟨_,here⟩ := Dict.get?_set_cases here
    · rw [future]
      exact sound.open_ seq entry found
    · exact sound.open_ other held here
  apart := by
    intro a b left right first second same
    obtain ⟨here,rfl⟩ | ⟨_,before⟩ := Dict.get?_set_cases first <;>
      obtain ⟨there,rfl⟩ | ⟨_,also⟩ := Dict.get?_set_cases second
    · exact here.trans there.symm
    · rw [future] at same
      exact here.trans (sound.apart seq b _ right found also same)
    · rw [future] at same
      exact (sound.apart a seq left _ before found same).trans there.symm
    · exact sound.apart a b left right before also same
  issued := sound.issued
  once := sound.once

/-- The books in the middle of a sweep: what has expired is out of the table
and not yet resolved. -/
structure SweepSound (node : Node) (sweep : Sweep) : Prop where
  session : Sound node sweep.session
  resent : ∀ packet ∈ sweep.retransmit, ∃ send ∈ sweep.session.sends, Carries packet.1 send.message
  known : ∀ entry ∈ sweep.expired, entry.future < sweep.session.futures
  unresolved : ∀ entry ∈ sweep.expired, ∀ outcome, (entry.future,outcome) ∉ sweep.session.resolved
  gone : ∀ entry ∈ sweep.expired, ∀ seq held, sweep.session.pending.get? seq = some held →
    held.future ≠ entry.future
  distinct : (sweep.expired.map Pending.future).Nodup

theorem sweepOne_sound (node : Node) (now : ℚ) (sweep : Sweep) (seq : Int)
    (sound : SweepSound node sweep) : SweepSound node (sweepOne node now sweep seq) := by
  unfold sweepOne
  split
  · exact sound
  rename_i entry found
  split
  · exact sound
  split
  · have early : entry.future < sweep.session.futures := by
      obtain ⟨send,inside,future,_⟩ := sound.session.pending seq entry found
      exact future ▸ (sound.session.sends send inside).2.1
    refine ⟨count_sound node _ (fun c => { c with txFailed := c.txFailed + 1 })
      (pop_sound node _ seq sound.session),sound.resent,?_,?_,?_,?_⟩
    · intro held member
      rcases List.mem_append.mp member with inside | last
      · exact sound.known held inside
      · exact List.mem_singleton.mp last ▸ early
    · intro held member outcome
      rcases List.mem_append.mp member with inside | last
      · exact sound.unresolved held inside outcome
      · rw [List.mem_singleton.mp last]
        exact sound.session.open_ seq entry found outcome
    · intro held member other rival here
      obtain ⟨different,here⟩ := Dict.get?_pop_cases here
      rcases List.mem_append.mp member with inside | last
      · exact sound.gone held inside other rival here
      · rw [List.mem_singleton.mp last]
        intro same
        exact different (sound.session.apart other seq rival entry here found same)
    · rw [List.map_append,List.nodup_append]
      refine ⟨sound.distinct,by simp,?_⟩
      intro future member other single same
      obtain ⟨held,inside,rfl⟩ := List.mem_map.mp member
      simp only [List.map_singleton,List.mem_singleton] at single
      exact sound.gone held inside seq entry found (by rw [same,single])
  · have renewed := renew_sound node sweep.session seq entry
      { entry with
        attempts := entry.attempts + 1
        deadline := now + interval node.params (entry.attempts + 1) } sound.session found rfl rfl rfl
    refine ⟨count_sound node _ (fun c => { c with txRetransmits := c.txRetransmits + 1 }) renewed,?_,
      sound.known,sound.unresolved,?_,sound.distinct⟩
    · intro packet member
      rcases List.mem_append.mp member with inside | last
      · exact sound.resent packet inside
      · obtain ⟨send,inside,_,_,_,carries⟩ := sound.session.pending seq entry found
        rw [List.mem_singleton.mp last]
        exact ⟨send,inside,carries⟩
    · intro held member other rival here
      obtain ⟨_,rfl⟩ | ⟨_,here⟩ := Dict.get?_set_cases here
      · exact sound.gone held member seq entry found
      · exact sound.gone held member other rival here

theorem sweep_sound (node : Node) (now : ℚ) (seqs : List Int) (sweep : Sweep)
    (sound : SweepSound node sweep) : SweepSound node (seqs.foldl (sweepOne node now) sweep) := by
  induction seqs generalizing sweep with
  | nil => exact sound
  | cons seq seqs ih => exact ih _ (sweepOne_sound node now sweep seq sound)

theorem resend_sound (node : Node) (env : Env) (packets : List (Packet × Int)) (s : Session)
    (sound : Sound node s)
    (source : ∀ packet ∈ packets, ∃ message ∈ s.stamped, Carries packet.1 message) :
    Sound node (packets.foldl (fun s packet => (s.transmit env packet.1 packet.2).2) s) := by
  induction packets generalizing s with
  | nil => exact sound
  | cons packet packets ih =>
    have first := transmit_sound node env packet.1 packet.2 s false sound (source packet (by simp))
    refine ih _ first ?_
    intro other member
    have held := source other (by simp [member])
    obtain ⟨counters,same | sent⟩ := transmit_cases env packet.1 packet.2 s false
    · simpa only [same] using held
    · simpa only [sent] using held

theorem resend_fields (env : Env) (packets : List (Packet × Int)) (s : Session) :
    let s' := packets.foldl (fun s packet => (s.transmit env packet.1 packet.2).2) s
    s'.futures = s.futures ∧ s'.resolved = s.resolved ∧ s'.pending = s.pending := by
  induction packets generalizing s with
  | nil => exact ⟨rfl,rfl,rfl⟩
  | cons packet packets ih =>
    obtain ⟨counters,same | sent⟩ := transmit_cases env packet.1 packet.2 s false
    · simpa only [List.foldl_cons,same] using ih { s with counters := counters }
    · simpa only [List.foldl_cons,sent] using
        ih { s with counters := counters, transmitted := (packet.1,packet.2) :: s.transmitted }

theorem finish_sound (node : Node) (expired : List Pending) (s : Session) (sound : Sound node s)
    (known : ∀ entry ∈ expired, entry.future < s.futures)
    (unresolved : ∀ entry ∈ expired, ∀ outcome, (entry.future,outcome) ∉ s.resolved)
    (gone : ∀ entry ∈ expired, ∀ seq held, s.pending.get? seq = some held →
      held.future ≠ entry.future)
    (distinct : (expired.map Pending.future).Nodup) :
    Sound node (expired.foldl (fun s entry => s.finish entry .failed) s) := by
  induction expired generalizing s with
  | nil => exact sound
  | cons entry expired ih =>
    simp only [List.map_cons,List.nodup_cons] at distinct
    have first : Sound node (s.finish entry .failed) := by
      refine ⟨sound.numbered,sound.next,sound.packets,sound.sends,sound.single,sound.pending,?_,
        sound.apart,?_,?_⟩
      · intro seq held found outcome member
        rcases List.mem_cons.mp member with equal | inside
        · injection equal with equal
          exact gone entry (by simp) seq held found equal
        · exact sound.open_ seq held found outcome inside
      · intro result member
        rcases List.mem_cons.mp member with rfl | inside
        · exact known entry (by simp)
        · exact sound.issued result inside
      · simp only [finish,List.map_cons,List.nodup_cons]
        refine ⟨?_,sound.once⟩
        intro member
        obtain ⟨⟨future,outcome⟩,inside,same⟩ := List.mem_map.mp member
        exact unresolved entry (by simp) outcome (same ▸ inside)
    refine ih _ first (fun e m => known e (by simp [m])) ?_ (fun e m => gone e (by simp [m])) distinct.2
    intro other member outcome inside
    rcases List.mem_cons.mp inside with equal | inside
    · injection equal with equal
      exact distinct.1 (equal ▸ List.mem_map_of_mem member)
    · exact unresolved other (by simp [member]) outcome inside

theorem tick_sound (node : Node) (env : Env) (s : Session) (sound : Sound node s) :
    Sound node (s.tick node env) := by
  have start : SweepSound node { session := s } :=
    ⟨sound,by simp,by simp,by simp,by simp,by simp⟩
  have swept := sweep_sound node env.clock s.pending.keys _ start
  unfold tick
  generalize s.pending.keys.foldl (sweepOne node env.clock) { session := s } = sweep at swept ⊢
  have session := swept.session
  have pruned : Sound node { sweep.session with
      dedup := sweep.session.dedup.prune env.clock, notes := sweep.session.notes.prune env.clock } :=
    ⟨session.numbered,session.next,session.packets,session.sends,session.single,session.pending,
      session.open_,session.apart,session.issued,session.once⟩
  have source : ∀ packet ∈ sweep.retransmit, ∃ message ∈ sweep.session.stamped,
      Carries packet.1 message := by
    intro packet member
    obtain ⟨send,inside,carries⟩ := swept.resent packet member
    exact ⟨send.message,(session.sends send inside).1,carries⟩
  have resent := resend_sound node env sweep.retransmit _ pruned source
  obtain ⟨futures,resolved,pending⟩ := resend_fields env sweep.retransmit { sweep.session with
      dedup := sweep.session.dedup.prune env.clock, notes := sweep.session.notes.prune env.clock }
  refine finish_sound node sweep.expired _ resent ?_ ?_ ?_ swept.distinct
  · rw [futures]
    exact swept.known
  · rw [resolved]
    exact swept.unresolved
  · rw [pending]
    exact swept.gone

/-- A message passed up exactly when its id is new and it is not a note fragment. -/
def passesUp (env : Env) (message : Message) (s : Session) : Bool :=
  (s.dedup.firstSight (message.src,message.seq) env.clock).1 && decide (message.type ≠ .freeform)

theorem accept_cases (env : Env) (message : Message) (s : Session) :
    ∃ notes counters deliveredNotes, s.accept env message = { s with
      dedup := (s.dedup.firstSight (message.src,message.seq) env.clock).2
      notes := notes
      counters := counters
      delivered := if passesUp env message s then message :: s.delivered else s.delivered
      deliveredNotes := deliveredNotes } := by
  unfold accept
  cases first : (s.dedup.firstSight (message.src,message.seq) env.clock).1
  · refine ⟨s.notes,{ s.counters with rxDuplicates := s.counters.rxDuplicates + 1 },
      s.deliveredNotes,?_⟩
    simp [passesUp,first,count]
  · cases message with
    | freeform m =>
      refine ⟨(s.notes.add m env.clock).2,s.counters,
        (s.notes.add m env.clock).1.toList ++ s.deliveredNotes,?_⟩
      simp [passesUp,first,Message.type]
    | _ =>
      refine ⟨s.notes,{ s.counters with rxDelivered := s.counters.rxDelivered + 1 },
        s.deliveredNotes,?_⟩
      simp [passesUp,first,count,Message.type]

theorem accept_sound (node : Node) (env : Env) (message : Message) (s : Session)
    (sound : Sound node s) : Sound node (s.accept env message) := by
  obtain ⟨notes,counters,deliveredNotes,shape⟩ := accept_cases env message s
  rw [shape]
  exact ⟨sound.numbered,sound.next,sound.packets,sound.sends,sound.single,sound.pending,
    sound.open_,sound.apart,sound.issued,sound.once⟩

/-- An ACK is bookkeeping, or it closes the campaign it names. -/
theorem onAck_cases (node : Node) (ack : Ack) (s : Session) :
    ∃ counters, s.onAck node ack = { s with counters := counters } ∨
      ∃ entry, ack.ackSrc = node.id ∧ s.pending.get? ack.ackSeq = some entry ∧
        ack.src = entry.dst ∧ s.onAck node ack =
          ({ s with counters := counters, pending := s.pending.pop ack.ackSeq } : Session).finish
            entry .delivered := by
  by_cases ours : ack.ackSrc = node.id
  · cases found : s.pending.get? ack.ackSeq with
    | none =>
      refine ⟨{ s.counters with
        rxAcks := s.counters.rxAcks + 1, ackUnmatched := s.counters.ackUnmatched + 1 },.inl ?_⟩
      simp [onAck,matchAck,count,ours,found]
    | some entry =>
      by_cases addressee : ack.src = entry.dst
      · refine ⟨{ s.counters with
          rxAcks := s.counters.rxAcks + 1, txDelivered := s.counters.txDelivered + 1 },
          .inr ⟨entry,ours,rfl,addressee,?_⟩⟩
        simp [onAck,matchAck,count,finish,ours,found,addressee]
      · refine ⟨{ s.counters with
          rxAcks := s.counters.rxAcks + 1, ackWrongSrc := s.counters.ackWrongSrc + 1 },.inl ?_⟩
        simp [onAck,matchAck,count,ours,found,addressee]
  · refine ⟨{ s.counters with rxAcks := s.counters.rxAcks + 1 },.inl ?_⟩
    simp [onAck,matchAck,count,ours]

def ackFor (node : Node) (message : Message) (s : Session) : Message × Session :=
  s.stamp node (.ack ⟨0,0,message.src,message.seq⟩)

/-- All a received frame can do: nothing but counting, closing a campaign, or
accepting a message, with an ACK if one is owed. -/
inductive Received (node : Node) (env : Env) (payload : Packet) (s : Session) : Session → Prop
  | counted (counters : Counters) : Received node env payload s { s with counters := counters }
  | confirmed (ack : Ack) (counters : Counters) (entry : Pending)
      (read : decode payload = .ok (.ack ack)) (ours : ack.ackSrc = node.id)
      (found : s.pending.get? ack.ackSeq = some entry) (addressee : ack.src = entry.dst) :
      Received node env payload s
        (({ s with counters := counters, pending := s.pending.pop ack.ackSeq } : Session).finish
          entry .delivered)
  | heard (message : Message) (counters : Counters) (read : decode payload = .ok message)
      (data : message.type ≠ .ack) (foreign : message.src ≠ node.id)
      (silent : owesAck node message = false) :
      Received node env payload s (({ s with counters := counters } : Session).accept env message)
  | unackable (message : Message) (counters : Counters) (read : decode payload = .ok message) :
      Received node env payload s (ackFor node message { s with counters := counters }).2
  | acked (message : Message) (counters : Counters) (packet : Packet)
      (read : decode payload = .ok message) (data : message.type ≠ .ack)
      (foreign : message.src ≠ node.id) (owed : owesAck node message = true)
      (ok : encode (ackFor node message s).1 node.params.maxPayloadBytes = .ok packet) :
      Received node env payload s
        (((ackFor node message { s with counters := counters }).2.accept env message).transmit env
          packet urgent true).2

theorem onFrame_received (node : Node) (env : Env) (payload : Packet) (s : Session) :
    Received node env payload s (s.onFrame node env payload).state := by
  cases read : decode payload with
  | error error =>
    cases error <;>
      · simp only [onFrame,read,Flow.state_returned]
        exact .counted _
  | ok message =>
    by_cases kind : message.type = .ack
    · obtain ⟨ack,rfl⟩ : ∃ ack, message = .ack ack := by
        cases message <;> simp_all [Message.type]
      simp only [onFrame,read,Flow.state_returned]
      obtain ⟨counters,same | ⟨entry,ours,found,addressee,closed⟩⟩ := onAck_cases node ack
        (s.count (fun c => { c with rxFrames := c.rxFrames + 1 }))
      · rw [same]
        exact .counted _
      · rw [closed]
        exact .confirmed ack counters entry read ours found addressee
    · have data : s.onFrame node env payload =
          if message.src = node.id then .returned ((s.count (fun c =>
            { c with rxFrames := c.rxFrames + 1 })).count (fun c => { c with rxSelf := c.rxSelf + 1 }))
          else (s.count (fun c => { c with rxFrames := c.rxFrames + 1 })).onData node env message := by
        cases message <;> simp_all [onFrame,Message.type]
      rw [data]
      split
      · exact .counted _
      · rename_i foreign
        cases owed : owesAck node message with
        | false =>
          simp only [onData,owed]
          exact .heard message _ read kind foreign owed
        | true =>
          simp only [onData,owed,if_true]
          cases ok : encode (ackFor node message s).1 node.params.maxPayloadBytes with
          | error error =>
            have refused : encode ((s.count (fun c => { c with rxFrames := c.rxFrames + 1 })).stamp
                node (.ack ⟨0,0,message.src,message.seq⟩)).1 node.params.maxPayloadBytes =
                .error error := ok
            simp only [refused]
            exact .unackable message _ read
          | ok packet =>
            have accepted : encode ((s.count (fun c => { c with rxFrames := c.rxFrames + 1 })).stamp
                node (.ack ⟨0,0,message.src,message.seq⟩)).1 node.params.maxPayloadBytes =
                .ok packet := ok
            simp only [accepted]
            exact .acked message _ packet read kind foreign owed ok

theorem onFrame_sound (node : Node) (env : Env) (payload : Packet) (s : Session)
    (sound : Sound node s) : Sound node (s.onFrame node env payload).state := by
  have received := onFrame_received node env payload s
  generalize (s.onFrame node env payload).state = after at received ⊢
  cases received with
  | counted counters => exact count_sound node s (fun _ => counters) sound
  | confirmed ack counters entry _ _ found _ =>
    exact resolve_sound node _ ack.ackSeq entry .delivered
      (count_sound node s (fun _ => counters) sound) found
  | heard message counters =>
    exact accept_sound node env message _ (count_sound node s (fun _ => counters) sound)
  | unackable message counters =>
    exact stamp_sound node _ _ (count_sound node s (fun _ => counters) sound)
  | acked message counters packet _ _ _ _ ok =>
    have stamped := stamp_sound node (.ack ⟨0,0,message.src,message.seq⟩) _
      (count_sound node s (fun _ => counters) sound)
    refine transmit_sound node env packet urgent _ true (accept_sound node env message _ stamped) ?_
    refine ⟨(ackFor node message s).1,?_,_,ok⟩
    obtain ⟨notes,changed,deliveredNotes,shape⟩ := accept_cases env message
      (ackFor node message { s with counters := counters }).2
    rw [shape]
    exact List.mem_cons_self ..

/-- A step that hears nothing: what it sends is no ACK, and it delivers nothing. -/
structure Quiet (env : Env) (s after : Session) : Prop where
  stamped : ∀ message ∈ s.stamped, message ∈ after.stamped
  delivered : after.delivered = s.delivered
  seen : s.dedup.Unexpired env.clock → after.dedup.seen = s.dedup.seen
  packets : ∀ packet ∈ after.transmitted, packet ∈ s.transmitted ∨
    ∃ message, message.type ≠ .ack ∧ Carries packet.1 message
  confirmed : ∀ future, (future,.delivered) ∈ after.resolved → (future,.delivered) ∈ s.resolved
  sends : ∀ send ∈ after.sends, send ∈ s.sends ∨ send.future = s.futures

theorem Quiet.transmit (env : Env) (payload : Packet) (priority : Int) (s after : Session)
    (quiet : Quiet env s after) (message : Message) (data : message.type ≠ .ack)
    (carries : Carries payload message) : Quiet env s (after.transmit env payload priority).2 := by
  obtain ⟨counters,same | sent⟩ := transmit_cases env payload priority after false
  · rw [same]
    exact ⟨quiet.stamped,quiet.delivered,quiet.seen,quiet.packets,quiet.confirmed,quiet.sends⟩
  · rw [sent]
    refine ⟨quiet.stamped,quiet.delivered,quiet.seen,?_,quiet.confirmed,quiet.sends⟩
    intro packet member
    rcases List.mem_cons.mp member with rfl | inside
    · exact .inr ⟨message,data,carries⟩
    · exact quiet.packets packet inside

theorem sendReliable_quiet (node : Node) (env : Env) (dst : Int) (message : Message) (s : Session) :
    Quiet env s (s.sendReliable node env dst message).2 := by
  have nothing : Quiet env s s :=
    ⟨fun _ member => member,rfl,fun _ => rfl,fun _ member => .inl member,fun _ member => member,
      fun _ member => .inl member⟩
  unfold sendReliable
  split
  · exact nothing
  split
  · exact nothing
  split
  · exact nothing
  split
  · exact nothing
  rename_i kind reliable _ _
  simp only
  split
  · exact ⟨nothing.stamped,rfl,fun _ => rfl,nothing.packets,by simp [count],nothing.sends⟩
  split
  · exact ⟨fun _ member => List.mem_cons_of_mem _ member,rfl,fun _ => rfl,nothing.packets,nothing.confirmed,
      nothing.sends⟩
  · rename_i payload ok
    have data : ((s.stamp node message).1).type ≠ .ack := by
      simpa [stamp_fst,isAck] using kind
    refine Quiet.transmit env payload _ s _ ?_ _ data ⟨_,ok⟩
    refine ⟨fun _ member => List.mem_cons_of_mem _ member,rfl,fun _ => rfl,nothing.packets,nothing.confirmed,?_⟩
    intro send member
    rcases List.mem_cons.mp member with rfl | inside
    · exact .inr rfl
    · exact .inl inside

theorem sendBroadcast_quiet (node : Node) (env : Env) (message : Message) (s : Session) :
    Quiet env s (s.sendBroadcast node env message).2 := by
  have nothing : Quiet env s s :=
    ⟨fun _ member => member,rfl,fun _ => rfl,fun _ member => .inl member,fun _ member => member,
      fun _ member => .inl member⟩
  have stamped : Quiet env s (s.stamp node message).2 :=
    ⟨fun _ member => List.mem_cons_of_mem _ member,rfl,fun _ => rfl,nothing.packets,nothing.confirmed,
      nothing.sends⟩
  unfold sendBroadcast
  split
  · exact nothing
  split
  · exact nothing
  rename_i kind _
  simp only
  split
  · exact stamped
  · rename_i payload ok
    have data : ((s.stamp node message).1).type ≠ .ack := by
      simpa [stamp_fst,isAck] using kind
    refine Quiet.transmit env payload _ s _ ?_ _ data ⟨_,ok⟩
    exact ⟨stamped.stamped,rfl,fun _ => rfl,stamped.packets,stamped.confirmed,stamped.sends⟩

theorem transmit_dedup (env : Env) (payload : Packet) (priority : Int) (s : Session) (ack : Bool) :
    (s.transmit env payload priority ack).2.dedup = s.dedup := by
  obtain ⟨counters,same | sent⟩ := transmit_cases env payload priority s ack
  · rw [same]
  · rw [sent]

theorem sendReliable_dedup (node : Node) (env : Env) (dst : Int) (message : Message) (s : Session) :
    (s.sendReliable node env dst message).2.dedup = s.dedup := by
  unfold sendReliable
  split
  · rfl
  split
  · rfl
  split
  · rfl
  split
  · rfl
  simp only
  split
  · rfl
  split
  · rfl
  · exact transmit_dedup env _ _ _ false

theorem sendBroadcast_dedup (node : Node) (env : Env) (message : Message) (s : Session) :
    (s.sendBroadcast node env message).2.dedup = s.dedup := by
  unfold sendBroadcast
  split
  · rfl
  split
  · rfl
  simp only
  split
  · rfl
  · exact transmit_dedup env _ _ _ false

theorem resend_quiet (env : Env) (packets : List (Packet × Int)) (s after : Session)
    (quiet : Quiet env s after)
    (source : ∀ packet ∈ packets, ∃ message, message.type ≠ .ack ∧ Carries packet.1 message) :
    Quiet env s (packets.foldl (fun s packet => (s.transmit env packet.1 packet.2).2) after) := by
  induction packets generalizing after with
  | nil => exact quiet
  | cons packet packets ih =>
    obtain ⟨message,data,carries⟩ := source packet (by simp)
    exact ih _ (Quiet.transmit env packet.1 packet.2 s after quiet message data carries)
      (fun other member => source other (by simp [member]))

theorem finish_quiet (env : Env) (expired : List Pending) (s after : Session) (quiet : Quiet env s after) :
    Quiet env s (expired.foldl (fun s entry => s.finish entry .failed) after) := by
  induction expired generalizing after with
  | nil => exact quiet
  | cons entry expired ih =>
    refine ih _ ⟨quiet.stamped,quiet.delivered,quiet.seen,quiet.packets,?_,quiet.sends⟩
    intro future member
    rcases List.mem_cons.mp member with equal | inside
    · cases equal
    · exact quiet.confirmed future inside

theorem sweepOne_fields (node : Node) (now : ℚ) (sweep : Sweep) (seq : Int) :
    ∃ pending counters, (sweepOne node now sweep seq).session =
      { sweep.session with pending := pending, counters := counters } := by
  unfold sweepOne
  split
  · exact ⟨_,_,rfl⟩
  split
  · exact ⟨_,_,rfl⟩
  split
  · exact ⟨sweep.session.pending.pop seq,_,rfl⟩
  · exact ⟨sweep.session.pending.set seq _,_,rfl⟩

theorem sweep_fields (node : Node) (now : ℚ) (seqs : List Int) (sweep : Sweep) :
    ∃ pending counters, (seqs.foldl (sweepOne node now) sweep).session =
      { sweep.session with pending := pending, counters := counters } := by
  induction seqs generalizing sweep with
  | nil => exact ⟨_,_,rfl⟩
  | cons seq seqs ih =>
    obtain ⟨pending,counters,first⟩ := sweepOne_fields node now sweep seq
    obtain ⟨later,counted,rest⟩ := ih (sweepOne node now sweep seq)
    rw [first] at rest
    exact ⟨later,counted,rest⟩

theorem tick_quiet (node : Node) (env : Env) (s : Session) (sound : Sound node s) : Quiet env s (s.tick node env) := by
  have start : SweepSound node { session := s } :=
    ⟨sound,by simp,by simp,by simp,by simp,by simp⟩
  have swept := sweep_sound node env.clock s.pending.keys _ start
  obtain ⟨pending,counters,fields⟩ := sweep_fields node env.clock s.pending.keys { session := s }
  unfold tick
  generalize s.pending.keys.foldl (sweepOne node env.clock) { session := s } = sweep at swept fields ⊢
  refine finish_quiet env sweep.expired s _ (resend_quiet env sweep.retransmit s _ ?_ ?_)
  · rw [fields]
    refine ⟨fun _ member => member,rfl,?_,fun _ member => .inl member,fun _ member => member,
      fun _ member => .inl member⟩
    intro unexpired
    change (s.dedup.prune env.clock).seen = s.dedup.seen
    rw [DedupCache.prune_unexpired s.dedup env.clock unexpired]
  · intro packet member
    obtain ⟨send,inside,carries⟩ := swept.resent packet member
    obtain ⟨_,_,grant,kind,_⟩ := swept.session.sends send inside
    exact ⟨send.message,by simp [kind,Message.type],carries⟩

end Session
end AmigaFleet.Reliability
