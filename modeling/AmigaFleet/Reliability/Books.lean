import AmigaFleet.Reliability.NoteLink

/-! The books of one session. Every reliable send taken on is delivered, failed
or pending, and every future handed out is resolved or waits in the table, for
as long as no send takes the number of one that still waits. -/
namespace AmigaFleet.Reliability
open Lib AmigaFleet.Codec

inductive NoteError where
  | split (error : SplitError)
  | refused (error : ReliabilityError)
  deriving DecidableEq

namespace Session

def sendFragments (node : Node) (env : Env) : List Freeform → Session → Except ReliabilityError Unit × Session
  | [],s => (.ok (),s)
  | fragment::rest,s =>
    match s.sendBroadcast node env (.freeform fragment) with
    | (.ok _,s) => sendFragments node env rest s
    | (.error error,s) => (.error error,s)

def sendNote (node : Node) (env : Env) (taskId : Int) (text : String) (noteId : Option Int) (s : Session) :
    Except NoteError Nat × Session :=
  match splitNote taskId (noteId.getD s.nextNoteId) text node.params.maxPayloadBytes
      node.params.maxNoteFragments with
  | .error error => (.error (.split error),s)
  | .ok fragments =>
    match s.sendFragments node env fragments with
    | (.ok _,s) => (.ok fragments.length,s)
    | (.error error,s) => (.error (.refused error),s)

/-- The step leaves the table, the outcomes and what they are counted by alone. -/
structure Unbooked (s after : Session) : Prop where
  pending : after.pending = s.pending
  resolved : after.resolved = s.resolved
  reliable : after.counters.txReliable = s.counters.txReliable
  delivered : after.counters.txDelivered = s.counters.txDelivered
  failed : after.counters.txFailed = s.counters.txFailed

theorem Unbooked.refl (s : Session) : Unbooked s s := ⟨rfl,rfl,rfl,rfl,rfl⟩

theorem Unbooked.trans {s t after : Session} (first : Unbooked s t) (second : Unbooked t after) :
    Unbooked s after :=
  ⟨second.pending.trans first.pending,second.resolved.trans first.resolved,
    second.reliable.trans first.reliable,second.delivered.trans first.delivered,
    second.failed.trans first.failed⟩

theorem stamp_unbooked (node : Node) (message : Message) (s : Session) :
    Unbooked s (s.stamp node message).2 := ⟨rfl,rfl,rfl,rfl,rfl⟩

theorem transmit_unbooked (env : Env) (payload : Packet) (priority : Int) (s : Session) (ack : Bool) :
    Unbooked s (s.transmit env payload priority ack).2 := by
  cases ack <;> simp only [transmit,sendFrame,Bool.false_eq_true,if_true,if_false] <;> split <;>
    exact ⟨rfl,rfl,rfl,rfl,rfl⟩

theorem transmit_nextSeq (env : Env) (payload : Packet) (priority : Int) (s : Session) (ack : Bool) :
    (s.transmit env payload priority ack).2.nextSeq = s.nextSeq := by
  cases ack <;> simp only [transmit,sendFrame,Bool.false_eq_true,if_true,if_false] <;> split <;> rfl

/-- All `send_broadcast` can do. -/
inductive Broadcasts (node : Node) (message : Message) (s : Session) :
    Except ReliabilityError Bool → Session → Prop
  | refused (error : ReliabilityError) (kind : isAck message = true ∨ isUnicast message = true) :
      Broadcasts node message s (.error error) s
  | unencoded (error : CodecError)
      (bad : encode (message.stamped node.id s.nextSeq) node.params.maxPayloadBytes = .error error) :
      Broadcasts node message s (.error (.codec error)) (s.stamp node message).2
  | sent (payload : Packet) (reached : Bool) (after : Session)
      (good : encode (message.stamped node.id s.nextSeq) node.params.maxPayloadBytes = .ok payload)
      (advanced : after.nextSeq = (s.nextSeq + 1) % (seqMax + 1)) (same : Unbooked s after) :
      Broadcasts node message s (.ok reached) after

theorem sendBroadcast_broadcasts (node : Node) (env : Env) (message : Message) (s : Session) :
    Broadcasts node message s (s.sendBroadcast node env message).1 (s.sendBroadcast node env message).2 := by
  unfold sendBroadcast
  split
  · rename_i kind
    exact .refused _ (.inl kind)
  split
  · rename_i kind
    exact .refused _ (.inr kind)
  simp only
  split
  · rename_i bad
    exact .unencoded _ bad
  · rename_i payload good
    let counted := (s.stamp node message).2.count (fun c => { c with txBroadcast := c.txBroadcast + 1 })
    have same : Unbooked s counted := ⟨rfl,rfl,rfl,rfl,rfl⟩
    refine .sent payload _ _ good ?_ (same.trans (transmit_unbooked env payload _ counted false))
    exact transmit_nextSeq env payload _ counted false

theorem accept_unbooked (env : Env) (message : Message) (s : Session) :
    Unbooked s (s.accept env message) := by
  unfold accept
  simp only
  split
  · split <;> exact ⟨rfl,rfl,rfl,rfl,rfl⟩
  · exact ⟨rfl,rfl,rfl,rfl,rfl⟩

theorem sendBroadcast_unbooked (node : Node) (env : Env) (message : Message) (s : Session) :
    Unbooked s (s.sendBroadcast node env message).2 := by
  have spec := sendBroadcast_broadcasts node env message s
  generalize s.sendBroadcast node env message = result at spec ⊢
  obtain ⟨answer,after⟩ := result
  cases spec with
  | refused error kind => exact .refl _
  | unencoded error bad => exact stamp_unbooked node message s
  | sent payload reached _ good advanced same => exact same

theorem sendBroadcast_raised (node : Node) (env : Env) (message : Message) (error : ReliabilityError)
    (s : Session) (raised : (s.sendBroadcast node env message).1 = .error error) :
    (s.sendBroadcast node env message).2.counters = s.counters := by
  have spec := sendBroadcast_broadcasts node env message s
  generalize s.sendBroadcast node env message = result at spec raised ⊢
  obtain ⟨answer,after⟩ := result
  cases spec with
  | refused error kind => rfl
  | unencoded error bad => rfl
  | sent payload reached _ good advanced same => cases raised

theorem sendFragments_unbooked (node : Node) (env : Env) (fragments : List Freeform) (s : Session) :
    Unbooked s (s.sendFragments node env fragments).2 := by
  induction fragments generalizing s with
  | nil => exact .refl s
  | cons fragment rest ih =>
    have first := sendBroadcast_unbooked node env (.freeform fragment) s
    unfold sendFragments
    split
    · rename_i sent
      rw [sent] at first
      exact first.trans (ih _)
    · rename_i sent
      rw [sent] at first
      exact first

theorem sendNote_unbooked (node : Node) (env : Env) (taskId : Int) (text : String) (noteId : Option Int)
    (s : Session) : Unbooked s (s.sendNote node env taskId text noteId).2 := by
  unfold sendNote
  split
  · exact .refl s
  · rename_i fragments _
    have sent := sendFragments_unbooked node env fragments s
    split
    · rename_i ran
      rw [ran] at sent
      exact sent
    · rename_i ran
      rw [ran] at sent
      exact sent

theorem sendFragments_sound (node : Node) (env : Env) (fragments : List Freeform) (s : Session) (sound : Sound node s) :
    Sound node (s.sendFragments node env fragments).2 := by
  induction fragments generalizing s with
  | nil => exact sound
  | cons fragment rest ih =>
    have first := sendBroadcast_sound node env (.freeform fragment) s sound
    unfold sendFragments
    split
    · rename_i sent
      rw [sent] at first
      exact ih _ first
    · rename_i sent
      rw [sent] at first
      exact first

theorem sendNote_sound (node : Node) (env : Env) (taskId : Int) (text : String) (noteId : Option Int) (s : Session)
    (sound : Sound node s) : Sound node (s.sendNote node env taskId text noteId).2 := by
  unfold sendNote
  split
  · exact sound
  · rename_i fragments _
    have sent := sendFragments_sound node env fragments s sound
    split
    · rename_i ran
      rw [ran] at sent
      exact sent
    · rename_i ran
      rw [ran] at sent
      exact sent

theorem onData_unbooked (node : Node) (env : Env) (message : Message) (s : Session) :
    Unbooked s (s.onData node env message).state := by
  unfold onData
  split
  · simp only
    split
    · exact stamp_unbooked node _ s
    · refine Unbooked.trans ?_ (transmit_unbooked _ _ _ _ _)
      exact (stamp_unbooked node _ s).trans (accept_unbooked env message _)
  · exact accept_unbooked env message s

end Session

/-- The futures in `leaving` are out of the table and not yet resolved. -/
structure Booked (node : Node) (returned leaving : List Nat) (s : Session) : Prop where
  balance : s.counters.txReliable = s.counters.txDelivered + s.counters.txFailed + s.pending.size
  bounded : (s.pending.size : Int) ≤ node.params.maxPending
  kept : ∀ future ∈ returned, future ∈ s.resolved.map Prod.fst ∨
    (∃ seq entry, s.pending.get? seq = some entry ∧ entry.future = future) ∨ future ∈ leaving

namespace Booked
variable {node : Node} {returned leaving : List Nat} {s after : Session}

theorem unbooked (booked : Booked node returned leaving s) (same : Session.Unbooked s after) :
    Booked node returned leaving after where
  balance := by
    rw [same.reliable,same.delivered,same.failed,same.pending]
    exact booked.balance
  bounded := by
    rw [same.pending]
    exact booked.bounded
  kept := by
    rw [same.pending,same.resolved]
    exact booked.kept

theorem initial : Booked node [] [] (Session.init node) where
  balance := rfl
  bounded := le_trans zero_le_one node.params.somePending
  kept := by simp

/-- What leaves the table is counted as it leaves. -/
theorem popped (booked : Booked node returned leaving s) (after : Session) (seq : Int) (entry : Pending)
    (found : s.pending.get? seq = some entry) (pending : after.pending = s.pending.pop seq)
    (resolved : after.resolved = s.resolved) (reliable : after.counters.txReliable = s.counters.txReliable)
    (counted : after.counters.txDelivered + after.counters.txFailed =
      s.counters.txDelivered + s.counters.txFailed + 1) :
    Booked node returned (leaving ++ [entry.future]) after where
  balance := by
    have size := Dict.size_pop s.pending seq entry found
    have balance := booked.balance
    rw [reliable,counted,pending]
    omega
  bounded := by
    have size := Dict.size_pop s.pending seq entry found
    have bounded := booked.bounded
    rw [pending]
    omega
  kept := by
    intro future member
    rw [resolved,pending]
    obtain done | ⟨other,held,there,rfl⟩ | left := booked.kept future member
    · exact .inl done
    · by_cases same : other = seq
      · subst same
        rw [found] at there
        injection there with there
        exact .inr (.inr (by simp [there]))
      · exact .inr (.inl ⟨other,held,by rw [Dict.get?_pop_ne _ _ _ same,there],rfl⟩)
    · exact .inr (.inr (List.mem_append_left _ left))

theorem finished (entry : Pending) (outcome : Outcome)
    (booked : Booked node returned (entry.future :: leaving) s) :
    Booked node returned leaving (s.finish entry outcome) where
  balance := booked.balance
  bounded := booked.bounded
  kept := by
    intro future member
    obtain done | waiting | left := booked.kept future member
    · exact .inl (List.mem_cons_of_mem _ done)
    · exact .inr (.inl waiting)
    · obtain rfl | left := List.mem_cons.mp left
      · exact .inl (by simp [Session.finish])
      · exact .inr (.inr left)

theorem renewed (booked : Booked node returned leaving s) (after : Session) (seq : Int) (entry later : Pending)
    (found : s.pending.get? seq = some entry) (future : later.future = entry.future)
    (pending : after.pending = s.pending.set seq later) (resolved : after.resolved = s.resolved)
    (reliable : after.counters.txReliable = s.counters.txReliable)
    (delivered : after.counters.txDelivered = s.counters.txDelivered)
    (failed : after.counters.txFailed = s.counters.txFailed) : Booked node returned leaving after where
  balance := by
    rw [reliable,delivered,failed,pending,Dict.size_set,found]
    exact booked.balance
  bounded := by
    rw [pending,Dict.size_set,found]
    exact booked.bounded
  kept := by
    intro wanted member
    rw [resolved,pending]
    obtain done | ⟨other,held,there,rfl⟩ | left := booked.kept wanted member
    · exact .inl done
    · by_cases same : other = seq
      · subst same
        rw [found] at there
        injection there with there
        exact .inr (.inl ⟨other,later,Dict.get?_set_self _ _ _,by rw [future,there]⟩)
      · exact .inr (.inl ⟨other,held,by rw [Dict.get?_set_ne _ _ _ _ same,there],rfl⟩)
    · exact .inr (.inr left)

end Booked

/-- Every field of a fragment is in its range and the packet is short enough. -/
structure Fits (m : Freeform) (maxPayloadBytes : Int) : Prop where
  src : 0 ≤ m.src ∧ m.src ≤ srcMax
  seq : 0 ≤ m.seq ∧ m.seq ≤ seqMax
  taskId : 0 ≤ m.taskId ∧ m.taskId ≤ taskIdMax
  noteId : 0 ≤ m.noteId ∧ m.noteId ≤ noteIdMax
  index : 0 ≤ m.fragIndex ∧ m.fragIndex ≤ fragMax
  count : 0 ≤ m.fragCount ∧ m.fragCount ≤ fragMax
  size : (noteHeaderBytes + m.text.length : Nat) ≤ maxPayloadBytes

theorem fits_encode (m : Freeform) (maxPayloadBytes : Int) (fits : Fits m maxPayloadBytes) :
    ∃ payload, encode (.freeform m) maxPayloadBytes = .ok payload := by
  have values : toRaws (className .freeform) (layout .freeform) (Message.freeform m).values =
      .ok [m.taskId,m.noteId,m.fragIndex,m.fragCount] :=
    toRaws_of_range _ _ _ _ _ _ rfl rfl fits.taskId (toRaws_of_range _ _ _ _ _ _ rfl rfl fits.noteId
      (toRaws_of_range _ _ _ _ _ _ rfl rfl fits.index (toRaws_of_range _ _ _ _ _ _ rfl rfl fits.count rfl)))
  exact encode_of_parts (.freeform m) maxPayloadBytes _ _ _ (toRaw_of_range _ srcField _ rfl rfl fits.src)
    (toRaw_of_range _ seqField _ rfl rfl fits.seq) values fits.size

theorem encode_fits (m : Freeform) (maxPayloadBytes : Int) (payload : Packet)
    (ok : encode (.freeform m) maxPayloadBytes = .ok payload) : Fits m maxPayloadBytes := by
  obtain ⟨source,number,raws,first,second,third,shape,small⟩ := encode_packet _ _ _ ok
  obtain ⟨_,same,low,high,-⟩ := toRaw_number _ _ _ _ rfl first
  cases same
  obtain ⟨_,same,least,most,-⟩ := toRaw_number _ _ _ _ rfl second
  cases same
  obtain ⟨taskId,_,rest⟩ := toRaws_range _ _ _ _ _ _ rfl third
  obtain ⟨noteId,_,rest⟩ := toRaws_range _ _ _ _ _ _ rfl rest
  obtain ⟨index,_,rest⟩ := toRaws_range _ _ _ _ _ _ rfl rest
  obtain ⟨count,_,_⟩ := toRaws_range _ _ _ _ _ _ rfl rest
  have body : (Struct.packAll (slots .freeform) raws).length = Struct.size (slots .freeform) :=
    Struct.packAll_length _ _ (toRaws_fits _ _ _ _ (layout_length (.freeform m)) third).length_eq
  have length : payload.length = noteHeaderBytes + m.text.length := by
    rw [shape,List.length_append,List.length_append,Struct.packAll_length _ _ rfl]
    exact congrArg (fun n => headerBytes + n + m.text.length) body
  exact ⟨⟨low,high⟩,⟨least,most⟩,taskId,noteId,index,count,by omega⟩

theorem chunks_length_le (step : Nat) (blob chunk : List UInt8) (member : chunk ∈ chunks step blob) :
    chunk.length ≤ step := by
  obtain ⟨i,_,rfl⟩ := List.mem_map.mp member
  exact List.length_take_le _ _

/-- If one fragment of a note goes out, every fragment of it does. -/
theorem splitNote_fits (node : Node) (taskId noteId : Int) (text : String) (fragments : List Freeform)
    (one : Freeform) (number : Int)
    (split : splitNote taskId noteId text node.params.maxPayloadBytes node.params.maxNoteFragments = .ok fragments)
    (member : one ∈ fragments) (fits : Fits { one with src := node.id, seq := number } node.params.maxPayloadBytes)
    (other : Freeform) (also : other ∈ fragments) (seq : Int) (range : 0 ≤ seq ∧ seq ≤ seqMax) :
    Fits { other with src := node.id, seq := seq } node.params.maxPayloadBytes := by
  obtain ⟨-,-,pieces⟩ := splitNote_chunks _ _ _ _ _ _ split
  obtain ⟨task,note,count,-⟩ := pieces one member
  obtain ⟨sameTask,sameNote,sameCount,i,index,piece⟩ := pieces other also
  have early : i < (chunks (textBytesPerFragment node.params.maxPayloadBytes).toNat (encodeUtf8 text)).length :=
    (List.getElem?_eq_some_iff.mp piece).1
  have short := chunks_length_le _ _ _ (List.mem_of_getElem? piece)
  have counted := fits.count
  have size := fits.size
  refine ⟨fits.src,range,?_,?_,?_,?_,?_⟩
  · simpa only [sameTask,task] using fits.taskId
  · simpa only [sameNote,note] using fits.noteId
  · simp only [count] at counted
    simp only [index]
    omega
  · simpa only [sameCount,count] using counted
  · simp only [textBytesPerFragment] at short
    simp only at size ⊢
    omega

namespace Session

theorem sendFragments_fit (node : Node) (env : Env) (fragments : List Freeform) (s : Session)
    (range : 0 ≤ s.nextSeq ∧ s.nextSeq ≤ seqMax)
    (fits : ∀ fragment ∈ fragments, ∀ seq, 0 ≤ seq ∧ seq ≤ seqMax →
      Fits { fragment with src := node.id, seq := seq } node.params.maxPayloadBytes) :
    (s.sendFragments node env fragments).1 = .ok () := by
  induction fragments generalizing s with
  | nil => rfl
  | cons fragment rest ih =>
    have spec := sendBroadcast_broadcasts node env (.freeform fragment) s
    obtain ⟨payload,good⟩ := fits_encode _ _ (fits fragment (by simp) _ range)
    unfold sendFragments
    generalize s.sendBroadcast node env (.freeform fragment) = result at spec ⊢
    obtain ⟨answer,after⟩ := result
    cases spec with
    | refused error kind => simp [isAck,isUnicast,Message.type] at kind
    | unencoded error bad =>
      rw [Message.stamped,good] at bad
      cases bad
    | sent payload reached _ _ advanced same =>
      refine ih after ?_ (fun other member => fits other (List.mem_cons_of_mem _ member))
      simp only at advanced
      rw [advanced,seqMax]
      omega

theorem sendNote_raised (node : Node) (env : Env) (taskId : Int) (text : String) (noteId : Option Int)
    (error : NoteError) (s : Session) (raised : (s.sendNote node env taskId text noteId).1 = .error error) :
    (s.sendNote node env taskId text noteId).2.counters = s.counters := by
  unfold sendNote at raised ⊢
  split
  · rfl
  rename_i fragments split
  simp only [split] at raised
  cases fragments with
  | nil => rfl
  | cons one rest =>
    unfold sendFragments at raised ⊢
    have spec := sendBroadcast_broadcasts node env (.freeform one) s
    generalize s.sendBroadcast node env (.freeform one) = result at spec raised ⊢
    obtain ⟨answer,after⟩ := result
    cases spec with
    | refused error kind => rfl
    | unencoded error bad => rfl
    | sent payload reached _ good advanced same =>
      have fits := encode_fits _ _ _ good
      have sent := sendFragments_fit node env rest after
        (by simp only at advanced; rw [advanced,seqMax]; omega)
        (fun other member seq range =>
          splitNote_fits node _ _ _ _ one _ split (by simp) fits other (by simp [member]) seq range)
      simp only at raised
      split at raised
      · cases raised
      · rename_i ran
        rw [ran] at sent
        cases sent

theorem onAck_booked (node : Node) (ack : Ack) (returned : List Nat) (s : Session)
    (booked : Booked node returned [] s) : Booked node returned [] (s.onAck node ack) := by
  have counted : Booked node returned [] (s.count (fun c => { c with rxAcks := c.rxAcks + 1 })) :=
    booked.unbooked ⟨rfl,rfl,rfl,rfl,rfl⟩
  by_cases ours : ack.ackSrc = node.id
  · cases found : s.pending.get? ack.ackSeq with
    | none =>
      have shape : s.onAck node ack = (s.count (fun c => { c with rxAcks := c.rxAcks + 1 })).count
          (fun c => { c with ackUnmatched := c.ackUnmatched + 1 }) := by
        simp [onAck,matchAck,count,ours,found]
      rw [shape]
      exact counted.unbooked ⟨rfl,rfl,rfl,rfl,rfl⟩
    | some entry =>
      by_cases addressee : ack.src = entry.dst
      · let closed : Session := ({ s with pending := s.pending.pop ack.ackSeq }).count (fun c =>
          { c with rxAcks := c.rxAcks + 1, txDelivered := c.txDelivered + 1 })
        have shape : s.onAck node ack = closed.finish entry .delivered := by
          simp [closed,onAck,matchAck,count,finish,ours,found,addressee]
        have popped := booked.popped closed ack.ackSeq entry found rfl rfl rfl
          (by simp only [closed,count]; omega)
        rw [shape]
        exact popped.finished entry .delivered
      · have shape : s.onAck node ack = (s.count (fun c => { c with rxAcks := c.rxAcks + 1 })).count
            (fun c => { c with ackWrongSrc := c.ackWrongSrc + 1 }) := by
          simp [onAck,matchAck,count,ours,found,addressee]
        rw [shape]
        exact counted.unbooked ⟨rfl,rfl,rfl,rfl,rfl⟩
  · have shape : s.onAck node ack = s.count (fun c => { c with rxAcks := c.rxAcks + 1 }) := by
      simp [onAck,matchAck,count,ours]
    rw [shape]
    exact counted

theorem onFrame_booked (node : Node) (env : Env) (payload : Packet) (returned : List Nat) (s : Session)
    (booked : Booked node returned [] s) : Booked node returned [] (s.onFrame node env payload).state := by
  have counted : Booked node returned [] (s.count (fun c => { c with rxFrames := c.rxFrames + 1 })) :=
    booked.unbooked ⟨rfl,rfl,rfl,rfl,rfl⟩
  unfold onFrame
  simp only
  split
  · exact counted.unbooked ⟨rfl,rfl,rfl,rfl,rfl⟩
  · exact counted.unbooked ⟨rfl,rfl,rfl,rfl,rfl⟩
  · exact counted.unbooked ⟨rfl,rfl,rfl,rfl,rfl⟩
  · exact onAck_booked node _ returned _ counted
  · split
    · exact counted.unbooked ⟨rfl,rfl,rfl,rfl,rfl⟩
    · exact counted.unbooked (onData_unbooked node env _ _)

theorem sweepOne_booked (node : Node) (now : ℚ) (returned : List Nat) (sweep : Sweep) (seq : Int)
    (booked : Booked node returned (sweep.expired.map Pending.future) sweep.session) :
    Booked node returned ((sweepOne node now sweep seq).expired.map Pending.future)
      (sweepOne node now sweep seq).session := by
  unfold sweepOne
  split
  · exact booked
  rename_i entry found
  split
  · exact booked
  split
  · simp only [List.map_append,List.map_singleton]
    exact booked.popped _ seq entry found rfl rfl rfl (by simp only [count]; omega)
  · exact booked.renewed _ seq entry { entry with
      attempts := entry.attempts + 1
      deadline := now + interval node.params (entry.attempts + 1) } found rfl rfl rfl rfl rfl rfl

theorem sweep_booked (node : Node) (now : ℚ) (returned : List Nat) (seqs : List Int) (sweep : Sweep)
    (booked : Booked node returned (sweep.expired.map Pending.future) sweep.session) :
    Booked node returned ((seqs.foldl (sweepOne node now) sweep).expired.map Pending.future)
      (seqs.foldl (sweepOne node now) sweep).session := by
  induction seqs generalizing sweep with
  | nil => exact booked
  | cons seq seqs ih => exact ih _ (sweepOne_booked node now returned sweep seq booked)

theorem resend_unbooked (env : Env) (packets : List (Packet × Int)) (s : Session) :
    Unbooked s (packets.foldl (fun s packet => (s.transmit env packet.1 packet.2).2) s) := by
  induction packets generalizing s with
  | nil => exact .refl s
  | cons packet packets ih => exact (transmit_unbooked env packet.1 packet.2 s false).trans (ih _)

theorem finish_booked (node : Node) (returned : List Nat) (expired : List Pending) (s : Session)
    (booked : Booked node returned (expired.map Pending.future) s) :
    Booked node returned [] (expired.foldl (fun s entry => s.finish entry .failed) s) := by
  induction expired generalizing s with
  | nil => exact booked
  | cons entry expired ih => exact ih _ (Booked.finished entry .failed booked)

theorem tick_booked (node : Node) (env : Env) (returned : List Nat) (s : Session)
    (booked : Booked node returned [] s) : Booked node returned [] (s.tick node env) := by
  have swept := sweep_booked node env.clock returned s.pending.keys { session := s } booked
  unfold tick
  generalize s.pending.keys.foldl (sweepOne node env.clock) { session := s } = sweep at swept ⊢
  refine finish_booked node returned sweep.expired _ (Booked.unbooked ?_ (resend_unbooked env _ _))
  exact swept.unbooked ⟨rfl,rfl,rfl,rfl,rfl⟩

/-- `send_reliable` takes the message into the table. -/
structure Admits (node : Node) (dst : Int) (message : Message) (s : Session) : Prop where
  reliable : isReliable message = true
  inRange : 1 ≤ dst ∧ dst ≤ srcMax
  addressed : ∀ named, addresseeOf message = some named → named = dst
  room : (s.pending.size : Int) < node.params.maxPending
  encodes : ∃ payload, encode (s.stamp node message).1 node.params.maxPayloadBytes = .ok payload

/-- All `send_reliable` can do: raise, resolve the future at once, or take the
message into the table under the next number. -/
inductive Reliably (node : Node) (dst : Int) (message : Message) (s : Session) :
    Except ReliabilityError Nat → Session → Prop
  | raised (error : ReliabilityError) (after : Session) (refused : ¬s.Admits node dst message)
      (pending : after.pending = s.pending) (resolved : after.resolved = s.resolved)
      (counters : after.counters = s.counters) : Reliably node dst message s (.error error) after
  | rejected (after : Session) (refused : ¬s.Admits node dst message) (pending : after.pending = s.pending)
      (resolved : after.resolved = (s.futures,.failed) :: s.resolved)
      (counters : after.counters = { s.counters with txRejected := s.counters.txRejected + 1 }) :
      Reliably node dst message s (.ok s.futures) after
  | admitted (entry : Pending) (mid after : Session) (admits : s.Admits node dst message)
      (future : entry.future = s.futures) (pending : mid.pending = s.pending.set s.nextSeq entry)
      (resolved : mid.resolved = s.resolved)
      (counters : mid.counters = { s.counters with txReliable := s.counters.txReliable + 1 })
      (sent : Unbooked mid after) : Reliably node dst message s (.ok s.futures) after

theorem sendReliable_reliably (node : Node) (env : Env) (dst : Int) (message : Message) (s : Session) :
    Reliably node dst message s (s.sendReliable node env dst message).1
      (s.sendReliable node env dst message).2 := by
  unfold sendReliable
  split
  · rename_i ack
    exact .raised _ _ (fun admits => by simpa [isReliable,ack] using admits.reliable) rfl rfl rfl
  split
  · rename_i unreliable
    exact .raised _ _ (fun admits => by simp [admits.reliable] at unreliable) rfl rfl rfl
  split
  · rename_i outside
    exact .raised _ _ (fun admits => outside admits.inRange) rfl rfl rfl
  rename_i reliable inRange
  have whose : (addresseeOf message).any (fun named => named ≠ dst) = false ↔
      ∀ named, addresseeOf message = some named → named = dst := by
    cases addresseeOf message <;> simp
  split
  · rename_i misdirected
    exact .raised _ _ (fun admits => by rw [whose.mpr admits.addressed] at misdirected; cases misdirected)
      rfl rfl rfl
  rename_i named
  simp only
  split
  · rename_i full
    exact .rejected _ (fun admits => absurd admits.room (not_lt.mpr full)) rfl rfl rfl
  rename_i room
  split
  · rename_i bad
    refine .raised _ _ (fun admits => ?_) rfl rfl rfl
    obtain ⟨payload,good⟩ := admits.encodes
    rw [stamp_fst] at good bad
    rw [good] at bad
    cases bad
  · rename_i payload ok
    have admits : s.Admits node dst message :=
      ⟨by simpa using reliable,not_not.mp inRange,whose.mp (by simpa using named),not_le.mp room,payload,ok⟩
    let sent := message.stamped node.id s.nextSeq
    let entry : Pending :=
      { seq := sent.seq, dst := dst, payload := payload, future := s.futures
        deadline := env.clock + node.params.retransmitTimeoutSec
        kind := sent.type, priority := priorityOf sent }
    let mid : Session := { s with
      nextSeq := (s.nextSeq + 1) % (seqMax + 1)
      stamped := sent :: s.stamped
      futures := s.futures + 1
      pending := s.pending.set sent.seq entry
      sends := ⟨s.futures,dst,sent⟩ :: s.sends
      counters := { s.counters with txReliable := s.counters.txReliable + 1 } }
    refine .admitted entry mid _ admits rfl ?_ rfl rfl (transmit_unbooked env payload (priorityOf sent) mid false)
    simp only [mid,sent,Message.stamped_seq]

theorem sendReliable_booked (node : Node) (env : Env) (dst : Int) (message : Message) (returned : List Nat)
    (s : Session) (booked : Booked node returned [] s)
    (unused : s.Admits node dst message → s.pending.get? s.nextSeq = none) :
    Booked node (((s.sendReliable node env dst message).1.toOption).toList ++ returned) []
      (s.sendReliable node env dst message).2 := by
  have spec := sendReliable_reliably node env dst message s
  generalize s.sendReliable node env dst message = result at spec ⊢
  obtain ⟨answer,after⟩ := result
  simp only at spec ⊢
  cases spec with
  | raised error _ refused pending resolved counters =>
    exact booked.unbooked ⟨pending,resolved,by rw [counters],by rw [counters],by rw [counters]⟩
  | rejected _ refused pending resolved counters =>
    refine ⟨?_,?_,?_⟩
    · rw [counters,pending]
      exact booked.balance
    · rw [pending]
      exact booked.bounded
    · intro future member
      rw [resolved,pending]
      obtain rfl | old := List.mem_cons.mp member
      · exact .inl (by simp)
      · exact (booked.kept future old).imp_left (List.mem_cons_of_mem _)
  | admitted entry mid _ admits future pending resolved counters sent =>
    have fresh := unused admits
    refine Booked.unbooked ⟨?_,?_,?_⟩ sent
    · have balance := booked.balance
      rw [counters,pending,Dict.size_set,fresh]
      simp only [Option.isSome_none,Bool.false_eq_true,if_false]
      omega
    · have room := admits.room
      rw [pending,Dict.size_set,fresh]
      simp only [Option.isSome_none,Bool.false_eq_true,if_false]
      omega
    · intro wanted member
      rw [resolved,pending]
      obtain rfl | old := List.mem_cons.mp member
      · exact .inr (.inl ⟨_,entry,Dict.get?_set_self _ _ _,future⟩)
      · obtain done | ⟨seq,held,there,rfl⟩ | left := booked.kept wanted old
        · exact .inl done
        · have other : seq ≠ s.nextSeq := by
            rintro rfl
            rw [fresh] at there
            cases there
          exact .inr (.inl ⟨seq,held,by rw [Dict.get?_set_ne _ _ _ _ other,there],rfl⟩)
        · exact .inr (.inr left)

end Session

/-- A session and the futures its callers hold. -/
structure Ledger where
  session : Session
  returned : List Nat := []

inductive Request where
  | call (call : Call)
  | sendNote (taskId : Int) (text : String) (noteId : Option Int)

structure LedgerLabel where
  env : Env
  request : Request

namespace Ledger
variable (node : Node)

def next (l : Ledger) (label : LedgerLabel) : Ledger :=
  match label.request with
  | .call (.sendReliable dst message) =>
    let (answer,session) := l.session.sendReliable node label.env dst message
    ⟨session,answer.toOption.toList ++ l.returned⟩
  | .call call => { l with session := perform node label.env l.session call }
  | .sendNote taskId text noteId => { l with session := (l.session.sendNote node label.env taskId text noteId).2 }

def machine : Machine Ledger LedgerLabel where
  initial l := l = ⟨Session.init node,[]⟩
  enabled _ _ := True
  next := next node

/-- The call raises. -/
def raises (l : Ledger) (label : LedgerLabel) : Bool :=
  match label.request with
  | .call (.sendReliable dst message) => (l.session.sendReliable node label.env dst message).1.toOption.isNone
  | .call (.sendBroadcast message) => (l.session.sendBroadcast node label.env message).1.toOption.isNone
  | .call _ => false
  | .sendNote taskId text noteId => (l.session.sendNote node label.env taskId text noteId).1.toOption.isNone

structure Kept (l : Ledger) : Prop where
  balance : l.session.counters.txReliable =
    l.session.counters.txDelivered + l.session.counters.txFailed + l.session.pending.size
  bounded : (l.session.pending.size : Int) ≤ node.params.maxPending
  futures : ∀ future ∈ l.returned, future ∈ l.session.resolved.map Prod.fst ∨
    ∃ seq entry, l.session.pending.get? seq = some entry ∧ entry.future = future
  raising : ∀ label, raises node l label = true →
    (next node l label).session.pending = l.session.pending ∧
      (next node l label).session.counters = l.session.counters

/-- A send is taken on only under a number no pending send has. -/
def Unused (l : Ledger) (label : LedgerLabel) : Prop :=
  match label.request with
  | .call (.sendReliable dst message) =>
    l.session.Admits node dst message → l.session.pending.get? l.session.nextSeq = none
  | _ => True

theorem next_booked (l : Ledger) (label : LedgerLabel) (booked : Booked node l.returned [] l.session)
    (unused : Unused node l label) : Booked node (next node l label).returned [] (next node l label).session := by
  obtain ⟨env,request⟩ := label
  cases request with
  | call call =>
    cases call with
    | sendReliable dst message =>
      exact Session.sendReliable_booked node env dst message l.returned l.session booked unused
    | sendBroadcast message => exact booked.unbooked (Session.sendBroadcast_unbooked node env message l.session)
    | tick => exact Session.tick_booked node env l.returned l.session booked
    | onFrame payload => exact Session.onFrame_booked node env payload l.returned l.session booked
  | sendNote taskId text noteId =>
    exact booked.unbooked (Session.sendNote_unbooked node env taskId text noteId l.session)

theorem next_raised (l : Ledger) (label : LedgerLabel) (raised : raises node l label = true) :
    (next node l label).session.pending = l.session.pending ∧
      (next node l label).session.counters = l.session.counters := by
  obtain ⟨env,request⟩ := label
  cases request with
  | call call =>
    cases call with
    | sendReliable dst message =>
      have spec := Session.sendReliable_reliably node env dst message l.session
      simp only [raises,next] at raised ⊢
      generalize l.session.sendReliable node env dst message = result at spec raised ⊢
      obtain ⟨answer,after⟩ := result
      cases spec with
      | raised error _ refused pending resolved counters => exact ⟨pending,counters⟩
      | rejected _ refused pending resolved counters => cases raised
      | admitted entry mid _ admits future pending resolved counters sent => cases raised
    | sendBroadcast message =>
      refine ⟨(Session.sendBroadcast_unbooked node env message l.session).pending,?_⟩
      cases answer : (l.session.sendBroadcast node env message).1 with
      | ok reached => simp [raises,answer,Except.toOption] at raised
      | error error => exact Session.sendBroadcast_raised node env message error l.session answer
    | tick => cases raised
    | onFrame payload => cases raised
  | sendNote taskId text noteId =>
    refine ⟨(Session.sendNote_unbooked node env taskId text noteId l.session).pending,?_⟩
    cases answer : (l.session.sendNote node env taskId text noteId).1 with
    | ok count => simp [raises,answer,Except.toOption] at raised
    | error error => exact Session.sendNote_raised node env taskId text noteId error l.session answer

theorem reached_booked (l : Ledger) (reached : (machine node).Reaches (Unused node) l) :
    Booked node l.returned [] l.session := by
  refine Machine.Reaches.invariant (fun l => Booked node l.returned [] l.session) ?_ ?_ l reached
  · rintro s rfl
    exact .initial
  · intro s label _ booked _ unused
    exact next_booked node s label booked unused

/-- A grant to the other robot, and a broadcast that only takes a number. -/
def granting : LedgerLabel := ⟨{ clock := 0 },.call (.sendReliable 2 (.grant ⟨0,0,1,2⟩))⟩

def beating : LedgerLabel := ⟨{ clock := 0 },.call (.sendBroadcast (.heartbeat ⟨0,0,0,0,0,0,100,0⟩))⟩

theorem beating_next (l : Ledger) :
    (next node l beating).session.nextSeq = (l.session.nextSeq + 1) % (seqMax + 1) ∧
      Session.Unbooked l.session (next node l beating).session := by
  have spec := Session.sendBroadcast_broadcasts node ⟨0,fun _ => true⟩ (.heartbeat ⟨0,0,0,0,0,0,100,0⟩) l.session
  simp only [next,beating,perform]
  generalize l.session.sendBroadcast node _ _ = result at spec ⊢
  obtain ⟨answer,after⟩ := result
  cases spec with
  | refused error kind => simp [isAck,isUnicast,Message.type] at kind
  | unencoded error bad => exact ⟨rfl,Session.stamp_unbooked node _ _⟩
  | sent payload reached _ good advanced same => exact ⟨advanced,same⟩

theorem beating_runs (n : Nat) (l : Ledger) (range : 0 ≤ l.session.nextSeq ∧ l.session.nextSeq ≤ seqMax) :
    ((machine node).runs l (List.replicate n beating)).session.nextSeq = (l.session.nextSeq + n) % (seqMax + 1) ∧
      Session.Unbooked l.session ((machine node).runs l (List.replicate n beating)).session := by
  induction n generalizing l with
  | zero =>
    refine ⟨?_,.refl _⟩
    simp only [seqMax] at range
    simp only [List.replicate,Machine.runs,List.foldl,seqMax]
    omega
  | succ n ih =>
    obtain ⟨advanced,same⟩ := beating_next node l
    have within : 0 ≤ (next node l beating).session.nextSeq ∧ (next node l beating).session.nextSeq ≤ seqMax := by
      rw [advanced,seqMax]
      omega
    obtain ⟨number,unbooked⟩ := ih (next node l beating) within
    refine ⟨?_,same.trans unbooked⟩
    refine number.trans ?_
    rw [advanced]
    simp only [seqMax]
    omega

theorem granting_next (l : Ledger) (number : l.session.nextSeq = 0) (room : l.session.pending.size < 32) :
    (next Node.first l granting).session.counters.txReliable = l.session.counters.txReliable + 1 ∧
      (next Node.first l granting).session.counters.txDelivered = l.session.counters.txDelivered ∧
      (next Node.first l granting).session.counters.txFailed = l.session.counters.txFailed ∧
      ∃ entry, (next Node.first l granting).session.pending = l.session.pending.set 0 entry := by
  have admits : l.session.Admits Node.first 2 (.grant ⟨0,0,1,2⟩) := by
    have most : Node.first.params.maxPending = 32 := rfl
    refine ⟨rfl,by decide,fun named same => (Option.some.inj same).symm,by omega,?_⟩
    rw [Session.stamp_fst,number]
    exact ⟨_,rfl⟩
  have spec := Session.sendReliable_reliably Node.first ⟨0,fun _ => true⟩ 2 (.grant ⟨0,0,1,2⟩) l.session
  simp only [next,granting]
  generalize l.session.sendReliable Node.first _ _ _ = result at spec ⊢
  obtain ⟨answer,after⟩ := result
  cases spec with
  | raised error _ refused pending resolved counters => exact absurd admits refused
  | rejected _ refused pending resolved counters => exact absurd admits refused
  | admitted entry mid _ _ future pending resolved counters sent =>
    rw [number] at pending
    simp only
    rw [sent.reliable,sent.delivered,sent.failed,sent.pending,counters,pending]
    exact ⟨rfl,rfl,rfl,entry,rfl⟩

/-- A grant that takes the number of a waiting one leaves books that do not balance. -/
theorem granting_replaces (l : Ledger) (number : l.session.nextSeq = 0) (room : l.session.pending.size < 32)
    (waiting : (l.session.pending.get? 0).isSome = true) (kept : Kept Node.first l) :
    ¬Kept Node.first (next Node.first l granting) := by
  intro after
  obtain ⟨reliable,delivered,failed,entry,pending⟩ := granting_next l number room
  have balance := after.balance
  rw [reliable,delivered,failed,pending,Dict.size_set,if_pos waiting,kept.balance] at balance
  omega

end Ledger
end AmigaFleet.Reliability
