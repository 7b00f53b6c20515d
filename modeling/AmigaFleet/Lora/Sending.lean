import AmigaFleet.Lora.Service

/-! The outbound side of a bridge at work: what is offered, queued, written and counted. -/
namespace AmigaFleet.Lora
open Lib

namespace BoundedPriorityRingQueue
variable {α : Type}

/-- The queue as it would be open. -/
def reopened (q : BoundedPriorityRingQueue α) : BoundedPriorityRingQueue α := { q with closed := false }

theorem reopened_open (q : BoundedPriorityRingQueue α) (opened : q.closed = false) : q.reopened = q := by
  cases q
  cases opened
  rfl

theorem get_reopened (q : BoundedPriorityRingQueue α) : q.reopened.get.2 = q.get.2.reopened := by
  have found : q.reopened.highestOccupied = q.highestOccupied := rfl
  unfold get
  rw [found]
  cases q.highestOccupied with
  | none => rfl
  | some index => rfl

theorem returns_reopened (q : BoundedPriorityRingQueue α) : q.reopened.returns = q.returns := by
  have found : q.reopened.highestOccupied = q.highestOccupied := rfl
  unfold returns get
  rw [found]
  cases q.highestOccupied with
  | none => rfl
  | some index => rfl

theorem put_levels (q : BoundedPriorityRingQueue α) (item : α) (priority : Int) : (q.put item priority).2.levels = q.levels := by
  cases closed : q.closed with
  | true => rw [q.put_closed item priority closed]
  | false =>
    obtain ⟨_,same⟩ | ⟨_,_,same⟩ | ⟨victim,_,_,_,_,_,same⟩ := q.put_cases item priority closed
    · rw [same]
      rfl
    · rw [same]
      rfl
    · rw [same]
      rfl

theorem put_opened (q : BoundedPriorityRingQueue α) (item : α) (priority : Int) : (q.put item priority).2.closed = q.closed := by
  cases closed : q.closed with
  | true => rw [q.put_closed item priority closed,closed]
  | false =>
    obtain ⟨_,same⟩ | ⟨_,_,same⟩ | ⟨victim,_,_,_,_,_,same⟩ := q.put_cases item priority closed
    · rw [same]
      exact closed
    · rw [same]
      exact closed
    · rw [same]
      exact closed

theorem get_levels (q : BoundedPriorityRingQueue α) : q.get.2.levels = q.levels := by
  obtain ⟨_,same⟩ | ⟨index,item,rest,_,_,same⟩ := q.get_oldest
  · rw [same]
  · rw [same]
    rfl

end BoundedPriorityRingQueue

namespace LoRaBridge
variable {H : Type}

/-- What the outbound side of a bridge is, and how its record accounts for it. -/
structure Outbound (b : LoRaBridge H) (o : Sending) : Prop where
  bounded : b.maxPayload ≤ maxBodyBytes
  bands : b.txQueue.levels = txBandNames.length
  closed : b.txQueue.closed = b.stopped
  queue : BoundedPriorityRingQueue.Usage.Accounted ⟨b.txQueue.reopened,o.puts,o.returned⟩
  fits : ∀ e ∈ o.puts, (e.2.length : Int) ≤ b.maxPayload
  asked : o.puts.Sublist (o.offered.map (fun msg => (band msg,msg.data)))
  offered : o.offered.length = o.late + b.txOversize + o.puts.length
  opened : b.stopped = false → o.late = 0
  taken : o.returned.map Prod.snd = o.writes.map Prod.fst ++ b.inHand
  framed : ∀ payload wire, b.writer = .writing payload wire → encodeFrame payload = .ok wire
  written : ∀ w ∈ o.writes, ∃ wire, encodeFrame w.1 = .ok wire ∧ w.2 <+: wire
  counted : b.txFrames + b.txWriteErrors = o.writes.length
  flushed : b.txFrames ≤ (o.writes.filter (fun w => encodeFrame w.1 = .ok w.2)).length

/-- The fields that the outbound side reads and writes. -/
def outbound (b : LoRaBridge H) :
    Int × BoundedPriorityRingQueue (List UInt8) × Bool × Writer × Nat × Nat × Nat :=
  (b.maxPayload,b.txQueue,b.stopped,b.writer,b.txFrames,b.txOversize,b.txWriteErrors)

theorem Outbound.frame (b after : LoRaBridge H) (o : Sending) (same : after.outbound = b.outbound)
    (out : b.Outbound o) : after.Outbound o := by
  obtain ⟨m,l,q,rx,p,k,f,v,w,n,st,wr,re,pu⟩ := b
  obtain ⟨m',l',q',rx',p',k',f',v',w',n',st',wr',re',pu'⟩ := after
  simp only [outbound,Prod.mk.injEq] at same
  obtain ⟨rfl,rfl,rfl,rfl,rfl,rfl,rfl⟩ := same
  exact ⟨out.bounded,out.bands,out.closed,out.queue,out.fits,out.asked,out.offered,out.opened,out.taken,out.framed,
    out.written,out.counted,out.flushed⟩

/-! What each step of the outbound side keeps. -/

theorem taken_empty (b : LoRaBridge H) (queue : b.txQueue.get.1 = none) : b.txQueue.returns = [] := by
  have none := b.txQueue.returns_snd
  rw [queue] at none
  exact List.map_eq_nil_iff.mp none

theorem encodeFrame_fits (payload : List UInt8) (fits : payload.length ≤ maxBodyBytes) :
    ∃ wire, encodeFrame payload = .ok wire :=
  ⟨_,(encodeFrame_eq_ok payload _).mpr ⟨fits,rfl⟩⟩

/-- What the writer holds fits in a frame. -/
theorem Outbound.holds (b : LoRaBridge H) (o : Sending) (out : b.Outbound o) (payload : List UInt8)
    (held : payload ∈ b.inHand) : ∃ wire, encodeFrame payload = .ok wire := by
  have listed : payload ∈ o.returned.map Prod.snd := by
    rw [out.taken]
    exact List.mem_append_right _ held
  obtain ⟨e,inside,rfl⟩ := List.mem_map.mp listed
  have kept : e.2 ∈ BoundedPriorityRingQueue.inBand e.1 o.returned :=
    List.mem_map.mpr ⟨e,List.mem_filter.mpr ⟨inside,by simp⟩,rfl⟩
  have put := (out.queue.ordered e.1).subset (List.mem_append_left _ kept)
  obtain ⟨f,there,same⟩ := List.mem_map.mp put
  have short := out.fits f (List.mem_of_mem_filter there)
  have bounded := out.bounded
  rw [same] at short
  exact encodeFrame_fits e.2 (by omega)

theorem Outbound.onTx (b : LoRaBridge H) (o : Sending) (out : b.Outbound o) (msg : LoRaFrame) :
    (b.onTx msg).Outbound (b.noteSent o (.onTx msg)) := by
  have listed : o.puts.Sublist ((o.offered ++ [msg]).map (fun msg => (band msg,msg.data))) := by
    rw [List.map_append]
    exact out.asked.trans (List.sublist_append_left _ _)
  have counted : (o.offered ++ [msg]).length = o.offered.length + 1 := by simp
  have before := out.offered
  by_cases long : (msg.data.length : Int) > b.maxPayload
  · have next : b.onTx msg = { b with txOversize := b.txOversize + 1 } := if_pos long
    simp only [next,noteSent,if_pos long]
    exact ⟨out.bounded,out.bands,out.closed,out.queue,out.fits,listed,by dsimp only; omega,out.opened,out.taken,
      out.framed,out.written,out.counted,out.flushed⟩
  · have next : b.onTx msg = { b with txQueue := (b.txQueue.put msg.data msg.priority.toNat).2 } := if_neg long
    simp only [next,noteSent,if_neg long]
    have bands := (b.txQueue.put_levels msg.data msg.priority.toNat).trans out.bands
    have closed := (b.txQueue.put_opened msg.data msg.priority.toNat).trans out.closed
    cases shut : b.txQueue.closed with
    | true =>
      have stopped : b.stopped = true := out.closed.symm.trans shut
      rw [if_pos rfl]
      constructor
      · exact out.bounded
      · exact bands
      · exact closed
      · rw [b.txQueue.put_closed msg.data _ shut]
        exact out.queue
      · exact out.fits
      · exact listed
      · dsimp only
        omega
      · intro running
        rw [stopped] at running
        cases running
      · exact out.taken
      · exact out.framed
      · exact out.written
      · exact out.counted
      · exact out.flushed
    | false =>
      have account := out.queue
      rw [b.txQueue.reopened_open shut] at account
      have put := account.put _ msg.data msg.priority.toNat
      rw [if_neg (by simp)]
      constructor
      · exact out.bounded
      · exact bands
      · exact closed
      · rw [BoundedPriorityRingQueue.reopened_open _ ((b.txQueue.put_opened _ _).trans shut)]
        exact put
      · intro e here
        obtain old | new := List.mem_append.mp here
        · exact out.fits e old
        · obtain rfl := List.mem_singleton.mp new
          exact Int.not_lt.mp long
      · have levels : b.txQueue.bandIndex msg.priority.toNat = band msg := by
          rw [BoundedPriorityRingQueue.bandIndex,out.bands]
          rfl
        rw [levels,List.map_append]
        exact out.asked.append (List.Sublist.refl _)
      · simp only [List.length_append,List.length_singleton]
        omega
      · exact out.opened
      · exact out.taken
      · exact out.framed
      · exact out.written
      · exact out.counted
      · exact out.flushed

theorem Outbound.writerLoop (b : LoRaBridge H) (o : Sending) (out : b.Outbound o) :
    b.writerLoop.Outbound o := by
  unfold LoRaBridge.writerLoop
  split
  · rename_i ready
    have held := out.taken
    simp only [inHand,ready] at held
    refine ⟨out.bounded,out.bands,out.closed,out.queue,out.fits,out.asked,out.offered,out.opened,?_,?_,out.written,
      out.counted,out.flushed⟩
    · rw [held]
      split <;> rfl
    · intro payload wire writing
      dsimp only at writing
      split at writing <;> cases writing
  · exact out

theorem Outbound.writerGet (b : LoRaBridge H) (o : Sending) (out : b.Outbound o) :
    b.writerGet.Outbound (b.noteSent o .writerGet) := by
  rw [LoRaBridge.writerGet,noteSent,returning]
  cases writer : b.writer with
  | waiting =>
    have held := out.taken
    simp only [inHand,writer,List.append_nil] at held
    cases found : b.txQueue.get with
    | mk first queue =>
      cases first with
      | none =>
        dsimp only
        rw [b.taken_empty (congrArg Prod.fst found),List.append_nil]
        refine ⟨out.bounded,out.bands,out.closed,out.queue,out.fits,out.asked,out.offered,out.opened,?_,?_,out.written,
          out.counted,out.flushed⟩
        · simpa [inHand] using held
        · intro payload wire writing
          cases writing
      | some payload =>
        have first : b.txQueue.get.1 = some payload := congrArg Prod.fst found
        have second : queue = b.txQueue.get.2 := (congrArg Prod.snd found).symm
        have got := out.queue.get
        dsimp only
        rw [second]
        refine ⟨out.bounded,b.txQueue.get_levels.trans out.bands,b.txQueue.get_closed.trans out.closed,?_,out.fits,
          out.asked,out.offered,out.opened,?_,?_,out.written,out.counted,out.flushed⟩
        · simp only [BoundedPriorityRingQueue.Usage.call,b.txQueue.get_reopened,b.txQueue.returns_reopened] at got
          exact got
        · rw [List.map_append,held,b.txQueue.returns_snd,first]
          rfl
        · intro payload wire writing
          cases writing
  | ready => simpa using out
  | taken payload => simpa using out
  | writing payload wire => simpa using out
  | finished => simpa using out

theorem Outbound.let_go (b after : LoRaBridge H) (o : Sending) (out : b.Outbound o) (payload bytes : List UInt8)
    (held : b.inHand = [payload]) (empty : after.inHand = [])
    (same : after.maxPayload = b.maxPayload ∧ after.txQueue = b.txQueue ∧ after.stopped = b.stopped ∧
      after.txOversize = b.txOversize)
    (left : ∃ wire, encodeFrame payload = .ok wire ∧ bytes <+: wire)
    (counted : after.txFrames + after.txWriteErrors = b.txFrames + b.txWriteErrors + 1)
    (whole : after.txFrames = b.txFrames ∨ after.txFrames = b.txFrames + 1 ∧ encodeFrame payload = .ok bytes) :
    after.Outbound { o with writes := o.writes ++ b.settled after bytes } := by
  obtain ⟨m,q,st,os⟩ := same
  have listed : b.settled after bytes = [(payload,bytes)] := by rw [settled,if_pos empty,held]; rfl
  have taken := out.taken
  have flushed := out.flushed
  have total := out.counted
  rw [held] at taken
  rw [listed]
  constructor
  · rw [m]
    exact out.bounded
  · rw [q]
    exact out.bands
  · rw [q,st]
    exact out.closed
  · rw [q]
    exact out.queue
  · rw [m]
    exact out.fits
  · exact out.asked
  · rw [os]
    exact out.offered
  · rw [st]
    exact out.opened
  · rw [taken,empty]
    simp
  · intro p w writing
    rw [inHand,writing] at empty
    cases empty
  · intro w here
    obtain old | new := List.mem_append.mp here
    · exact out.written w old
    · obtain rfl := List.mem_singleton.mp new
      exact left
  · simp only [List.length_append,List.length_singleton]
    omega
  · rw [List.filter_append,List.length_append]
    obtain same | ⟨more,whole⟩ := whole
    · omega
    · simp only [List.filter_cons,whole]
      simp only [decide_true,if_true,List.filter_nil,List.length_singleton]
      omega

theorem settled_self (b : LoRaBridge H) (bytes : List UInt8) : b.settled b bytes = [] := by
  unfold settled
  split
  · rename_i empty
    rw [empty]
    rfl
  · rfl

theorem writerLink_idle (b : LoRaBridge H) (now : ℚ) (opens : Except String H) :
    (∃ payload, b.writer = .taken payload) ∨ b.writerLink now opens = b := by
  unfold LoRaBridge.writerLink
  cases b.writer with
  | taken payload => exact .inl ⟨payload,rfl⟩
  | _ => exact .inr rfl

theorem writerWrite_idle (b : LoRaBridge H) (outcome : WriteOutcome) :
    (∃ payload wire, b.writer = .writing payload wire) ∨ b.writerWrite outcome = b := by
  unfold LoRaBridge.writerWrite
  cases b.writer with
  | writing payload wire => exact .inl ⟨payload,wire,rfl⟩
  | _ => exact .inr rfl

theorem Outbound.writerLink (b : LoRaBridge H) (o : Sending) (out : b.Outbound o) (now : ℚ)
    (opens : Except String H) : (b.writerLink now opens).Outbound (b.noteSent o (.writerLink now opens)) := by
  rw [noteSent]
  obtain ⟨payload,writer⟩ | same := b.writerLink_idle now opens
  · have held : b.inHand = [payload] := by rw [inHand,writer]
    obtain ⟨wire,framed⟩ := out.holds b o payload (by rw [held]; exact List.mem_singleton_self _)
    cases port : b.link.get now opens with
    | mk handle rest =>
      cases handle with
      | none =>
        have next : b.writerLink now opens =
            { b with link := rest.1, txWriteErrors := b.txWriteErrors + 1, writer := .ready } := by
          rw [LoRaBridge.writerLink,writer]
          simp only [port]
        rw [next]
        exact out.let_go b _ o payload [] held rfl ⟨rfl,rfl,rfl,rfl⟩ ⟨wire,framed,List.nil_prefix⟩ rfl (.inl rfl)
      | some handle =>
        have next : b.writerLink now opens = { b with link := rest.1, writer := .writing payload wire } := by
          rw [LoRaBridge.writerLink,writer]
          simp only [port,framed]
        have taken := out.taken
        have still : b.settled (b.writerLink now opens) [] = [] := by
          rw [next]
          rfl
        rw [held] at taken
        rw [still,List.append_nil,next]
        refine ⟨out.bounded,out.bands,out.closed,out.queue,out.fits,out.asked,out.offered,out.opened,taken,?_,out.written,
          out.counted,out.flushed⟩
        intro p w writing
        injection writing with first second
        rw [← first,← second]
        exact framed
  · rw [same,b.settled_self,List.append_nil]
    exact out

theorem Outbound.writerWrite (b : LoRaBridge H) (o : Sending) (out : b.Outbound o) (outcome : WriteOutcome) :
    (b.writerWrite outcome).Outbound (b.noteSent o (.writerWrite outcome)) := by
  rw [noteSent]
  obtain ⟨payload,wire,writer⟩ | same := b.writerWrite_idle outcome
  · have held : b.inHand = [payload] := by rw [inHand,writer]
    have framed := out.framed payload wire writer
    cases outcome with
    | flushed =>
      have next : b.writerWrite .flushed = { b with txFrames := b.txFrames + 1, writer := .ready } := by
        rw [LoRaBridge.writerWrite,writer]
      have bytes : b.writerBytes .flushed = wire := by rw [writerBytes,writer]
      rw [next,bytes]
      exact out.let_go b _ o payload wire held rfl ⟨rfl,rfl,rfl,rfl⟩ ⟨wire,framed,List.prefix_refl _⟩
        (Nat.add_right_comm _ _ _) (.inr ⟨rfl,framed⟩)
    | timedOut written =>
      have next : b.writerWrite (.timedOut written) = { b with txWriteErrors := b.txWriteErrors + 1, writer := .ready } := by
        rw [LoRaBridge.writerWrite,writer]
      have bytes : b.writerBytes (.timedOut written) = wire.take written := by rw [writerBytes,writer]
      rw [next,bytes]
      exact out.let_go b _ o payload _ held rfl ⟨rfl,rfl,rfl,rfl⟩ ⟨wire,framed,List.take_prefix _ _⟩ rfl (.inl rfl)
    | failed written now reason =>
      have next : b.writerWrite (.failed written now reason) =
          { b with
            txWriteErrors := b.txWriteErrors + 1
            link := (b.link.drop now ("write failed: " ++ reason)).1
            writer := .ready } := by
        rw [LoRaBridge.writerWrite,writer]
      have bytes : b.writerBytes (.failed written now reason) = wire.take written := by rw [writerBytes,writer]
      rw [next,bytes]
      exact out.let_go b _ o payload _ held rfl ⟨rfl,rfl,rfl,rfl⟩ ⟨wire,framed,List.take_prefix _ _⟩ rfl (.inl rfl)
  · rw [same,b.settled_self,List.append_nil]
    exact out

theorem Outbound.shutdown (b : LoRaBridge H) (o : Sending) (out : b.Outbound o) : b.shutdown.Outbound o := by
  unfold LoRaBridge.shutdown
  split
  · exact out
  · exact ⟨out.bounded,out.bands,rfl,out.queue,out.fits,out.asked,out.offered,(fun running => by cases running),
      out.taken,out.framed,out.written,out.counted,out.flushed⟩

/-! The inbound side leaves the outbound one alone. -/

theorem readerLoop_outbound (b : LoRaBridge H) (now : ℚ) (opens : Except String H) :
    (b.readerLoop now opens).outbound = b.outbound := by
  unfold LoRaBridge.readerLoop
  split
  · split <;> rfl
  · rfl

theorem readerRead_outbound (b : LoRaBridge H) (outcome : ReadOutcome) :
    (b.readerRead outcome).outbound = b.outbound := by
  unfold LoRaBridge.readerRead
  split
  · split <;> rfl
  · rfl

theorem readerPut_outbound (b : LoRaBridge H) : b.readerPut.outbound = b.outbound := by
  unfold LoRaBridge.readerPut
  split <;> rfl

theorem publishLoop_outbound (b : LoRaBridge H) : b.publishLoop.outbound = b.outbound := by
  unfold LoRaBridge.publishLoop
  split <;> rfl

theorem publishGet_outbound (b : LoRaBridge H) : b.publishGet.outbound = b.outbound := by
  unfold LoRaBridge.publishGet
  split
  · split <;> rfl
  · rfl

theorem publish_outbound (b : LoRaBridge H) : b.publish.outbound = b.outbound := by
  unfold LoRaBridge.publish
  split <;> rfl

theorem Outbound.perform (b : LoRaBridge H) (o : Sending) (out : b.Outbound o) (d : Duty H) :
    (b.perform d).Outbound (b.noteSent o d) := by
  cases d with
  | onTx msg => exact out.onTx b o msg
  | writerLoop => exact out.writerLoop b o
  | writerGet => exact out.writerGet b o
  | writerLink now opens => exact out.writerLink b o now opens
  | writerWrite outcome => exact out.writerWrite b o outcome
  | readerLoop now opens => exact out.frame b _ o (b.readerLoop_outbound now opens)
  | readerRead outcome => exact out.frame b _ o (b.readerRead_outbound outcome)
  | readerPut => exact out.frame b _ o b.readerPut_outbound
  | publishLoop => exact out.frame b _ o b.publishLoop_outbound
  | publishGet => exact out.frame b _ o b.publishGet_outbound
  | publish => exact out.frame b _ o b.publish_outbound
  | shutdown => exact out.shutdown b o
  | closeLink => exact out.frame b _ o rfl

theorem Outbound.start (p : BridgeParams) (b : LoRaBridge H) (ok : build p = .ok b) : b.Outbound {} := by
  obtain ⟨txQueue,rxQueue,tx,_,rfl⟩ := build_cases p b ok
  obtain ⟨kind,roomy,leveled,rfl⟩ := priority_build _ _ _ txQueue tx
  constructor
  · exact (validatedMaxPayload_range p).2.1.trans (validatedMaxPayload_range p).2.2
  · rfl
  · rfl
  · exact BoundedPriorityRingQueue.Usage.create_accounted _ ⟨⟨_,kind,_,roomy,leveled,rfl⟩,rfl,rfl⟩
  · exact fun e here => absurd here List.not_mem_nil
  · exact List.Sublist.refl _
  · rfl
  · exact fun _ => rfl
  · rfl
  · exact fun payload wire writing => by cases writing
  · exact fun w here => absurd here List.not_mem_nil
  · rfl
  · exact le_rfl

end LoRaBridge

/-! ### What the two bands add up to -/

namespace BoundedPriorityRingQueue
variable {α : Type}

theorem two_bands (l : List (Nat × α)) (within : ∀ e ∈ l, e.1 < 2) :
    l.length = (inBand 0 l).length + (inBand 1 l).length := by
  induction l with
  | nil => rfl
  | cons e rest ih =>
    obtain ⟨index,item⟩ := e
    obtain ⟨first,others⟩ := List.forall_mem_cons.mp within
    have smaller := ih others
    have split_ : ∀ i, inBand i ((index,item)::rest) = inBand i [(index,item)] ++ inBand i rest := fun i =>
      inBand_append i [(index,item)] rest
    rw [split_,split_,inBand_single,inBand_single,List.length_cons,List.length_append,List.length_append]
    obtain rfl | rfl : index = 0 ∨ index = 1 := by
      dsimp only at first
      omega
    · simp only [if_true,List.length_singleton,one_ne_zero,if_false,List.length_nil]
      omega
    · simp only [if_true,List.length_singleton,zero_ne_one,if_false,List.length_nil]
      omega

theorem two_levels (q : BoundedPriorityRingQueue α) (levels : q.levels = 2) :
    q.size = (q.band 0).length + (q.band 1).length ∧ q.droppedByBand.sum = q.droppedIn 0 + q.droppedIn 1 := by
  obtain ⟨first,second,bands⟩ := List.length_eq_two.mp (q.banded.trans levels)
  obtain ⟨x,y,counts⟩ := List.length_eq_two.mp (q.counted.trans levels)
  simp [size,band,droppedIn,bands,counts]

theorem Usage.Accounted.returned_within (u : Usage α) (account : u.Accounted) (within : ∀ e ∈ u.puts, e.1 < 2) :
    ∀ e ∈ u.returned, e.1 < 2 := by
  intro e here
  have kept : e.2 ∈ inBand e.1 u.returned := List.mem_map.mpr ⟨e,List.mem_filter.mpr ⟨here,by simp⟩,rfl⟩
  obtain ⟨f,there,_⟩ := List.mem_map.mp ((account.ordered e.1).subset (List.mem_append_left _ kept))
  obtain ⟨inside,same⟩ := List.mem_filter.mp there
  have bound := within f inside
  rw [of_decide_eq_true same] at bound
  exact bound

theorem Usage.Accounted.sums (u : Usage α) (account : u.Accounted) (levels : u.queue.levels = 2)
    (within : ∀ e ∈ u.puts, e.1 < 2) : u.puts.length = u.returned.length + u.queue.size + u.queue.dropped := by
  have returned := account.returned_within u within
  obtain ⟨size,dropped⟩ := u.queue.two_levels levels
  have zero := account.counted 0
  have one := account.counted 1
  have total := account.total
  rw [two_bands u.puts within,two_bands u.returned returned]
  omega

theorem perm_bands (l : List (Nat × α)) (within : ∀ e ∈ l, e.1 < 2) :
    (l.map Prod.snd).Perm (inBand 0 l ++ inBand 1 l) := by
  have others : l.filter (fun e => e.1 = 1) = l.filter (fun e => !decide (e.1 = 0)) := by
    apply List.filter_congr
    intro e here
    have small := within e here
    by_cases zero : e.1 = 0
    · simp [zero]
    · have one : e.1 = 1 := by omega
      simp [one]
  unfold inBand
  rw [others,← List.map_append]
  exact ((List.filter_append_perm _ l).map Prod.snd).symm

/-- A queue that returned as many items as were put in it returned those. -/
theorem Usage.Accounted.emptied (u : Usage α) (account : u.Accounted) (levels : u.queue.levels = 2)
    (within : ∀ e ∈ u.puts, e.1 < 2) (all : u.puts.length = u.returned.length) :
    (u.returned.map Prod.snd).Perm (u.puts.map Prod.snd) := by
  have returned := account.returned_within u within
  have sums := account.sums u levels within
  obtain ⟨size,dropped⟩ := u.queue.two_levels levels
  have zero := account.counted 0
  have one := account.counted 1
  have total := account.total
  have first := ((List.sublist_append_left _ _).trans (account.ordered 0)).eq_of_length (by omega)
  have second := ((List.sublist_append_left _ _).trans (account.ordered 1)).eq_of_length (by omega)
  apply (perm_bands u.returned returned).trans
  rw [first,second]
  exact (perm_bands u.puts within).symm

end BoundedPriorityRingQueue

theorem band_lt (msg : LoRaFrame) : band msg < 2 := by
  unfold band txBandNames
  simp only [List.length_cons,List.length_nil]
  omega

namespace LoRaBridge
variable {H : Type}

theorem Outbound.within (b : LoRaBridge H) (o : Sending) (out : b.Outbound o) : ∀ e ∈ o.puts, e.1 < 2 := by
  intro e here
  obtain ⟨msg,_,rfl⟩ := List.mem_map.mp (out.asked.subset here)
  exact band_lt msg

theorem Outbound.sums (b : LoRaBridge H) (o : Sending) (out : b.Outbound o) :
    o.puts.length = o.returned.length + b.txQueue.size + b.txQueue.dropped :=
  out.queue.sums _ out.bands out.within

theorem Outbound.ordered (b : LoRaBridge H) (o : Sending) (out : b.Outbound o) (index : Nat) :
    (BoundedPriorityRingQueue.inBand index o.returned).Sublist
      ((o.offered.filter (fun msg => band msg = index)).map LoRaFrame.data) := by
  have kept := (List.sublist_append_left _ _).trans (out.queue.ordered index)
  have asked := (out.asked.filter (fun e => e.1 = index)).map Prod.snd
  rw [List.filter_map,List.map_map] at asked
  exact kept.trans asked

end LoRaBridge

namespace Service
variable {H : Type}

theorem reachable_outbound (s : Service H) (reached : (duties H).Reachable s) : s.bridge.Outbound s.sending := by
  apply reached.invariant (fun s => s.bridge.Outbound s.sending)
  · rintro s ⟨⟨params,built⟩,sending,_⟩
    rw [sending]
    exact .start params s.bridge built
  · exact fun s d _ out _ _ => out.perform s.bridge s.sending d

/-- Whatever the threads do, every message offered is in one place or in one counter; within
a band payloads leave in the order they came; and what goes out on the port for a payload
is its frame or the front of it, the whole frame for each one counted as sent. -/
theorem outbound_kept (s : Service H) (reached : (duties H).Reachable s) :
    s.sending.offered.length = s.sending.late + s.bridge.txOversize + s.bridge.txQueue.dropped + s.bridge.txQueue.size +
        s.bridge.inHand.length + s.bridge.txFrames + s.bridge.txWriteErrors ∧
      (s.bridge.stopped = false → s.sending.late = 0) ∧
      s.sending.returned.map Prod.snd = s.sending.writes.map Prod.fst ++ s.bridge.inHand ∧
      (∀ index, (BoundedPriorityRingQueue.inBand index s.sending.returned).Sublist
        ((s.sending.offered.filter (fun msg => band msg = index)).map LoRaFrame.data)) ∧
      (∀ w ∈ s.sending.writes, ∃ wire, encodeFrame w.1 = .ok wire ∧ w.2 <+: wire) ∧
      s.bridge.txFrames ≤ (s.sending.writes.filter (fun w => encodeFrame w.1 = .ok w.2)).length := by
  have out := reachable_outbound s reached
  have sums := out.sums
  have taken := congrArg List.length out.taken
  have offered := out.offered
  have counted := out.counted
  simp only [List.length_map,List.length_append] at taken
  exact ⟨by omega,out.opened,out.taken,fun index => out.ordered _ _ index,out.written,out.flushed⟩

theorem outbound_kept_busy : busy.sending.writes.map Prod.fst = [[3]] ∧ busy.bridge.txFrames = 1 ∧
    busy.sending.offered.length = busy.sending.late + busy.bridge.txOversize + busy.bridge.txQueue.dropped +
      busy.bridge.txQueue.size + busy.bridge.inHand.length + busy.bridge.txFrames + busy.bridge.txWriteErrors := by
  have kept := outbound_kept busy busy_reachable
  exact ⟨by decide +kernel,by decide +kernel,kept.1⟩

end Service
end AmigaFleet.Lora
