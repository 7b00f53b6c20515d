import AmigaFleet.Lora.Service

/-! The inbound side of a bridge at work: from the bytes on the port to what is published. -/
namespace AmigaFleet.Lora
open Lib

namespace FrameParser

theorem feedByte_counted (cfg : ParserConfig) (p : FrameParser) (byte : UInt8) :
    (p.feedByte cfg byte).1.stats.frames = p.stats.frames + (p.feedByte cfg byte).2.toList.length := by
  unfold feedByte
  split
  · dsimp only
    split <;> rfl
  · split
    · rfl
    · split
      · rfl
      · rename_i e _
        cases e <;> rfl

theorem feed_counted (cfg : ParserConfig) (p : FrameParser) (stream : List UInt8) :
    (p.feed cfg stream).1.stats.frames = p.stats.frames + (p.feed cfg stream).2.length := by
  induction stream generalizing p with
  | nil => rfl
  | cons byte rest ih =>
    have first := p.feedByte_counted cfg byte
    have later := ih (p.feedByte cfg byte).1
    simp only [feed,List.length_append]
    omega

end FrameParser

namespace LoRaBridge
variable {H : Type}

structure Inbound (b : LoRaBridge H) (r : Receiving) : Prop where
  closed : b.rxQueue.closed = b.stopped
  queue : BoundedRingQueue.Usage.Accounted ⟨b.rxQueue,r.puts,r.returned⟩
  fed : FrameParser.feedAll b.config {} r.chunks = (b.parser,r.puts ++ r.refused ++ b.parsed)
  opened : b.stopped = false → r.refused = []
  taken : r.returned = r.published ++ b.leaving
  counted : b.rxPublished = r.published.length

def inbound (b : LoRaBridge H) : ParserConfig × BoundedRingQueue Frame × FrameParser × Bool × Reader × Publisher × Nat :=
  (b.config,b.rxQueue,b.parser,b.stopped,b.reader,b.publisher,b.rxPublished)

theorem Inbound.frame (b after : LoRaBridge H) (r : Receiving) (same : after.inbound = b.inbound)
    (inn : b.Inbound r) : after.Inbound r := by
  obtain ⟨m,l,q,rx,p,k,f,v,w,n,st,wr,re,pu⟩ := b
  obtain ⟨m',l',q',rx',p',k',f',v',w',n',st',wr',re',pu'⟩ := after
  simp only [inbound,config,Prod.mk.injEq,ParserConfig.mk.injEq] at same
  obtain ⟨⟨rfl,rfl⟩,rfl,rfl,rfl,rfl,rfl,rfl⟩ := same
  exact ⟨inn.closed,inn.queue,inn.fed,inn.opened,inn.taken,inn.counted⟩

theorem feedAll_concat (cfg : ParserConfig) (p : FrameParser) (chunks : List (List UInt8)) (chunk : List UInt8) :
    p.feedAll cfg (chunks ++ [chunk]) = (((p.feedAll cfg chunks).1.feed cfg chunk).1,
      (p.feedAll cfg chunks).2 ++ ((p.feedAll cfg chunks).1.feed cfg chunk).2) := by
  rw [FrameParser.feedAll_flatten,FrameParser.feedAll_flatten,List.flatten_append,List.flatten_singleton,
    FrameParser.feed_append]

theorem readerLoop_cases (b : LoRaBridge H) (now : ℚ) (opens : Except String H) :
    b.readerLoop now opens = b ∨ b.reader = .ready ∧
      ∃ link reader, (reader = .ready ∨ reader = .reading ∨ reader = .finished) ∧
        b.readerLoop now opens = { b with link := link, reader := reader } := by
  unfold LoRaBridge.readerLoop
  split
  · rename_i ready
    apply Or.inr (And.intro ready _)
    split
    · exact ⟨b.link,.finished,.inr (.inr rfl),rfl⟩
    · obtain ⟨port,link,events⟩ := b.link.get now opens
      cases port with
      | none => exact ⟨link,.ready,.inl rfl,rfl⟩
      | some handle => exact ⟨link,.reading,.inr (.inl rfl),rfl⟩
  · exact .inl rfl

theorem Inbound.readerLoop (b : LoRaBridge H) (r : Receiving) (inn : b.Inbound r) (now : ℚ)
    (opens : Except String H) : (b.readerLoop now opens).Inbound r := by
  obtain same | ⟨ready,link,reader,plain,same⟩ := b.readerLoop_cases now opens
  · rw [same]
    exact inn
  · have fed := inn.fed
    have none : LoRaBridge.parsed { b with link := link, reader := reader } = [] := by
      obtain rfl | rfl | rfl := plain
      · rfl
      · rfl
      · rfl
    have before : b.parsed = [] := by rw [parsed,ready]
    rw [before] at fed
    rw [same]
    exact ⟨inn.closed,inn.queue,by rw [none]; exact fed,inn.opened,inn.taken,inn.counted⟩

theorem Inbound.readerRead (b : LoRaBridge H) (r : Receiving) (inn : b.Inbound r) (outcome : ReadOutcome) :
    (b.readerRead outcome).Inbound (b.noteReceived r (.readerRead outcome)) := by
  have fed := inn.fed
  unfold noteReceived LoRaBridge.readerRead readIn
  cases reader : b.reader with
  | reading =>
    have before : b.parsed = [] := by rw [parsed,reader]
    rw [before,List.append_nil] at fed
    cases outcome with
    | failed now reason =>
      dsimp only
      rw [List.append_nil]
      refine ⟨inn.closed,inn.queue,?_,inn.opened,inn.taken,inn.counted⟩
      rw [← List.append_nil (r.puts ++ r.refused)] at fed
      exact fed
    | bytes chunk =>
      refine ⟨inn.closed,inn.queue,?_,inn.opened,inn.taken,inn.counted⟩
      have next := feedAll_concat b.config {} r.chunks chunk
      rw [fed] at next
      exact next
  | ready => simpa using inn
  | handing frames => simpa using inn
  | finished => simpa using inn

theorem Inbound.readerPut (b : LoRaBridge H) (r : Receiving) (inn : b.Inbound r) :
    b.readerPut.Inbound (b.noteReceived r .readerPut) := by
  rw [noteReceived,LoRaBridge.readerPut]
  have fed := inn.fed
  have idle : b.parsed = [] → (if b.rxQueue.closed then { r with refused := r.refused ++ b.parsed.take 1 }
      else { r with puts := r.puts ++ b.parsed.take 1 }) = r := by
    intro none
    rw [none]
    split <;> simp
  cases reader : b.reader with
  | handing frames =>
    cases frames with
    | nil =>
      have before : b.parsed = [] := by rw [parsed,reader]
      rw [idle before]
      rw [before] at fed
      exact ⟨inn.closed,inn.queue,fed,inn.opened,inn.taken,inn.counted⟩
    | cons frame frames =>
      have before : b.parsed = frame::frames := by rw [parsed,reader]
      have put := inn.queue.put _ frame
      rw [before] at fed
      simp only [BoundedRingQueue.Usage.call] at put
      simp only [before,List.take_succ_cons,List.take_zero]
      cases closed : b.rxQueue.closed with
      | true =>
        rw [closed,if_pos rfl] at put
        rw [if_pos rfl]
        refine ⟨?_,put,?_,?_,inn.taken,inn.counted⟩
        · rw [b.rxQueue.put_closed frame closed,inn.closed]
        · change FrameParser.feedAll b.config {} r.chunks = _
          simpa [parsed] using fed
        · intro running
          have stopped := inn.closed.symm.trans closed
          rw [running] at stopped
          cases stopped
      | false =>
        rw [closed,if_neg (by simp)] at put
        rw [if_neg (by simp)]
        have none := inn.opened (inn.closed.symm.trans closed)
        refine ⟨?_,put,?_,inn.opened,inn.taken,inn.counted⟩
        · rw [← inn.closed,closed]
          obtain ⟨_,same⟩ | ⟨_,_,same⟩ | ⟨_,_,same⟩ := b.rxQueue.put_cases frame closed
          · rw [same]
            exact closed
          · rw [same]
            exact closed
          · rw [same]
            exact closed
        · change FrameParser.feedAll b.config {} r.chunks = _
          simpa [parsed,none] using fed
  | ready =>
    rw [idle (by rw [parsed,reader])]
    exact inn
  | reading =>
    rw [idle (by rw [parsed,reader])]
    exact inn
  | finished =>
    rw [idle (by rw [parsed,reader])]
    exact inn

theorem Inbound.publishLoop (b : LoRaBridge H) (r : Receiving) (inn : b.Inbound r) : b.publishLoop.Inbound r := by
  unfold LoRaBridge.publishLoop
  split
  · rename_i ready
    have taken := inn.taken
    have none : b.leaving = [] := by rw [leaving,ready]
    rw [none] at taken
    refine ⟨inn.closed,inn.queue,inn.fed,inn.opened,?_,inn.counted⟩
    rw [taken]
    split <;> rfl
  · exact inn

theorem Inbound.publishGet (b : LoRaBridge H) (r : Receiving) (inn : b.Inbound r) :
    b.publishGet.Inbound (b.noteReceived r .publishGet) := by
  rw [noteReceived,LoRaBridge.publishGet,arriving]
  have taken := inn.taken
  cases publisher : b.publisher with
  | waiting =>
    rw [leaving,publisher,List.append_nil] at taken
    have got := inn.queue.get
    simp only [BoundedRingQueue.Usage.call] at got
    obtain ⟨_,same⟩ | ⟨frame,rest,_,same⟩ := b.rxQueue.get_cases
    · rw [same] at got ⊢
      exact ⟨inn.closed,got,inn.fed,inn.opened,by simpa [leaving] using taken,inn.counted⟩
    · rw [same] at got ⊢
      exact ⟨inn.closed,got,inn.fed,inn.opened,by simpa [leaving] using taken,inn.counted⟩
  | ready => simpa using inn
  | publishing frame => simpa using inn
  | finished => simpa using inn

theorem Inbound.publish (b : LoRaBridge H) (r : Receiving) (inn : b.Inbound r) :
    b.publish.Inbound (b.noteReceived r .publish) := by
  rw [noteReceived,LoRaBridge.publish]
  have taken := inn.taken
  cases publisher : b.publisher with
  | publishing frame =>
    rw [leaving,publisher] at taken
    refine ⟨inn.closed,inn.queue,inn.fed,inn.opened,?_,?_⟩
    · simpa [leaving,publisher] using taken
    · simp [leaving,publisher,inn.counted]
  | ready => simpa [leaving,publisher] using inn
  | waiting => simpa [leaving,publisher] using inn
  | finished => simpa [leaving,publisher] using inn

theorem Inbound.shutdown (b : LoRaBridge H) (r : Receiving) (inn : b.Inbound r) : b.shutdown.Inbound r := by
  unfold LoRaBridge.shutdown
  split
  · exact inn
  · exact ⟨rfl,inn.queue.call _ .close,inn.fed,(fun running => by cases running),inn.taken,inn.counted⟩

/-! What the record says of the stream. -/

theorem Inbound.stream (b : LoRaBridge H) (r : Receiving) (inn : b.Inbound r) :
    (FrameParser.feed b.config {} r.chunks.flatten).2 = r.puts ++ r.refused ++ b.parsed := by
  rw [← FrameParser.feedAll_flatten,inn.fed]

theorem Inbound.parser (b : LoRaBridge H) (r : Receiving) (inn : b.Inbound r) :
    (FrameParser.feed b.config {} r.chunks.flatten).1 = b.parser := by
  rw [← FrameParser.feedAll_flatten,inn.fed]

theorem Inbound.frames (b : LoRaBridge H) (r : Receiving) (inn : b.Inbound r) :
    b.parser.stats.frames = (FrameParser.feed b.config {} r.chunks.flatten).2.length := by
  have counted := FrameParser.feed_counted b.config {} r.chunks.flatten
  rw [inn.parser] at counted
  exact counted.trans (Nat.zero_add _)

theorem Inbound.sublist (b : LoRaBridge H) (r : Receiving) (inn : b.Inbound r) :
    (r.published ++ b.leaving ++ b.rxQueue.items).Sublist (FrameParser.feed b.config {} r.chunks.flatten).2 := by
  have ordered := inn.queue.ordered
  dsimp only at ordered
  rw [inn.taken] at ordered
  rw [inn.stream]
  exact (ordered.trans (List.sublist_append_left _ _)).trans (List.sublist_append_left _ _)

theorem Inbound.published (b : LoRaBridge H) (r : Receiving) (inn : b.Inbound r) :
    r.published.Sublist (FrameParser.feed b.config {} r.chunks.flatten).2 :=
  ((List.sublist_append_left _ _).trans (List.sublist_append_left _ _)).trans inn.sublist

/-- Where every frame was published, nothing is missing. -/
theorem Inbound.whole (b : LoRaBridge H) (r : Receiving) (inn : b.Inbound r)
    (all : b.parser.stats.frames = b.rxPublished) :
    r.published = (FrameParser.feed b.config {} r.chunks.flatten).2 := by
  apply inn.published.eq_of_length
  rw [← inn.frames,all,inn.counted]

/-! The outbound side leaves the inbound one alone. -/

theorem onTx_inbound (b : LoRaBridge H) (msg : LoRaFrame) : (b.onTx msg).inbound = b.inbound := by
  unfold LoRaBridge.onTx
  split <;> rfl

theorem writerLoop_inbound (b : LoRaBridge H) : b.writerLoop.inbound = b.inbound := by
  unfold LoRaBridge.writerLoop
  split <;> rfl

theorem writerGet_inbound (b : LoRaBridge H) : b.writerGet.inbound = b.inbound := by
  unfold LoRaBridge.writerGet
  split
  · split <;> rfl
  · rfl

theorem writerLink_inbound (b : LoRaBridge H) (now : ℚ) (opens : Except String H) :
    (b.writerLink now opens).inbound = b.inbound := by
  unfold LoRaBridge.writerLink
  split
  · dsimp only
    split
    · rfl
    · split <;> rfl
  · rfl

theorem writerWrite_inbound (b : LoRaBridge H) (outcome : WriteOutcome) :
    (b.writerWrite outcome).inbound = b.inbound := by
  unfold LoRaBridge.writerWrite
  split
  · split <;> rfl
  · rfl

theorem Inbound.perform (b : LoRaBridge H) (r : Receiving) (inn : b.Inbound r) (d : Duty H) :
    (b.perform d).Inbound (b.noteReceived r d) := by
  cases d with
  | onTx msg => exact inn.frame b _ r (b.onTx_inbound msg)
  | writerLoop => exact inn.frame b _ r b.writerLoop_inbound
  | writerGet => exact inn.frame b _ r b.writerGet_inbound
  | writerLink now opens => exact inn.frame b _ r (b.writerLink_inbound now opens)
  | writerWrite outcome => exact inn.frame b _ r (b.writerWrite_inbound outcome)
  | readerLoop now opens => exact inn.readerLoop b r now opens
  | readerRead outcome => exact inn.readerRead b r outcome
  | readerPut => exact inn.readerPut b r
  | publishLoop => exact inn.publishLoop b r
  | publishGet => exact inn.publishGet b r
  | publish => exact inn.publish b r
  | shutdown => exact inn.shutdown b r
  | closeLink => exact inn.frame b _ r rfl

theorem Inbound.start (p : BridgeParams) (b : LoRaBridge H) (ok : build p = .ok b) : b.Inbound {} := by
  obtain ⟨txQueue,rxQueue,_,rx,rfl⟩ := build_cases p b ok
  obtain ⟨kind,roomy,rfl⟩ := fifo_build _ _ rxQueue rx
  constructor
  · rfl
  · exact BoundedRingQueue.Usage.reachable_accounted _ (.start _ ⟨⟨_,kind,roomy,rfl⟩,rfl,rfl⟩)
  · rfl
  · exact fun _ => rfl
  · rfl
  · rfl

end LoRaBridge

namespace Service
variable {H : Type}

theorem reachable_inbound (s : Service H) (reached : (duties H).Reachable s) : s.bridge.Inbound s.receiving := by
  apply reached.invariant (fun s => s.bridge.Inbound s.receiving)
  · rintro s ⟨⟨params,built⟩,_,receiving⟩
    rw [receiving]
    exact .start params s.bridge built
  · exact fun s d _ inn _ _ => inn.perform s.bridge s.receiving d

/-- Whatever the threads do and however the stream is cut, every frame the parser made of it
is in one place or in one counter, and what was published is in the order of the stream;
all of it, when nothing was dropped and nothing waits. -/
theorem inbound_kept (s : Service H) (reached : (duties H).Reachable s) :
    (s.receiving.published ++ s.bridge.leaving ++ s.bridge.rxQueue.items).Sublist
        (FrameParser.feed s.bridge.config {} s.receiving.chunks.flatten).2 ∧
      s.bridge.parser.stats.frames = s.bridge.rxPublished + s.bridge.leaving.length + s.bridge.rxQueue.items.length +
        s.bridge.rxQueue.dropped + s.receiving.refused.length + s.bridge.parsed.length ∧
      s.bridge.rxPublished = s.receiving.published.length ∧
      (s.bridge.stopped = false → s.receiving.refused = []) ∧
      (s.bridge.parser.stats.frames = s.bridge.rxPublished →
        s.receiving.published = (FrameParser.feed s.bridge.config {} s.receiving.chunks.flatten).2) := by
  have inn := reachable_inbound s reached
  have total := inn.queue.counted
  have taken := congrArg List.length inn.taken
  have published := inn.counted
  have counted := inn.frames
  have frames := congrArg List.length inn.stream
  dsimp only at total
  simp only [List.length_append] at taken frames
  exact ⟨inn.sublist,by omega,published,inn.opened,inn.whole⟩

theorem inbound_kept_busy : busy.receiving.published = [⟨[0x61,0x62],none,none⟩] ∧
    busy.receiving.published = (FrameParser.feed busy.bridge.config {} busy.receiving.chunks.flatten).2 := by
  have kept := inbound_kept busy busy_reachable
  exact ⟨by decide +kernel,kept.2.2.2.2 (by decide +kernel)⟩

end Service
end AmigaFleet.Lora
