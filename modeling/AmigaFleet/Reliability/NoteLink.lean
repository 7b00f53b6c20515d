import AmigaFleet.Reliability.Link
import AmigaFleet.Reliability.Reassembly
import AmigaFleet.Reliability.Splitting

/-! Notes from one session to another. `send_note` reads its id in one critical
section and allocates numbers in later ones, so calls may run at the same time;
frames are lost, copied and reordered on the way. -/
namespace AmigaFleet.Reliability
open Lib AmigaFleet.Codec

namespace Session

/-- A step that puts no fragment among what was stamped. -/
def Unvoiced (s after : Session) : Prop :=
  ∃ added, after.stamped = added ++ s.stamped ∧ ∀ message ∈ added, message.type ≠ .freeform

theorem unvoiced_same (s after : Session) (same : after.stamped = s.stamped) : Unvoiced s after :=
  ⟨[],same,fun _ member => by cases member⟩

theorem unvoiced_stamp (node : Node) (message : Message) (s after : Session) (other : message.type ≠ .freeform)
    (same : after.stamped = (s.stamp node message).2.stamped) : Unvoiced s after := by
  refine ⟨[message.stamped node.id s.nextSeq],same,?_⟩
  intro m member
  rw [List.mem_singleton.mp member,Message.stamped_type]
  exact other

theorem transmit_stamped (env : Env) (payload : Packet) (priority : Int) (s : Session) (ack : Bool) :
    (s.transmit env payload priority ack).2.stamped = s.stamped := by
  obtain ⟨counters,same | sent⟩ := transmit_cases env payload priority s ack
  · rw [same]
  · rw [sent]

theorem transmit_notes (env : Env) (payload : Packet) (priority : Int) (s : Session) (ack : Bool) :
    (s.transmit env payload priority ack).2.notes = s.notes ∧
      (s.transmit env payload priority ack).2.deliveredNotes = s.deliveredNotes := by
  obtain ⟨counters,same | sent⟩ := transmit_cases env payload priority s ack
  · rw [same]
    exact ⟨rfl,rfl⟩
  · rw [sent]
    exact ⟨rfl,rfl⟩

theorem accept_notes (env : Env) (message : Message) (s : Session) :
    ((s.accept env message).notes = s.notes ∧ (s.accept env message).deliveredNotes = s.deliveredNotes) ∨
      ∃ m, message = .freeform m ∧ (s.accept env message).notes = (s.notes.add m env.clock).2 ∧
        (s.accept env message).deliveredNotes = (s.notes.add m env.clock).1.toList ++ s.deliveredNotes := by
  unfold accept
  simp only
  split
  · split
    · rename_i m _
      exact .inr ⟨m,rfl,rfl,rfl⟩
    · exact .inl ⟨rfl,rfl⟩
  · exact .inl ⟨rfl,rfl⟩

theorem accept_stamped (env : Env) (message : Message) (s : Session) :
    (s.accept env message).stamped = s.stamped := by
  obtain ⟨_,_,_,shape⟩ := accept_cases env message s
  rw [shape]

theorem sendReliable_unvoiced (node : Node) (env : Env) (dst : Int) (message : Message) (s : Session) :
    Unvoiced s (s.sendReliable node env dst message).2 := by
  unfold sendReliable
  split
  · exact unvoiced_same s _ rfl
  split
  · exact unvoiced_same s _ rfl
  split
  · exact unvoiced_same s _ rfl
  split
  · exact unvoiced_same s _ rfl
  rename_i reliable _ _
  simp only
  split
  · exact unvoiced_same s _ rfl
  obtain ⟨grant,rfl⟩ := isReliable_grant message (by simpa using reliable)
  split
  · exact unvoiced_stamp node (.grant grant) s _ (by simp [Message.type]) rfl
  · refine unvoiced_stamp node (.grant grant) s _ (by simp [Message.type]) ?_
    rw [transmit_stamped]
    rfl

theorem sendBroadcast_stamped (node : Node) (env : Env) (message : Message) (s : Session) :
    (s.sendBroadcast node env message).2.stamped = s.stamped ∨
      (s.sendBroadcast node env message).2.stamped = (s.stamp node message).2.stamped := by
  unfold sendBroadcast
  split
  · exact .inl rfl
  split
  · exact .inl rfl
  simp only
  split
  · exact .inr rfl
  · refine .inr ?_
    rw [transmit_stamped]
    rfl

theorem sendBroadcast_notes (node : Node) (env : Env) (message : Message) (s : Session) :
    (s.sendBroadcast node env message).2.notes = s.notes ∧
      (s.sendBroadcast node env message).2.deliveredNotes = s.deliveredNotes := by
  unfold sendBroadcast
  split
  · exact ⟨rfl,rfl⟩
  split
  · exact ⟨rfl,rfl⟩
  simp only
  split
  · exact ⟨rfl,rfl⟩
  · exact transmit_notes _ _ _ _ _

theorem sendReliable_notes (node : Node) (env : Env) (dst : Int) (message : Message) (s : Session) :
    (s.sendReliable node env dst message).2.notes = s.notes ∧
      (s.sendReliable node env dst message).2.deliveredNotes = s.deliveredNotes := by
  unfold sendReliable
  split
  · exact ⟨rfl,rfl⟩
  split
  · exact ⟨rfl,rfl⟩
  split
  · exact ⟨rfl,rfl⟩
  split
  · exact ⟨rfl,rfl⟩
  simp only
  split
  · exact ⟨rfl,rfl⟩
  split
  · exact ⟨rfl,rfl⟩
  · exact transmit_notes _ _ _ _ _

theorem resend_notes (env : Env) (packets : List (Packet × Int)) (s : Session) :
    let s' := packets.foldl (fun s packet => (s.transmit env packet.1 packet.2).2) s
    s'.stamped = s.stamped ∧ s'.notes = s.notes ∧ s'.deliveredNotes = s.deliveredNotes := by
  induction packets generalizing s with
  | nil => exact ⟨rfl,rfl,rfl⟩
  | cons packet packets ih =>
    obtain ⟨stamped,notes,delivered⟩ := ih (s.transmit env packet.1 packet.2).2
    have first := transmit_notes env packet.1 packet.2 s false
    exact ⟨stamped.trans (transmit_stamped env packet.1 packet.2 s false),notes.trans first.1,delivered.trans first.2⟩

theorem finish_notes (expired : List Pending) (s : Session) :
    let s' := expired.foldl (fun s entry => s.finish entry .failed) s
    s'.stamped = s.stamped ∧ s'.notes = s.notes ∧ s'.deliveredNotes = s.deliveredNotes := by
  induction expired generalizing s with
  | nil => exact ⟨rfl,rfl,rfl⟩
  | cons entry expired ih => exact ih (s.finish entry .failed)

theorem tick_notes (node : Node) (env : Env) (s : Session) :
    (s.tick node env).stamped = s.stamped ∧ (s.tick node env).notes = s.notes.prune env.clock ∧
      (s.tick node env).deliveredNotes = s.deliveredNotes := by
  obtain ⟨pending,counters,fields⟩ := sweep_fields node env.clock s.pending.keys { session := s }
  unfold tick
  generalize s.pending.keys.foldl (sweepOne node env.clock) { session := s } = sweep at fields ⊢
  simp only
  obtain ⟨stamped,notes,delivered⟩ := finish_notes sweep.expired (sweep.retransmit.foldl
    (fun s packet => (s.transmit env packet.1 packet.2).2) { sweep.session with
      dedup := sweep.session.dedup.prune env.clock, notes := sweep.session.notes.prune env.clock })
  obtain ⟨earlier,before,first⟩ := resend_notes env sweep.retransmit { sweep.session with
      dedup := sweep.session.dedup.prune env.clock, notes := sweep.session.notes.prune env.clock }
  rw [fields] at earlier before first
  refine ⟨stamped.trans ?_,notes.trans ?_,delivered.trans ?_⟩
  · rw [fields]
    exact earlier
  · rw [fields]
    exact before
  · rw [fields]
    exact first

theorem onFrame_unvoiced (node : Node) (env : Env) (payload : Packet) (s : Session) :
    Unvoiced s (s.onFrame node env payload).state := by
  have received := onFrame_received node env payload s
  generalize (s.onFrame node env payload).state = after at received ⊢
  cases received with
  | counted counters => exact unvoiced_same s _ rfl
  | confirmed ack counters entry _ _ _ _ => exact unvoiced_same s _ rfl
  | heard message counters _ _ _ _ => exact unvoiced_same s _ (accept_stamped env message _)
  | unackable message counters _ =>
    exact unvoiced_stamp node (.ack ⟨0,0,message.src,message.seq⟩) s _ (by simp [Message.type]) rfl
  | acked message counters packet _ _ _ _ _ =>
    refine unvoiced_stamp node (.ack ⟨0,0,message.src,message.seq⟩) s _ (by simp [Message.type]) ?_
    rw [transmit_stamped,accept_stamped]
    rfl

theorem onFrame_notes (node : Node) (env : Env) (payload : Packet) (s : Session) :
    ((s.onFrame node env payload).state.notes = s.notes ∧
      (s.onFrame node env payload).state.deliveredNotes = s.deliveredNotes) ∨
    ∃ m, decode payload = .ok (.freeform m) ∧
      (s.onFrame node env payload).state.notes = (s.notes.add m env.clock).2 ∧
      (s.onFrame node env payload).state.deliveredNotes = (s.notes.add m env.clock).1.toList ++ s.deliveredNotes := by
  have received := onFrame_received node env payload s
  generalize (s.onFrame node env payload).state = after at received ⊢
  cases received with
  | counted counters => exact .inl ⟨rfl,rfl⟩
  | confirmed ack counters entry _ _ _ _ => exact .inl ⟨rfl,rfl⟩
  | heard message counters read _ _ _ =>
    obtain same | ⟨m,rfl,notes,delivered⟩ := accept_notes env message { s with counters := counters }
    · exact .inl same
    · exact .inr ⟨m,read,notes,delivered⟩
  | unackable message counters _ => exact .inl ⟨rfl,rfl⟩
  | acked message counters packet read _ _ _ _ =>
    obtain ⟨sentNotes,sentDelivered⟩ := transmit_notes env packet urgent
      ((ackFor node message { s with counters := counters }).2.accept env message) true
    rw [sentNotes,sentDelivered]
    obtain same | ⟨m,rfl,notes,delivered⟩ :=
      accept_notes env message (ackFor node message { s with counters := counters }).2
    · exact .inl same
    · exact .inr ⟨m,read,notes,delivered⟩

end Session
/-- A `send_note` call past its first critical section. -/
structure Sending where
  taskId : Int
  text : String
  /-- How many numbers had been allocated when it read its id. -/
  readAt : Nat
  noteId : Int
  fragments : List Freeform
  deriving DecidableEq

structure NoteLink where
  sender : Session
  receiver : Session
  sends : List Sending := []
  running : List (List Freeform) := []

inductive NoteStep where
  | sendNote (taskId : Int) (text : String)
  | nextFragment (index : Nat)
  | sender (call : Call)
  | receiver (call : Call)

structure NoteLabel where
  env : Env
  step : NoteStep

/-- `self._next_seq & 0xFF`. -/
def Session.nextNoteId (s : Session) : Int := Int.land s.nextSeq 0xFF

structure Ends where
  sender : Node
  receiver : Node

namespace Ends
variable (ends : Ends)

def split (taskId noteId : Int) (text : String) : Except SplitError (List Freeform) :=
  splitNote taskId noteId text ends.sender.params.maxPayloadBytes ends.sender.params.maxNoteFragments

def next (s : NoteLink) (label : NoteLabel) : NoteLink :=
  match label.step with
  | .sendNote taskId text =>
    match ends.split taskId s.sender.nextNoteId text with
    | .error _ => s
    | .ok fragments => { s with
        sends := ⟨taskId,text,s.sender.stamped.length,s.sender.nextNoteId,fragments⟩ :: s.sends
        running := fragments :: s.running }
  | .nextFragment index =>
    match s.running[index]? with
    | some (fragment::rest) =>
      match s.sender.sendBroadcast ends.sender label.env (.freeform fragment) with
      | (.ok _,sender) => { s with sender := sender, running := s.running.set index rest }
      -- The exception leaves the loop of `send_note`.
      | (.error _,sender) => { s with sender := sender, running := s.running.set index [] }
    | _ => s
  | .sender call => { s with sender := perform ends.sender label.env s.sender call }
  | .receiver call => { s with receiver := perform ends.receiver label.env s.receiver call }

/-- Fragments are broadcast by `send_note` alone, and a frame heard in the
sender's name is one it transmitted. -/
def Possible (s : NoteLink) (label : NoteLabel) : Prop :=
  match label.step with
  | .sender (.sendBroadcast message) => message.type ≠ .freeform
  | .receiver (.onFrame payload) => payload ∈ s.sender.transmitted.map Prod.fst ∨
      ∀ message, decode payload = .ok message → message.src ≠ ends.sender.id
  | _ => True

def machine : Machine NoteLink NoteLabel where
  initial s := s = ⟨Session.init ends.sender,Session.init ends.receiver,[],[]⟩
  enabled := ends.Possible
  next := ends.next

/-- Fewer than 256 numbers are allocated from the first `send_note` on. -/
def Few (s : NoteLink) (label : NoteLabel) : Prop :=
  ∀ c ∈ s.sends, (ends.next s label).sender.stamped.length < c.readAt + 256

instance (s : NoteLink) (label : NoteLabel) : Decidable (ends.Few s label) :=
  inferInstanceAs (Decidable (∀ c ∈ s.sends, _))

/-- No call about the task with another text in as many fragments, and more than
one, has read its id from the same number as this one does. -/
def Alone (s : NoteLink) (label : NoteLabel) : Prop :=
  match label.step with
  | .sendNote taskId text => ∀ c ∈ s.sends, c.taskId = taskId → c.readAt = s.sender.stamped.length →
      ∀ fragments, ends.split taskId s.sender.nextNoteId text = .ok fragments →
        c.fragments.length = fragments.length → 1 < fragments.length → c.text = text
  | _ => True

/-- Every note handed up in the sender's name is one it sent. -/
def Faithful (s : NoteLink) : Prop :=
  ∀ note ∈ s.receiver.deliveredNotes, note.src = ends.sender.id →
    ∃ c ∈ s.sends, c.taskId = note.taskId ∧ c.text = note.text

def heard (s : NoteLink) : Heardable := fun key count index text => key.1 = ends.sender.id →
  ∃ c ∈ s.sends, ∃ f ∈ c.fragments, c.taskId = key.2.1 ∧ c.noteId = key.2.2 ∧ f.fragCount = count ∧
    f.fragIndex = index ∧ f.text = text

structure Books (s : NoteLink) : Prop where
  sound : Sound ends.sender s.sender
  cut : ∀ c ∈ s.sends, ends.split c.taskId c.noteId c.text = .ok c.fragments
  read : ∀ c ∈ s.sends, c.readAt ≤ s.sender.stamped.length ∧ s.sender.stamped.length < c.readAt + 256 ∧
    c.noteId = (c.readAt : Int) % 256
  alone : ∀ c ∈ s.sends, ∀ d ∈ s.sends, c.taskId = d.taskId → c.readAt = d.readAt →
    c.fragments.length = d.fragments.length → 1 < d.fragments.length → c.text = d.text
  queued : ∀ left ∈ s.running, ∀ f ∈ left, ∃ c ∈ s.sends, f ∈ c.fragments
  voiced : ∀ m, .freeform m ∈ s.sender.stamped →
    ∃ c ∈ s.sends, ∃ f ∈ c.fragments, m = { f with src := m.src, seq := m.seq }
  held : s.receiver.notes.Holds (ends.heard s)
  faithful : ends.Faithful s

theorem nextNoteId_eq (node : Node) (s : Session) (sound : Sound node s) :
    s.nextNoteId = (s.stamped.length : Int) % 256 := by
  have low : Int.land ((s.stamped.length % 65536 : Nat) : Int) 0xFF = ((s.stamped.length % 65536 % 256 : Nat) : Int) :=
    congrArg Int.ofNat (Nat.and_two_pow_sub_one_eq_mod (s.stamped.length % 65536) 8)
  have next : s.nextSeq = ((s.stamped.length % 65536 : Nat) : Int) := by
    rw [sound.next,seqMax]
    omega
  rw [Session.nextNoteId,next,low]
  omega

theorem Books.same_read (s : NoteLink) (books : ends.Books s) (c d : Sending) (left : c ∈ s.sends)
    (right : d ∈ s.sends) (same : c.noteId = d.noteId) : c.readAt = d.readAt := by
  have first := books.read c left
  have second := books.read d right
  omega

theorem range_pieces (count : Nat) (piece : Nat → List UInt8) (pieces : List (List UInt8))
    (length : pieces.length = count) (same : ∀ i, i < count → pieces[i]? = some (piece i)) :
    (List.range count).flatMap piece = pieces.flatten := by
  rw [List.flatMap_def]
  congr 1
  apply List.ext_getElem?
  intro i
  by_cases within : i < count
  · rw [same i within,List.getElem?_map,List.getElem?_range within]
    rfl
  · rw [List.getElem?_eq_none (by simpa using within),List.getElem?_eq_none (by omega)]

theorem whole_faithful (s : NoteLink) (books : ends.Books s) (note : CompletedNote)
    (whole : NoteReassembler.Whole (ends.heard s) note) (own : note.src = ends.sender.id) :
    ∃ c ∈ s.sends, c.taskId = note.taskId ∧ c.text = note.text := by
  obtain ⟨count,piece,positive,pieces,decoded⟩ := whole
  obtain ⟨c,sent,f,cut,task,noteId,counted,first,firstText⟩ := pieces 0 (by omega) own
  obtain ⟨length,flat,named⟩ := splitNote_chunks _ _ _ _ _ _ (books.cut c sent)
  obtain ⟨_,_,chunked,k,indexed,there⟩ := named f cut
  refine ⟨c,sent,task,?_⟩
  have joined := range_pieces count.toNat piece
    (chunks (textBytesPerFragment ends.sender.params.maxPayloadBytes).toNat (encodeUtf8 c.text)) (by omega) (by
      intro i within
      by_cases several : 1 < count
      · obtain ⟨d,also,g,other,task',noteId',counted',index,text⟩ := pieces i (by omega) own
        obtain ⟨length',_,named'⟩ := splitNote_chunks _ _ _ _ _ _ (books.cut d also)
        obtain ⟨_,_,chunked',j,indexed',here⟩ := named' g other
        have sameText := books.alone c sent d also (task.trans task'.symm)
          (books.same_read ends s c d sent also (noteId.trans noteId'.symm)) (by omega) (by omega)
        have sameIndex : j = i := by omega
        rw [sameText,← text,← here,sameIndex]
      · obtain rfl : i = 0 := by omega
        have sameIndex : k = 0 := by omega
        rw [← firstText,← there,sameIndex])
  rw [joined,flat,decodeUtf8_encodeUtf8] at decoded
  injection decoded

theorem heard_grows (s t : NoteLink) (grows : ∀ c ∈ s.sends, c ∈ t.sends) (r : NoteReassembler)
    (holds : r.Holds (ends.heard s)) : r.Holds (ends.heard t) := by
  intro key p found index text piece
  obtain ⟨within,known⟩ := holds key p found index text piece
  refine ⟨within,fun own => ?_⟩
  obtain ⟨c,sent,rest⟩ := known own
  exact ⟨c,grows c sent,rest⟩

theorem faithful_grows (s t : NoteLink) (grows : ∀ c ∈ s.sends, c ∈ t.sends)
    (same : t.receiver.deliveredNotes = s.receiver.deliveredNotes) (faithful : ends.Faithful s) : ends.Faithful t := by
  intro note up own
  rw [same] at up
  obtain ⟨c,sent,rest⟩ := faithful note up own
  exact ⟨c,grows c sent,rest⟩

theorem books_initial : ends.Books ⟨Session.init ends.sender,Session.init ends.receiver,[],[]⟩ where
  sound := Session.init_sound ends.sender
  cut := fun c member => by cases member
  read := fun c member => by cases member
  alone := fun c member => by cases member
  queued := fun left member => by cases member
  voiced := fun m member => by cases member
  held := fun key p found => by cases found
  faithful := fun note up => by cases up

theorem sendNote_books (s : NoteLink) (books : ends.Books s) (taskId : Int) (text : String) (fragments : List Freeform)
    (cut : ends.split taskId s.sender.nextNoteId text = .ok fragments)
    (alone : ∀ c ∈ s.sends, c.taskId = taskId → c.readAt = s.sender.stamped.length →
      c.fragments.length = fragments.length → 1 < fragments.length → c.text = text) :
    ends.Books { s with
      sends := ⟨taskId,text,s.sender.stamped.length,s.sender.nextNoteId,fragments⟩ :: s.sends
      running := fragments :: s.running } where
  sound := books.sound
  cut := by
    intro c member
    obtain rfl | old := List.mem_cons.mp member
    · exact cut
    · exact books.cut c old
  read := by
    intro c member
    obtain rfl | old := List.mem_cons.mp member
    · exact ⟨le_refl _,by simp,nextNoteId_eq ends.sender s.sender books.sound⟩
    · exact books.read c old
  alone := by
    intro c left d right task read length several
    obtain rfl | left := List.mem_cons.mp left
    · obtain rfl | right := List.mem_cons.mp right
      · rfl
      · exact (alone d right task.symm read.symm length.symm (length ▸ several)).symm
    · obtain rfl | right := List.mem_cons.mp right
      · exact alone c left task read length several
      · exact books.alone c left d right task read length several
  queued := by
    intro left member f inside
    obtain rfl | old := List.mem_cons.mp member
    · exact ⟨_,List.mem_cons_self,inside⟩
    · obtain ⟨c,sent,cut⟩ := books.queued left old f inside
      exact ⟨c,List.mem_cons_of_mem _ sent,cut⟩
  voiced := by
    intro m stamped
    obtain ⟨c,sent,rest⟩ := books.voiced m stamped
    exact ⟨c,List.mem_cons_of_mem _ sent,rest⟩
  held := ends.heard_grows s _ (fun c sent => List.mem_cons_of_mem _ sent) _ books.held
  faithful := ends.faithful_grows s _ (fun c sent => List.mem_cons_of_mem _ sent) rfl books.faithful

theorem sender_books (s : NoteLink) (books : ends.Books s) (sender : Session) (running : List (List Freeform))
    (sound : Sound ends.sender sender) (grows : s.sender.stamped.length ≤ sender.stamped.length)
    (few : ∀ c ∈ s.sends, sender.stamped.length < c.readAt + 256)
    (queued : ∀ left ∈ running, ∀ f ∈ left, ∃ c ∈ s.sends, f ∈ c.fragments)
    (voiced : ∀ m, .freeform m ∈ sender.stamped → .freeform m ∈ s.sender.stamped ∨
      ∃ c ∈ s.sends, ∃ f ∈ c.fragments, m = { f with src := m.src, seq := m.seq }) :
    ends.Books { s with sender := sender, running := running } where
  sound := sound
  cut := books.cut
  read := by
    intro c sent
    obtain ⟨before,_,noteId⟩ := books.read c sent
    exact ⟨before.trans grows,few c sent,noteId⟩
  alone := books.alone
  queued := queued
  voiced := by
    intro m stamped
    obtain old | cut := voiced m stamped
    · exact books.voiced m old
    · exact cut
  held := books.held
  faithful := books.faithful

theorem receiver_books (s : NoteLink) (books : ends.Books s) (receiver : Session)
    (held : receiver.notes.Holds (ends.heard s))
    (up : ∀ note ∈ receiver.deliveredNotes, note ∈ s.receiver.deliveredNotes ∨
      NoteReassembler.Whole (ends.heard s) note) :
    ends.Books { s with receiver := receiver } where
  sound := books.sound
  cut := books.cut
  read := books.read
  alone := books.alone
  queued := books.queued
  voiced := books.voiced
  held := held
  faithful := by
    intro note member own
    obtain old | whole := up note member
    · exact books.faithful note old own
    · exact ends.whole_faithful s books note whole own

theorem spoken (s : NoteLink) (books : ends.Books s) (payload : Packet) (m : Freeform)
    (read : decode payload = .ok (.freeform m))
    (audible : payload ∈ s.sender.transmitted.map Prod.fst ∨
      ∀ message, decode payload = .ok message → message.src ≠ ends.sender.id) :
    ends.heard s (fragmentKey m) m.fragCount m.fragIndex m.text := by
  intro own
  obtain sent | foreign := audible
  · obtain ⟨packet,inside,rfl⟩ := List.mem_map.mp sent
    obtain ⟨message,stamped,carries⟩ := books.sound.packets packet inside
    have same := carries.decode _ _ _ read
    have voice : message = .freeform m := by
      cases message with
      | freeform n => exact same.symm
      | _ => cases same
    subst voice
    obtain ⟨c,sent,f,cut,shape⟩ := books.voiced m stamped
    have named := (splitNote_chunks _ _ _ _ _ _ (books.cut c sent)).2.2 f cut
    refine ⟨c,sent,f,cut,?_,?_,?_,?_,?_⟩
    · rw [← named.1,shape]
      rfl
    · rw [← named.2.1,shape]
      rfl
    · rw [shape]
    · rw [shape]
    · rw [shape]
  · exact absurd own (foreign _ read)

theorem nextFragment_books (s : NoteLink) (books : ends.Books s) (env : Env) (index : Nat)
    (few : ends.Few s ⟨env,.nextFragment index⟩) : ends.Books (ends.next s ⟨env,.nextFragment index⟩) := by
  unfold Few at few
  simp only [next] at few ⊢
  split
  · rename_i fragment rest waiting
    have running := List.mem_of_getElem? waiting
    have sound := Session.sendBroadcast_sound ends.sender env (.freeform fragment) s.sender books.sound
    have stamps := Session.sendBroadcast_stamped ends.sender env (.freeform fragment) s.sender
    simp only [waiting] at few
    have keeps : ∀ left, (∀ f ∈ left, f ∈ rest) → ∀ (sender : Session),
        (s.sender.sendBroadcast ends.sender env (.freeform fragment)).2 = sender →
        (∀ c ∈ s.sends, sender.stamped.length < c.readAt + 256) →
        ends.Books { s with sender := sender, running := s.running.set index left } := by
      intro left fewer sender same few
      subst same
      refine ends.sender_books s books _ _ sound ?_ few ?_ ?_
      · obtain stamps | stamps := stamps
        · exact stamps ▸ le_refl _
        · rw [stamps]
          exact Nat.le_succ _
      · intro other member f inside
        obtain old | rfl := List.mem_or_eq_of_mem_set member
        · exact books.queued other old f inside
        · exact books.queued _ running f (List.mem_cons_of_mem _ (fewer f inside))
      · intro m stamped
        obtain stamps | stamps := stamps
        · exact .inl (stamps ▸ stamped)
        · rw [stamps] at stamped
          obtain new | old := List.mem_cons.mp stamped
          · obtain ⟨c,sent,cut⟩ := books.queued _ running fragment List.mem_cons_self
            have shape : m = { fragment with src := ends.sender.id, seq := s.sender.nextSeq } := by
              injection new
            exact .inr ⟨c,sent,fragment,cut,by rw [shape]⟩
          · exact .inl old
    split
    · rename_i done sender ran
      simp only [ran] at few
      exact keeps rest (fun f inside => inside) sender (by rw [ran]) few
    · rename_i error sender ran
      simp only [ran] at few
      exact keeps [] (fun f inside => by cases inside) sender (by rw [ran]) few
  · exact books

theorem perform_unvoiced (node : Node) (env : Env) (s : Session) (call : Call)
    (other : ∀ message, call = .sendBroadcast message → message.type ≠ .freeform) :
    Session.Unvoiced s (perform node env s call) := by
  cases call with
  | sendReliable dst message => exact Session.sendReliable_unvoiced node env dst message s
  | sendBroadcast message =>
    obtain same | stamped := Session.sendBroadcast_stamped node env message s
    · exact Session.unvoiced_same s _ same
    · exact Session.unvoiced_stamp node message s _ (other message rfl) stamped
  | tick => exact Session.unvoiced_same s _ (Session.tick_notes node env s).1
  | onFrame payload => exact Session.onFrame_unvoiced node env payload s

theorem receiver_call_books (s : NoteLink) (books : ends.Books s) (env : Env) (call : Call)
    (possible : ends.Possible s ⟨env,.receiver call⟩) :
    ends.Books { s with receiver := perform ends.receiver env s.receiver call } := by
  have still : ∀ after : Session, after.notes = s.receiver.notes →
      after.deliveredNotes = s.receiver.deliveredNotes → ends.Books { s with receiver := after } := by
    intro after notes delivered
    exact ends.receiver_books s books after (notes ▸ books.held) (fun note up => .inl (delivered ▸ up))
  cases call with
  | sendReliable dst message =>
    obtain ⟨notes,delivered⟩ := Session.sendReliable_notes ends.receiver env dst message s.receiver
    exact still _ notes delivered
  | sendBroadcast message =>
    obtain ⟨notes,delivered⟩ := Session.sendBroadcast_notes ends.receiver env message s.receiver
    exact still _ notes delivered
  | tick =>
    obtain ⟨_,notes,delivered⟩ := Session.tick_notes ends.receiver env s.receiver
    refine ends.receiver_books s books _ ?_ (fun note up => .inl (delivered ▸ up))
    change (s.receiver.tick ends.receiver env).notes.Holds (ends.heard s)
    rw [notes]
    exact NoteReassembler.prune_holds _ _ _ books.held
  | onFrame payload =>
    obtain ⟨notes,delivered⟩ | ⟨m,read,notes,delivered⟩ := Session.onFrame_notes ends.receiver env payload s.receiver
    · exact still _ notes delivered
    · obtain ⟨held,whole⟩ := NoteReassembler.add_spec (ends.heard s) s.receiver.notes m env.clock books.held
        (fun _ _ => ends.spoken s books payload m read possible)
      refine ends.receiver_books s books _ ?_ ?_
      · change (s.receiver.onFrame ends.receiver env payload).state.notes.Holds (ends.heard s)
        rw [notes]
        exact held
      · intro note up
        change note ∈ (s.receiver.onFrame ends.receiver env payload).state.deliveredNotes at up
        rw [delivered] at up
        obtain new | old := List.mem_append.mp up
        · exact .inr (whole note (Option.mem_toList.mp new))
        · exact .inl old

theorem next_books (s : NoteLink) (label : NoteLabel) (books : ends.Books s) (possible : ends.Possible s label)
    (few : ends.Few s label) (alone : ends.Alone s label) : ends.Books (ends.next s label) := by
  obtain ⟨env,step⟩ := label
  cases step with
  | sendNote taskId text =>
    simp only [next]
    cases cut : ends.split taskId s.sender.nextNoteId text with
    | error error => exact books
    | ok fragments =>
      exact ends.sendNote_books s books taskId text fragments cut
        (fun c sent task read length several => alone c sent task read fragments cut length several)
  | nextFragment index => exact ends.nextFragment_books s books env index few
  | sender call =>
    obtain ⟨added,grown,silent⟩ := perform_unvoiced ends.sender env s.sender call (by
      rintro message rfl
      exact possible)
    refine ends.sender_books s books _ s.running (Pair.perform_sound ends.sender env s.sender call books.sound)
      ?_ few books.queued ?_
    · rw [grown,List.length_append]
      exact Nat.le_add_left _ _
    · intro m stamped
      rw [grown] at stamped
      obtain new | old := List.mem_append.mp stamped
      · exact absurd rfl (silent _ new)
      · exact .inl old
  | receiver call => exact ends.receiver_call_books s books env call possible

/-- Every note received is one that was sent, in a run in which no two calls
about a task, with different texts in as many fragments, read one number. -/
theorem received_sent (s : NoteLink)
    (reached : ends.machine.Reaches (fun s label => ends.Few s label ∧ ends.Alone s label) s) : ends.Faithful s := by
  refine (reached.invariant ends.Books ?_ ?_ s).faithful
  · rintro _ rfl
    exact ends.books_initial
  · intro s label _ books possible allowed
    exact ends.next_books s label books possible allowed.1 allowed.2

/-- A 24-byte packet leaves room for 15 bytes of text. -/
def slow : Ends := ⟨{ Node.first with params := { ReliabilityParams.standard with maxPayloadBytes := 24 } },.second⟩

def slowStart : NoteLink := ⟨Session.init slow.sender,Session.init slow.receiver,[],[]⟩

def takeTheLeft : Packet :=
  [7,1,0,0,0,7,0,0,2,116,97,107,101,32,116,104,101,32,108,101,102,116,32,114]

def single : List NoteLabel :=
  [⟨{ clock := 0 },.sendNote 7 "take the left row"⟩,⟨{ clock := 0 },.nextFragment 0⟩,
   ⟨{ clock := 0 },.nextFragment 0⟩,⟨{ clock := 1 },.receiver (.onFrame [7,1,0,1,0,7,0,1,2,111,119])⟩,
   ⟨{ clock := 2 },.receiver (.onFrame takeTheLeft)⟩]

theorem received_sent_single : ∃ note ∈ (slow.machine.runs slowStart single).receiver.deliveredNotes,
    note.text = "take the left row" ∧ ∃ c ∈ (slow.machine.runs slowStart single).sends,
      c.taskId = note.taskId ∧ c.text = note.text := by
  have reached := slow.machine.reaches_runs (fun s label => slow.Few s label ∧ slow.Alone s label) slowStart single
    (.start _ rfl) ⟨trivial,⟨by decide +kernel,fun c member => by cases member⟩,
      trivial,⟨by decide +kernel,trivial⟩,trivial,⟨by decide +kernel,trivial⟩,
      .inl (by decide +kernel),⟨by decide +kernel,trivial⟩,
      .inl (by decide +kernel),⟨by decide +kernel,trivial⟩,trivial⟩
  exact ⟨⟨1,7,0,"take the left row",2⟩,by decide +kernel,rfl,
    slow.received_sent _ reached ⟨1,7,0,"take the left row",2⟩ (by decide +kernel) rfl⟩

/-- Two calls read the id before either allocates a number. -/
def crossed : List NoteLabel :=
  [⟨{ clock := 0 },.sendNote 7 "take the left row"⟩,⟨{ clock := 0 },.sendNote 7 "skip the last bed"⟩,
   ⟨{ clock := 0 },.nextFragment 1⟩,⟨{ clock := 0 },.nextFragment 1⟩,⟨{ clock := 0 },.nextFragment 0⟩,
   ⟨{ clock := 0 },.nextFragment 0⟩,⟨{ clock := 1 },.receiver (.onFrame takeTheLeft)⟩,
   ⟨{ clock := 2 },.receiver (.onFrame [7,1,0,3,0,7,0,1,2,101,100])⟩]

/-- The first half of one note and the second half of the other, `take the left
red`, go up as a note. -/
theorem crossed_joined : ¬ ∀ s, slow.machine.Reaches slow.Few s → slow.Faithful s := by
  intro faithful
  have reached := slow.machine.reaches_runs slow.Few slowStart crossed (.start _ rfl)
    ⟨trivial,by decide +kernel,trivial,by decide +kernel,trivial,by decide +kernel,trivial,by decide +kernel,
      trivial,by decide +kernel,trivial,by decide +kernel,.inl (by decide +kernel),by decide +kernel,
      .inl (by decide +kernel),by decide +kernel,trivial⟩
  have sent := faithful _ reached ⟨1,7,0,"take the left red",2⟩ (by decide +kernel) rfl
  revert sent
  decide +kernel

end Ends
end AmigaFleet.Reliability
