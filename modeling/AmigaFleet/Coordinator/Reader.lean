import AmigaFleet.Coordinator.Requests
import AmigaFleet.Coordinator.Settling
import AmigaFleet.Reliability.Reassembly

/-! A bidder's session above the layer that completes its notes, one lock-held
block at a time. A note completes under one lock and is handed up after it is
released; a request leaves the other lock and its answer comes back by task id.
What was sent for which auction is kept beside, and no branch reads it. -/
namespace AmigaFleet.Coordinator
open Lib AmigaFleet.Codec AmigaFleet.Reliability

/-- A note that completed here, and the auction its sender sent it for. -/
structure Arrival where
  serial : Nat
  note : CompletedNote
  offer : Nat
  deriving DecidableEq

/-- A bid that was made, and the auction it answers. -/
structure Made where
  serial : Nat
  taskId : Int
  announcerId : Int
  offer : Nat
  deriving DecidableEq

/-- A note queued for interpretation for a bid. -/
structure Ticket where
  bid : Made
  arrival : Arrival
  deriving DecidableEq

structure Ticket.Right (t : Ticket) : Prop where
  announcer : t.arrival.note.src = t.bid.announcerId
  task : t.arrival.note.taskId = t.bid.taskId
  offer : t.arrival.offer = t.bid.offer

instance (t : Ticket) : Decidable t.Right :=
  decidable_of_iff (t.arrival.note.src = t.bid.announcerId ∧ t.arrival.note.taskId = t.bid.taskId ∧
    t.arrival.offer = t.bid.offer) ⟨fun ⟨a,b,c⟩ => ⟨a,b,c⟩,fun ⟨a,b,c⟩ => ⟨a,b,c⟩⟩

structure Reader where
  session : Session := {}
  notes : NoteReassembler
  arrivals : List Arrival := []
  /-- Completed, and not yet handed up. -/
  waiting : List Arrival := []
  made : List Made := []
  /-- One for each request in the queue. -/
  tickets : List Ticket := []
  /-- Requests taken and not yet answered. -/
  taken : List (NoteContext × Ticket) := []
  queued : List Ticket := []
  /-- The notes that put a bid on the deliberative clock. -/
  clocks : List Ticket := []
  /-- The bids that won, and the note the replanner was handed for each. -/
  handed : List (Made × String) := []
  /-- The requests whose answer revised or withdrew a bid, and that bid. -/
  revised : List (Ticket × Made) := []

inductive ReaderLabel where
  | fragment (m : Freeform) (now : ℚ) (offer : Nat)
  | expire (now : ℚ)
  | dispatch (arrival : Arrival) (world : World)
  | announce (m : TaskAnnounce) (world : World) (now : ℚ) (offer : Nat)
  | take
  | answer (request : NoteContext × Ticket) (world : World) (revision : Option BidRevision)
  | other (label : Label)

def latest (arrivals : List Arrival) (src taskId : Int) : Option Arrival :=
  arrivals.find? (fun a => a.note.src = src ∧ a.note.taskId = taskId)

def current (made : List Made) (taskId : Int) : Option Made := made.find? (fun b => b.taskId = taskId)

def Session.touches (s : Session) (taskId : Int) (revision : Option BidRevision) : Bool :=
  (s.bids.get? taskId).any (fun p => p.sentAt.isNone) &&
    match revision with
    | some (.reviseBid ..) => true
    | some (.withdrawBid _) => true
    | _ => false

namespace Reader
variable (cfg : Config)

/-- `completed_note` of the layer below. -/
def lookup (s : Reader) (src taskId : Int) (now : ℚ) : Option CompletedNote := (s.notes.completed src taskId now).1

def found (s : Reader) (m : TaskAnnounce) (now : ℚ) : Option Arrival :=
  if (s.lookup m.src m.taskId now).isSome then latest s.arrivals m.src m.taskId else none

def heard (s : Reader) (m : TaskAnnounce) (world : World) (now : ℚ) : Session :=
  (s.session.onMessage cfg { world with completedNote := fun _ src taskId => s.lookup src taskId now }
    (.taskAnnounce m)).state

def answers (s : Reader) (m : TaskAnnounce) (world : World) (now : ℚ) : Bool :=
  !s.session.bids.contains m.taskId && (s.heard cfg m world now).bids.contains m.taskId

def bidOf (s : Reader) (m : TaskAnnounce) (offer : Nat) : Made := ⟨s.made.length,m.taskId,m.src,offer⟩

def won (s : Reader) : Op → List (Made × String)
  | .message (.grant g) =>
    if g.src ≠ cfg.nodeId ∧ g.winnerId = cfg.nodeId then
      match s.session.bids.get? g.taskId,current s.made g.taskId with
      | some p,some b => [(b,p.note)]
      | _,_ => []
    else []
  | _ => []

def next (s : Reader) : ReaderLabel → Reader
  | .fragment m now offer =>
    match s.notes.add m now with
    | (none,notes) => { s with notes := notes }
    | (some note,notes) =>
      let arrival : Arrival := ⟨s.arrivals.length,note,offer⟩
      { s with notes := notes, arrivals := arrival :: s.arrivals, waiting := arrival :: s.waiting }
  | .expire now => { s with notes := s.notes.prune now }
  | .dispatch arrival world =>
    let session := s.session.onNote cfg world arrival.note
    let tickets := if session.noteRequests.length = s.session.noteRequests.length then []
      else (current s.made arrival.note.taskId).toList.map (fun bid => ⟨bid,arrival⟩)
    { s with
      session := session
      waiting := s.waiting.erase arrival
      tickets := s.tickets ++ tickets
      queued := tickets ++ s.queued }
  | .announce m world now offer =>
    let session := s.heard cfg m world now
    if s.answers cfg m world now then
      let tickets := (s.found m now).toList.map (fun arrival => ⟨s.bidOf m offer,arrival⟩)
      { s with
        session := session
        notes := (s.notes.completed m.src m.taskId now).2
        made := s.bidOf m offer :: s.made
        tickets := s.tickets ++ tickets
        queued := tickets ++ s.queued
        clocks := tickets ++ s.clocks }
    else { s with session := session }
  | .take =>
    { s with
      session := { s.session with noteRequests := [] }
      tickets := []
      taken := s.taken ++ s.session.noteRequests.zip s.tickets }
  | .answer request world revision =>
    { s with
      session := s.session.reviseBid cfg world request.1.taskId revision
      taken := s.taken.erase request
      revised := if s.session.touches request.1.taskId revision then
        (current s.made request.1.taskId).toList.map (fun bid => (request.2,bid)) ++ s.revised else s.revised }
  | .other label =>
    { s with
      session := (machine cfg).next s.session label
      handed := s.won cfg label.op ++ s.handed }

def Enabled (s : Reader) : ReaderLabel → Prop
  | .fragment m _ _ => m.src ≠ cfg.nodeId
  | .dispatch arrival _ => arrival ∈ s.waiting
  | .answer request _ _ => request ∈ s.taken
  | .other label => label.op.silent = true ∧ (machine cfg).enabled s.session label
  | _ => True

def machine : Machine Reader ReaderLabel where
  initial s := ∃ node : Node, node.id = cfg.nodeId ∧ s = { notes := (Reliability.Session.init node).notes }
  enabled := Enabled cfg
  next := next cfg

instance (s : Reader) : (label : ReaderLabel) → Decidable ((machine cfg).enabled s label)
  | .fragment .. => inferInstanceAs (Decidable (_ ≠ _))
  | .dispatch .. => inferInstanceAs (Decidable (_ ∈ _))
  | .answer .. => inferInstanceAs (Decidable (_ ∈ _))
  | .other label => inferInstanceAs (Decidable (_ ∧ (Coordinator.machine cfg).enabled s.session label))
  | .expire _ | .announce .. | .take => inferInstanceAs (Decidable True)

def open_ (s : Reader) : List Ticket := s.tickets ++ s.taken.map Prod.snd

/-- A bid is made only when the note found, and every note not yet handed up about
its task, are its announcer's for its auction, the former handed up already, and
no request about the task is open. A note completes, while a bid on its task
waits, only for that bid. -/
def Alone (s : Reader) : ReaderLabel → Prop
  | .fragment m now offer => (s.notes.add m now).1.isSome = true → ∀ p ∈ s.session.bids.get? m.taskId,
      p.sentAt = none → ∀ b ∈ current s.made m.taskId, m.src = b.announcerId ∧ offer = b.offer
  | .announce m world now offer => s.answers cfg m world now = true →
      (∀ a ∈ s.found m now, a.offer = offer ∧ a ∉ s.waiting) ∧
      (∀ a ∈ s.waiting, a.note.taskId = m.taskId → a.note.src = m.src ∧ a.offer = offer) ∧
      ∀ t ∈ s.open_, t.bid.taskId ≠ m.taskId
  | _ => True

instance (s : Reader) : (label : ReaderLabel) → Decidable (s.Alone cfg label)
  | .fragment m now offer => inferInstanceAs (Decidable ((s.notes.add m now).1.isSome = true →
      ∀ p ∈ s.session.bids.get? m.taskId, p.sentAt = none → ∀ b ∈ current s.made m.taskId, _ ∧ offer = b.offer))
  | .announce m world now offer => inferInstanceAs (Decidable (s.answers cfg m world now = true →
      (∀ a ∈ s.found m now, a.offer = offer ∧ _) ∧ (∀ a ∈ s.waiting, _ → _ ∧ _) ∧ ∀ t ∈ s.open_, _ ≠ _))
  | .expire _ | .dispatch .. | .take | .answer .. | .other _ => inferInstanceAs (Decidable True)

/-- What the ticket of a request in the queue or taken from it tells of it. -/
structure Asks (c : NoteContext) (t : Ticket) : Prop where
  task : c.taskId = t.bid.taskId
  src : c.src = t.arrival.note.src
  text : c.text = t.arrival.note.text

/-- Every note read is read for the bid it is about, and revises it at most once. -/
structure Attentive (s : Reader) : Prop where
  requests : List.Forall₂ Asks s.session.noteRequests s.tickets
  queued : ∀ t ∈ s.queued, t.Right
  clocks : ∀ t ∈ s.clocks, t.Right
  clocked : ∀ id p, s.session.bids.get? id = some p → p.deliberative = true →
    ∃ t ∈ s.clocks, current s.made id = some t.bid
  handed : ∀ h ∈ s.handed, h.2 = "" ∨ ∃ t ∈ s.clocks, t.bid = h.1 ∧ t.arrival.note.text = h.2
  revised : ∀ r ∈ s.revised, r.1.bid = r.2
  once : (s.revised.map (fun r => (r.1.arrival,r.2))).Nodup

/-- What is known of every note, bid and request as long as the condition is met. -/
structure Tracked (s : Reader) : Prop where
  arrivals : ∀ a ∈ s.arrivals, a.serial < s.arrivals.length
  made : ∀ b ∈ s.made, b.serial < s.made.length
  cached : ∀ src taskId entry, s.notes.finished.get? (src,taskId) = some entry →
    ∃ a, latest s.arrivals src taskId = some a ∧ a.note = entry.1
  waiting : ∀ a ∈ s.waiting, a ∈ s.arrivals
  separate : s.waiting.Nodup
  onFile : ∀ id p, s.session.bids.get? id = some p → ∃ b, current s.made id = some b ∧ b.announcerId = p.announcerId
  fitting : ∀ a ∈ s.waiting, ∀ p, s.session.bids.get? a.note.taskId = some p → p.sentAt = none →
    ∀ b ∈ current s.made a.note.taskId, a.note.src = b.announcerId ∧ a.offer = b.offer
  known : ∀ t ∈ s.queued, t.bid ∈ s.made ∧ t.arrival ∈ s.arrivals ∧ t.arrival ∉ s.waiting
  aligned : List.Forall₂ Asks s.session.noteRequests s.tickets
  about : ∀ r ∈ s.taken, Asks r.1 r.2
  answerable : ∀ t ∈ s.open_, ∀ p, s.session.bids.get? t.bid.taskId = some p → p.sentAt = none →
    current s.made t.bid.taskId = some t.bid
  unanswered : (s.open_ ++ s.revised.map Prod.fst).Nodup
  asked : ∀ t ∈ s.open_ ++ s.revised.map Prod.fst, t ∈ s.queued
  right : ∀ t ∈ s.queued, t.Right
  clocks : ∀ t ∈ s.clocks, t.Right
  clocked : ∀ id p, s.session.bids.get? id = some p → p.deliberative = true →
    ∃ t ∈ s.clocks, current s.made id = some t.bid
  noted : ∀ id p, s.session.bids.get? id = some p → p.note = "" ∨
    ∃ t ∈ s.clocks, current s.made id = some t.bid ∧ t.arrival.note.text = p.note
  handed : ∀ h ∈ s.handed, h.2 = "" ∨ ∃ t ∈ s.clocks, t.bid = h.1 ∧ t.arrival.note.text = h.2
  revised : ∀ r ∈ s.revised, r.1.bid = r.2

theorem latest_spec (arrivals : List Arrival) (src taskId : Int) (a : Arrival)
    (last : latest arrivals src taskId = some a) : a ∈ arrivals ∧ a.note.src = src ∧ a.note.taskId = taskId := by
  have shape := List.find?_some last
  rw [decide_eq_true_eq] at shape
  exact ⟨List.mem_of_find?_eq_some last,shape⟩

theorem current_spec (made : List Made) (taskId : Int) (b : Made) (last : current made taskId = some b) :
    b ∈ made ∧ b.taskId = taskId := by
  have shape := List.find?_some last
  rw [decide_eq_true_eq] at shape
  exact ⟨List.mem_of_find?_eq_some last,shape⟩

theorem current_cons (made : List Made) (b : Made) (taskId : Int) :
    current (b::made) taskId = if b.taskId = taskId then some b else current made taskId := by
  unfold current
  rw [List.find?_cons]
  split
  · rename_i same
    rw [if_pos (by simpa using same)]
  · rename_i other
    rw [if_neg (by simpa using other)]

theorem tracked_attentive (s : Reader) (tracked : s.Tracked) : s.Attentive where
  requests := tracked.aligned
  queued := tracked.right
  clocks := tracked.clocks
  clocked := tracked.clocked
  handed := tracked.handed
  revised := tracked.revised
  once := by
    have tickets : (s.revised.map Prod.fst).Nodup := (List.nodup_append.mp tracked.unanswered).2.1
    have same : s.revised.map (fun r => (r.1.arrival,r.2)) =
        (s.revised.map Prod.fst).map (fun t => (t.arrival,t.bid)) := by
      rw [List.map_map]
      refine List.map_congr_left (fun r member => ?_)
      rw [← tracked.revised r member]
      rfl
    rw [same]
    refine tickets.map (fun t u equal => ?_)
    obtain ⟨bid,arrival⟩ := t
    simp only [Prod.mk.injEq] at equal
    obtain ⟨rfl,rfl⟩ := equal
    rfl

theorem kindred_tracked (s : Reader) (tracked : s.Tracked) (session : Session) (kindred : s.session.Kindred session)
    (requests : session.noteRequests = s.session.noteRequests) : Tracked { s with session := session } where
  arrivals := tracked.arrivals
  made := tracked.made
  cached := tracked.cached
  waiting := tracked.waiting
  separate := tracked.separate
  onFile := by
    intro id q found
    obtain ⟨p,before,kin⟩ := kindred id q found
    rw [kin.announcerId]
    exact tracked.onFile id p before
  fitting := by
    intro a member q found unsent
    obtain ⟨p,before,kin⟩ := kindred _ q found
    exact tracked.fitting a member p before (kin.unsent unsent)
  known := tracked.known
  aligned := by
    rw [requests]
    exact tracked.aligned
  about := tracked.about
  answerable := by
    intro t member q found unsent
    obtain ⟨p,before,kin⟩ := kindred _ q found
    exact tracked.answerable t member p before (kin.unsent unsent)
  unanswered := tracked.unanswered
  asked := tracked.asked
  right := tracked.right
  clocks := tracked.clocks
  clocked := by
    intro id q found deliberative
    obtain ⟨p,before,kin⟩ := kindred id q found
    exact tracked.clocked id p before (kin.deliberative ▸ deliberative)
  noted := by
    intro id q found
    obtain ⟨p,before,kin⟩ := kindred id q found
    rw [kin.note]
    exact tracked.noted id p before
  handed := tracked.handed
  revised := tracked.revised

theorem notes_tracked (s : Reader) (tracked : s.Tracked) (notes : NoteReassembler)
    (fewer : ∀ key entry, notes.finished.get? key = some entry → s.notes.finished.get? key = some entry) :
    Tracked { s with notes := notes } :=
  { tracked with cached := fun src taskId entry found => tracked.cached src taskId entry (fewer _ entry found) }

theorem pruned_fewer (r : NoteReassembler) (now : ℚ) (key : Int × Int) (entry : CompletedNote × ℚ)
    (found : (r.prune now).finished.get? key = some entry) : r.finished.get? key = some entry :=
  Dict.get?_dropStale _ _ key entry found

theorem latest_cons (arrivals : List Arrival) (a : Arrival) (src taskId : Int) :
    latest (a::arrivals) src taskId =
      if a.note.src = src ∧ a.note.taskId = taskId then some a else latest arrivals src taskId := by
  unfold latest
  rw [List.find?_cons]
  split
  · rename_i same
    rw [if_pos (by simpa using same)]
  · rename_i other
    rw [if_neg (by simpa using other)]

theorem arrival_tracked (s : Reader) (tracked : s.Tracked) (notes : NoteReassembler) (note : CompletedNote)
    (offer : Nat) (now : ℚ) (finished : notes.finished = ((s.notes.prune now).remember note now).finished)
    (fits : ∀ p, s.session.bids.get? note.taskId = some p → p.sentAt = none →
      ∀ b ∈ current s.made note.taskId, note.src = b.announcerId ∧ offer = b.offer) :
    Tracked { s with
      notes := notes
      arrivals := ⟨s.arrivals.length,note,offer⟩ :: s.arrivals
      waiting := ⟨s.arrivals.length,note,offer⟩ :: s.waiting } := by
  have fresh : ∀ a ∈ s.arrivals, a ≠ ⟨s.arrivals.length,note,offer⟩ := by
    rintro a member rfl
    exact lt_irrefl _ (tracked.arrivals _ member)
  refine { tracked with arrivals := ?_, cached := ?_, waiting := ?_, separate := ?_, fitting := ?_, known := ?_ }
  · intro a member
    obtain rfl | old := List.mem_cons.mp member
    · exact Nat.lt_succ_self _
    · exact Nat.lt_succ_of_lt (tracked.arrivals a old)
  · intro src taskId entry found
    have found : notes.finished.get? (src,taskId) = some entry := found
    rw [finished] at found
    have found := Dict.get?_trim _ _ _ entry found
    rw [Dict.get?_place] at found
    rw [latest_cons]
    split at found
    · rename_i same
      injection same with first second
      injection found with found
      rw [if_pos ⟨first.symm,second.symm⟩]
      exact ⟨_,rfl,congrArg Prod.fst found⟩
    · rename_i other
      rw [if_neg (fun ⟨first,second⟩ => other (by rw [← first,← second]))]
      exact tracked.cached src taskId entry (pruned_fewer s.notes now _ entry found)
  · intro a member
    obtain rfl | old := List.mem_cons.mp member
    · exact List.mem_cons_self
    · exact List.mem_cons_of_mem _ (tracked.waiting a old)
  · exact List.nodup_cons.mpr ⟨fun member => fresh _ (tracked.waiting _ member) rfl,tracked.separate⟩
  · intro a member
    obtain rfl | old := List.mem_cons.mp member
    · exact fits
    · exact tracked.fitting a old
  · intro t member
    obtain ⟨bid,arrival,gone⟩ := tracked.known t member
    exact ⟨bid,List.mem_cons_of_mem _ arrival,List.not_mem_cons_of_ne_of_not_mem (fresh _ arrival) gone⟩

theorem erase_tracked (s : Reader) (tracked : s.Tracked) (a : Arrival) :
    Tracked { s with waiting := s.waiting.erase a } :=
  { tracked with
    waiting := fun b member => tracked.waiting b (List.mem_of_mem_erase member)
    separate := tracked.separate.erase a
    fitting := fun b member => tracked.fitting b (List.mem_of_mem_erase member)
    known := fun t member =>
      let ⟨bid,arrival,gone⟩ := tracked.known t member
      ⟨bid,arrival,fun still => gone (List.mem_of_mem_erase still)⟩ }

theorem queue_tracked (s : Reader) (tracked : s.Tracked) (t : Ticket) (c : NoteContext) (right : t.Right)
    (about : Asks c t) (bid : current s.made t.bid.taskId = some t.bid)
    (arrival : t.arrival ∈ s.arrivals) (gone : t.arrival ∉ s.waiting) (fresh : t ∉ s.queued) :
    Tracked { s with
      session := { s.session with noteRequests := s.session.noteRequests ++ [c] }
      tickets := s.tickets ++ [t]
      queued := t :: s.queued } := by
  have shuffled : ((s.tickets ++ [t]) ++ s.taken.map Prod.snd ++ s.revised.map Prod.fst).Perm
      (t :: (s.open_ ++ s.revised.map Prod.fst)) := by
    rw [open_,List.append_assoc,List.append_assoc,List.append_assoc]
    exact List.perm_middle
  refine { tracked with known := ?_, aligned := ?_, answerable := ?_, unanswered := ?_, asked := ?_, right := ?_ }
  · intro u member
    obtain rfl | old := List.mem_cons.mp member
    · exact ⟨(current_spec _ _ _ bid).1,arrival,gone⟩
    · exact tracked.known u old
  · exact List.rel_append tracked.aligned (.cons about .nil)
  · intro u member
    have member : u ∈ (s.tickets ++ [t]) ++ s.taken.map Prod.snd := member
    by_cases new : u = t
    · subst new
      exact fun _ _ _ => bid
    · refine tracked.answerable u ?_
      rw [open_]
      simp only [List.mem_append,List.mem_singleton,new,or_false] at member ⊢
      exact member
  · refine shuffled.nodup_iff.mpr (List.nodup_cons.mpr ⟨fun old => fresh (tracked.asked t old),tracked.unanswered⟩)
  · intro u member
    obtain rfl | old := List.mem_cons.mp (shuffled.mem_iff.mp member)
    · exact List.mem_cons_self
    · exact List.mem_cons_of_mem _ (tracked.asked u old)
  · intro u member
    obtain rfl | old := List.mem_cons.mp member
    · exact right
    · exact tracked.right u old

theorem bid_tracked (s : Reader) (tracked : s.Tracked) (m : TaskAnnounce) (offer : Nat) (session : Session)
    (pending : PendingBid) (tickets : List Ticket) (announcer : pending.announcerId = m.src)
    (bids : session.bids = s.session.bids.set m.taskId pending)
    (requests : session.noteRequests = s.session.noteRequests)
    (own : ∀ t ∈ tickets, t.bid = s.bidOf m offer ∧ t.Right)
    (deliberative : pending.deliberative = true → ∃ t, t ∈ tickets)
    (noted : pending.note = "" ∨ ∃ t ∈ tickets, t.arrival.note.text = pending.note)
    (alone : ∀ a ∈ s.waiting, a.note.taskId = m.taskId → a.note.src = m.src ∧ a.offer = offer)
    (closed : ∀ t ∈ s.open_, t.bid.taskId ≠ m.taskId) :
    Tracked { s with session := session, made := s.bidOf m offer :: s.made, clocks := tickets ++ s.clocks } := by
  have here : current (s.bidOf m offer :: s.made) m.taskId = some (s.bidOf m offer) := by
    rw [current_cons]
    exact if_pos rfl
  have elsewhere : ∀ id, id ≠ m.taskId → current (s.bidOf m offer :: s.made) id = current s.made id := by
    intro id other
    rw [current_cons]
    exact if_neg other.symm
  have filed : ∀ id p, session.bids.get? id = some p → (id = m.taskId ∧ p = pending) ∨
      id ≠ m.taskId ∧ s.session.bids.get? id = some p :=
    fun id p found => Dict.get?_set_cases (bids ▸ found)
  refine { tracked with
    made := ?_, onFile := ?_, fitting := ?_, known := ?_, aligned := ?_
    answerable := ?_, clocks := ?_, clocked := ?_, noted := ?_, handed := ?_ }
  · intro b member
    obtain rfl | old := List.mem_cons.mp member
    · exact Nat.lt_succ_self _
    · exact Nat.lt_succ_of_lt (tracked.made b old)
  · intro id p found
    obtain ⟨rfl,rfl⟩ | ⟨other,old⟩ := filed id p found
    · exact ⟨_,here,announcer.symm⟩
    · rw [elsewhere id other]
      exact tracked.onFile id p old
  · intro a member p found unsent
    obtain ⟨same,_⟩ | ⟨other,old⟩ := filed _ p found
    · intro b last
      have last := Option.mem_def.mp last
      simp only [same] at last
      rw [here] at last
      injection last with last
      rw [← last]
      exact alone a member same
    · simp only [elsewhere _ other]
      exact tracked.fitting a member p old unsent
  · intro t member
    obtain ⟨bid,rest⟩ := tracked.known t member
    exact ⟨List.mem_cons_of_mem _ bid,rest⟩
  · rw [requests]
    exact tracked.aligned
  · intro t member p found unsent
    obtain ⟨same,_⟩ | ⟨other,old⟩ := filed _ p found
    · exact absurd same (closed t member)
    · rw [elsewhere _ other]
      exact tracked.answerable t member p old unsent
  · intro t member
    obtain new | old := List.mem_append.mp member
    · exact (own t new).2
    · exact tracked.clocks t old
  · intro id p found slow
    obtain ⟨rfl,rfl⟩ | ⟨other,old⟩ := filed id p found
    · obtain ⟨t,member⟩ := deliberative slow
      exact ⟨t,List.mem_append_left _ member,here.trans (congrArg some (own t member).1.symm)⟩
    · obtain ⟨t,member,last⟩ := tracked.clocked id p old slow
      exact ⟨t,List.mem_append_right _ member,(elsewhere id other).trans last⟩
  · intro id p found
    obtain ⟨rfl,rfl⟩ | ⟨other,old⟩ := filed id p found
    · obtain empty | ⟨t,member,text⟩ := noted
      · exact .inl empty
      · exact .inr ⟨t,List.mem_append_left _ member,here.trans (congrArg some (own t member).1.symm),text⟩
    · obtain empty | ⟨t,member,last,text⟩ := tracked.noted id p old
      · exact .inl empty
      · exact .inr ⟨t,List.mem_append_right _ member,(elsewhere id other).trans last,text⟩
  · intro h member
    obtain empty | ⟨t,inside,rest⟩ := tracked.handed h member
    · exact .inl empty
    · exact .inr ⟨t,List.mem_append_right _ inside,rest⟩

variable (cfg : Config)

theorem heard_cases (s : Reader) (m : TaskAnnounce) (world : World) (now : ℚ) :
    (s.answers cfg m world now = false ∧ (s.heard cfg m world now).bids = s.session.bids ∧
      (s.heard cfg m world now).noteRequests = s.session.noteRequests) ∨
    s.answers cfg m world now = true ∧ ∃ pending requests, pending.announcerId = m.src ∧
      pending.deliberative = (s.lookup m.src m.taskId now).isSome ∧
      pending.note = ((s.lookup m.src m.taskId now).map CompletedNote.text).getD "" ∧
      (s.heard cfg m world now).bids = s.session.bids.set m.taskId pending ∧
      (s.heard cfg m world now).noteRequests = s.session.noteRequests ++ requests ∧
      List.Forall₂ (fun c note => c.taskId = note.taskId ∧ c.src = note.src ∧ c.text = note.text) requests
        (s.lookup m.src m.taskId now).toList := by
  have quiet : (s.heard cfg m world now).bids = s.session.bids →
      (s.heard cfg m world now).noteRequests = s.session.noteRequests →
      s.answers cfg m world now = false ∧ (s.heard cfg m world now).bids = s.session.bids ∧
        (s.heard cfg m world now).noteRequests = s.session.noteRequests := by
    intro bids requests
    refine ⟨?_,bids,requests⟩
    rw [answers,bids]
    cases s.session.bids.contains m.taskId <;> rfl
  by_cases own : m.src = cfg.nodeId
  · refine .inl (quiet ?_ ?_) <;> simp [heard,Session.onMessage,Message.src,own]
  have shape : s.heard cfg m world now = ((s.session.say (.received (.taskAnnounce m) s.session.tasks)).onAnnounce
      cfg { world with completedNote := fun _ src taskId => s.lookup src taskId now } m
      (world.clock s.session.log)).state := by
    simp [heard,Session.onMessage,Message.src,own]
  obtain ⟨same,_⟩ | ⟨task,fitness,answers,_⟩ := Session.onAnnounce_cases cfg
    { world with completedNote := fun _ src taskId => s.lookup src taskId now } m (world.clock s.session.log)
    (s.session.say (.received (.taskAnnounce m) s.session.tasks))
  · rw [same] at shape
    refine .inl (quiet ?_ ?_) <;> rw [shape] <;> rfl
  · rw [Session.onAnnounce_answers cfg _ m _ _ task fitness answers] at shape
    have unanswered : s.session.bids.get? m.taskId = none := answers.unanswered
    refine .inr ⟨?_,_,_,rfl,rfl,rfl,by rw [shape]; rfl,by rw [shape]; rfl,?_⟩
    · rw [Reader.answers,shape]
      simp [Dict.contains,unanswered]
    · refine List.forall₂_map_left_iff.mpr ?_
      exact List.forall₂_same.mpr (fun note _ => ⟨rfl,rfl,rfl⟩)

theorem found_spec (s : Reader) (tracked : s.Tracked) (m : TaskAnnounce) (now : ℚ) :
    s.found m now = none ∧ s.lookup m.src m.taskId now = none ∨
      ∃ a, s.found m now = some a ∧ s.lookup m.src m.taskId now = some a.note ∧ a ∈ s.arrivals ∧
        a.note.src = m.src ∧ a.note.taskId = m.taskId := by
  cases looked : s.lookup m.src m.taskId now with
  | none => exact .inl ⟨by simp [found,looked],rfl⟩
  | some note =>
    simp only [lookup,NoteReassembler.completed,Option.map_eq_some_iff] at looked
    obtain ⟨entry,there,rfl⟩ := looked
    obtain ⟨a,last,same⟩ := tracked.cached m.src m.taskId entry (pruned_fewer s.notes now _ entry there)
    refine .inr ⟨a,?_,congrArg some same.symm,latest_spec _ _ _ a last⟩
    simp [found,lookup,NoteReassembler.completed,there,last]

theorem announce_tracked (s : Reader) (tracked : s.Tracked) (m : TaskAnnounce) (world : World) (now : ℚ)
    (offer : Nat) (alone : s.Alone cfg (.announce m world now offer)) :
    Tracked (s.next cfg (.announce m world now offer)) := by
  simp only [next]
  obtain ⟨silent,bids,requests⟩ | ⟨answered,pending,requests,announcer,slow,noted,bids,queue,about⟩ :=
    s.heard_cases cfg m world now
  · rw [silent]
    refine s.kindred_tracked tracked _ ?_ requests
    exact fun id q found => ⟨q,bids ▸ found,Session.kin_refl q⟩
  rw [answered,if_pos rfl]
  obtain ⟨timely,others,closed⟩ := alone answered
  have pruned := s.notes_tracked tracked (s.notes.completed m.src m.taskId now).2 (pruned_fewer s.notes now)
  obtain ⟨none,empty⟩ | ⟨a,found,looked,inside,src,task⟩ := s.found_spec tracked m now
  · rw [empty] at slow noted about
    cases about
    simp only [none,Option.toList_none,List.map_nil,List.append_nil]
    exact bid_tracked _ pruned m offer _ pending [] announcer bids (queue.trans (List.append_nil _)) nofun
      (fun deliberative => by rw [slow] at deliberative; cases deliberative) (.inl noted) others closed
  · rw [looked] at slow noted about
    rw [found] at timely ⊢
    obtain ⟨c,same,of,text,rfl⟩ : ∃ c, c.taskId = a.note.taskId ∧ c.src = a.note.src ∧ c.text = a.note.text ∧
        requests = [c] := by
      cases about with
      | cons same last =>
        cases last
        exact ⟨_,same.1,same.2.1,same.2.2,rfl⟩
    have right : Ticket.Right ⟨s.bidOf m offer,a⟩ := ⟨src,task,(timely a rfl).1⟩
    have made := bid_tracked _ pruned m offer
      { s.heard cfg m world now with noteRequests := s.session.noteRequests } pending [⟨s.bidOf m offer,a⟩] announcer
      bids rfl (by
        intro t member
        rw [List.mem_singleton.mp member]
        exact ⟨rfl,right⟩) (fun _ => ⟨_,List.mem_singleton.mpr rfl⟩)
      (.inr ⟨_,List.mem_singleton.mpr rfl,noted.symm⟩) others closed
    have asked := queue_tracked _ made ⟨s.bidOf m offer,a⟩ c right ⟨same.trans task,of,text⟩
      (by
        rw [current_cons]
        exact if_pos rfl) inside (timely a rfl).2 (by
        intro old
        exact lt_irrefl _ (tracked.made _ (tracked.known _ old).1))
    simp only [Option.toList_some,List.map_cons,List.map_nil]
    simp only [← queue] at asked
    exact asked

theorem fragment_tracked (s : Reader) (tracked : s.Tracked) (m : Freeform) (now : ℚ) (offer : Nat)
    (alone : s.Alone cfg (.fragment m now offer)) : Tracked (s.next cfg (.fragment m now offer)) := by
  obtain ⟨incomplete,finished⟩ | ⟨note,complete,src,task,finished⟩ := s.notes.add_finished m now
  · simp only [next]
    split
    · rename_i notes same
      refine s.notes_tracked tracked notes (fun key entry found => ?_)
      rw [same] at finished
      simp only at finished
      rw [finished] at found
      exact pruned_fewer s.notes now key entry found
    · rename_i note notes same
      rw [same] at incomplete
      cases incomplete
  · simp only [next]
    split
    · rename_i notes same
      rw [same] at complete
      cases complete
    · rename_i other notes same
      rw [same] at complete finished
      injection complete with complete
      subst complete
      refine s.arrival_tracked tracked notes other offer now finished ?_
      intro p found unsent b last
      rw [task] at found last
      rw [src]
      exact alone (by rw [same]; rfl) p found unsent b last

theorem dispatch_tracked (s : Reader) (tracked : s.Tracked) (a : Arrival) (world : World)
    (enabled : a ∈ s.waiting) : Tracked (s.next cfg (.dispatch a world)) := by
  have erased := s.erase_tracked tracked a
  simp only [next]
  obtain same | ⟨pending,found,unsent,queue⟩ := Session.onNote_cases cfg world a.note s.session
  · rw [same,if_pos rfl,List.append_nil]
    exact erased
  · obtain ⟨b,last,announcer⟩ := tracked.onFile _ pending found
    obtain ⟨made,task⟩ := current_spec _ _ b last
    obtain ⟨src,offer⟩ := tracked.fitting a enabled pending found unsent b last
    have grown : ¬ (s.session.onNote cfg world a.note).noteRequests.length = s.session.noteRequests.length := by
      rw [queue,Session.requestInterpretation,List.length_append]
      exact Nat.succ_ne_self _
    have asked := queue_tracked _ erased ⟨b,a⟩ ⟨a.note.text,a.note.taskId,a.note.src,pending.task,
        pending.fitness.cost,pending.fitness.etaS,pending.fitness.feasible,world.clock s.session.log⟩
      ⟨src,task.symm,offer⟩ ⟨task.symm,rfl,rfl⟩ (by
        rw [task]
        exact last) (tracked.waiting a enabled) (tracked.separate.not_mem_erase) (by
        intro old
        exact (tracked.known _ old).2.2 enabled)
    rw [if_neg grown,last,queue]
    exact asked

theorem take_tracked (s : Reader) (tracked : s.Tracked) : Tracked (s.next cfg .take) := by
  have paired : (s.session.noteRequests.zip s.tickets).map Prod.snd = s.tickets :=
    List.map_snd_zip tracked.aligned.length_eq.ge
  have moved : (Reader.open_ (s.next cfg .take)).Perm s.open_ := by
    simp only [open_,next,List.nil_append,List.map_append,paired]
    exact List.perm_append_comm
  refine { tracked with aligned := .nil, about := ?_, answerable := ?_, unanswered := ?_, asked := ?_ }
  · intro r member
    obtain old | new := List.mem_append.mp member
    · exact tracked.about r old
    · exact (List.forall₂_iff_zip.mp tracked.aligned).2 new
  · exact fun t member => tracked.answerable t (moved.mem_iff.mp member)
  · exact (moved.append_right _).nodup_iff.mpr tracked.unanswered
  · exact fun t member => tracked.asked t ((moved.append_right _).mem_iff.mp member)

theorem reviseBid_requests (world : World) (taskId : Int) (revision : Option BidRevision) (s : Session) :
    (s.reviseBid cfg world taskId revision).noteRequests = s.noteRequests := by
  unfold Session.reviseBid
  split
  · rfl
  · rfl
  split
  · rfl
  split <;> rfl

theorem answer_tracked (s : Reader) (tracked : s.Tracked) (r : NoteContext × Ticket) (world : World)
    (revision : Option BidRevision) (enabled : r ∈ s.taken) :
    Tracked (s.next cfg (.answer r world revision)) := by
  have kindred : s.session.Kindred (s.session.reviseBid cfg world r.1.taskId revision) :=
    Session.perform_kindred cfg world (.revise r.1.taskId revision) (fun _ => nofun) s.session
  have revised := s.kindred_tracked tracked _ kindred (reviseBid_requests cfg world _ revision s.session)
  have taken : s.open_.Perm (r.2 :: (s.tickets ++ (s.taken.erase r).map Prod.snd)) :=
    ((List.perm_cons_erase enabled).map Prod.snd).append_left s.tickets |>.trans List.perm_middle
  have ours : r.2 ∈ s.open_ := List.mem_append_right _ (List.mem_map_of_mem enabled)
  have fewer : ∀ t, t ∈ s.tickets ++ (s.taken.erase r).map Prod.snd → t ∈ s.open_ :=
    fun t member => taken.mem_iff.mpr (List.mem_cons_of_mem _ member)
  have left : ∀ u ∈ s.taken.erase r, Asks u.1 u.2 :=
    fun u member => tracked.about u (List.mem_of_mem_erase member)
  simp only [next]
  split
  · rename_i touched
    simp only [Session.touches,Bool.and_eq_true] at touched
    obtain ⟨p,found,unsent⟩ := (Option.any_eq_true _ _).mp touched.1
    have last : current s.made r.1.taskId = some r.2.bid := by
      rw [(tracked.about r enabled).task] at found ⊢
      exact tracked.answerable r.2 ours p found (by simpa using unsent)
    have shuffled : ((s.tickets ++ (s.taken.erase r).map Prod.snd) ++ r.2 :: s.revised.map Prod.fst).Perm
        (s.open_ ++ s.revised.map Prod.fst) := by
      refine List.perm_middle.trans ?_
      exact (taken.append_right _).symm
    rw [last]
    refine { revised with about := left, answerable := ?_, unanswered := ?_, asked := ?_, revised := ?_ }
    · exact fun t member => revised.answerable t (fewer t member)
    · exact shuffled.nodup_iff.mpr tracked.unanswered
    · exact fun t member => tracked.asked t (shuffled.mem_iff.mp member)
    · intro u member
      obtain rfl | old := List.mem_cons.mp member
      · rfl
      · exact tracked.revised u old
  · refine { revised with about := left, answerable := ?_, unanswered := ?_, asked := ?_ }
    · exact fun t member => revised.answerable t (fewer t member)
    · have whole := (taken.append_right (s.revised.map Prod.fst)).nodup_iff.mp tracked.unanswered
      exact (List.nodup_cons.mp whole).2
    · intro t member
      refine tracked.asked t ((taken.append_right _).mem_iff.mpr (List.mem_cons_of_mem _ member))

theorem won_noted (s : Reader) (tracked : s.Tracked) (op : Op) (h : Made × String) (won : h ∈ s.won cfg op) :
    h.2 = "" ∨ ∃ t ∈ s.clocks, t.bid = h.1 ∧ t.arrival.note.text = h.2 := by
  unfold Reader.won at won
  split at won
  · split at won
    · split at won
      · rename_i p b found last
        rw [List.mem_singleton.mp won]
        obtain empty | ⟨t,inside,bid,text⟩ := tracked.noted _ p found
        · exact .inl empty
        · rw [last] at bid
          injection bid with bid
          exact .inr ⟨t,inside,bid.symm,text⟩
      · cases won
    · cases won
  · cases won

/-- What a won bid's note is handed to: the replanner, with the task taken on. -/
theorem won_replanned (s : Reader) (grant : Grant) (world : World) (h : Made × String)
    (won : h ∈ s.won cfg (.message (.grant grant)))
    (free : ∀ p ∈ s.session.bids.get? grant.taskId, (s.session.tasks.get? p.task.taskId).any OwnedTask.ours = false) :
    ∃ task cause, .replanAndVerify s.session.nextSerial { added := [task], cause := cause, note := h.2 } ∈
      ((Coordinator.machine cfg).next s.session ⟨world,.message (.grant grant)⟩).log := by
  simp only [Reader.won] at won
  split at won
  · rename_i ours
    split at won
    · rename_i p b found _
      rw [List.mem_singleton.mp won]
      exact ⟨_,_,Session.onMessage_replans cfg world grant s.session p ours.1 ours.2 found (free p found)⟩
    · cases won
  · cases won

theorem other_tracked (s : Reader) (tracked : s.Tracked) (label : Label) (silent : label.op.silent = true) :
    Tracked (s.next cfg (.other label)) := by
  have kindred : s.session.Kindred ((Coordinator.machine cfg).next s.session label) := by
    refine Session.perform_kindred cfg label.world label.op ?_ s.session
    intro m same
    rw [same] at silent
    cases silent
  have after := s.kindred_tracked tracked _ kindred
    (Session.perform_requests cfg label.world label.op silent s.session)
  refine { after with handed := ?_ }
  intro h member
  obtain new | old := List.mem_append.mp member
  · exact s.won_noted cfg tracked label.op h new
  · exact tracked.handed h old

theorem initial_tracked (s : Reader) (initial : (machine cfg).initial s) : s.Tracked := by
  obtain ⟨node,_,rfl⟩ := initial
  exact {
    arrivals := fun _ member => by cases member
    made := fun _ member => by cases member
    cached := fun _ _ _ found => by cases found
    waiting := fun _ member => by cases member
    separate := List.nodup_nil
    onFile := fun _ _ found => by cases found
    fitting := fun _ member => by cases member
    known := fun _ member => by cases member
    aligned := .nil
    about := fun _ member => by cases member
    answerable := fun _ member => by cases member
    unanswered := List.nodup_nil
    asked := fun _ member => by cases member
    right := fun _ member => by cases member
    clocks := fun _ member => by cases member
    clocked := fun _ _ found => by cases found
    noted := fun _ _ found => by cases found
    handed := fun _ member => by cases member
    revised := fun _ member => by cases member }

/-- In every run whose steps meet the condition a note is read only for the bid
it is about, and revises it at most once. -/
theorem notes_attended (s : Reader) (reached : (machine cfg).Reaches (Alone cfg) s) : s.Attentive := by
  refine s.tracked_attentive (reached.invariant Tracked (initial_tracked cfg) ?_ s)
  intro s label _ tracked enabled alone
  cases label with
  | fragment m now offer => exact s.fragment_tracked cfg tracked m now offer alone
  | expire now => exact s.notes_tracked tracked _ (pruned_fewer s.notes now)
  | dispatch a world => exact s.dispatch_tracked cfg tracked a world enabled
  | announce m world now offer => exact s.announce_tracked cfg tracked m world now offer alone
  | take => exact s.take_tracked cfg tracked
  | answer r world revision => exact s.answer_tracked cfg tracked r world revision enabled
  | other label => exact s.other_tracked cfg tracked label enabled.1

def second : Config := .second

def listening : Reader := { notes := (Reliability.Session.init .second).notes }

/-- A note about the field, `wet`, in one fragment. -/
def wet (src : Int) : Freeform := ⟨src,0,7,0,0,1,[119,101,116]⟩

def arrived (serial : Nat) (src : Int) (now : ℚ) (offer : Nat) : Arrival := ⟨serial,⟨src,7,0,"wet",now⟩,offer⟩

def fieldOffered (src : Int) : TaskAnnounce :=
  { Desk.announcement { serial := 0, task := Session.field } with src := src }

def costing (now : ℚ) : World :=
  { Session.clockAt now with fitness := fun _ _ _ _ _ => some { feasible := true, cost := 100 } }

def wetRequest : NoteContext × Ticket := (⟨"wet",7,1,Session.field,100,0,true,1⟩,⟨⟨0,7,1,0⟩,arrived 0 1 0 0⟩)

def orderly : List ReaderLabel :=
  [.fragment (wet 1) 0 0,.dispatch (arrived 0 1 0 0) (Session.clockAt 0),.announce (fieldOffered 1) (costing 1) 1 0,
    .take,.answer wetRequest (Session.clockAt 2) (some (.reviseBid 10 ""))]

theorem notes_attended_orderly : ((machine second).runs listening orderly).Attentive ∧
    ((machine second).runs listening orderly).revised = [(wetRequest.2,⟨0,7,1,0⟩)] :=
  ⟨notes_attended second _ ((machine second).reaches_runs (Alone second) listening orderly
    (.start _ ⟨.second,rfl,rfl⟩) (by decide +kernel)),by decide +kernel⟩

/-- Another robot's note about a task of the same id. -/
def foreign : List ReaderLabel :=
  [.announce (fieldOffered 1) (costing 0) 0 0,.fragment (wet 3) 1 1,.dispatch (arrived 0 3 1 1) (Session.clockAt 1)]

/-- The note is found in the cache before it is handed up. -/
def twice : List ReaderLabel :=
  [.fragment (wet 1) 0 0,.announce (fieldOffered 1) (costing 1) 1 0,.dispatch (arrived 0 1 0 0) (Session.clockAt 1),
    .take,.answer wetRequest (Session.clockAt 2) (some (.reviseBid 10 "")),
    .answer wetRequest (Session.clockAt 3) (some (.reviseBid 10 ""))]

/-- The answer comes back when the bid is on another robot's auction. -/
def belated : List ReaderLabel :=
  orderly.take 4 ++ [.other ⟨Session.clockAt 2,.message (.grant ⟨1,0,7,4⟩)⟩,
    .announce (fieldOffered 3) (costing 3) 3 1,.answer wetRequest (Session.clockAt 4) (some (.withdrawBid ""))]

theorem notes_misread :
    (∃ s, (machine second).Reachable s ∧ ∃ t ∈ s.queued, t.arrival.note.src ≠ t.bid.announcerId) ∧
    (∃ s, (machine second).Reachable s ∧ ¬ (s.revised.map (fun r => (r.1.arrival,r.2))).Nodup) ∧
    ∃ s, (machine second).Reachable s ∧ ∃ r ∈ s.revised, r.1.bid ≠ r.2 := by
  have start : (machine second).Reachable listening := .start _ ⟨.second,rfl,rfl⟩
  refine ⟨⟨(machine second).runs listening foreign,?_,by decide +kernel⟩,
    ⟨(machine second).runs listening twice,?_,by decide +kernel⟩,
    ⟨(machine second).runs listening belated,?_,by decide +kernel⟩⟩
  · exact (machine second).reaches_runs _ listening foreign start (by decide +kernel)
  · exact (machine second).reaches_runs _ listening twice start (by decide +kernel)
  · exact (machine second).reaches_runs _ listening belated start (by decide +kernel)

end Reader
end AmigaFleet.Coordinator
