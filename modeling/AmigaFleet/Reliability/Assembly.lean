import AmigaFleet.Lib.Recent
import AmigaFleet.Reliability.Hearing

/-! A note cut into fragments comes back whole. Fragments arrive in any order
and any number of times, among the fragments of other notes; the dedup cache
stops the repeats, also those that come after the note was handed up. -/
namespace AmigaFleet.Reliability
open Lib AmigaFleet.Codec

namespace DedupCache
variable {start : ℚ} {ids : Finset Key} {recent : List (Key × ℚ)}

theorem prune_recent (d : DedupCache) (held : d.seen.Recent (fun expiry => start + d.ttl ≤ expiry) ids recent) (now : ℚ)
    (early : now < start + d.ttl) : (d.prune now).seen.Recent (fun expiry => start + d.ttl ≤ expiry) ids recent := by
  apply held.dropStale (fun expiry => expiry ≤ now)
  intro expiry alive
  rw [decide_eq_false_iff_not]
  linarith

theorem firstSight_recent (d : DedupCache) (held : d.seen.Recent (fun expiry => start + d.ttl ≤ expiry) ids recent)
    (key : Key) (now : ℚ) (since : start ≤ now) (early : now < start + d.ttl) (inside : key ∈ ids)
    (room : ids.card ≤ d.maxEntries) : (d.firstSight key now).2.seen.Recent (fun expiry => start + d.ttl ≤ expiry) ids
      (Dict.placedLast recent key (now + d.ttl)) := by
  have alive : start + d.ttl ≤ now + d.ttl := by linarith
  exact ((d.prune_recent held now early).place key _ inside alive).trim _ room

theorem firstSight_known (d : DedupCache) (held : d.seen.Recent (fun expiry => start + d.ttl ≤ expiry) ids recent)
    (key : Key) (now : ℚ) (early : now < start + d.ttl) (member : key ∈ recent.map Prod.fst) :
    (d.firstSight key now).1 = false := by
  obtain ⟨⟨_,expiry⟩,inside,rfl⟩ := List.mem_map.mp member
  have found := (d.prune_recent held now early).get? _ expiry inside
  simp [firstSight,Dict.contains,found]

theorem firstSight_new (d : DedupCache) (key : Key) (now : ℚ) (absent : d.seen.get? key = none) :
    (d.firstSight key now).1 = true := by
  have pruned : (d.prune now).seen.get? key = none := Dict.absent_dropStale _ _ _ absent
  simp [firstSight,Dict.contains,pruned]

theorem firstSight_absent (d : DedupCache) (key other : Key) (now : ℚ) (different : other ≠ key)
    (absent : d.seen.get? other = none) : (d.firstSight key now).2.seen.get? other = none := by
  have pruned : (d.prune now).seen.get? other = none := Dict.absent_dropStale _ _ _ absent
  apply Dict.absent_trim
  rw [Dict.get?_place,if_neg different]
  exact pruned

end DedupCache

namespace NoteReassembler

theorem prune_recent (r : NoteReassembler) (start : ℚ) (names : Finset FragmentKey) (recent : List (FragmentKey × Partial))
    (held : r.partials.Recent (fun p => start + r.ttl ≤ p.expiresAt) names recent) (now : ℚ) (early : now < start + r.ttl) :
    (r.prune now).partials.Recent (fun p => start + r.ttl ≤ p.expiresAt) names recent := by
  apply held.dropStale (fun p => p.expiresAt ≤ now)
  intro p alive
  rw [decide_eq_false_iff_not]
  linarith

/-- What a fragment within the bounds does. -/
theorem add_within (r : NoteReassembler) (msg : Freeform) (now : ℚ) (counted : 1 ≤ msg.fragCount ∧ msg.fragCount ≤ r.maxFragments)
    (within : 0 ≤ msg.fragIndex ∧ msg.fragIndex < msg.fragCount) :
    let p := (r.prune now).extended msg now
    let placed := ((r.prune now).partials.place (fragmentKey msg) p).trim r.maxPartial
    (r.add msg now).2.partials = (if p.complete then placed.pop (fragmentKey msg) else placed) ∧
      (r.add msg now).1 = if p.complete then
        (decodeUtf8 ((List.range msg.fragCount.toNat).flatMap (fun i : Nat => pieceAt p i))).map
          (fun text => ⟨msg.src,msg.taskId,msg.noteId,text,now⟩) else none := by
  intro p placed
  obtain ⟨answer,made⟩ : ∃ answer, answer = r.add msg now := ⟨_,rfl⟩
  rw [← made]
  unfold add at made
  simp only at made
  rw [if_neg (by simp only [prune]; tauto)] at made
  change answer = if p.complete = true then _ else _ at made
  by_cases complete : p.complete = true
  · rw [if_pos complete] at made
    rw [if_pos complete,if_pos complete,← flatMap_indices (pieceAt p)]
    split at made
    · rename_i refused
      change decodeUtf8 (((List.range msg.fragCount.toNat : List Nat) : List Int).flatMap (pieceAt p)) = none at refused
      rw [made,refused]
      exact ⟨rfl,rfl⟩
    · rename_i text decoded
      change decodeUtf8 (((List.range msg.fragCount.toNat : List Nat) : List Int).flatMap (pieceAt p)) = some text
        at decoded
      rw [made,decoded]
      exact ⟨rfl,rfl⟩
  · rw [if_neg complete] at made
    rw [if_neg complete,if_neg complete,made]
    exact ⟨rfl,rfl⟩

/-- A fragment of another note leaves the partial under this key where it was. -/
theorem add_foreign (r : NoteReassembler) (start : ℚ) (names : Finset FragmentKey)
    (recent : List (FragmentKey × Partial))
    (held : r.partials.Recent (fun p => start + r.ttl ≤ p.expiresAt) names recent) (msg : Freeform) (now : ℚ)
    (since : start ≤ now) (early : now < start + r.ttl) (inside : fragmentKey msg ∈ names)
    (room : names.card ≤ r.maxPartial) (key : FragmentKey) (other : fragmentKey msg ≠ key) :
    (∃ later, (r.add msg now).2.partials.Recent (fun p => start + r.ttl ≤ p.expiresAt) names later ∧
      ∀ p, (key,p) ∈ recent → (key,p) ∈ later) ∧
      (r.partials.get? key = none → (r.add msg now).2.partials.get? key = none) := by
  have pruned := prune_recent r start names recent held now early
  have alive : start + r.ttl ≤ ((r.prune now).extended msg now).expiresAt := by
    simp only [extended,prune]
    linarith
  have placed := (pruned.place (fragmentKey msg) _ inside alive).trim r.maxPartial room
  have stays (p : Partial) (member : (key,p) ∈ recent) :
      (key,p) ∈ Dict.placedLast recent (fragmentKey msg) ((r.prune now).extended msg now) :=
    Dict.mem_placedLast_of_ne _ _ _ _ _ other.symm member
  have absent (none_ : r.partials.get? key = none) : (((r.prune now).partials.place (fragmentKey msg)
      ((r.prune now).extended msg now)).trim r.maxPartial).get? key = none := by
    apply Dict.absent_trim
    rw [Dict.get?_place,if_neg other.symm]
    exact Dict.absent_dropStale _ _ _ none_
  rcases add_cases r msg now with ⟨_,same⟩ | ⟨_,⟨_,same⟩ | ⟨_,same,_⟩⟩
  · rw [same]
    exact ⟨⟨recent,pruned,fun _ member => member⟩,Dict.absent_dropStale _ _ _⟩
  · rw [same]
    exact ⟨⟨_,placed,stays⟩,absent⟩
  · rw [same]
    constructor
    · exact ⟨_,placed.pop (fragmentKey msg),fun p member =>
        List.mem_filter.mpr ⟨stays p member,by simpa using other.symm⟩⟩
    · intro none_
      rw [Dict.get?_pop_ne _ _ _ other.symm]
      exact absent none_

/-- What is handed up stands under the key of the fragment that completed it. -/
theorem add_key (r : NoteReassembler) (msg : Freeform) (now : ℚ) (note : CompletedNote)
    (made : (r.add msg now).1 = some note) : (note.src,note.taskId,note.noteId) = fragmentKey msg := by
  rcases add_cases r msg now with ⟨silent,_⟩ | ⟨_,⟨silent,_⟩ | ⟨_,_,whole⟩⟩
  · rw [silent] at made
    cases made
  · rw [silent] at made
    cases made
  · exact (whole note made).1

theorem add_settings (r : NoteReassembler) (msg : Freeform) (now : ℚ) :
    (r.add msg now).2.ttl = r.ttl ∧ (r.add msg now).2.maxPartial = r.maxPartial ∧
      (r.add msg now).2.maxFragments = r.maxFragments := by
  obtain ⟨answer,made⟩ : ∃ answer, answer = r.add msg now := ⟨_,rfl⟩
  rw [← made]
  unfold add at made
  simp only at made
  split at made
  · subst made
    exact ⟨rfl,rfl,rfl⟩
  change answer = if ((r.prune now).extended msg now).complete = true then _ else _ at made
  split at made
  · split at made
    · subst made
      exact ⟨rfl,rfl,rfl⟩
    · subst made
      exact ⟨rfl,rfl,rfl⟩
  · subst made
    exact ⟨rfl,rfl,rfl⟩

end NoteReassembler

/-- What a session remembers of the frames it heard, and the notes it handed up. -/
structure Ears where
  dedup : DedupCache
  notes : NoteReassembler
  handed : List CompletedNote

/-- The bounds of the two caches, which no call changes. -/
structure Bounds where
  dedupTtl : ℚ
  maxEntries : Nat
  noteTtl : ℚ
  maxPartial : Nat
  maxFragments : Int

namespace Ears

def bounds (e : Ears) : Bounds :=
  ⟨e.dedup.ttl,e.dedup.maxEntries,e.notes.ttl,e.notes.maxPartial,e.notes.maxFragments⟩

def prune (e : Ears) (now : ℚ) : Ears := ⟨e.dedup.prune now,e.notes.prune now,e.handed⟩

/-- A message from another robot, copies included. -/
def hear (e : Ears) (message : Message) (now : ℚ) : Ears :=
  let (first,dedup) := e.dedup.firstSight (message.src,message.seq) now
  match first,message with
  | true,.freeform m => ⟨dedup,(e.notes.add m now).2,(e.notes.add m now).1.toList ++ e.handed⟩
  | _,_ => ⟨dedup,e.notes,e.handed⟩

theorem hear_known (e : Ears) (message : Message) (now : ℚ)
    (known : (e.dedup.firstSight (message.src,message.seq) now).1 = false) :
    e.hear message now = ⟨(e.dedup.firstSight (message.src,message.seq) now).2,e.notes,e.handed⟩ := by
  simp only [hear,known]

theorem hear_note (e : Ears) (m : Freeform) (now : ℚ) (first : (e.dedup.firstSight (m.src,m.seq) now).1 = true) :
    e.hear (.freeform m) now = ⟨(e.dedup.firstSight (m.src,m.seq) now).2,(e.notes.add m now).2,
      (e.notes.add m now).1.toList ++ e.handed⟩ := by
  simp only [hear,Message.src,Message.seq,first]

theorem hear_other (e : Ears) (message : Message) (now : ℚ) (other : ∀ m, message ≠ .freeform m) :
    e.hear message now = ⟨(e.dedup.firstSight (message.src,message.seq) now).2,e.notes,e.handed⟩ := by
  unfold hear
  simp only
  split
  · rename_i m _
    exact absurd rfl (other m)
  · rfl

theorem hear_bounds (e : Ears) (message : Message) (now : ℚ) : (e.hear message now).bounds = e.bounds := by
  unfold hear
  simp only
  split
  · rename_i m _
    obtain ⟨ttl,most,cap⟩ := e.notes.add_settings m now
    simp only [bounds,ttl,most,cap]
    rfl
  · rfl

end Ears

def Session.ears (s : Session) : Ears := ⟨s.dedup,s.notes,s.deliveredNotes⟩

/-- The message a call hears from another robot. -/
def heard (node : Node) : Call → Option Message
  | .onFrame payload =>
    match decode payload with
    | .ok message => if message.type = .ack ∨ message.src = node.id then none else some message
    | .error _ => none
  | _ => none

theorem heard_of_decode (node : Node) (payload : Packet) (message : Message) (read : decode payload = .ok message)
    (data : message.type ≠ .ack) (foreign : message.src ≠ node.id) :
    heard node (.onFrame payload) = some message := by
  simp only [heard,read]
  rw [if_neg (by tauto)]

theorem accept_ears (env : Env) (message : Message) (s : Session) :
    (s.accept env message).ears = s.ears.hear message env.clock := by
  unfold Session.accept
  simp only
  split
  · rename_i first
    split
    · rename_i m
      exact (Ears.hear_note s.ears m env.clock first).symm
    · rename_i other
      exact (Ears.hear_other s.ears _ env.clock other).symm
  · rename_i known
    exact (Ears.hear_known s.ears message env.clock (Bool.eq_false_of_not_eq_true known)).symm

theorem transmit_ears (env : Env) (payload : Packet) (priority : Int) (s : Session) (ack : Bool) :
    (s.transmit env payload priority ack).2.ears = s.ears := by
  rcases Session.transmit_cases env payload priority s ack with ⟨counters,same | sent⟩
  · rw [same]
    rfl
  · rw [sent]
    rfl

theorem resend_ears (env : Env) (packets : List (Packet × Int)) (s : Session) :
    (packets.foldl (fun s packet => (s.transmit env packet.1 packet.2).2) s).ears = s.ears := by
  induction packets generalizing s with
  | nil => rfl
  | cons packet packets ih => exact (ih _).trans (transmit_ears env packet.1 packet.2 s false)

theorem finish_ears (expired : List Pending) (s : Session) :
    (expired.foldl (fun s entry => s.finish entry .failed) s).ears = s.ears := by
  induction expired generalizing s with
  | nil => rfl
  | cons entry expired ih => exact ih _

theorem tick_ears (node : Node) (env : Env) (s : Session) : (s.tick node env).ears = s.ears.prune env.clock := by
  obtain ⟨pending,counters,fields⟩ := Session.sweep_fields node env.clock s.pending.keys { session := s }
  unfold Session.tick
  simp only
  rw [finish_ears,resend_ears,fields]
  rfl

/-- A call leaves the ears alone, prunes them, or hears one message. -/
theorem perform_ears (node : Node) (env : Env) (s : Session) (call : Call) :
    (perform node env s call).ears = s.ears ∨ (perform node env s call).ears = s.ears.prune env.clock ∨
      ∃ message, heard node call = some message ∧
        (perform node env s call).ears = s.ears.hear message env.clock := by
  cases call with
  | sendReliable dst message =>
    have notes := Session.sendReliable_notes node env dst message s
    left
    simp only [perform,Session.ears,Session.sendReliable_dedup,notes.1,notes.2]
  | sendBroadcast message =>
    have notes := Session.sendBroadcast_notes node env message s
    left
    simp only [perform,Session.ears,Session.sendBroadcast_dedup,notes.1,notes.2]
  | tick => exact .inr (.inl (tick_ears node env s))
  | onFrame payload =>
    have received := Session.onFrame_received node env payload s
    change (s.onFrame node env payload).state.ears = _ ∨ (s.onFrame node env payload).state.ears = _ ∨
      ∃ message, _ ∧ (s.onFrame node env payload).state.ears = _
    generalize (s.onFrame node env payload).state = after at received ⊢
    cases received with
    | counted counters => exact .inl rfl
    | confirmed ack counters entry _ _ _ _ => exact .inl rfl
    | heard message counters read data foreign _ =>
      right
      right
      exact ⟨message,heard_of_decode node payload message read data foreign,accept_ears env message _⟩
    | unackable message counters _ => exact .inl rfl
    | acked message counters packet read data foreign _ _ =>
      right
      right
      exact ⟨message,heard_of_decode node payload message read data foreign,
        (transmit_ears env packet urgent _ true).trans (accept_ears env message _)⟩

/-- A fragment from another robot is always heard. -/
theorem onFrame_note (node : Node) (env : Env) (payload : Packet) (m : Freeform) (s : Session)
    (read : decode payload = .ok (.freeform m)) (foreign : m.src ≠ node.id) :
    (perform node env s (.onFrame payload)).ears = s.ears.hear (.freeform m) env.clock := by
  have data : (Message.freeform m).type ≠ .ack := by simp [Message.type]
  have apart : (Message.freeform m).src ≠ node.id := foreign
  change (s.onFrame node env payload).state.ears = _
  rw [Session.onFrame_data node env payload (.freeform m) s read data,if_neg apart]
  exact accept_ears env (.freeform m) _

/-- What `split_note` cuts. -/
theorem splitNote_pieces (taskId noteId : Int) (text : String) (maxPayloadBytes maxFragments : Int)
    (fragments : List Freeform) (cut : splitNote taskId noteId text maxPayloadBytes maxFragments = .ok fragments) :
    let pieces := chunks (textBytesPerFragment maxPayloadBytes).toNat (encodeUtf8 text)
    (0 < taskId ∧ taskId ≤ taskIdMax) ∧ (0 ≤ noteId ∧ noteId ≤ noteIdMax) ∧
      1 ≤ textBytesPerFragment maxPayloadBytes ∧ encodeUtf8 text ≠ [] ∧ (pieces.length : Int) ≤ maxFragments ∧
      fragments = pieces.zipIdx.map (fun (chunk,index) => ⟨0,0,taskId,noteId,index,pieces.length,chunk⟩) := by
  unfold splitNote at cut
  split at cut
  · cases cut
  rename_i task
  split at cut
  · cases cut
  rename_i note
  split at cut
  · cases cut
  simp only at cut
  split at cut
  · cases cut
  rename_i room
  split at cut
  · cases cut
  rename_i words
  split at cut
  · cases cut
  rename_i few
  injection cut with cut
  exact ⟨not_not.mp task,not_not.mp note,not_lt.mp room,words,not_lt.mp few,cut.symm⟩

/-- A note cut for sending, and the numbers its fragments are stamped with. -/
structure Airing where
  src : Int
  taskId : Int
  noteId : Int
  text : String
  maxPayloadBytes : Int
  maxFragments : Int
  number : Int → Int
  fragments : List Freeform
  robot : 0 < src ∧ src ≤ srcMax
  cut : splitNote taskId noteId text maxPayloadBytes maxFragments = .ok fragments
  numbered : ∀ f ∈ fragments, 0 ≤ number f.fragIndex ∧ number f.fragIndex ≤ seqMax
  distinct : (fragments.map (fun f => number f.fragIndex)).Nodup

/-- A call, and the clock and the link it finds. -/
abbrev Moment : Type := Env × Call

def listen (node : Node) (s : Session) (moments : List Moment) : Session :=
  moments.foldl (fun s moment => perform node moment.1 s moment.2) s

def carries (maxPayloadBytes : Int) (f : Freeform) : Call → Bool
  | .onFrame payload => encode (.freeform f) maxPayloadBytes = .ok payload
  | _ => false

/-- When the last of the missing fragments arrives. -/
def wholeAt (maxPayloadBytes : Int) : List Freeform → List Moment → Option ℚ
  | _,[] => none
  | missing,moment::rest =>
    let missing := missing.filter (fun f => !carries maxPayloadBytes f moment.2)
    if missing = [] then some moment.1.clock else wholeAt maxPayloadBytes missing rest

def about (key : FragmentKey) (handed : List CompletedNote) : List CompletedNote :=
  handed.filter (fun note => (note.src,note.taskId,note.noteId) = key)

def idHeard (node : Node) (moment : Moment) : Option Key :=
  (heard node moment.2).map (fun message => (message.src,message.seq))

def noteHeard (node : Node) (moment : Moment) : Option FragmentKey :=
  match heard node moment.2 with
  | some (.freeform m) => some (fragmentKey m)
  | _ => none

namespace Airing
variable (a : Airing)

def key : FragmentKey := (a.src,a.taskId,a.noteId)

/-- The fragments as they go out. -/
def sent : List Freeform := a.fragments.map (fun f => { f with src := a.src, seq := a.number f.fragIndex })

def pieces : List (List UInt8) := chunks (textBytesPerFragment a.maxPayloadBytes).toNat (encodeUtf8 a.text)

def note (now : ℚ) : CompletedNote := ⟨a.src,a.taskId,a.noteId,a.text,now⟩

/-- A frame from another robot that carries no fragment of this note takes
neither a number nor the name of it. -/
def Apart (node : Node) (moment : Moment) : Prop :=
  ∀ message, heard node moment.2 = some message → (∃ f ∈ a.sent, carries a.maxPayloadBytes f moment.2 = true) ∨
    ((message.src,message.seq) ∉ a.sent.map (fun f => (f.src,f.seq)) ∧
      ∀ m, message = .freeform m → fragmentKey m ≠ a.key)

/-- A receiver with the same cap and nothing of this note yet, for less than
both times to live, with room for the notes and the ids it hears meanwhile. -/
structure Received (node : Node) (s : Session) (start : ℚ) (moments : List Moment) : Prop where
  other : a.src ≠ node.id
  cap : s.notes.maxFragments = a.maxFragments
  unheard : ∀ f ∈ a.sent, s.dedup.seen.get? (f.src,f.seq) = none
  unheld : s.notes.partials.get? a.key = none
  timely : ∀ moment ∈ moments, start ≤ moment.1.clock ∧ moment.1.clock < start + s.notes.ttl ∧
    moment.1.clock < start + s.dedup.ttl
  apart : ∀ moment ∈ moments, a.Apart node moment
  few : ((moments.filterMap (noteHeard node)).toFinset.erase a.key).card < s.notes.maxPartial
  room : (moments.filterMap (idHeard node)).toFinset.card ≤ s.dedup.maxEntries

/-- One note is handed up under the key, when the last fragment arrives, and no other. -/
def HandedOnce (node : Node) (s : Session) (moments : List Moment) : Prop :=
  ∀ early, early <+: moments → about a.key (listen node s early).deliveredNotes =
    ((wholeAt a.maxPayloadBytes a.sent early).map a.note).toList ++ about a.key s.deliveredNotes

/-- Every fragment encodes within the budget. -/
def Encodes : Prop :=
  ∀ f ∈ a.sent, ∃ payload, encode (.freeform f) a.maxPayloadBytes = .ok payload ∧
    (payload.length : Int) ≤ a.maxPayloadBytes

theorem fragments_eq : a.fragments = a.pieces.zipIdx.map
    (fun (chunk,index) => ⟨0,0,a.taskId,a.noteId,index,a.pieces.length,chunk⟩) :=
  (splitNote_pieces _ _ _ _ _ _ a.cut).2.2.2.2.2

theorem mem_fragments (f : Freeform) (member : f ∈ a.fragments) :
    ∃ i : Nat, a.pieces[i]? = some f.text ∧ f = ⟨0,0,a.taskId,a.noteId,i,a.pieces.length,f.text⟩ := by
  rw [a.fragments_eq] at member
  obtain ⟨⟨chunk,i⟩,inside,rfl⟩ := List.mem_map.mp member
  exact ⟨i,List.mem_zipIdx_iff_getElem?.mp inside,rfl⟩

theorem mem_sent (f : Freeform) (member : f ∈ a.sent) :
    ∃ i : Nat, a.pieces[i]? = some f.text ∧
      f = ⟨a.src,a.number i,a.taskId,a.noteId,i,a.pieces.length,f.text⟩ := by
  obtain ⟨g,inside,rfl⟩ := List.mem_map.mp member
  obtain ⟨i,piece,shape⟩ := a.mem_fragments g inside
  apply Exists.intro i
  constructor
  · exact piece
  · rw [shape]

theorem sent_piece (i : Nat) (chunk : List UInt8) (piece : a.pieces[i]? = some chunk) :
    ⟨a.src,a.number i,a.taskId,a.noteId,i,a.pieces.length,chunk⟩ ∈ a.sent := by
  rw [sent,fragments_eq,List.map_map]
  exact List.mem_map.mpr ⟨(chunk,i),List.mem_zipIdx_iff_getElem?.mpr piece,rfl⟩

theorem sent_key (f : Freeform) (member : f ∈ a.sent) : fragmentKey f = a.key := by
  obtain ⟨i,_,shape⟩ := a.mem_sent f member
  rw [shape]
  rfl

theorem sent_index (f g : Freeform) (left : f ∈ a.sent) (right : g ∈ a.sent) (same : f.fragIndex = g.fragIndex) :
    f = g := by
  obtain ⟨i,first,shape⟩ := a.mem_sent f left
  obtain ⟨j,second,other⟩ := a.mem_sent g right
  have equal : i = j := by
    rw [shape,other] at same
    exact Int.ofNat.inj same
  rw [equal,second] at first
  rw [shape,other,equal,Option.some.inj first]

theorem sent_id (f g : Freeform) (left : f ∈ a.sent) (right : g ∈ a.sent) (same : f.seq = g.seq) : f = g := by
  obtain ⟨f',first,rfl⟩ := List.mem_map.mp left
  obtain ⟨g',second,rfl⟩ := List.mem_map.mp right
  have equal : f' = g' := List.inj_on_of_nodup_map a.distinct first second same
  rw [equal]

theorem carries_frame (f : Freeform) (call : Call) (carried : carries a.maxPayloadBytes f call = true) :
    ∃ payload, call = .onFrame payload ∧ decode payload = .ok (.freeform f) := by
  cases call with
  | onFrame payload =>
    have encoded : encode (.freeform f) a.maxPayloadBytes = .ok payload := by simpa [carries] using carried
    exact ⟨payload,rfl,decode_encode (.freeform f) a.maxPayloadBytes payload encoded⟩
  | sendReliable dst message => cases carried
  | sendBroadcast message => cases carried
  | tick => cases carried

theorem carries_one (f g : Freeform) (call : Call) (first : carries a.maxPayloadBytes f call = true)
    (second : carries a.maxPayloadBytes g call = true) : f = g := by
  obtain ⟨payload,rfl,read⟩ := a.carries_frame f _ first
  obtain ⟨_,same,also⟩ := a.carries_frame g _ second
  cases same
  rw [read] at also
  injection also with also
  injection also

/-- The partial holds the fragments that are not missing. -/
structure Holds (missing : List Freeform) (p : Partial) : Prop where
  count : p.fragCount = a.pieces.length
  held : ∀ index text, p.fragments.get? index = some text ↔
    ∃ f ∈ a.sent, f ∉ missing ∧ f.fragIndex = index ∧ f.text = text

/-- What is heard from `start` on, and that there is room for it. -/
structure Window where
  bounds : Bounds
  start : ℚ
  ids : Finset Key
  names : Finset FragmentKey
  room : ids.card ≤ bounds.maxEntries
  few : names.card ≤ bounds.maxPartial

variable (w : Window)

def Window.Open (now : ℚ) : Prop :=
  w.start ≤ now ∧ now < w.start + w.bounds.noteTtl ∧ now < w.start + w.bounds.dedupTtl

/-- The ids of the fragments that came are remembered, and until the last one
comes so is the partial. -/
structure Gathering (missing : List Freeform) (e : Ears) : Prop where
  bounds : e.bounds = w.bounds
  part : ∀ f ∈ missing, f ∈ a.sent
  known : ∃ recent, e.dedup.seen.Recent (fun expiry => w.start + e.dedup.ttl ≤ expiry) w.ids recent ∧
    ∀ f ∈ a.sent, f ∉ missing → (f.src,f.seq) ∈ recent.map Prod.fst
  unheard : ∀ f ∈ missing, e.dedup.seen.get? (f.src,f.seq) = none
  gathered : missing ≠ [] → ∃ recent, e.notes.partials.Recent (fun p => w.start + e.notes.ttl ≤ p.expiresAt) w.names recent ∧
    (missing = a.sent ∧ e.notes.partials.get? a.key = none ∨ ∃ p, (a.key,p) ∈ recent ∧ a.Holds missing p)

variable {a w} {missing : List Freeform} {e : Ears} {now : ℚ}

theorem Gathering.times (g : a.Gathering w missing e) : e.dedup.ttl = w.bounds.dedupTtl ∧ e.notes.ttl = w.bounds.noteTtl ∧
    e.dedup.maxEntries = w.bounds.maxEntries ∧ e.notes.maxPartial = w.bounds.maxPartial ∧
      e.notes.maxFragments = w.bounds.maxFragments := by
  rw [← g.bounds]
  exact ⟨rfl,rfl,rfl,rfl,rfl⟩

theorem Gathering.prune (g : a.Gathering w missing e) (timely : w.Open now) : a.Gathering w missing (e.prune now) := by
  obtain ⟨dedupTtl,noteTtl,_⟩ := g.times
  obtain ⟨_,noteTime,dedupTime⟩ := timely
  constructor
  · exact g.bounds
  · exact g.part
  · obtain ⟨recent,held,all⟩ := g.known
    exact ⟨recent,e.dedup.prune_recent held now (by rw [dedupTtl]; exact dedupTime),all⟩
  · exact fun f member => Dict.absent_dropStale _ _ _ (g.unheard f member)
  · intro some_
    obtain ⟨recent,held,none_ | there⟩ := g.gathered some_
    · have kept := e.notes.prune_recent w.start w.names recent held now (by rw [noteTtl]; exact noteTime)
      exact ⟨recent,kept,.inl ⟨none_.1,Dict.absent_dropStale _ _ _ none_.2⟩⟩
    · have kept := e.notes.prune_recent w.start w.names recent held now (by rw [noteTtl]; exact noteTime)
      exact ⟨recent,kept,.inr there⟩

/-- Hearing an id adds it to those remembered. -/
theorem Gathering.sighted (g : a.Gathering w missing e) (timely : w.Open now) (id : Key) (inside : id ∈ w.ids)
    (left : List Freeform) (fewer : ∀ f ∈ left, f ∈ missing ∧ (f.src,f.seq) ≠ id)
    (rest : ∀ f ∈ a.sent, f ∉ left → f ∉ missing ∨ (f.src,f.seq) = id) :
    (∃ recent, (e.dedup.firstSight id now).2.seen.Recent (fun expiry => w.start + e.dedup.ttl ≤ expiry) w.ids recent ∧
      ∀ f ∈ a.sent, f ∉ left → (f.src,f.seq) ∈ recent.map Prod.fst) ∧
      ∀ f ∈ left, (e.dedup.firstSight id now).2.seen.get? (f.src,f.seq) = none := by
  obtain ⟨dedupTtl,_,maxEntries,_⟩ := g.times
  obtain ⟨since,_,dedupTime⟩ := timely
  obtain ⟨recent,held,all⟩ := g.known
  constructor
  · have placed := e.dedup.firstSight_recent held id now since (by rw [dedupTtl]; exact dedupTime) inside
      (by rw [maxEntries]; exact w.room)
    apply Exists.intro _
    constructor
    · exact placed
    · intro f member gone
      rw [Dict.keys_placedLast]
      rcases rest f member gone with before | now_
      · exact .inr (all f member before)
      · exact .inl now_
  · intro f member
    obtain ⟨before,other⟩ := fewer f member
    exact e.dedup.firstSight_absent _ _ now other (g.unheard f before)

/-- A fragment that came before is a duplicate. -/
theorem Gathering.repeated (g : a.Gathering w missing e) (timely : w.Open now) (f : Freeform) (member : f ∈ a.sent)
    (came : f ∉ missing) (inside : (f.src,f.seq) ∈ w.ids) :
    a.Gathering w missing (e.hear (.freeform f) now) ∧ (e.hear (.freeform f) now).handed = e.handed := by
  obtain ⟨dedupTtl,_⟩ := g.times
  obtain ⟨recent,held,all⟩ := g.known
  have known := e.dedup.firstSight_known held (f.src,f.seq) now (by rw [dedupTtl]; exact timely.2.2) (all f member came)
  have heard := e.hear_known (.freeform f) now known
  have sighted := g.sighted timely (f.src,f.seq) inside missing
    (fun h left => ⟨left,fun same => came (a.sent_id h f (g.part h left) member (congrArg Prod.snd same) ▸ left)⟩)
    (fun _ _ gone => .inl gone)
  have bounds := e.hear_bounds (.freeform f) now
  rw [heard] at bounds ⊢
  exact ⟨⟨bounds.trans g.bounds,g.part,sighted.1,sighted.2,g.gathered⟩,rfl⟩

/-- A message that is no fragment of this note. -/
theorem Gathering.foreign (g : a.Gathering w missing e) (timely : w.Open now) (message : Message)
    (inside : (message.src,message.seq) ∈ w.ids)
    (other : (message.src,message.seq) ∉ a.sent.map (fun f => (f.src,f.seq)))
    (name : ∀ m, message = .freeform m → fragmentKey m ∈ w.names ∧ fragmentKey m ≠ a.key) :
    a.Gathering w missing (e.hear message now) ∧ about a.key (e.hear message now).handed = about a.key e.handed := by
  obtain ⟨_,noteTtl,_,maxPartial,_⟩ := g.times
  have sighted := g.sighted timely (message.src,message.seq) inside missing
    (fun h left => ⟨left,fun same => other (List.mem_map.mpr ⟨h,g.part h left,same⟩)⟩) (fun _ _ gone => .inl gone)
  have bounds := (e.hear_bounds message now).trans g.bounds
  by_cases first : (e.dedup.firstSight (message.src,message.seq) now).1 = true
  · by_cases note : ∃ m, message = .freeform m
    · obtain ⟨m,rfl⟩ := note
      obtain ⟨inName,apart⟩ := name m rfl
      have heard := e.hear_note m now first
      rw [heard] at bounds ⊢
      constructor
      · refine ⟨bounds,g.part,sighted.1,sighted.2,fun some_ => ?_⟩
        obtain ⟨recent,held,there⟩ := g.gathered some_
        obtain ⟨⟨later,kept,stays⟩,absent⟩ := e.notes.add_foreign w.start w.names recent held m now timely.1
          (by rw [noteTtl]; exact timely.2.1) inName (by rw [maxPartial]; exact w.few) a.key apart
        obtain ⟨ttl,_,_⟩ := e.notes.add_settings m now
        apply Exists.intro later
        constructor
        · simpa only [ttl] using kept
        · rcases there with ⟨all,none_⟩ | ⟨p,member,holds⟩
          · exact .inl ⟨all,absent none_⟩
          · exact .inr ⟨p,stays p member,holds⟩
      · have none_ : about a.key (e.notes.add m now).1.toList = [] := by
          apply List.filter_eq_nil_iff.mpr
          intro made member same
          have key := e.notes.add_key m now made (Option.mem_toList.mp member)
          rw [decide_eq_true_iff,key] at same
          exact apart same
        simp only [about,List.filter_append] at none_ ⊢
        rw [none_,List.nil_append]
    · have heard := e.hear_other message now (fun m same => note ⟨m,same⟩)
      rw [heard] at bounds ⊢
      exact ⟨⟨bounds,g.part,sighted.1,sighted.2,g.gathered⟩,rfl⟩
  · have heard := e.hear_known message now (Bool.eq_false_of_not_eq_true first)
    rw [heard] at bounds ⊢
    exact ⟨⟨bounds,g.part,sighted.1,sighted.2,g.gathered⟩,rfl⟩

variable (a) in
theorem holds_none (expiresAt : ℚ) : a.Holds a.sent ⟨a.pieces.length,.empty,expiresAt⟩ where
  count := rfl
  held := by
    intro index text
    constructor
    · intro found
      cases found
    · intro shown
      obtain ⟨f,member,gone,_⟩ := shown
      exact absurd member gone

/-- The fragment that comes is added to those held. -/
theorem Holds.set (p : Partial) (holds : a.Holds missing p) (f : Freeform) (member : f ∈ a.sent) (expiresAt : ℚ) :
    a.Holds (missing.filter (fun g => g ≠ f)) ⟨p.fragCount,p.fragments.set f.fragIndex f.text,expiresAt⟩ where
  count := holds.count
  held := by
    intro index text
    have left (g : Freeform) : g ∉ missing.filter (fun g => g ≠ f) ↔ g ∉ missing ∨ g = f := by
      rw [List.mem_filter,decide_eq_true_iff]
      tauto
    rw [Dict.get?_set]
    by_cases same : index = f.fragIndex
    · rw [if_pos same]
      constructor
      · intro found
        exact ⟨f,member,(left f).mpr (.inr rfl),same.symm,Option.some.inj found⟩
      · intro shown
        obtain ⟨g,other,_,at_,rfl⟩ := shown
        rw [a.sent_index g f other member (at_.trans same)]
    · rw [if_neg same,holds.held]
      constructor
      · intro shown
        obtain ⟨g,other,gone,at_⟩ := shown
        exact ⟨g,other,(left g).mpr (.inl gone),at_⟩
      · intro shown
        obtain ⟨g,other,gone,at_,piece⟩ := shown
        rcases (left g).mp gone with before | equal
        · exact ⟨g,other,before,at_,piece⟩
        · rw [equal] at at_
          exact absurd at_.symm same

/-- A partial is complete when nothing is missing. -/
theorem Holds.complete (p : Partial) (holds : a.Holds missing p) (part : ∀ f ∈ missing, f ∈ a.sent) :
    p.complete = true ↔ missing = [] := by
  have within : ∀ index ∈ p.fragments.keys, index ∈ Finset.Ico 0 (a.pieces.length : Int) := by
    intro index inside
    obtain ⟨text,found⟩ := (p.fragments.mem_keys index).mp inside
    obtain ⟨f,member,_,rfl,_⟩ := (holds.held index text).mp found
    obtain ⟨i,piece,shape⟩ := a.mem_sent f member
    have early := (List.getElem?_eq_some_iff.mp piece).1
    rw [shape,Finset.mem_Ico]
    simp only
    omega
  have card : (Finset.Ico 0 (a.pieces.length : Int)).card = a.pieces.length := by
    rw [Int.card_Ico]
    omega
  rw [Partial.complete,decide_eq_true_iff,holds.count]
  constructor
  · intro full
    have present := p.fragments.contains_of_card _ within (by omega)
    apply List.eq_nil_iff_forall_not_mem.mpr
    intro f left
    obtain ⟨i,piece,shape⟩ := a.mem_sent f (part f left)
    have early := (List.getElem?_eq_some_iff.mp piece).1
    obtain ⟨text,found⟩ := (p.fragments.contains_iff _).mp (present f.fragIndex (by
      rw [shape,Finset.mem_Ico]
      simp only
      omega))
    obtain ⟨g,member,gone,at_,_⟩ := (holds.held _ _).mp found
    exact gone (a.sent_index g f member (part f left) at_ ▸ left)
  · rintro rfl
    have all : Finset.Ico 0 (a.pieces.length : Int) = p.fragments.keys.toFinset := by
      apply Finset.Subset.antisymm
      · intro index inside
        rw [Finset.mem_Ico] at inside
        obtain ⟨i,rfl⟩ := Int.eq_ofNat_of_zero_le inside.1
        have early : i < a.pieces.length := Int.ofNat_lt.mp inside.2
        have piece : a.pieces[i]? = some a.pieces[i] := List.getElem?_eq_getElem early
        rw [List.mem_toFinset,Dict.mem_keys]
        exact ⟨_,(holds.held _ _).mpr ⟨_,a.sent_piece i _ piece,List.not_mem_nil,rfl,rfl⟩⟩
      · intro index inside
        exact within index (List.mem_toFinset.mp inside)
    have distinct : p.fragments.keys.Nodup := p.fragments.distinct
    rw [all,List.toFinset_card_of_nodup distinct] at card
    rw [← card]
    simp [Dict.size,Dict.keys]

/-- Put together in order, the pieces are the text. -/
theorem Holds.text (p : Partial) (holds : a.Holds [] p) :
    NoteReassembler.decodeUtf8 ((List.range a.pieces.length).flatMap (fun i : Nat => NoteReassembler.pieceAt p i)) =
      some a.text := by
  have positive := (splitNote_pieces _ _ _ _ _ _ a.cut).2.2.1
  have pieces := Ends.range_pieces a.pieces.length (fun i : Nat => NoteReassembler.pieceAt p i) a.pieces rfl (by
    intro i early
    have piece : a.pieces[i]? = some a.pieces[i] := List.getElem?_eq_getElem early
    have found := (holds.held i a.pieces[i]).mpr ⟨_,a.sent_piece i _ piece,List.not_mem_nil,rfl,rfl⟩
    rw [piece,NoteReassembler.pieceAt,found]
    rfl)
  rw [pieces,Airing.pieces,chunks_flatten _ _ (by omega),decodeUtf8_encodeUtf8]

/-- The partial a missing fragment joins. -/
theorem Gathering.joined (g : a.Gathering w missing e) (timely : w.Open now) (f : Freeform) (left : f ∈ missing) :
    (∃ recent, (e.notes.prune now).partials.Recent (fun p => w.start + e.notes.ttl ≤ p.expiresAt) w.names recent) ∧
      a.Holds missing ((e.notes.prune now).joined f now) := by
  obtain ⟨_,noteTtl,_⟩ := g.times
  obtain ⟨recent,held,there⟩ := g.gathered (List.ne_nil_of_mem left)
  have kept := e.notes.prune_recent w.start w.names recent held now (by rw [noteTtl]; exact timely.2.1)
  have member := g.part f left
  have key := a.sent_key f member
  have count : f.fragCount = a.pieces.length := by
    obtain ⟨i,_,shape⟩ := a.mem_sent f member
    rw [shape]
  constructor
  · exact ⟨recent,kept⟩
  · rcases there with ⟨rfl,none_⟩ | ⟨p,inside,holds⟩
    · have absent : (e.notes.prune now).partials.get? a.key = none := Dict.absent_dropStale _ _ _ none_
      simp only [NoteReassembler.joined,key,absent,Option.any_none,Bool.false_eq_true,if_false,Option.getD_none,count]
      exact a.holds_none _
    · have found := kept.get? a.key p inside
      have same : p.fragCount = f.fragCount := holds.count.trans count.symm
      simp only [NoteReassembler.joined,key,found,Option.any_some,same,ne_eq,not_true_eq_false,decide_false,
        Bool.false_eq_true,if_false,Option.getD_some]
      exact holds

/-- A fragment that was missing. The last of them completes the note. -/
theorem Gathering.arrives (g : a.Gathering w missing e) (timely : w.Open now) (cap : w.bounds.maxFragments = a.maxFragments)
    (named : a.key ∈ w.names) (f : Freeform) (left : f ∈ missing) (inside : (f.src,f.seq) ∈ w.ids) :
    a.Gathering w (missing.filter (fun g => g ≠ f)) (e.hear (.freeform f) now) ∧
      about a.key (e.hear (.freeform f) now).handed =
        (if missing.filter (fun g => g ≠ f) = [] then [a.note now] else []) ++ about a.key e.handed := by
  obtain ⟨_,noteTtl,_,maxPartial,maxFragments⟩ := g.times
  have member := g.part f left
  have key := a.sent_key f member
  obtain ⟨i,piece,shape⟩ := a.mem_sent f member
  have early := (List.getElem?_eq_some_iff.mp piece).1
  have few := (splitNote_pieces _ _ _ _ _ _ a.cut).2.2.2.2.1
  have first := e.dedup.firstSight_new (f.src,f.seq) now (g.unheard f left)
  have heard := e.hear_note f now first
  obtain ⟨⟨recent,kept⟩,holds⟩ := g.joined timely f left
  have joining := holds.set _ f member (now + (e.notes.prune now).ttl)
  change a.Holds _ ((e.notes.prune now).extended f now) at joining
  have part : ∀ h ∈ missing.filter (fun g => g ≠ f), h ∈ a.sent := fun h inside => g.part h (List.mem_filter.mp inside).1
  have complete := joining.complete _ part
  have counted : 1 ≤ f.fragCount ∧ f.fragCount ≤ e.notes.maxFragments := by
    rw [maxFragments,cap,shape]
    exact ⟨by simp only; omega,few⟩
  have within : 0 ≤ f.fragIndex ∧ f.fragIndex < f.fragCount := by
    rw [shape]
    simp only
    omega
  obtain ⟨partials,made⟩ := e.notes.add_within f now counted within
  have sighted := g.sighted timely (f.src,f.seq) inside (missing.filter (fun g => g ≠ f))
    (fun h stays => ⟨(List.mem_filter.mp stays).1,fun same => by
      have equal := a.sent_id h f (part h stays) member (congrArg Prod.snd same)
      simp [equal] at stays⟩)
    (fun h _ gone => by
      rw [List.mem_filter,decide_eq_true_iff,not_and_or,not_not] at gone
      exact gone.imp_right (fun same => by rw [same]))
  have bounds := (e.hear_bounds (.freeform f) now).trans g.bounds
  obtain ⟨ttl,_,_⟩ := e.notes.add_settings f now
  rw [heard] at bounds ⊢
  constructor
  · refine ⟨bounds,part,sighted.1,sighted.2,fun some_ => ?_⟩
    have alive : w.start + e.notes.ttl ≤ ((e.notes.prune now).extended f now).expiresAt := by
      have since := timely.1
      simp only [NoteReassembler.extended,NoteReassembler.prune]
      linarith
    have placed := (kept.place (fragmentKey f) _ (by rw [key]; exact named) alive).trim e.notes.maxPartial
      (by rw [maxPartial]; exact w.few)
    rw [if_neg (by rw [complete]; exact some_)] at partials
    simp only [partials,ttl]
    apply Exists.intro _
    constructor
    · exact placed
    · rw [key]
      exact .inr ⟨_,Dict.mem_placedLast_self _ _ _,joining⟩
  · by_cases last : missing.filter (fun g => g ≠ f) = []
    · rw [if_pos (complete.mpr last)] at made
      have count : f.fragCount.toNat = a.pieces.length := by
        rw [shape]
        rfl
      rw [last] at joining
      have name : f.src = a.src ∧ f.taskId = a.taskId ∧ f.noteId = a.noteId := by
        rw [shape]
        exact ⟨rfl,rfl,rfl⟩
      rw [count,joining.text,Option.map_some,name.1,name.2.1,name.2.2] at made
      rw [if_pos last]
      simp only [made,Option.toList_some,about,List.filter_append]
      congr 1
      simp [Airing.note,Airing.key]
    · rw [if_neg (by rw [complete]; exact last)] at made
      rw [if_neg last]
      simp only [made,Option.toList_none,List.nil_append]

/-- What is heard at a moment has its place in the window. -/
structure Window.Covers (node : Node) (moment : Moment) : Prop where
  timely : w.Open moment.1.clock
  ids : ∀ id, idHeard node moment = some id → id ∈ w.ids
  names : ∀ key, noteHeard node moment = some key → key ∈ w.names

variable {node : Node} {s : Session}

theorem Gathering.step (g : a.Gathering w missing s.ears) (moment : Moment) (covered : w.Covers node moment)
    (apart : a.Apart node moment) (other : a.src ≠ node.id) (cap : w.bounds.maxFragments = a.maxFragments)
    (named : a.key ∈ w.names) :
    let left := missing.filter (fun f => !carries a.maxPayloadBytes f moment.2)
    a.Gathering w left (perform node moment.1 s moment.2).ears ∧
      about a.key (perform node moment.1 s moment.2).deliveredNotes =
        (if missing ≠ [] ∧ left = [] then [a.note moment.1.clock] else []) ++ about a.key s.deliveredNotes := by
  obtain ⟨env,call⟩ := moment
  intro left
  by_cases carried : ∃ f ∈ a.sent, carries a.maxPayloadBytes f call = true
  · obtain ⟨f,member,carried⟩ := carried
    obtain ⟨payload,rfl,read⟩ := a.carries_frame f call carried
    have foreign : f.src ≠ node.id := by
      obtain ⟨i,_,shape⟩ := a.mem_sent f member
      rw [shape]
      exact other
    have ears := onFrame_note node env payload f s read foreign
    have data : (Message.freeform f).type ≠ .ack := by simp [Message.type]
    have heard := heard_of_decode node payload (.freeform f) read data foreign
    have inside := covered.ids (f.src,f.seq) (by rw [idHeard,heard]; rfl)
    change a.Gathering w left _ ∧ about a.key (perform node env s (.onFrame payload)).ears.handed = _
    rw [ears]
    by_cases came : f ∈ missing
    · have same : left = missing.filter (fun g => g ≠ f) := by
        apply List.filter_congr
        intro g _
        by_cases equal : g = f
        · simp [equal,carried]
        · have not_ : ¬carries a.maxPayloadBytes g (.onFrame payload) = true :=
            fun also => equal (a.carries_one g f _ also carried)
          simp [equal,not_]
      have arrived := g.arrives covered.timely cap named f came inside
      rw [same]
      have some_ : missing ≠ [] := List.ne_nil_of_mem came
      simp only [some_,ne_eq,not_false_eq_true,true_and]
      exact arrived
    · have same : left = missing := by
        apply List.filter_eq_self.mpr
        intro g stays
        have not_ : ¬carries a.maxPayloadBytes g (.onFrame payload) = true :=
          fun also => came (a.carries_one g f _ also carried ▸ stays)
        simp [not_]
      have again := g.repeated covered.timely f member came inside
      rw [same,if_neg (by tauto),again.2,List.nil_append]
      exact ⟨again.1,rfl⟩
  · have same : left = missing := by
      apply List.filter_eq_self.mpr
      intro h stays
      have not_ : ¬carries a.maxPayloadBytes h call = true := fun also => carried ⟨h,g.part h stays,also⟩
      simp [not_]
    rw [same,if_neg (by tauto),List.nil_append]
    change a.Gathering w missing _ ∧ about a.key (perform node env s call).ears.handed = about a.key s.ears.handed
    rcases perform_ears node env s call with still | pruned | ⟨message,heard,ears⟩
    · rw [still]
      exact ⟨g,rfl⟩
    · rw [pruned]
      exact ⟨g.prune covered.timely,rfl⟩
    · rw [ears]
      rcases apart message heard with own | ⟨id,name⟩
      · exact absurd own carried
      · have inside := covered.ids (message.src,message.seq) (by rw [idHeard,heard]; rfl)
        exact g.foreign covered.timely message inside id (fun m note => by
          subst note
          exact ⟨covered.names (fragmentKey m) (by rw [noteHeard,heard]),name m rfl⟩)

theorem Gathering.run (g : a.Gathering w missing s.ears) (moments : List Moment)
    (covered : ∀ moment ∈ moments, w.Covers node moment) (apart : ∀ moment ∈ moments, a.Apart node moment)
    (other : a.src ≠ node.id) (cap : w.bounds.maxFragments = a.maxFragments) (named : a.key ∈ w.names) :
    about a.key (listen node s moments).deliveredNotes =
      (if missing = [] then [] else ((wholeAt a.maxPayloadBytes missing moments).map a.note).toList) ++
        about a.key s.deliveredNotes := by
  induction moments generalizing s missing with
  | nil => simp [listen,wholeAt]
  | cons moment rest ih =>
    have step := g.step moment (covered moment (by simp)) (apart moment (by simp)) other cap named
    have later := ih step.1 (fun m member => covered m (by simp [member])) (fun m member => apart m (by simp [member]))
    refine later.trans ?_
    rw [step.2]
    by_cases none_ : missing = []
    · simp [none_]
    · by_cases last : missing.filter (fun f => !carries a.maxPayloadBytes f moment.2) = []
      · simp [none_,last,wholeAt]
      · simp [none_,last,wholeAt]

variable (a)

theorem pieces_length : a.pieces.length =
    ((encodeUtf8 a.text).length + (textBytesPerFragment a.maxPayloadBytes).toNat - 1) /
      (textBytesPerFragment a.maxPayloadBytes).toNat := by
  simp [pieces,chunks]

/-- The count of the fragments fits its byte if the text is short enough. -/
theorem pieces_few : (a.pieces.length : Int) ≤ fragMax ↔
    ((encodeUtf8 a.text).length : Int) ≤ fragMax * textBytesPerFragment a.maxPayloadBytes := by
  have positive := (splitNote_pieces _ _ _ _ _ _ a.cut).2.2.1
  obtain ⟨step,room⟩ := Int.eq_ofNat_of_zero_le (show 0 ≤ textBytesPerFragment a.maxPayloadBytes by omega)
  have rounded : a.pieces.length ≤ 255 ↔ (encodeUtf8 a.text).length + step - 1 ≤ step*255 + (step - 1) := by
    rw [pieces_length,room]
    exact Nat.div_le_iff_le_mul_add_pred (by omega)
  rw [room,fragMax]
  omega

theorem sent_ne_nil : a.sent ≠ [] := by
  obtain ⟨_,_,positive,words,_⟩ := splitNote_pieces _ _ _ _ _ _ a.cut
  intro empty
  have none_ : a.pieces = [] := by
    cases whole : a.pieces with
    | nil => rfl
    | cons chunk rest =>
      have member := a.sent_piece 0 chunk (by rw [whole]; rfl)
      rw [empty] at member
      cases member
  have flat : a.pieces.flatten = encodeUtf8 a.text := chunks_flatten _ _ (by omega)
  rw [none_] at flat
  exact words flat.symm

theorem encodes_iff : a.Encodes ↔
    ((encodeUtf8 a.text).length : Int) ≤ fragMax * textBytesPerFragment a.maxPayloadBytes := by
  obtain ⟨task,note,positive,_⟩ := splitNote_pieces _ _ _ _ _ _ a.cut
  rw [← a.pieces_few]
  constructor
  · intro encodes
    obtain ⟨f,member⟩ := List.exists_mem_of_ne_nil _ a.sent_ne_nil
    obtain ⟨payload,encoded,_⟩ := encodes f member
    obtain ⟨i,_,shape⟩ := a.mem_sent f member
    have counted := (encode_fits f _ payload encoded).count.2
    rwa [shape] at counted
  · intro few f member
    obtain ⟨i,piece,shape⟩ := a.mem_sent f member
    have early := (List.getElem?_eq_some_iff.mp piece).1
    have short := chunks_length_le _ _ _ (List.mem_of_getElem? piece)
    obtain ⟨g,inside,same⟩ := List.mem_map.mp member
    have number := a.numbered g inside
    have seq : f.seq = a.number g.fragIndex := by rw [← same]
    have robot := a.robot
    have fits : Fits f a.maxPayloadBytes := by
      constructor
      · rw [shape]
        exact ⟨by simp only; omega,robot.2⟩
      · rw [seq]
        exact number
      · rw [shape]
        exact ⟨by simp only; omega,task.2⟩
      · rw [shape]
        exact note
      · rw [shape]
        simp only
        omega
      · rw [shape]
        simp only
        omega
      · simp only [textBytesPerFragment] at short positive ⊢
        omega
    obtain ⟨payload,encoded⟩ := fits_encode f _ fits
    obtain ⟨_,_,_,_,_,_,_,small⟩ := encode_packet _ _ _ encoded
    exact ⟨payload,encoded,small⟩

theorem handed_once (node : Node) (s : Session) (start : ℚ) (moments : List Moment)
    (received : a.Received node s start moments) : a.HandedOnce node s moments := by
  intro early part
  let names := insert a.key ((moments.filterMap (noteHeard node)).toFinset.erase a.key)
  have few : names.card ≤ s.notes.maxPartial := (Finset.card_insert_le _ _).trans received.few
  let w : Window := ⟨s.ears.bounds,start,(moments.filterMap (idHeard node)).toFinset,names,received.room,few⟩
  have covers : ∀ moment ∈ moments, w.Covers node moment := by
    intro moment member
    obtain ⟨since,noteTime,dedupTime⟩ := received.timely moment member
    constructor
    · exact ⟨since,noteTime,dedupTime⟩
    · exact fun id found => List.mem_toFinset.mpr (List.mem_filterMap.mpr ⟨moment,member,found⟩)
    · intro key found
      by_cases own : key = a.key
      · rw [own]
        exact Finset.mem_insert_self _ _
      · apply Finset.mem_insert_of_mem
        exact Finset.mem_erase.mpr ⟨own,List.mem_toFinset.mpr (List.mem_filterMap.mpr ⟨moment,member,found⟩)⟩
  have gathering : a.Gathering w a.sent s.ears := by
    constructor
    · rfl
    · exact fun f member => member
    · exact ⟨[],.nil _ _ _,fun f member gone => absurd member gone⟩
    · exact received.unheard
    · exact fun _ => ⟨[],.nil _ _ _,.inl ⟨rfl,received.unheld⟩⟩
  have run := gathering.run early (fun m member => covers m (part.subset member))
    (fun m member => received.apart m (part.subset member)) received.other received.cap (Finset.mem_insert_self _ _)
  rwa [if_neg a.sent_ne_nil] at run

/-- A note goes out and comes back whole if its fragments can be counted in a byte. -/
theorem note_whole : (a.Encodes ∧ ∀ node s start moments, a.Received node s start moments → a.HandedOnce node s moments) ↔
    ((encodeUtf8 a.text).length : Int) ≤ fragMax * textBytesPerFragment a.maxPayloadBytes := by
  rw [← a.encodes_iff]
  constructor
  · exact And.left
  · exact fun encodes => ⟨encodes,a.handed_once⟩

theorem accent_robot : (0 : Int) < 1 ∧ 1 ≤ srcMax := by decide

def accentFragments : List Freeform := [⟨0,0,7,3,0,2,[0x6E,0xC3]⟩,⟨0,0,7,3,1,2,[0xA9]⟩]

theorem accent_cut : splitNote 7 3 "né" 11 8 = .ok accentFragments := by decide +kernel

theorem accent_numbered : ∀ f ∈ accentFragments, 0 ≤ 40 + f.fragIndex ∧ 40 + f.fragIndex ≤ seqMax := by decide

theorem accent_distinct : (accentFragments.map (fun f => 40 + f.fragIndex)).Nodup := by decide

/-- A cut inside a letter. -/
def accent : Airing where
  src := 1
  taskId := 7
  noteId := 3
  text := "né"
  maxPayloadBytes := 11
  maxFragments := 8
  number := fun index => 40 + index
  fragments := accentFragments
  robot := accent_robot
  cut := accent_cut
  numbered := accent_numbered
  distinct := accent_distinct

def accentFrame (index : Nat) : Call :=
  .onFrame (((accent.sent[index]?).bind (fun f => (encode (.freeform f) 11).toOption)).getD [])

/-- The second fragment twice, and then the first one twice. -/
def accentMoments : List Moment :=
  [({ clock := 0 },accentFrame 1),({ clock := 1 },accentFrame 1),({ clock := 2 },accentFrame 0),({ clock := 3 },accentFrame 0)]

theorem accent_carried : ∀ moment ∈ accentMoments, ∃ f ∈ accent.sent, carries accent.maxPayloadBytes f moment.2 = true := by
  decide +kernel

theorem accent_received : accent.Received Node.second (Session.init Node.second) 0 accentMoments where
  other := by decide
  cap := rfl
  unheard := fun _ _ => rfl
  unheld := rfl
  timely := by decide +kernel
  apart := fun moment member _ _ => .inl (accent_carried moment member)
  few := by decide +kernel
  room := by decide +kernel

theorem note_whole_accent :
    about accent.key (listen Node.second (Session.init Node.second) accentMoments).deliveredNotes = [accent.note 2] := by
  have whole := accent.note_whole.mpr (by decide +kernel)
  have once := whole.2 Node.second (Session.init Node.second) 0 accentMoments accent_received accentMoments
    (List.prefix_refl _)
  have last : wholeAt accent.maxPayloadBytes accent.sent accentMoments = some 2 := by decide +kernel
  rw [once,last]
  rfl

def longText : String := String.ofList (List.replicate 256 'a')

/-- With room for one byte a fragment this text is cut in 256, and none of them encodes. -/
theorem note_uncounted :
    (splitNote 1 0 longText 10 256).toOption.map (fun fragments =>
      fragments.map (fun f => (encode (.freeform { f with src := 1 }) 10).toOption)) =
        some (List.replicate 256 none) := by
  decide +kernel

end Airing
end AmigaFleet.Reliability
