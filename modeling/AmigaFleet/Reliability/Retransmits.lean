import AmigaFleet.Reliability.Books

/-! When a reliable send goes out and when it ends. Beside the session stands
a timeline, newest first: what was handed to the link for each future, whether
the link took it or raised, and every outcome. -/
namespace AmigaFleet.Reliability
open Lib AmigaFleet.Codec

inductive Happening where
  | handed (future : Nat) (packet : Packet) (time : ℚ)
  | settled (future : Nat) (outcome : Outcome) (time : ℚ)
  deriving DecidableEq

abbrev Timeline : Type := List Happening

namespace Happening

def future : Happening → Nat
  | .handed future _ _ => future
  | .settled future _ _ => future

def packet? : Happening → Option Packet
  | .handed _ packet _ => some packet
  | .settled _ _ _ => none

def outcome? : Happening → Option (Nat × Outcome)
  | .handed _ _ _ => none
  | .settled future outcome _ => some (future,outcome)

end Happening

def isGrant (packet : Packet) : Bool :=
  match decode packet with
  | .ok message => message.type = .grant
  | .error _ => false

def story (future : Nat) (t : Timeline) : Timeline := t.filter (fun h => h.future = future)

def due (node : Node) (now : ℚ) (entry : Pending) : Bool :=
  entry.deadline ≤ now && entry.attempts < node.params.maxRetries

def spent (node : Node) (now : ℚ) (entry : Pending) : Bool :=
  entry.deadline ≤ now && node.params.maxRetries ≤ entry.attempts

/-- The entries of the table that pass the test, in the order of the sweep. -/
def among (test : Pending → Bool) (seqs : List Int) (pending : Dict Int Pending) : List Pending :=
  seqs.filterMap (fun seq => (pending.get? seq).filter test)

/-- What the request hands to the link for a future. -/
def hands (node : Node) (l : Ledger) (label : LedgerLabel) : List (Nat × Packet) :=
  match label.request with
  | .call (.sendReliable dst message) =>
    match (l.session.sendReliable node label.env dst message).1 with
    | .ok future =>
      if node.params.maxPending ≤ (l.session.pending.size : Int) then []
      else (encode (l.session.stamp node message).1 node.params.maxPayloadBytes).toOption.toList.map
        (fun packet => (future,packet))
    | .error _ => []
  | .call .tick =>
    (among (due node label.env.clock) l.session.pending.keys l.session.pending).map (fun e => (e.future,e.payload))
  | _ => []

/-- What the request settles, newest first. -/
def settles (s after : Session) : List (Nat × Outcome) :=
  after.resolved.take (after.resolved.length - s.resolved.length)

def note (node : Node) (l : Ledger) (t : Timeline) (label : LedgerLabel) : Timeline :=
  (settles l.session (Ledger.next node l label).session).map (fun r => .settled r.1 r.2 label.env.clock) ++
    ((hands node l label).map (fun h => .handed h.1 h.2 label.env.clock)).reverse ++ t

def campaigns (node : Node) : Machine (Ledger × Timeline) LedgerLabel := (Ledger.machine node).withHistory [] (note node)

/-- Every retransmit, newest first, comes an interval or more after what it repeats. -/
def Spaced (params : ReliabilityParams) : List ℚ → Prop
  | later::earlier::before =>
    earlier + Session.interval params before.length ≤ later ∧ Spaced params (earlier::before)
  | _ => True

/-- All that can happen to one future. -/
inductive Story (node : Node) (future : Nat) : Timeline → Prop
  | unsent : Story node future []
  | rejected (time : ℚ) : Story node future [.settled future .failed time]
  | sending (packet : Packet) (last : ℚ) (before : List ℚ) (few : (before.length : Int) ≤ node.params.maxRetries)
      (spaced : Spaced node.params (last::before)) :
      Story node future ((last::before).map (.handed future packet))
  | delivered (packet : Packet) (last time : ℚ) (before : List ℚ)
      (few : (before.length : Int) ≤ node.params.maxRetries) (spaced : Spaced node.params (last::before)) :
      Story node future (.settled future .delivered time :: (last::before).map (.handed future packet))
  | failed (packet : Packet) (last time : ℚ) (before : List ℚ)
      (all : (before.length : Int) = node.params.maxRetries) (spaced : Spaced node.params (last::before))
      (waited : last + Session.interval node.params node.params.maxRetries ≤ time) :
      Story node future (.settled future .failed time :: (last::before).map (.handed future packet))

/-- The story of a send that waits in the table. -/
def Running (node : Node) (entry : Pending) (t : Timeline) : Prop :=
  ∃ last before, story entry.future t = (last::before).map (.handed entry.future entry.payload) ∧
    entry.attempts = before.length ∧ entry.attempts ≤ node.params.maxRetries ∧ Spaced node.params (last::before) ∧
    entry.deadline = last + Session.interval node.params entry.attempts

/-- What a sweep makes of an entry. -/
def renewed (node : Node) (now : ℚ) (entry : Pending) : Option Pending :=
  if spent node now entry then none
  else if due node now entry then some { entry with
    attempts := entry.attempts + 1, deadline := now + Session.interval node.params (entry.attempts + 1) }
  else some entry

theorem among_cons (test : Pending → Bool) (seq : Int) (seqs : List Int) (pending : Dict Int Pending) :
    among test (seq::seqs) pending = ((pending.get? seq).filter test).toList ++ among test seqs pending := by
  rw [among,List.filterMap_cons]
  cases (pending.get? seq).filter test <;> rfl

theorem among_congr (test : Pending → Bool) (seqs : List Int) (pending later : Dict Int Pending)
    (same : ∀ seq ∈ seqs, later.get? seq = pending.get? seq) : among test seqs later = among test seqs pending := by
  apply List.filterMap_congr
  intro seq member
  rw [same seq member]

/-- What one entry of a sweep comes to. -/
structure Swept (node : Node) (now : ℚ) (seqs : List Int) (sweep after : Session.Sweep) : Prop where
  retransmit : after.retransmit = sweep.retransmit ++
    (among (due node now) seqs sweep.session.pending).map (fun e => (e.payload,e.priority))
  expired : after.expired = sweep.expired ++ among (spent node now) seqs sweep.session.pending
  pending : ∀ seq, after.session.pending.get? seq =
    if seq ∈ seqs then (sweep.session.pending.get? seq).bind (renewed node now) else sweep.session.pending.get? seq
  resolved : after.session.resolved = sweep.session.resolved
  futures : after.session.futures = sweep.session.futures
  transmitted : after.session.transmitted = sweep.session.transmitted
  errors : after.session.counters.txLinkErrors = sweep.session.counters.txLinkErrors

theorem among_single (test : Pending → Bool) (seq : Int) (pending : Dict Int Pending) :
    among test [seq] pending = ((pending.get? seq).filter test).toList := by
  rw [among_cons,among,List.filterMap_nil,List.append_nil]

theorem sweepOne_swept (node : Node) (now : ℚ) (sweep : Session.Sweep) (seq : Int) :
    Swept node now [seq] sweep (Session.sweepOne node now sweep seq) := by
  cases found : sweep.session.pending.get? seq with
  | none =>
    have same : Session.sweepOne node now sweep seq = sweep := by simp [Session.sweepOne,found]
    rw [same]
    refine ⟨by simp [among_single,found],by simp [among_single,found],?_,rfl,rfl,rfl,rfl⟩
    intro other
    by_cases here : other = seq <;> simp [here,found]
  | some entry =>
    by_cases early : entry.deadline > now
    · have same : Session.sweepOne node now sweep seq = sweep := by simp [Session.sweepOne,found,early]
      have kept : due node now entry = false := by simp [due,not_le.mpr early]
      have alive : spent node now entry = false := by simp [spent,not_le.mpr early]
      rw [same]
      refine ⟨by simp [among_single,found,kept],by simp [among_single,found,alive],?_,rfl,rfl,rfl,rfl⟩
      intro other
      by_cases here : other = seq <;> simp [here,found,renewed,kept,alive]
    · have late : entry.deadline ≤ now := not_lt.mp early
      by_cases used : node.params.maxRetries ≤ entry.attempts
      · have kept : due node now entry = false := by simp [due,used]
        have gone : spent node now entry = true := by simp [spent,late,used]
        simp only [Session.sweepOne,found,if_neg early,if_pos used]
        refine ⟨by simp [among_single,found,kept],by simp [among_single,found,Option.filter,gone],?_,rfl,rfl,rfl,rfl⟩
        intro other
        simp only [Session.count,Dict.get?_pop]
        by_cases here : other = seq <;> simp [here,found,renewed,gone]
      · have again : due node now entry = true := by simp [due,late,not_le.mp used]
        have alive : spent node now entry = false := by simp [spent,used]
        simp only [Session.sweepOne,found,if_neg early,if_neg used]
        refine ⟨by simp [among_single,found,Option.filter,again],by simp [among_single,found,alive],?_,rfl,rfl,rfl,rfl⟩
        intro other
        simp only [Session.count,Dict.get?_set]
        by_cases here : other = seq <;> simp [here,found,renewed,again,alive]

theorem sweep_swept (node : Node) (now : ℚ) (seqs : List Int) (distinct : seqs.Nodup) (sweep : Session.Sweep) :
    Swept node now seqs sweep (seqs.foldl (Session.sweepOne node now) sweep) := by
  induction seqs generalizing sweep with
  | nil =>
    refine ⟨by simp [among],by simp [among],?_,rfl,rfl,rfl,rfl⟩
    intro seq
    simp
  | cons seq seqs ih =>
    rw [List.nodup_cons] at distinct
    have first := sweepOne_swept node now sweep seq
    have rest := ih distinct.2 (Session.sweepOne node now sweep seq)
    have untouched : ∀ other ∈ seqs,
        (Session.sweepOne node now sweep seq).session.pending.get? other = sweep.session.pending.get? other := by
      intro other member
      have apart : other ≠ seq := fun equal => distinct.1 (equal ▸ member)
      rw [first.pending other,if_neg (by simpa using apart)]
    constructor
    · rw [List.foldl_cons,rest.retransmit,first.retransmit,among_congr _ _ _ _ untouched,among_cons,among_cons]
      simp [among]
    · rw [List.foldl_cons,rest.expired,first.expired,among_congr _ _ _ _ untouched,among_cons,among_cons]
      simp [among]
    · intro other
      rw [List.foldl_cons,rest.pending other]
      by_cases member : other ∈ seqs
      · rw [if_pos member,untouched other member,if_pos (List.mem_cons_of_mem _ member)]
      · rw [if_neg member,first.pending other]
        simp [member]
    · exact rest.resolved.trans first.resolved
    · exact rest.futures.trans first.futures
    · exact rest.transmitted.trans first.transmitted
    · exact rest.errors.trans first.errors

theorem finish_all (expired : List Pending) (s : Session) :
    (expired.foldl (fun s entry => s.finish entry .failed) s) =
      { s with resolved := (expired.map (fun e => (e.future,Outcome.failed))).reverse ++ s.resolved } := by
  induction expired generalizing s with
  | nil => rfl
  | cons entry expired ih =>
    rw [List.foldl_cons,ih]
    simp [Session.finish]

theorem tick_pending (node : Node) (env : Env) (s : Session) (seq : Int) :
    (s.tick node env).pending.get? seq = (s.pending.get? seq).bind (renewed node env.clock) := by
  have swept := sweep_swept node env.clock s.pending.keys s.pending.distinct { session := s }
  unfold Session.tick
  generalize s.pending.keys.foldl (Session.sweepOne node env.clock) { session := s } = sweep at swept ⊢
  simp only [finish_all]
  rw [(Session.resend_fields env sweep.retransmit _).2.2]
  change sweep.session.pending.get? seq = _
  rw [swept.pending seq]
  split
  · rfl
  · rename_i absent
    have nothing : s.pending.get? seq = none := by
      rw [← Option.not_isSome_iff_eq_none,Option.isSome_iff_exists,← Dict.mem_keys]
      exact absent
    simp only [nothing]
    rfl

theorem tick_resolved (node : Node) (env : Env) (s : Session) :
    (s.tick node env).resolved = ((among (spent node env.clock) s.pending.keys s.pending).map
      (fun e => (e.future,Outcome.failed))).reverse ++ s.resolved := by
  have swept := sweep_swept node env.clock s.pending.keys s.pending.distinct { session := s }
  unfold Session.tick
  generalize s.pending.keys.foldl (Session.sweepOne node env.clock) { session := s } = sweep at swept ⊢
  simp only [finish_all]
  rw [(Session.resend_fields env sweep.retransmit _).2.1,swept.expired]
  exact congrArg _ swept.resolved

theorem tick_futures (node : Node) (env : Env) (s : Session) : (s.tick node env).futures = s.futures := by
  have swept := sweep_swept node env.clock s.pending.keys s.pending.distinct { session := s }
  unfold Session.tick
  generalize s.pending.keys.foldl (Session.sweepOne node env.clock) { session := s } = sweep at swept ⊢
  simp only [finish_all]
  exact (Session.resend_fields env sweep.retransmit _).1.trans swept.futures

/-- At most one entry of the table has the future. -/
theorem among_future (test : Pending → Bool) (future : Nat) (seqs : List Int) (distinct : seqs.Nodup)
    (pending : Dict Int Pending) (seq : Int) (entry : Pending) (member : seq ∈ seqs)
    (found : pending.get? seq = some entry) (mine : entry.future = future)
    (only : ∀ other rival, pending.get? other = some rival → rival.future = future → other = seq) :
    (among test seqs pending).filter (fun e => e.future = future) = if test entry then [entry] else [] := by
  have others : ∀ rest : List Int, seq ∉ rest →
      (among test rest pending).filter (fun e => e.future = future) = [] := by
    intro rest absent
    apply List.filter_eq_nil_iff.mpr
    intro rival inside
    obtain ⟨other,within,held⟩ := List.mem_filterMap.mp inside
    obtain ⟨there,_⟩ := Option.filter_eq_some_iff.mp held
    rw [decide_eq_true_iff]
    intro same
    exact absent (only other rival there same ▸ within)
  induction seqs with
  | nil => cases member
  | cons first rest ih =>
    rw [List.nodup_cons] at distinct
    rw [among_cons,List.filter_append]
    by_cases here : first = seq
    · have absent : seq ∉ rest := here ▸ distinct.1
      rw [here,found,others rest absent,List.append_nil]
      by_cases passes : test entry = true <;> simp [Option.filter,passes,mine]
    · have single : (among test [first] pending).filter (fun e => e.future = future) = [] :=
        others [first] (by simpa using Ne.symm here)
      rw [among_single] at single
      rw [single,List.nil_append,ih distinct.2 ((List.mem_cons.mp member).resolve_left (Ne.symm here))]

theorem among_nobody (test : Pending → Bool) (future : Nat) (seqs : List Int) (pending : Dict Int Pending)
    (none : ∀ seq entry, pending.get? seq = some entry → entry.future ≠ future) :
    (among test seqs pending).filter (fun e => e.future = future) = [] := by
  apply List.filter_eq_nil_iff.mpr
  intro entry inside
  obtain ⟨seq,_,held⟩ := List.mem_filterMap.mp inside
  simpa using none seq entry (Option.filter_eq_some_iff.mp held).1

theorem settles_eq (s after : Session) (new : List (Nat × Outcome)) (resolved : after.resolved = new ++ s.resolved) :
    settles s after = new := by
  have count : after.resolved.length - s.resolved.length = new.length := by
    rw [resolved,List.length_append,Nat.add_sub_cancel]
  rw [settles,count,resolved,List.take_left]

theorem story_append (future : Nat) (new t : Timeline) : story future (new ++ t) = story future new ++ story future t :=
  List.filter_append ..

theorem story_settled (future : Nat) (settled : List (Nat × Outcome)) (time : ℚ) :
    story future (settled.map (fun r => .settled r.1 r.2 time)) =
      (settled.filter (fun r => r.1 = future)).map (fun r => .settled r.1 r.2 time) := by
  rw [story,List.filter_map]
  rfl

theorem story_handed (future : Nat) (handed : List (Nat × Packet)) (time : ℚ) :
    story future (handed.map (fun h => .handed h.1 h.2 time)).reverse =
      ((handed.filter (fun h => h.1 = future)).map (fun h => .handed h.1 h.2 time)).reverse := by
  rw [story,List.filter_reverse,List.filter_map]
  rfl

theorem story_note (node : Node) (future : Nat) (l : Ledger) (t : Timeline) (label : LedgerLabel) :
    story future (note node l t label) =
      ((settles l.session (Ledger.next node l label).session).filter (fun r => r.1 = future)).map
          (fun r => .settled r.1 r.2 label.env.clock) ++
        (((hands node l label).filter (fun h => h.1 = future)).map
          (fun h => .handed h.1 h.2 label.env.clock)).reverse ++ story future t := by
  rw [note,story_append,story_append,story_settled,story_handed]

/-- The timeline keeps pace with the session. -/
structure Paced (node : Node) (s : Session) (t : Timeline) : Prop where
  sound : Sound node s
  unborn : ∀ future, s.futures ≤ future → story future t = []
  running : ∀ seq entry, s.pending.get? seq = some entry → Running node entry t
  stories : ∀ future, Story node future (story future t)
  outcomes : t.filterMap Happening.outcome? = s.resolved

theorem Running.story (node : Node) (entry : Pending) (t : Timeline) (running : Running node entry t) :
    Story node entry.future (Reliability.story entry.future t) := by
  obtain ⟨last,before,same,attempts,few,spaced,_⟩ := running
  rw [same]
  exact .sending _ _ _ (attempts ▸ few) spaced

theorem Running.congr (node : Node) (entry : Pending) (t later : Timeline)
    (same : Reliability.story entry.future later = Reliability.story entry.future t) (running : Running node entry t) :
    Running node entry later := by
  obtain ⟨last,before,shown,rest⟩ := running
  exact ⟨last,before,same.trans shown,rest⟩

theorem outcomes_note (node : Node) (l : Ledger) (t : Timeline) (label : LedgerLabel) (new : List (Nat × Outcome))
    (resolved : (Ledger.next node l label).session.resolved = new ++ l.session.resolved)
    (before : t.filterMap Happening.outcome? = l.session.resolved) :
    (note node l t label).filterMap Happening.outcome? = (Ledger.next node l label).session.resolved := by
  have fresh : (new.map (fun r => Happening.settled r.1 r.2 label.env.clock)).filterMap Happening.outcome? = new := by
    rw [List.filterMap_map]
    exact List.filterMap_some
  have silent : ((hands node l label).map (fun h => Happening.handed h.1 h.2 label.env.clock)).reverse.filterMap
      Happening.outcome? = [] := by
    rw [List.filterMap_eq_nil_iff]
    intro happening member
    obtain ⟨h,_,rfl⟩ := List.mem_map.mp (List.mem_reverse.mp member)
    rfl
  rw [note,settles_eq _ _ new resolved,List.filterMap_append,List.filterMap_append,fresh,silent,before,
    List.append_nil,resolved]

/-- A request that hands over nothing and settles nothing leaves the timeline. -/
theorem Paced.quiet (node : Node) (s after : Session) (t : Timeline) (paced : Paced node s t) (sound : Sound node after)
    (pending : after.pending = s.pending) (resolved : after.resolved = s.resolved) (more : s.futures ≤ after.futures) :
    Paced node after t where
  sound := sound
  unborn := fun future early => paced.unborn future (more.trans early)
  running := fun seq entry found => paced.running seq entry (pending ▸ found)
  stories := paced.stories
  outcomes := paced.outcomes.trans resolved.symm

theorem note_quiet (node : Node) (l : Ledger) (t : Timeline) (label : LedgerLabel)
    (none : hands node l label = []) (resolved : (Ledger.next node l label).session.resolved = l.session.resolved) :
    note node l t label = t := by
  rw [note,settles_eq _ _ [] resolved,none]
  rfl

/-- What a tick adds to the story of an entry of the table. -/
theorem tick_story (node : Node) (env : Env) (l : Ledger) (t : Timeline) (seq : Int) (entry : Pending)
    (sound : Sound node l.session) (found : l.session.pending.get? seq = some entry) :
    story entry.future (note node l t ⟨env,.call .tick⟩) =
      (if spent node env.clock entry then [.settled entry.future .failed env.clock] else []) ++
        (if due node env.clock entry then [.handed entry.future entry.payload env.clock] else []) ++
        story entry.future t := by
  have inside : seq ∈ l.session.pending.keys := (Dict.mem_keys _ _).mpr ⟨entry,found⟩
  have only : ∀ other rival, l.session.pending.get? other = some rival → rival.future = entry.future → other = seq :=
    fun other rival held same => sound.apart other seq rival entry held found same
  have one (test : Pending → Bool) := among_future test entry.future l.session.pending.keys l.session.pending.distinct
    l.session.pending seq entry inside found rfl only
  have resolved : (Ledger.next node l ⟨env,.call .tick⟩).session.resolved = _ := tick_resolved node env l.session
  have given : hands node l ⟨env,.call .tick⟩ =
    (among (due node env.clock) l.session.pending.keys l.session.pending).map (fun e => (e.future,e.payload)) := rfl
  rw [story_note,settles_eq _ _ _ resolved,given,List.filter_reverse,List.filter_map,List.filter_map]
  have failed := one (spent node env.clock)
  have again := one (due node env.clock)
  simp only [Function.comp_def] at failed again ⊢
  rw [failed,again]
  by_cases gone : spent node env.clock entry = true <;> by_cases repeated : due node env.clock entry = true <;>
    simp [gone,repeated]

/-- A future no entry of the table has hears nothing of a tick. -/
theorem tick_nobody (node : Node) (env : Env) (l : Ledger) (t : Timeline) (future : Nat)
    (nobody : ∀ seq entry, l.session.pending.get? seq = some entry → entry.future ≠ future) :
    story future (note node l t ⟨env,.call .tick⟩) = story future t := by
  have none (test : Pending → Bool) := among_nobody test future l.session.pending.keys l.session.pending nobody
  have resolved : (Ledger.next node l ⟨env,.call .tick⟩).session.resolved = _ := tick_resolved node env l.session
  have given : hands node l ⟨env,.call .tick⟩ =
    (among (due node env.clock) l.session.pending.keys l.session.pending).map (fun e => (e.future,e.payload)) := rfl
  rw [story_note,settles_eq _ _ _ resolved,given,List.filter_reverse,List.filter_map,List.filter_map]
  have failed := none (spent node env.clock)
  have again := none (due node env.clock)
  simp only [Function.comp_def] at failed again ⊢
  rw [failed,again]
  rfl

/-- What is due in a tick is repeated, and no sooner than its interval. -/
theorem Running.again (node : Node) (entry : Pending) (t later : Timeline) (now : ℚ) (running : Running node entry t)
    (again : due node now entry = true)
    (told : Reliability.story entry.future later = .handed entry.future entry.payload now :: Reliability.story entry.future t) :
    Running node { entry with
      attempts := entry.attempts + 1, deadline := now + Session.interval node.params (entry.attempts + 1) } later := by
  obtain ⟨last,before,same,attempts,few,spaced,deadline⟩ := running
  rw [due,Bool.and_eq_true,decide_eq_true_iff,decide_eq_true_iff] at again
  refine ⟨now,last::before,?_,?_,?_,?_,rfl⟩
  · rw [told,same]
    rfl
  · rw [List.length_cons,attempts]
    rfl
  · exact again.2
  · rw [attempts] at deadline
    exact ⟨deadline ▸ again.1,spaced⟩

theorem Running.failed (node : Node) (entry : Pending) (t later : Timeline) (now : ℚ) (running : Running node entry t)
    (gone : spent node now entry = true)
    (told : Reliability.story entry.future later = .settled entry.future .failed now :: Reliability.story entry.future t) :
    Story node entry.future (Reliability.story entry.future later) := by
  obtain ⟨last,before,same,attempts,few,spaced,deadline⟩ := running
  rw [spent,Bool.and_eq_true,decide_eq_true_iff,decide_eq_true_iff] at gone
  have all : entry.attempts = node.params.maxRetries := le_antisymm few gone.2
  rw [told,same]
  apply Story.failed _ _ _ _ (attempts ▸ all) spaced
  rw [← all,← deadline]
  exact gone.1

theorem not_both (node : Node) (now : ℚ) (entry : Pending) (gone : spent node now entry = true) :
    due node now entry = false := by
  rw [spent,Bool.and_eq_true,decide_eq_true_iff,decide_eq_true_iff] at gone
  simp [due,gone.2]

theorem Paced.tick (node : Node) (env : Env) (l : Ledger) (t : Timeline) (paced : Paced node l.session t) :
    Paced node (l.session.tick node env) (note node l t ⟨env,.call .tick⟩) where
  sound := Session.tick_sound node env l.session paced.sound
  unborn := by
    intro future early
    rw [tick_futures] at early
    rw [tick_nobody node env l t future,paced.unborn future early]
    intro seq entry found same
    obtain ⟨send,inside,mine,_⟩ := paced.sound.pending seq entry found
    have born := (paced.sound.sends send inside).2.1
    omega
  running := by
    intro seq entry found
    rw [tick_pending] at found
    cases held : l.session.pending.get? seq with
    | none => simp [held] at found
    | some old =>
      have told := tick_story node env l t seq old paced.sound held
      rw [held] at found
      change renewed node env.clock old = some entry at found
      by_cases gone : spent node env.clock old = true
      · simp [renewed,gone] at found
      · by_cases again : due node env.clock old = true
        · rw [if_neg gone,if_pos again] at told
          simp only [renewed,if_neg gone,if_pos again,Option.some.injEq] at found
          exact found ▸ (paced.running seq old held).again node old t _ env.clock again told
        · rw [if_neg gone,if_neg again] at told
          simp only [renewed,if_neg gone,if_neg again,Option.some.injEq] at found
          exact found ▸ (paced.running seq old held).congr node old t _ told
  stories := by
    intro future
    by_cases mine : ∃ seq entry, l.session.pending.get? seq = some entry ∧ entry.future = future
    · obtain ⟨seq,entry,found,rfl⟩ := mine
      have told := tick_story node env l t seq entry paced.sound found
      have running := paced.running seq entry found
      by_cases gone : spent node env.clock entry = true
      · have once := not_both node env.clock entry gone
        rw [if_pos gone,if_neg (by simp [once])] at told
        exact running.failed node entry t _ env.clock gone told
      · by_cases again : due node env.clock entry = true
        · rw [if_neg gone,if_pos again] at told
          exact (running.again node entry t _ env.clock again told).story
        · rw [if_neg gone,if_neg again] at told
          exact (running.congr node entry t _ told).story
    · rw [tick_nobody node env l t future]
      · exact paced.stories future
      · exact fun seq entry found same => mine ⟨seq,entry,found,same⟩
  outcomes := outcomes_note node l t ⟨env,.call .tick⟩ _ (tick_resolved node env l.session) paced.outcomes

/-- The GRANT frames that the link took, newest first. -/
def grants (s : Session) : List Packet := (s.transmitted.map Prod.fst).filter isGrant

/-- Of the packets offered, newest first, the link took some and raised at the rest. -/
def Offers (packets : List Packet) (s after : Session) : Prop :=
  ∃ took : List Packet, took.Sublist packets ∧ grants after = took ++ grants s ∧
    packets.length + s.counters.txLinkErrors ≤ took.length + after.counters.txLinkErrors

theorem Offers.trans (first second : List Packet) (s mid after : Session) (before : Offers first s mid)
    (later : Offers second mid after) : Offers (second ++ first) s after := by
  obtain ⟨took,part,shown,counted⟩ := before
  obtain ⟨taken,share,read,number⟩ := later
  refine ⟨taken ++ took,share.append part,by rw [read,shown,List.append_assoc],?_⟩
  rw [List.length_append,List.length_append]
  omega

theorem Offers.same (s after : Session) (transmitted : after.transmitted = s.transmitted)
    (errors : after.counters.txLinkErrors = s.counters.txLinkErrors) : Offers [] s after :=
  ⟨[],List.Sublist.refl _,by rw [grants,transmitted]; rfl,by rw [errors]⟩

theorem carries_isGrant (packet : Packet) (message : Message) (carries : Carries packet message) :
    isGrant packet = decide (message.type = .grant) := by
  obtain ⟨budget,ok⟩ := carries
  rw [isGrant,decode_encode message budget packet ok,checkTarget]
  cases message with
  | grant m => rfl
  | _ =>
    split
    · rename_i read
      split at read
      · cases read
        rfl
      · split at read <;> cases read
        rfl
    · rfl

theorem transmit_offers (env : Env) (payload : Packet) (priority : Int) (s : Session) (ack : Bool) :
    Offers (if isGrant payload then [payload] else []) s (s.transmit env payload priority ack).2 := by
  have sent : ∀ mid : Session, mid.transmitted = s.transmitted → mid.counters.txLinkErrors = s.counters.txLinkErrors →
      Offers (if isGrant payload then [payload] else []) s (mid.sendFrame env payload priority).2 := by
    intro mid transmitted errors
    by_cases took : env.accepts (mid.transmitted.length + mid.counters.txLinkErrors) = true
    · rw [Session.sendFrame,if_pos took]
      refine ⟨if isGrant payload then [payload] else [],List.Sublist.refl _,?_,by simp only [errors]; omega⟩
      simp only [grants,transmitted,List.map_cons,List.filter_cons]
      split <;> rfl
    · rw [Session.sendFrame,if_neg took]
      refine ⟨[],List.nil_sublist _,by simp only [grants,Session.count,transmitted]; rfl,?_⟩
      simp only [Session.count,errors]
      split
      · rw [List.length_singleton,List.length_nil]
        omega
      · omega
  unfold Session.transmit
  cases ack with
  | false => exact sent s rfl rfl
  | true => exact sent _ rfl rfl

theorem transmit_carried (env : Env) (payload : Packet) (priority : Int) (s : Session) (ack : Bool) (message : Message)
    (carries : Carries payload message) (other : message.type ≠ .grant) :
    Offers [] s (s.transmit env payload priority ack).2 := by
  have offers := transmit_offers env payload priority s ack
  rw [carries_isGrant payload message carries,if_neg (by simpa using other)] at offers
  exact offers

namespace Session

theorem accept_offers (env : Env) (message : Message) (s : Session) : Offers [] s (s.accept env message) := by
  unfold accept
  simp only
  split
  · split <;> exact .same _ _ rfl rfl
  · exact .same _ _ rfl rfl

theorem onAck_offers (node : Node) (ack : Ack) (s : Session) : Offers [] s (s.onAck node ack) := by
  unfold onAck matchAck
  by_cases ours : ack.ackSrc = node.id
  · cases found : s.pending.get? ack.ackSeq with
    | none =>
      simp only [count,ours,found,ne_eq,not_true_eq_false,if_false]
      exact .same _ _ rfl rfl
    | some entry =>
      by_cases addressee : ack.src = entry.dst
      · simp only [count,ours,found,addressee,ne_eq,not_true_eq_false,if_false]
        exact .same _ _ rfl rfl
      · simp only [count,ours,found,addressee,ne_eq,not_true_eq_false,not_false_eq_true,if_false,if_true]
        exact .same _ _ rfl rfl
  · simp only [count,ours,ne_eq,not_false_eq_true,if_true]
    exact .same _ _ rfl rfl

theorem onData_offers (node : Node) (env : Env) (message : Message) (s : Session) :
    Offers [] s (s.onData node env message).state := by
  unfold onData
  split
  · simp only
    split
    · exact .same _ _ rfl rfl
    · rename_i payload ok
      have stamped : Offers [] s (s.stamp node (.ack ⟨0,0,message.src,message.seq⟩)).2 := .same _ _ rfl rfl
      have accepted := accept_offers env message (s.stamp node (.ack ⟨0,0,message.src,message.seq⟩)).2
      have acked := transmit_carried env payload urgent ((s.stamp node (.ack ⟨0,0,message.src,message.seq⟩)).2.accept
        env message) true _ ⟨_,ok⟩ (by simp [stamp_fst,Message.stamped,Message.type])
      exact (stamped.trans _ _ _ _ _ accepted).trans _ _ _ _ _ acked
  · exact accept_offers env message s

theorem onFrame_offers (node : Node) (env : Env) (payload : Packet) (s : Session) :
    Offers [] s (s.onFrame node env payload).state := by
  have counted : Offers [] s (s.count (fun c => { c with rxFrames := c.rxFrames + 1 })) := .same _ _ rfl rfl
  unfold onFrame
  simp only
  split
  · exact .same _ _ rfl rfl
  · exact .same _ _ rfl rfl
  · exact .same _ _ rfl rfl
  · exact counted.trans _ _ _ _ _ (onAck_offers node _ _)
  · split
    · exact .same _ _ rfl rfl
    · exact counted.trans _ _ _ _ _ (onData_offers node env _ _)

theorem sendBroadcast_offers (node : Node) (env : Env) (message : Message) (s : Session) :
    Offers [] s (s.sendBroadcast node env message).2 := by
  unfold sendBroadcast
  split
  · exact .same _ _ rfl rfl
  split
  · exact .same _ _ rfl rfl
  rename_i single
  simp only
  split
  · exact .same _ _ rfl rfl
  · rename_i payload ok
    have stamped : Offers [] s ((s.stamp node message).2.count (fun c => { c with txBroadcast := c.txBroadcast + 1 })) :=
      .same _ _ rfl rfl
    refine stamped.trans _ _ _ _ _ (transmit_carried env payload _ _ false _ ⟨_,ok⟩ ?_)
    intro grant
    apply single
    cases message <;> simp_all [isUnicast,stamp_fst,Message.stamped,Message.type]

theorem sendFragments_offers (node : Node) (env : Env) (fragments : List Freeform) (s : Session) :
    Offers [] s (s.sendFragments node env fragments).2 := by
  induction fragments generalizing s with
  | nil => exact .same _ _ rfl rfl
  | cons fragment rest ih =>
    have first := sendBroadcast_offers node env (.freeform fragment) s
    unfold sendFragments
    split
    · rename_i sent
      rw [sent] at first
      exact first.trans _ _ _ _ _ (ih _)
    · rename_i sent
      rw [sent] at first
      exact first

theorem sendNote_offers (node : Node) (env : Env) (taskId : Int) (text : String) (noteId : Option Int) (s : Session) :
    Offers [] s (s.sendNote node env taskId text noteId).2 := by
  unfold sendNote
  split
  · exact .same _ _ rfl rfl
  · rename_i fragments _
    have sent := sendFragments_offers node env fragments s
    split
    · rename_i ran
      rw [ran] at sent
      exact sent
    · rename_i ran
      rw [ran] at sent
      exact sent

theorem resend_offers (env : Env) (packets : List (Packet × Int)) (s : Session)
    (all : ∀ packet ∈ packets, isGrant packet.1 = true) :
    Offers (packets.map Prod.fst).reverse s
      (packets.foldl (fun s packet => (s.transmit env packet.1 packet.2).2) s) := by
  induction packets generalizing s with
  | nil => exact .same _ _ rfl rfl
  | cons packet packets ih =>
    have first := transmit_offers env packet.1 packet.2 s false
    rw [if_pos (all packet (by simp))] at first
    rw [List.map_cons,List.reverse_cons]
    exact first.trans _ _ _ _ _ (ih _ (fun other member => all other (List.mem_cons_of_mem _ member)))

theorem tick_offers (node : Node) (env : Env) (s : Session) (sound : Sound node s) :
    Offers ((among (due node env.clock) s.pending.keys s.pending).map Pending.payload).reverse s (s.tick node env) := by
  have swept := sweep_swept node env.clock s.pending.keys s.pending.distinct { session := s }
  unfold tick
  generalize s.pending.keys.foldl (sweepOne node env.clock) { session := s } = sweep at swept ⊢
  simp only [finish_all]
  have packets : sweep.retransmit.map Prod.fst =
      (among (due node env.clock) s.pending.keys s.pending).map Pending.payload := by
    rw [swept.retransmit,List.nil_append,List.map_map]
    rfl
  have all : ∀ packet ∈ sweep.retransmit, isGrant packet.1 = true := by
    intro packet member
    rw [swept.retransmit,List.nil_append] at member
    obtain ⟨entry,inside,rfl⟩ := List.mem_map.mp member
    obtain ⟨seq,_,held⟩ := List.mem_filterMap.mp inside
    obtain ⟨send,known,_,_,_,carries⟩ := sound.pending seq entry (Option.filter_eq_some_iff.mp held).1
    obtain ⟨_,_,grant,kind,_⟩ := sound.sends send known
    rw [carries_isGrant _ _ carries,kind]
    rfl
  let pruned : Session := { sweep.session with
    dedup := sweep.session.dedup.prune env.clock, notes := sweep.session.notes.prune env.clock }
  have start : Offers [] s pruned := .same _ _ swept.transmitted swept.errors
  have resent := resend_offers env sweep.retransmit pruned all
  rw [packets] at resent
  have both := start.trans _ _ _ _ _ resent
  rw [List.append_nil] at both
  exact both

end Session

namespace Session

theorem transmit_futures (env : Env) (payload : Packet) (priority : Int) (s : Session) (ack : Bool) :
    (s.transmit env payload priority ack).2.futures = s.futures := by
  obtain ⟨counters,same | sent⟩ := transmit_cases env payload priority s ack
  · rw [same]
  · rw [sent]

theorem accept_futures (env : Env) (message : Message) (s : Session) : (s.accept env message).futures = s.futures := by
  obtain ⟨notes,counters,deliveredNotes,shape⟩ := accept_cases env message s
  rw [shape]

theorem sendBroadcast_futures (node : Node) (env : Env) (message : Message) (s : Session) :
    (s.sendBroadcast node env message).2.futures = s.futures := by
  unfold sendBroadcast
  split
  · rfl
  split
  · rfl
  simp only
  split
  · rfl
  · exact transmit_futures _ _ _ _ _

theorem sendFragments_futures (node : Node) (env : Env) (fragments : List Freeform) (s : Session) :
    (s.sendFragments node env fragments).2.futures = s.futures := by
  induction fragments generalizing s with
  | nil => rfl
  | cons fragment rest ih =>
    have first := sendBroadcast_futures node env (.freeform fragment) s
    unfold sendFragments
    split
    · rename_i sent
      rw [sent] at first
      exact (ih _).trans first
    · rename_i sent
      rw [sent] at first
      exact first

theorem sendNote_futures (node : Node) (env : Env) (taskId : Int) (text : String) (noteId : Option Int) (s : Session) :
    (s.sendNote node env taskId text noteId).2.futures = s.futures := by
  unfold sendNote
  split
  · rfl
  · rename_i fragments _
    have sent := sendFragments_futures node env fragments s
    split
    · rename_i ran
      rw [ran] at sent
      exact sent
    · rename_i ran
      rw [ran] at sent
      exact sent

/-- A frame settles nothing, or it settles the send it acknowledges. -/
theorem onFrame_settles (node : Node) (env : Env) (payload : Packet) (s : Session) :
    (s.onFrame node env payload).state.futures = s.futures ∧
      ((s.onFrame node env payload).state.pending = s.pending ∧
          (s.onFrame node env payload).state.resolved = s.resolved ∨
        ∃ seq entry, s.pending.get? seq = some entry ∧
          (s.onFrame node env payload).state.pending = s.pending.pop seq ∧
          (s.onFrame node env payload).state.resolved = (entry.future,.delivered) :: s.resolved) := by
  have received := onFrame_received node env payload s
  generalize (s.onFrame node env payload).state = after at received ⊢
  cases received with
  | counted counters => exact ⟨rfl,.inl ⟨rfl,rfl⟩⟩
  | confirmed ack counters entry _ _ found _ => exact ⟨rfl,.inr ⟨ack.ackSeq,entry,found,rfl,rfl⟩⟩
  | heard message counters =>
    have same := accept_unbooked env message { s with counters := counters }
    exact ⟨accept_futures env message _,.inl ⟨same.pending,same.resolved⟩⟩
  | unackable message counters => exact ⟨rfl,.inl ⟨rfl,rfl⟩⟩
  | acked message counters packet =>
    have same := (accept_unbooked env message (ackFor node message { s with counters := counters }).2).trans
      (transmit_unbooked env packet urgent _ true)
    refine ⟨?_,.inl ⟨same.pending,same.resolved⟩⟩
    rw [transmit_futures,accept_futures]
    rfl

/-- The send was taken into the table, and handed to the link once. -/
structure TakenOn (node : Node) (env : Env) (message : Message) (s after : Session) (packet : Packet) (entry : Pending) :
    Prop where
  encoded : encode (s.stamp node message).1 node.params.maxPayloadBytes = .ok packet
  future : entry.future = s.futures
  payload : entry.payload = packet
  attempts : entry.attempts = 0
  deadline : entry.deadline = env.clock + node.params.retransmitTimeoutSec
  pending : after.pending = s.pending.set s.nextSeq entry
  resolved : after.resolved = s.resolved
  futures : after.futures = s.futures + 1
  offers : Offers [packet] s after

/-- What becomes of a reliable send: the call raises, the table is full, or it is taken on. -/
inductive Sends (node : Node) (env : Env) (message : Message) (s : Session) :
    Except ReliabilityError Nat → Session → Prop
  | raised (error : ReliabilityError) (after : Session) (pending : after.pending = s.pending)
      (resolved : after.resolved = s.resolved) (more : s.futures ≤ after.futures) (offers : Offers [] s after) :
      Sends node env message s (.error error) after
  | rejected (after : Session) (full : node.params.maxPending ≤ (s.pending.size : Int))
      (pending : after.pending = s.pending) (resolved : after.resolved = (s.futures,.failed) :: s.resolved)
      (futures : after.futures = s.futures + 1) (offers : Offers [] s after) :
      Sends node env message s (.ok s.futures) after
  | taken (after : Session) (packet : Packet) (entry : Pending)
      (room : ¬node.params.maxPending ≤ (s.pending.size : Int))
      (on : TakenOn node env message s after packet entry) : Sends node env message s (.ok s.futures) after

theorem sendReliable_sends (node : Node) (env : Env) (dst : Int) (message : Message) (s : Session) :
    Sends node env message s (s.sendReliable node env dst message).1 (s.sendReliable node env dst message).2 := by
  unfold sendReliable
  split
  · exact .raised _ _ rfl rfl (le_refl _) (.same _ _ rfl rfl)
  split
  · exact .raised _ _ rfl rfl (le_refl _) (.same _ _ rfl rfl)
  split
  · exact .raised _ _ rfl rfl (le_refl _) (.same _ _ rfl rfl)
  split
  · exact .raised _ _ rfl rfl (le_refl _) (.same _ _ rfl rfl)
  rename_i reliable _ _
  simp only
  split
  · rename_i full
    exact .rejected _ full rfl rfl rfl (.same _ _ rfl rfl)
  rename_i room
  split
  · exact .raised _ _ rfl rfl (Nat.le_succ _) (.same _ _ rfl rfl)
  · rename_i payload ok
    obtain ⟨grant,rfl⟩ := isReliable_grant message (by simpa using reliable)
    let sent := (Message.grant grant).stamped node.id s.nextSeq
    let entry : Pending :=
      { seq := sent.seq, dst := dst, payload := payload, future := s.futures
        deadline := env.clock + node.params.retransmitTimeoutSec
        kind := sent.type, priority := priorityOf sent }
    let mid : Session := { s with
      nextSeq := (s.nextSeq + 1) % (seqMax + 1)
      stamped := sent :: s.stamped
      futures := s.futures + 1
      pending := s.pending.set sent.seq entry
      sends := ⟨s.futures,dst,sent⟩ :: s.sends
      counters := { s.counters with txReliable := s.counters.txReliable + 1 } }
    have same := transmit_unbooked env payload (priorityOf sent) mid false
    have offers := transmit_offers env payload (priorityOf sent) mid false
    rw [carries_isGrant payload _ ⟨_,ok⟩,if_pos (by rfl)] at offers
    have start : Offers [] s mid := .same _ _ rfl rfl
    refine .taken _ payload entry room ⟨ok,rfl,rfl,rfl,rfl,?_,same.resolved,transmit_futures env payload _ mid false,
      start.trans _ _ _ _ _ offers⟩
    refine same.pending.trans ?_
    simp only [mid,sent,Message.stamped_seq]

end Session

theorem Paced.onFrame (node : Node) (env : Env) (payload : Packet) (l : Ledger) (t : Timeline)
    (paced : Paced node l.session t) :
    Paced node (l.session.onFrame node env payload).state (note node l t ⟨env,.call (.onFrame payload)⟩) := by
  have sound := Session.onFrame_sound node env payload l.session paced.sound
  obtain ⟨futures,⟨pending,resolved⟩ | ⟨seq,entry,found,pending,resolved⟩⟩ :=
    Session.onFrame_settles node env payload l.session
  · have same : note node l t ⟨env,.call (.onFrame payload)⟩ = t := note_quiet node l t _ rfl resolved
    rw [same]
    exact paced.quiet node l.session _ t sound pending resolved (le_of_eq futures.symm)
  · have settled : settles l.session (Ledger.next node l ⟨env,.call (.onFrame payload)⟩).session =
        [(entry.future,.delivered)] := settles_eq _ _ _ resolved
    have told : ∀ future, story future (note node l t ⟨env,.call (.onFrame payload)⟩) =
        if future = entry.future then .settled future .delivered env.clock :: story future t else story future t := by
      intro future
      rw [story_note,settled]
      by_cases mine : future = entry.future
      · simp [hands,mine]
      · simp [hands,mine,Ne.symm mine]
    constructor
    · exact sound
    · intro future early
      rw [futures] at early
      obtain ⟨send,inside,mine,_⟩ := paced.sound.pending seq entry found
      have born := (paced.sound.sends send inside).2.1
      rw [told,if_neg (by omega)]
      exact paced.unborn future early
    · intro other rival held
      rw [pending] at held
      obtain ⟨apart,held⟩ := Dict.get?_pop_cases held
      apply (paced.running other rival held).congr node rival t
      rw [told,if_neg]
      exact fun same => apart (paced.sound.apart other seq rival entry held found same)
    · intro future
      rw [told]
      split
      · rename_i mine
        obtain ⟨last,before,same,attempts,few,spaced,_⟩ := paced.running seq entry found
        rw [mine,same]
        exact .delivered _ _ _ _ (attempts ▸ few) spaced
      · exact paced.stories future
    · exact outcomes_note node l t _ [(entry.future,.delivered)] resolved paced.outcomes

theorem Paced.sendReliable (node : Node) (env : Env) (dst : Int) (message : Message) (l : Ledger) (t : Timeline)
    (paced : Paced node l.session t) :
    Paced node (l.session.sendReliable node env dst message).2 (note node l t ⟨env,.call (.sendReliable dst message)⟩) := by
  have sound := Session.sendReliable_sound node env dst message l.session paced.sound
  have spec := Session.sendReliable_sends node env dst message l.session
  have given : hands node l ⟨env,.call (.sendReliable dst message)⟩ =
      match (l.session.sendReliable node env dst message).1 with
      | .ok future =>
        if node.params.maxPending ≤ (l.session.pending.size : Int) then []
        else (encode (l.session.stamp node message).1 node.params.maxPayloadBytes).toOption.toList.map
          (fun packet => (future,packet))
      | .error _ => [] := rfl
  have next : (Ledger.next node l ⟨env,.call (.sendReliable dst message)⟩).session =
    (l.session.sendReliable node env dst message).2 := rfl
  generalize l.session.sendReliable node env dst message = result at spec sound given next ⊢
  obtain ⟨answer,after⟩ := result
  dsimp only at spec sound given next ⊢
  have fresh : story l.session.futures t = [] := paced.unborn _ (le_refl _)
  cases spec with
  | raised error _ pending resolved more offers =>
    have same : note node l t ⟨env,.call (.sendReliable dst message)⟩ = t :=
      note_quiet node l t _ given (next ▸ resolved)
    rw [same]
    exact paced.quiet node l.session _ t sound pending resolved more
  | rejected _ full pending resolved futures offers =>
    have settled := settles_eq l.session after [(l.session.futures,.failed)] resolved
    have told : ∀ future, story future (note node l t ⟨env,.call (.sendReliable dst message)⟩) =
        if future = l.session.futures then [.settled future .failed env.clock] else story future t := by
      intro future
      rw [story_note,given,next]
      simp only [if_pos full]
      rw [settled]
      by_cases mine : future = l.session.futures
      · simp [mine,fresh]
      · simp [mine,Ne.symm mine]
    constructor
    · exact sound
    · intro future early
      simp only [futures] at early
      rw [told,if_neg (by omega)]
      exact paced.unborn future (by omega)
    · intro seq entry found
      simp only [pending] at found
      apply (paced.running seq entry found).congr node entry t
      obtain ⟨send,inside,mine,_⟩ := paced.sound.pending seq entry found
      have born := (paced.sound.sends send inside).2.1
      rw [told,if_neg (by omega)]
    · intro future
      rw [told]
      split
      · exact .rejected _
      · exact paced.stories future
    · have kept := outcomes_note node l t ⟨env,.call (.sendReliable dst message)⟩ [(l.session.futures,.failed)]
        (by rw [next]; exact resolved) paced.outcomes
      rw [next] at kept
      exact kept
  | taken _ packet entry room on =>
    have settled := settles_eq l.session after [] on.resolved
    have told : ∀ future, story future (note node l t ⟨env,.call (.sendReliable dst message)⟩) =
        if future = l.session.futures then [.handed future packet env.clock] else story future t := by
      intro future
      rw [story_note,given,next]
      simp only [if_neg room,on.encoded]
      rw [settled]
      by_cases mine : future = l.session.futures
      · simp [mine,fresh,Except.toOption]
      · simp [mine,Ne.symm mine,Except.toOption]
    constructor
    · exact sound
    · intro future early
      simp only [on.futures] at early
      rw [told,if_neg (by omega)]
      exact paced.unborn future (by omega)
    · intro seq held found
      simp only [on.pending] at found
      obtain ⟨rfl,rfl⟩ | ⟨_,found⟩ := Dict.get?_set_cases found
      · refine ⟨env.clock,[],?_,on.attempts,?_,trivial,?_⟩
        · rw [told,on.future,if_pos rfl,on.payload]
          rfl
        · rw [on.attempts]
          exact node.params.retriesNonneg
        · rw [on.deadline,on.attempts,Session.interval]
          simp [node.params.ceilingAbove]
      · apply (paced.running seq held found).congr node held t
        obtain ⟨send,inside,mine,_⟩ := paced.sound.pending seq held found
        have born := (paced.sound.sends send inside).2.1
        rw [told,if_neg (by omega)]
    · intro future
      rw [told]
      split
      · have few : (([] : List ℚ).length : Int) ≤ node.params.maxRetries := node.params.retriesNonneg
        exact .sending packet env.clock [] few trivial
      · exact paced.stories future
    · have kept := outcomes_note node l t ⟨env,.call (.sendReliable dst message)⟩ []
        (by rw [next]; exact on.resolved) paced.outcomes
      rw [next] at kept
      exact kept

theorem note_paced (node : Node) (l : Ledger) (t : Timeline) (label : LedgerLabel) (paced : Paced node l.session t) :
    Paced node (Ledger.next node l label).session (note node l t label) := by
  obtain ⟨env,request⟩ := label
  cases request with
  | call call =>
    cases call with
    | sendReliable dst message => exact paced.sendReliable node env dst message l t
    | sendBroadcast message =>
      have same := Session.sendBroadcast_unbooked node env message l.session
      have still : note node l t ⟨env,.call (.sendBroadcast message)⟩ = t := note_quiet node l t _ rfl same.resolved
      rw [still]
      exact paced.quiet node l.session _ t (Session.sendBroadcast_sound node env message l.session paced.sound)
        same.pending same.resolved (le_of_eq (Session.sendBroadcast_futures node env message l.session).symm)
    | tick => exact paced.tick node env l t
    | onFrame payload => exact paced.onFrame node env payload l t
  | sendNote taskId text noteId =>
    have same := Session.sendNote_unbooked node env taskId text noteId l.session
    have still : note node l t ⟨env,.sendNote taskId text noteId⟩ = t := note_quiet node l t _ rfl same.resolved
    rw [still]
    exact paced.quiet node l.session _ t (Session.sendNote_sound node env taskId text noteId l.session paced.sound)
      same.pending same.resolved (le_of_eq (Session.sendNote_futures node env taskId text noteId l.session).symm)

/-- What was handed to the link for the reliable sends, newest first. -/
def packets (t : Timeline) : List Packet := t.filterMap Happening.packet?

theorem packets_note (node : Node) (l : Ledger) (t : Timeline) (label : LedgerLabel) :
    packets (note node l t label) = ((hands node l label).map Prod.snd).reverse ++ packets t := by
  have silent : ((settles l.session (Ledger.next node l label).session).map
      (fun r => Happening.settled r.1 r.2 label.env.clock)).filterMap Happening.packet? = [] := by
    rw [List.filterMap_eq_nil_iff]
    intro happening member
    obtain ⟨r,_,rfl⟩ := List.mem_map.mp member
    rfl
  have handed : ((hands node l label).map (fun h => Happening.handed h.1 h.2 label.env.clock)).filterMap
      Happening.packet? = (hands node l label).map Prod.snd := by
    rw [List.filterMap_map,← List.filterMap_eq_map]
    rfl
  rw [packets,note,List.filterMap_append,List.filterMap_append,silent,List.filterMap_reverse,handed,List.nil_append]
  rfl

theorem note_offers (node : Node) (l : Ledger) (label : LedgerLabel) (sound : Sound node l.session) :
    Offers ((hands node l label).map Prod.snd).reverse l.session (Ledger.next node l label).session := by
  obtain ⟨env,request⟩ := label
  cases request with
  | call call =>
    cases call with
    | sendReliable dst message =>
      have spec := Session.sendReliable_sends node env dst message l.session
      simp only [hands,Ledger.next]
      generalize l.session.sendReliable node env dst message = result at spec ⊢
      obtain ⟨answer,after⟩ := result
      dsimp only at spec
      cases spec with
      | raised error _ pending resolved more offers => exact offers
      | rejected _ full pending resolved futures offers =>
        simp only [if_pos full]
        exact offers
      | taken _ packet entry room on =>
        simp only [if_neg room,on.encoded]
        exact on.offers
    | sendBroadcast message => exact Session.sendBroadcast_offers node env message l.session
    | tick =>
      have offers := Session.tick_offers node env l.session sound
      have same : (hands node l ⟨env,.call .tick⟩).map Prod.snd =
          (among (due node env.clock) l.session.pending.keys l.session.pending).map Pending.payload := by
        simp only [hands,List.map_map]
        rfl
      rw [same]
      exact offers
    | onFrame payload => exact Session.onFrame_offers node env payload l.session
  | sendNote taskId text noteId => exact Session.sendNote_offers node env taskId text noteId l.session

theorem campaigns_paced (node : Node) (c : Ledger × Timeline) (reached : (campaigns node).Reachable c) :
    Paced node c.1.session c.2 ∧ Offers (packets c.2) (Session.init node) c.1.session := by
  apply reached.invariant (fun c => Paced node c.1.session c.2 ∧ Offers (packets c.2) (Session.init node) c.1.session)
  · intro c new
    obtain ⟨l,t⟩ := c
    obtain ⟨rfl,rfl⟩ : l = ⟨Session.init node,[]⟩ ∧ t = [] := new
    refine ⟨⟨Session.init_sound node,fun _ _ => rfl,?_,fun _ => .unsent,rfl⟩,.same _ _ rfl rfl⟩
    intro seq entry found
    cases found
  · intro c label _ before _ _
    refine ⟨note_paced node c.1 c.2 label before.1,?_⟩
    change Offers (packets (note node c.1 c.2 label)) _ _
    rw [packets_note]
    exact before.2.trans _ _ _ _ _ (note_offers node c.1 label before.1.sound)

/-- The timeline is what the link saw: it took these GRANTs in this order, and raised at the rest. -/
structure Seen (s : Session) (t : Timeline) : Prop where
  taken : (grants s).Sublist (packets t)
  raised : (packets t).length ≤ (grants s).length + s.counters.txLinkErrors
  settled : t.filterMap Happening.outcome? = s.resolved

/-- A send is handed over once, or the table is full and its future fails at once. -/
def HandedOnce (node : Node) (c : Ledger × Timeline) : Prop :=
  ∀ env dst message future, (c.1.session.sendReliable node env dst message).1 = .ok future →
    story future c.2 = [] ∧
      if node.params.maxPending ≤ (c.1.session.pending.size : Int) then
        story future ((campaigns node).next c ⟨env,.call (.sendReliable dst message)⟩).2 = [.settled future .failed env.clock]
      else ∃ packet,
        story future ((campaigns node).next c ⟨env,.call (.sendReliable dst message)⟩).2 = [.handed future packet env.clock]

theorem Paced.handedOnce (node : Node) (c : Ledger × Timeline) (paced : Paced node c.1.session c.2) :
    HandedOnce node c := by
  intro env dst message future answered
  have after := note_paced node c.1 c.2 ⟨env,.call (.sendReliable dst message)⟩ paced
  have spec := Session.sendReliable_sends node env dst message c.1.session
  have told := story_note node future c.1 c.2 ⟨env,.call (.sendReliable dst message)⟩
  simp only [hands,Ledger.next] at told
  change _ ∧ if _ then story future (note node c.1 c.2 _) = _ else ∃ packet, story future (note node c.1 c.2 _) = _
  generalize c.1.session.sendReliable node env dst message = result at spec answered told
  obtain ⟨answer,later⟩ := result
  dsimp only at spec answered told
  cases spec with
  | raised error _ pending resolved more offers => cases answered
  | rejected _ full pending resolved futures offers =>
    injection answered with mine
    have fresh : story future c.2 = [] := paced.unborn future (le_of_eq mine)
    rw [settles_eq c.1.session later [(c.1.session.futures,.failed)] resolved] at told
    refine ⟨fresh,?_⟩
    rw [if_pos full,told,fresh]
    simp [full,mine]
  | taken _ packet entry room on =>
    injection answered with mine
    have fresh : story future c.2 = [] := paced.unborn future (le_of_eq mine)
    rw [settles_eq c.1.session later [] on.resolved] at told
    refine ⟨fresh,?_⟩
    rw [if_neg room,told,fresh]
    exact ⟨packet,by simp [room,mine,on.encoded,Except.toOption]⟩

def unused (node : Node) : Ledger × Timeline := (⟨Session.init node,[]⟩,[])

theorem unused_initial (node : Node) : (campaigns node).initial (unused node) := ⟨rfl,rfl⟩

theorem one_retry : 0 ≤ (1 : Int) := by norm_num

theorem one_pending : 1 ≤ (1 : Int) := by norm_num

def hasty : Node := { Node.first with params := { ReliabilityParams.standard with maxRetries := 1, retriesNonneg := one_retry } }

/-- One retransmit, and then nothing: the first tick is too early, the second repeats and the last gives up. -/
def unanswered : List LedgerLabel :=
  [Ledger.granting,⟨{ clock := 2 },.call .tick⟩,⟨{ clock := 4 },.call .tick⟩,⟨{ clock := 9 },.call .tick⟩]

def cramped : Node := { Node.first with params := { ReliabilityParams.standard with maxPending := 1, somePending := one_pending } }

end AmigaFleet.Reliability
