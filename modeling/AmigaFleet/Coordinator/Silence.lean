import AmigaFleet.Coordinator.Turns

/-! One auction, seen by a bidder: from the first copy of its announcement, how
many Bids go out, and whether any goes out after the bid was suppressed or
withdrawn. -/
namespace AmigaFleet.Coordinator
open Lib AmigaFleet.Codec AmigaFleet.Reliability

def bidsOn (taskId : Int) (log : Log) : Nat := log.countP (Call.bidOn taskId)

/-- Suppression on a rival's Bid, or withdrawal, took our bid on the task away. -/
def Silences (taskId : Int) (op : Op) (s t : Session) : Bool :=
  match op with
  | .message (.bid _) => s.bids.contains taskId && !t.bids.contains taskId
  | .revise _ (some (.withdrawBid _)) => s.bids.contains taskId && !t.bids.contains taskId
  | _ => false

/-- Of the announcements of its task, the session hears only copies of this one. -/
def Copies (announce : TaskAnnounce) : Op → Prop
  | .message (.taskAnnounce m) => m.taskId = announce.taskId → { m with seq := announce.seq } = announce
  | _ => True

/-- A session during one auction: how many Bids on the task it had sent before,
and how many when its bid was first suppressed or withdrawn. -/
structure Watch where
  session : Session
  base : Nat
  silenced : Option Nat

namespace Watch
variable (cfg : Config) (announce : TaskAnnounce)

def machine : Machine Watch Label where
  initial w := (Coordinator.machine cfg).Reachable w.session ∧ w.silenced = none ∧
    w.base = bidsOn announce.taskId w.session.log
  enabled w label := (Coordinator.machine cfg).enabled w.session label ∧ Copies announce label.op
  next w label :=
    let after := (Coordinator.machine cfg).next w.session label
    { session := after
      base := w.base
      silenced := w.silenced.or (if Silences announce.taskId label.op w.session after then
        some (bidsOn announce.taskId after.log) else none) }

def Spoken (taskId : Int) (w : Watch) : Prop :=
  w.base < bidsOn taskId w.session.log ∨ w.silenced.isSome = true

/-- A copy of the announcement that arrives when the session has spoken is not
answered again: there still is a bid, or the task is its own, or it is not
capable, or asking its nodes raises. -/
def StaysShut (w : Watch) (label : Label) : Prop :=
  ∀ m, label.op = .message (.taskAnnounce m) → m.taskId = announce.taskId → m.src ≠ cfg.nodeId →
    w.Spoken announce.taskId → ¬ ∃ task fitness, Session.Answers cfg label.world m
      (w.session.say (.received (.taskAnnounce m) w.session.tasks)) task fitness

def Silent (taskId : Int) (w : Watch) : Prop :=
  bidsOn taskId w.session.log ≤ w.base + 1 ∧
    ∀ count, w.silenced = some count → bidsOn taskId w.session.log = count

/-- What carries `Silent` through the auction: who has spoken has no bid waiting. -/
structure Hushed (taskId : Int) (base : Nat) (silenced : Option Nat) (s : Session) : Prop where
  since : base ≤ bidsOn taskId s.log
  once : bidsOn taskId s.log ≤ base + 1
  still : ∀ count, silenced = some count → bidsOn taskId s.log = count
  spoken : base < bidsOn taskId s.log ∨ silenced.isSome = true →
    ∀ p, s.bids.get? taskId = some p → p.sentAt.isSome = true
  keyed : s.BidsKeyed

theorem bidsOn_quiet (taskId : Int) (added log : Log) (quiet : ∀ call ∈ added, call.bidOn taskId = false) :
    bidsOn taskId (added ++ log) = bidsOn taskId log := by
  have none : added.countP (Call.bidOn taskId) = 0 := by
    rw [List.countP_eq_zero]
    intro call member
    simp [quiet call member]
  rw [bidsOn,List.countP_append,none,Nat.zero_add]
  rfl

theorem hushed_fewer (taskId : Int) (base : Nat) (silenced : Option Nat) (s t : Session)
    (count : bidsOn taskId t.log = bidsOn taskId s.log)
    (fewer : ∀ id p, t.bids.get? id = some p → s.bids.get? id = some p)
    (before : Hushed taskId base silenced s) : Hushed taskId base silenced t where
  since := count ▸ before.since
  once := count ▸ before.once
  still := count ▸ before.still
  spoken spoken p found := before.spoken (count ▸ spoken) p (fewer taskId p found)
  keyed := Session.fewer_keyed s t fewer before.keyed

theorem hushed_set (taskId : Int) (base : Nat) (silenced : Option Nat) (s t : Session) (id : Int)
    (pending : PendingBid) (same : pending.taskId = id ∧ pending.task.taskId = id)
    (log : bidsOn taskId t.log = bidsOn taskId s.log)
    (bids : t.bids = s.bids.set id pending)
    (unspoken : id = taskId → ¬ (base < bidsOn taskId s.log ∨ silenced.isSome = true))
    (before : Hushed taskId base silenced s) : Hushed taskId base silenced t where
  since := log ▸ before.since
  once := log ▸ before.once
  still := log ▸ before.still
  spoken spoken p found := by
    rw [log] at spoken
    rw [bids] at found
    obtain ⟨rfl,_⟩ | ⟨_,found⟩ := Dict.get?_set_cases found
    · exact absurd spoken (unspoken rfl)
    · exact before.spoken spoken p found
  keyed := Session.set_keyed s t id pending same bids before.keyed

theorem turn_hushed (taskId : Int) (base : Nat) (silenced : Option Nat) (op : Op) (s t : Session)
    (turn : Session.Turn op s t) (before : Hushed taskId base silenced s) : Hushed taskId base silenced t := by
  have unspoken : ∀ id p, s.bids.get? id = some p → p.sentAt = none → id = taskId →
      ¬ (base < bidsOn taskId s.log ∨ silenced.isSome = true) := by
    intro id p found waits here spoken
    have sent := before.spoken spoken p (here ▸ found)
    rw [waits] at sent
    cases sent
  cases turn with
  | beside t beside =>
    obtain ⟨added,grown,quiet⟩ := beside.log
    refine hushed_fewer taskId base silenced s t ?_ (fun id p found => beside.bids ▸ found) before
    rw [grown]
    exact bidsOn_quiet taskId added s.log (fun call member => bidOn_owner taskId call (quiet call member))
  | heard message same other =>
    exact hushed_fewer taskId base silenced s _ (bidsOn_quiet taskId [_] s.log (by simp [Call.bidOn]))
      (fun _ _ found => found) before
  | granted grant same =>
    exact hushed_fewer taskId base silenced s _ (bidsOn_quiet taskId [_] s.log (by simp [Call.bidOn]))
      (Session.pop_fewer s grant.taskId) before
  | dropped id pending found waits =>
    exact hushed_fewer taskId base silenced s _ rfl (Session.pop_fewer s id) before
  | revised id pending after found waits same =>
    refine hushed_set taskId base silenced s _ id after ?_ rfl rfl (unspoken id pending found waits) before
    rw [same]
    exact before.keyed id pending found
  | sent id pending now found waits =>
    have keyed := before.keyed id pending found
    by_cases here : id = taskId
    · have quiet := unspoken id pending found waits here
      simp only [not_or,not_lt,Bool.not_eq_true,Option.isSome_eq_false_iff,Option.isNone_iff_eq_none] at quiet
      have count : bidsOn taskId (.broadcast (.bid pending.wire) true :: s.log) =
          bidsOn taskId s.log + 1 := by
        have about : pending.wire.taskId = taskId := keyed.1.trans here
        simp [bidsOn,Call.bidOn,about]
      refine ⟨?_,?_,?_,?_,?_⟩
      · exact (before.since.trans (Nat.le_succ _)).trans (Nat.le_of_eq count.symm)
      · exact (Nat.le_of_eq count).trans (Nat.succ_le_succ quiet.1)
      · intro n same
        rw [quiet.2] at same
        cases same
      · intro _ p found
        rw [Dict.get?_set,if_pos here.symm] at found
        injection found with found
        rw [← found]
        rfl
      · exact Session.set_keyed s _ id { pending with sentAt := some now } keyed rfl before.keyed
    · have away : pending.wire.taskId ≠ taskId := fun same => here (keyed.1.symm.trans same)
      refine hushed_set taskId base silenced s _ id { pending with sentAt := some now } keyed ?_ rfl
        (fun same => absurd same here) before
      exact bidsOn_quiet taskId [_] s.log (by simp [Call.bidOn,away])

theorem perform_hushed (w : Watch) (label : Label) (shut : StaysShut cfg announce w label)
    (before : Hushed announce.taskId w.base w.silenced w.session) :
    Hushed announce.taskId w.base w.silenced ((Coordinator.machine cfg).next w.session label) := by
  obtain ⟨world,op⟩ := label
  simp only [Coordinator.machine]
  by_cases isTick : op = .tick
  · obtain ⟨t,turns,same | same⟩ := Session.tick_turns cfg world w.session
    · rw [isTick,Session.perform,same]
      exact turns.keeps _ _ (turn_hushed _ _ _ .tick) _ t before
    · rw [isTick,Session.perform,same]
      exact hushed_fewer _ _ _ t _ rfl (Session.prune_fewer cfg _ t)
        (turns.keeps _ _ (turn_hushed _ _ _ .tick) _ t before)
  by_cases isAnnounce : ∃ m, op = .message (.taskAnnounce m)
  · obtain ⟨m,rfl⟩ := isAnnounce
    have heard := turn_hushed _ _ _ _ _ _
      (.heard w.session (.taskAnnounce m) rfl (by simp [Message.type])) before
    simp only [Session.perform,Session.onMessage]
    split
    · exact before
    · rename_i peer
      obtain ⟨same,_⟩ | ⟨task,fitness,answers,requests,note,same⟩ := Session.onAnnounce_cases cfg world m
        (world.clock w.session.log) (w.session.say (.received (.taskAnnounce m) w.session.tasks))
      · rw [Flow.state_handled,same]
        exact heard
      · rw [Flow.state_handled,same]
        refine hushed_set _ _ _ (w.session.say (.received (.taskAnnounce m) w.session.tasks)) _ m.taskId
          (Session.answer cfg world m task fitness note _ _)
          ⟨rfl,Session.announcedTask_taskId m task answers.announced⟩ rfl rfl ?_ heard
        intro here spoken
        refine shut m rfl here peer ?_ ⟨task,fitness,answers⟩
        rwa [show bidsOn announce.taskId (w.session.say (.received (.taskAnnounce m) w.session.tasks)).log =
          bidsOn announce.taskId w.session.log from bidsOn_quiet _ [_] _ (by simp [Call.bidOn])] at spoken
  · push Not at isAnnounce
    exact (Session.perform_turns cfg world op isTick isAnnounce w.session).keeps _ _ (turn_hushed _ _ _ op) _ _ before

theorem silences_absent (taskId : Int) (op : Op) (s t : Session) (silences : Silences taskId op s t = true) :
    t.bids.get? taskId = none := by
  unfold Silences at silences
  split at silences
  · simpa [Dict.contains] using (Bool.and_eq_true_iff.mp silences).2
  · simpa [Dict.contains] using (Bool.and_eq_true_iff.mp silences).2
  · cases silences

theorem next_hushed (w : Watch) (label : Label) (shut : StaysShut cfg announce w label)
    (before : Hushed announce.taskId w.base w.silenced w.session) :
    let after := (machine cfg announce).next w label
    Hushed announce.taskId after.base after.silenced after.session := by
  have performed := perform_hushed cfg announce w label shut before
  simp only [machine]
  generalize (Coordinator.machine cfg).next w.session label = t at performed ⊢
  cases already : w.silenced with
  | some count =>
    rw [already] at performed
    exact performed
  | none =>
    rw [already] at performed
    rw [Option.none_or]
    split
    · rename_i silences
      have absent := silences_absent announce.taskId label.op w.session t silences
      refine ⟨performed.since,performed.once,?_,?_,performed.keyed⟩
      · intro count same
        injection same
      · intro _ p found
        rw [absent] at found
        cases found
    · exact performed

/-- Within one auction: at most one Bid, and none after suppression or
withdrawal, as long as no copy of the announcement is answered once spoken. -/
theorem auction_silent (w : Watch)
    (reached : (machine cfg announce).Reaches (StaysShut cfg announce) w) : w.Silent announce.taskId := by
  have hushed : Hushed announce.taskId w.base w.silenced w.session := by
    refine reached.invariant (fun w => Hushed announce.taskId w.base w.silenced w.session) ?_ ?_ w
    · rintro w ⟨reachable,none,base⟩
      refine ⟨Nat.le_of_eq base,by omega,?_,?_,Session.reachable_keyed cfg w.session reachable⟩
      · intro count some
        rw [none] at some
        cases some
      · rintro (more | some)
        · exact absurd more (by omega)
        · rw [none] at some
          cases some
    · intro w label _ before _ shut
      exact next_hushed cfg announce w label shut before
  exact ⟨hushed.once,hushed.still⟩

def listener : Config := .second

def costly (now : ℚ) : World where
  clock := fun _ => now
  fitness := fun _ _ _ _ _ => some { feasible := true, cost := 200 }
  unit := World.still

def notice : TaskAnnounce := ⟨1,0,7,0,TargetKind.aisle.code,3,0,0,0⟩

def copyAt (now : ℚ) : Label := ⟨costly now,.message (.taskAnnounce notice)⟩

/-- Answered, transmitted, and the announcement heard again. -/
theorem auction_silent_sent :
    ((machine listener notice).runs ⟨{},0,none⟩ [copyAt 0,⟨costly 2,.tick⟩,copyAt 2]).Silent 7 := by
  refine auction_silent listener notice _ ?_
  have start : (machine listener notice).Reaches (StaysShut listener notice) ⟨{},0,none⟩ :=
    .start _ ⟨.start _ rfl,rfl,rfl⟩
  have answered := start.step _ (copyAt 0) ⟨trivial,fun _ => rfl⟩ (by
    intro m _ _ _ spoken
    exact absurd spoken (by unfold Spoken; decide))
  have sent := answered.step _ ⟨costly 2,.tick⟩ ⟨by exact trivial,by exact trivial⟩ (fun m same => nomatch same)
  refine sent.step _ (copyAt 2) ⟨trivial,fun _ => rfl⟩ ?_
  rintro m same about _ _ ⟨task,fitness,answers⟩
  have present : (((machine listener notice).runs ⟨{},0,none⟩ [copyAt 0,⟨costly 2,.tick⟩]).session.bids.get?
      7).isSome = true := by decide +kernel
  have absent : ((machine listener notice).runs ⟨{},0,none⟩ [copyAt 0,⟨costly 2,.tick⟩]).session.bids.get?
      7 = none := by
    have absent := answers.unanswered
    rw [about] at absent
    exact absent
  rw [absent] at present
  cases present

/-- Suppressed by a better rival, the bidder answers the next copy and transmits after all. -/
theorem suppressed_bid_sent : ∃ w : Watch, (machine listener notice).Reachable w ∧ ¬ w.Silent 7 := by
  refine ⟨(machine listener notice).runs ⟨{},0,none⟩ [copyAt 0,⟨costly 1,.message (.bid ⟨3,0,7,4,true,10⟩)⟩,
    copyAt 2,⟨costly 4,.tick⟩],?_,?_⟩
  · exact (machine listener notice).reaches_runs _ _ _ (.start _ ⟨.start _ rfl,rfl,rfl⟩)
      ⟨⟨trivial,fun _ => rfl⟩,trivial,⟨trivial,trivial⟩,trivial,⟨trivial,fun _ => rfl⟩,trivial,
        ⟨trivial,trivial⟩,trivial,trivial⟩
  · intro silent
    have heldBack : ((machine listener notice).runs ⟨{},0,none⟩ [copyAt 0,
      ⟨costly 1,.message (.bid ⟨3,0,7,4,true,10⟩)⟩,copyAt 2,⟨costly 4,.tick⟩]).silenced = some 0 := by
      decide +kernel
    have still := silent.2 0 heldBack
    revert still
    decide +kernel

end Watch
end AmigaFleet.Coordinator
