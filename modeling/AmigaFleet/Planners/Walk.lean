import AmigaFleet.Lib.Machine
import Mathlib.Algebra.Order.Field.Rat
import Mathlib.Data.List.Basic

/-! One MoveTo goal: the thread that executes it, the FollowPath goals it sends
and what the server makes of them. Every answer of the server may come late or
never; the waits of the thread are bounded. -/
namespace AmigaFleet.Planners
open Lib

inductive GoalStatus where
  | unknown
  | accepted
  | executing
  | canceling
  | succeeded
  | canceled
  | aborted
  deriving DecidableEq

/-- A FollowPath goal: what the server decided and whether the client knows, how
it ended and whether the client knows, and the cancel. -/
structure Remote where
  accepted : Option Bool := none
  answered : Bool := false
  ended : Option GoalStatus := none
  reported : Bool := false
  cancelSent : Bool := false
  cancelAcked : Bool := false
  deriving DecidableEq

inductive OwnState where
  | executing
  | canceling
  | succeeded
  | aborted
  | canceled
  deriving DecidableEq

inductive GoalEvent where
  | succeed
  | abort
  | canceled
  deriving DecidableEq

/-- The action state machine. A transition it has not raises. -/
def OwnState.after : OwnState → GoalEvent → Option OwnState
  | .executing,.succeed => some .succeeded
  | .executing,.abort => some .aborted
  | .canceling,.succeed => some .succeeded
  | .canceling,.abort => some .aborted
  | .canceling,.canceled => some .canceled
  | _,_ => none

/-- Why a walk was cancelled. -/
inductive Ending where
  | timeout
  | canceled
  | fired (trigger : String)
  deriving DecidableEq

/-- Where the thread stands: before its next read of a future, the clock or the goal. -/
inductive Stage where
  | start
  | sending (deadline : ℚ) (goal : Nat) (until_ : ℚ)
  | resting (deadline until_ : ℚ)
  | looping (goal : Nat) (walkStart : ℚ)
  | sleeping (goal : Nat) (walkStart until_ : ℚ)
  | timing (goal : Nat) (walkStart : ℚ)
  | listening (goal : Nat) (walkStart : ℚ)
  | checking (goal : Nat) (walkStart : ℚ)
  | awaitingCancel (goal : Nat) (until_ : ℚ) (ending : Ending)
  | awaitingResult (goal : Nat) (until_ : ℚ) (ending : Ending)
  | finishing (goal : Nat)
  | returned (reason : String) (status : Bool)
  | raised
  deriving DecidableEq

structure Walk where
  clock : ℚ
  stage : Stage := .start
  own : OwnState := .executing
  remotes : List Remote := []
  performed : List (OwnState × GoalEvent) := []
  fired : Option String := none
  deriving DecidableEq

/-- The goal and the node's parameters: whether the control points make a path,
the triggers that were understood, the poll period and the longest walk. -/
structure Request where
  pathBuilds : Bool := true
  triggers : List String := []
  triggerPollPeriodS : ℚ := 1/5
  maxWalkDurationS : ℚ := 120

/-- What the thread is told in a step: whether the server and the odometry are
there, and what the condition service answers to each trigger. -/
structure Observed where
  serverReady : Bool := true
  odomReady : Bool := true
  responses : String → Option Bool := fun _ => none

namespace Walk

def remote (w : Walk) (goal : Nat) : Remote := w.remotes[goal]?.getD {}

def change (w : Walk) (goal : Nat) (f : Remote → Remote) : Walk := { w with remotes := w.remotes.modify goal f }

/-- A transition of the own goal, and the return after it. -/
def terminate (event : GoalEvent) (reason : String) (status : Bool) (w : Walk) : Walk :=
  { w with
    performed := (w.own,event) :: w.performed
    own := (w.own.after event).getD w.own
    stage := if (w.own.after event).isSome then .returned reason status else .raised }

def send (deadline : ℚ) (w : Walk) : Walk :=
  { w with remotes := w.remotes ++ [{}], stage := .sending deadline w.remotes.length (w.clock + 30) }

def cancel (goal : Nat) (patience : ℚ) (ending : Ending) (w : Walk) : Walk :=
  { w.change goal (fun r => { r with cancelSent := true }) with
    stage := .awaitingCancel goal (w.clock + patience) ending }

def checkTriggers (request : Request) (observed : Observed) : Option String :=
  request.triggers.find? (fun trigger => observed.responses trigger = some true)

/-- One step of `_execute`. -/
def advance (request : Request) (observed : Observed) (w : Walk) : Walk :=
  match w.stage with
  | .start =>
    if !request.pathBuilds || !observed.serverReady || !observed.odomReady then w.terminate .abort "aborted" false
    else w.send (w.clock + 30)
  | .sending deadline goal _ =>
    -- An unanswered future has no result yet.
    if (w.remote goal).answered ∧ (w.remote goal).accepted = some true then { w with stage := .looping goal w.clock }
    else if deadline ≤ w.clock then w.terminate .abort "aborted" false
    else { w with stage := .resting deadline (w.clock + 1/2) }
  | .resting deadline _ => w.send deadline
  | .looping goal walkStart =>
    if (w.remote goal).reported then { w with stage := .finishing goal }
    else { w with stage := .sleeping goal walkStart (w.clock + request.triggerPollPeriodS) }
  | .sleeping goal walkStart _ =>
    if (w.remote goal).reported then { w with stage := .finishing goal }
    else { w with stage := .timing goal walkStart }
  | .timing goal walkStart =>
    if request.maxWalkDurationS < w.clock - walkStart then w.cancel goal 2 .timeout
    else { w with stage := .listening goal walkStart }
  | .listening goal walkStart =>
    if w.own = .canceling then w.cancel goal 2 .canceled
    else if request.triggers = [] then { w with stage := .looping goal walkStart }
    else { w with stage := .checking goal walkStart }
  | .checking goal walkStart =>
    match checkTriggers request observed with
    | none => { w with stage := .looping goal walkStart }
    | some trigger => { w with fired := some trigger }.cancel goal 5 (.fired trigger)
  | .awaitingCancel goal _ ending =>
    let patience := match ending with
      | .fired _ => 5
      | _ => 2
    { w with stage := .awaitingResult goal (w.clock + patience) ending }
  | .awaitingResult _ _ ending =>
    match ending with
    | .timeout => w.terminate .abort "timeout" false
    | .canceled => w.terminate .canceled "canceled" false
    | .fired trigger => w.terminate .succeed trigger false
  | .finishing goal =>
    match (w.remote goal).ended with
    | some .succeeded => w.terminate .succeed "completed" true
    | some .canceled => w.terminate .canceled "canceled" false
    | _ => w.terminate .abort "aborted" false
  | .returned _ _ | .raised => w

/-- A bounded wait is over when its future is done or its time is. -/
def ready (w : Walk) : Bool :=
  match w.stage with
  | .sending _ goal until_ => (w.remote goal).answered || decide (until_ ≤ w.clock)
  | .resting _ until_ | .sleeping _ _ until_ => decide (until_ ≤ w.clock)
  | .awaitingCancel goal until_ _ => (w.remote goal).cancelAcked || decide (until_ ≤ w.clock)
  | .awaitingResult goal until_ _ => (w.remote goal).reported || decide (until_ ≤ w.clock)
  | .returned _ _ | .raised => false
  | _ => true

end Walk

inductive Happening where
  | tick (now : ℚ)
  | decide (goal : Nat) (accepted : Bool)
  | answer (goal : Nat)
  | finish (goal : Nat) (status : GoalStatus)
  | report (goal : Nat)
  | ackCancel (goal : Nat)
  | requestCancel
  | thread (observed : Observed)

namespace Request
variable (request : Request)

def Possible (w : Walk) (event : Happening) : Prop :=
  match event with
  | .tick now => w.clock ≤ now
  | .decide goal _ => goal < w.remotes.length ∧ (w.remote goal).accepted = none
  | .answer goal => (w.remote goal).accepted.isSome = true
  | .finish goal _ => (w.remote goal).accepted = some true ∧ (w.remote goal).ended = none
  | .report goal => (w.remote goal).ended.isSome = true ∧ (w.remote goal).answered = true
  | .ackCancel goal => (w.remote goal).cancelSent = true
  | .requestCancel => w.own = .executing
  | .thread _ => w.ready = true

def next (w : Walk) (event : Happening) : Walk :=
  match event with
  | .tick now => { w with clock := now }
  | .decide goal accepted => w.change goal (fun r => { r with accepted := some accepted })
  | .answer goal => w.change goal (fun r => { r with answered := true })
  | .finish goal status => w.change goal (fun r => { r with ended := some status })
  | .report goal => w.change goal (fun r => { r with reported := true })
  | .ackCancel goal => w.change goal (fun r => { r with cancelAcked := true })
  | .requestCancel => { w with own := .canceling }
  | .thread observed => w.advance request observed

def machine : Machine Walk Happening where
  initial := fun w => w.stage = .start ∧ w.own = .executing ∧ w.remotes = [] ∧ w.performed = [] ∧ w.fired = none
  enabled := Possible
  next := next request

/-- A send is not given up unanswered, and a walk that ends canceled was canceled by us. -/
def Orderly (w : Walk) (event : Happening) : Prop :=
  match event with
  | .thread _ =>
    match w.stage with
    | .sending _ goal _ => (w.remote goal).answered = true
    | .finishing goal => (w.remote goal).ended = some .canceled → w.own = .canceling
    | _ => True
  | _ => True

end Request

/-- What is known of a goal is so. -/
def Remote.Sound (r : Remote) : Prop :=
  (r.answered = true → r.accepted.isSome = true) ∧ (r.reported = true → r.ended.isSome = true)

/-- What is decided stays, and so does a cancel. -/
structure Remote.Grows (r later : Remote) : Prop where
  accepted : ∀ yes, r.accepted = some yes → later.accepted = some yes
  ended : ∀ status, r.ended = some status → later.ended = some status
  cancelSent : r.cancelSent = true → later.cancelSent = true

theorem Remote.Grows.refl (r : Remote) : Remote.Grows r r := ⟨fun _ same => same,fun _ same => same,id⟩

namespace Walk

/-- No goal can still move the robot unless it was sent a cancel. -/
def Stopped (w : Walk) : Prop :=
  ∀ r ∈ w.remotes, r.accepted = some false ∨ r.ended.isSome = true ∨ r.cancelSent = true

/-- The own goal took one step to its end, one that the state machine has. -/
def Single (w : Walk) : Prop := ∃ state event, w.performed = [(state,event)] ∧ (state.after event).isSome = true

def Honest (w : Walk) : Prop :=
  ∀ reason, w.stage = .returned reason true → w.fired = none ∧ ∃ r ∈ w.remotes, r.ended = some .succeeded

/-- The walk is over. -/
def Over (w : Walk) : Prop := w.stage = .raised ∨ ∃ reason status, w.stage = .returned reason status

/-- All but one goal were rejected. -/
def Others (w : Walk) (goal : Nat) : Prop := ∀ i r, w.remotes[i]? = some r → i ≠ goal → r.accepted = some false

/-- The walk in question, and no other. -/
def Walking (w : Walk) (goal : Nat) : Prop := (w.remote goal).accepted = some true ∧ w.Others goal

def Cancelling (w : Walk) (goal : Nat) (ending : Ending) : Prop :=
  w.Walking goal ∧ (w.remote goal).cancelSent = true ∧ (ending = .canceled → w.own = .canceling)

/-- Not yet at its end. -/
def Open (w : Walk) : Prop := w.performed = [] ∧ (w.own = .executing ∨ w.own = .canceling)

/-- What holds where the thread stands. -/
def Holds (w : Walk) : Prop :=
  match w.stage with
  | .start => w.remotes = [] ∧ w.Open ∧ w.fired = none
  | .sending _ goal _ => w.Others goal ∧ w.Open ∧ w.fired = none
  | .resting _ _ => (∀ r ∈ w.remotes, r.accepted = some false) ∧ w.Open ∧ w.fired = none
  | .looping goal _ | .sleeping goal _ _ | .timing goal _ | .listening goal _ | .checking goal _ =>
    w.Walking goal ∧ w.Open ∧ w.fired = none
  | .awaitingCancel goal _ ending | .awaitingResult goal _ ending => w.Cancelling goal ending ∧ w.Open
  | .finishing goal => w.Walking goal ∧ (w.remote goal).ended.isSome = true ∧ w.Open ∧ w.fired = none
  | .returned _ _ => w.Stopped ∧ w.Single ∧ w.Honest ∧ w.own ≠ .executing
  | .raised => False

structure Kept (w : Walk) : Prop where
  sound : ∀ r ∈ w.remotes, r.Sound
  holds : w.Holds

/-- The thread stands where it stood, and its goals have grown. -/
structure Later (w after : Walk) : Prop where
  stage : after.stage = w.stage
  performed : after.performed = w.performed
  fired : after.fired = w.fired
  own : after.own = w.own ∨ w.own = .executing ∧ after.own = .canceling
  back : ∀ (goal : Nat) (r : Remote), after.remotes[goal]? = some r →
    ∃ old : Remote, w.remotes[goal]? = some old ∧ old.Grows r
  forth : ∀ (goal : Nat) (r : Remote), w.remotes[goal]? = some r →
    ∃ new : Remote, after.remotes[goal]? = some new ∧ r.Grows new

theorem remote_some (w : Walk) (goal : Nat) (r : Remote) (found : w.remotes[goal]? = some r) : w.remote goal = r := by
  rw [remote,found]
  rfl

/-- A goal of which something is known is among those sent. -/
theorem remote_sent (w : Walk) (goal : Nat) (known : w.remote goal ≠ {}) : w.remotes[goal]? = some (w.remote goal) := by
  cases found : w.remotes[goal]? with
  | none =>
    rw [remote,found] at known
    exact absurd rfl known
  | some r => rw [remote_some w goal r found]

theorem remote_mem (w : Walk) (goal : Nat) (known : w.remote goal ≠ {}) : w.remote goal ∈ w.remotes :=
  List.mem_of_getElem? (remote_sent w goal known)

theorem Later.same (w after : Walk) (stage : after.stage = w.stage) (performed : after.performed = w.performed)
    (fired : after.fired = w.fired) (own : after.own = w.own ∨ w.own = .executing ∧ after.own = .canceling)
    (remotes : after.remotes = w.remotes) : Later w after where
  stage := stage
  performed := performed
  fired := fired
  own := own
  back := fun _ r found => ⟨r,remotes ▸ found,.refl r⟩
  forth := fun _ r found => ⟨r,remotes ▸ found,.refl r⟩

theorem Later.change (w : Walk) (goal : Nat) (f : Remote → Remote) (grows : (w.remote goal).Grows (f (w.remote goal))) :
    Later w (w.change goal f) := by
  have each (i : Nat) (r : Remote) (found : w.remotes[i]? = some r) :
      r.Grows (if goal = i then f r else r) := by
    by_cases same : goal = i
    · rw [if_pos same]
      rw [same,remote_some w i r found] at grows
      exact grows
    · rw [if_neg same]
      exact .refl r
  refine ⟨rfl,rfl,rfl,.inl rfl,fun i r found => ?_,fun i r found => ?_⟩
  · simp only [Walk.change,List.getElem?_modify] at found
    obtain ⟨before,there,rfl⟩ := Option.map_eq_some_iff.mp found
    exact ⟨before,there,each i before there⟩
  · simp only [Walk.change,List.getElem?_modify,found]
    exact ⟨_,rfl,each i r found⟩

theorem Later.accepted {w after : Walk} (later : Later w after) (goal : Nat) (yes : Bool)
    (known : (w.remote goal).accepted = some yes) : (after.remote goal).accepted = some yes := by
  have sent := remote_sent w goal (by intro none_; rw [none_] at known; cases known)
  obtain ⟨r,found,grows⟩ := later.forth goal _ sent
  rw [remote_some after goal r found]
  exact grows.accepted yes known

theorem Later.cancelSent {w after : Walk} (later : Later w after) (goal : Nat)
    (sent_ : (w.remote goal).cancelSent = true) : (after.remote goal).cancelSent = true := by
  have sent := remote_sent w goal (by intro none_; rw [none_] at sent_; cases sent_)
  obtain ⟨r,found,grows⟩ := later.forth goal _ sent
  rw [remote_some after goal r found]
  exact grows.cancelSent sent_

theorem Later.ended {w after : Walk} (later : Later w after) (goal : Nat)
    (finished : (w.remote goal).ended.isSome = true) : (after.remote goal).ended.isSome = true := by
  have sent := remote_sent w goal (by intro none_; rw [none_] at finished; cases finished)
  obtain ⟨status,ended⟩ := Option.isSome_iff_exists.mp finished
  obtain ⟨r,found,grows⟩ := later.forth goal _ sent
  rw [remote_some after goal r found,grows.ended status ended]
  rfl

theorem Later.others {w after : Walk} (later : Later w after) (goal : Nat) (others : w.Others goal) : after.Others goal := by
  intro i r found different
  obtain ⟨before,there,grows⟩ := later.back i r found
  exact grows.accepted false (others i before there different)

theorem Later.walking {w after : Walk} (later : Later w after) (goal : Nat) (walking : w.Walking goal) : after.Walking goal :=
  ⟨later.accepted goal true walking.1,later.others goal walking.2⟩

theorem Later.open_ {w after : Walk} (later : Later w after) (still : w.Open) : after.Open := by
  constructor
  · rw [later.performed]
    exact still.1
  · rcases later.own with same | moved
    · rw [same]
      exact still.2
    · exact .inr moved.2

theorem Later.all {w after : Walk} (later : Later w after) (P : Remote → Prop)
    (grown : ∀ r later : Remote, r.Grows later → P r → P later) (all : ∀ r ∈ w.remotes, P r) : ∀ r ∈ after.remotes, P r := by
  intro r member
  obtain ⟨goal,found⟩ := List.mem_iff_getElem?.mp member
  obtain ⟨before,there,grows⟩ := later.back goal r found
  exact grown before r grows (all before (List.mem_of_getElem? there))

theorem Later.cancelling {w after : Walk} (later : Later w after) (goal : Nat) (ending : Ending)
    (cancelling : w.Cancelling goal ending) : after.Cancelling goal ending := by
  refine ⟨later.walking goal cancelling.1,later.cancelSent goal cancelling.2.1,fun ours => ?_⟩
  rcases later.own with same | moved
  · rw [same]
    exact cancelling.2.2 ours
  · exact moved.2

theorem Later.stopped {w after : Walk} (later : Later w after) (stopped : w.Stopped) : after.Stopped := by
  refine later.all _ (fun r new grows halted => ?_) stopped
  rcases halted with rejected | ended | sent
  · exact .inl (grows.accepted false rejected)
  · obtain ⟨status,ended⟩ := Option.isSome_iff_exists.mp ended
    rw [grows.ended status ended]
    exact .inr (.inl rfl)
  · exact .inr (.inr (grows.cancelSent sent))

theorem Later.honest {w after : Walk} (later : Later w after) (honest : w.Honest) : after.Honest := by
  intro reason returned
  rw [later.stage] at returned
  obtain ⟨silent,r,member,succeeded⟩ := honest reason returned
  obtain ⟨goal,found⟩ := List.mem_iff_getElem?.mp member
  obtain ⟨new,there,grows⟩ := later.forth goal r found
  exact ⟨later.fired.trans silent,new,List.mem_of_getElem? there,grows.ended _ succeeded⟩

/-- What the server and the caller do leaves the thread's facts standing. -/
theorem Later.holds {w after : Walk} (later : Later w after) (holds : w.Holds) : after.Holds := by
  have open_ := later.open_
  have walking := later.walking
  have cancelling := later.cancelling
  unfold Holds at holds ⊢
  rw [later.stage,later.fired]
  split at holds
  · obtain ⟨empty,still,silent⟩ := holds
    refine ⟨?_,open_ still,silent⟩
    apply List.eq_nil_iff_forall_not_mem.mpr
    intro r member
    obtain ⟨goal,found⟩ := List.mem_iff_getElem?.mp member
    obtain ⟨before,there,_⟩ := later.back goal r found
    rw [empty] at there
    cases there
  · exact ⟨later.others _ holds.1,open_ holds.2.1,holds.2.2⟩
  · exact ⟨later.all _ (fun r after grows => grows.accepted false) holds.1,open_ holds.2.1,holds.2.2⟩
  · exact ⟨walking _ holds.1,open_ holds.2.1,holds.2.2⟩
  · exact ⟨walking _ holds.1,open_ holds.2.1,holds.2.2⟩
  · exact ⟨walking _ holds.1,open_ holds.2.1,holds.2.2⟩
  · exact ⟨walking _ holds.1,open_ holds.2.1,holds.2.2⟩
  · exact ⟨walking _ holds.1,open_ holds.2.1,holds.2.2⟩
  · exact ⟨cancelling _ _ holds.1,open_ holds.2⟩
  · exact ⟨cancelling _ _ holds.1,open_ holds.2⟩
  · exact ⟨walking _ holds.1,later.ended _ holds.2.1,open_ holds.2.2.1,holds.2.2.2⟩
  · obtain ⟨stopped,single,honest,past⟩ := holds
    refine ⟨later.stopped stopped,?_,later.honest honest,?_⟩
    · rw [Single,later.performed]
      exact single
    · rcases later.own with same | moved
      · rw [same]
        exact past
      · exact absurd moved.1 past
  · exact holds

theorem Later.kept {w after : Walk} (later : Later w after) (sound : ∀ r ∈ after.remotes, r.Sound)
    (kept : w.Kept) : after.Kept := ⟨sound,later.holds kept.holds⟩

theorem sound_change (w : Walk) (goal : Nat) (f : Remote → Remote) (sound : ∀ r ∈ w.remotes, r.Sound)
    (changed : (w.remote goal).Sound → (f (w.remote goal)).Sound) : ∀ r ∈ (w.change goal f).remotes, r.Sound := by
  intro r member
  obtain ⟨i,found⟩ := List.mem_iff_getElem?.mp member
  simp only [change,List.getElem?_modify] at found
  obtain ⟨old,there,rfl⟩ := Option.map_eq_some_iff.mp found
  have known := sound old (List.mem_of_getElem? there)
  by_cases same : goal = i
  · rw [if_pos same]
    rw [same,remote_some w i old there] at changed
    exact changed known
  · rw [if_neg same]
    exact known

theorem change_kept (w : Walk) (goal : Nat) (f : Remote → Remote) (grows : (w.remote goal).Grows (f (w.remote goal)))
    (changed : (w.remote goal).Sound → (f (w.remote goal)).Sound) (kept : w.Kept) : (w.change goal f).Kept :=
  (Later.change w goal f grows).kept (sound_change w goal f kept.sound changed) kept

/-- A goal that walks, or that was cancelled, is the only one that could move the robot. -/
theorem stopped_of_others (w : Walk) (goal : Nat) (others : w.Others goal)
    (halted : (w.remote goal).accepted = some false ∨ (w.remote goal).ended.isSome = true ∨
      (w.remote goal).cancelSent = true) : w.Stopped := by
  intro r member
  obtain ⟨i,found⟩ := List.mem_iff_getElem?.mp member
  by_cases same : i = goal
  · rw [← same,remote_some w i r found] at halted
    exact halted
  · exact .inl (others i r found same)

theorem terminate_holds (w : Walk) (event : GoalEvent) (reason : String) (status : Bool) (stopped : w.Stopped)
    (still : w.Open) (allowed : (w.own.after event).isSome = true)
    (honest : status = true → w.fired = none ∧ ∃ r ∈ w.remotes, r.ended = some .succeeded) :
    (w.terminate event reason status).Holds := by
  obtain ⟨reached,moved⟩ := Option.isSome_iff_exists.mp allowed
  have stands : (w.terminate event reason status).stage = .returned reason status := by
    simp only [terminate,moved,Option.isSome_some,if_true]
  unfold Holds
  rw [stands]
  refine ⟨stopped,⟨w.own,event,?_,allowed⟩,?_,?_⟩
  · simp only [terminate,still.1]
  · intro other returned
    rw [stands] at returned
    cases returned
    exact honest rfl
  · simp only [terminate,moved,Option.getD_some]
    intro back
    rw [back] at moved
    cases own : w.own <;> cases event <;> rw [own] at moved <;> cases moved

theorem abort_allowed (w : Walk) (still : w.Open) : (w.own.after .abort).isSome = true := by
  rcases still.2 with own | own
  · rw [own]
    rfl
  · rw [own]
    rfl

theorem succeed_allowed (w : Walk) (still : w.Open) : (w.own.after .succeed).isSome = true := by
  rcases still.2 with own | own
  · rw [own]
    rfl
  · rw [own]
    rfl

theorem canceled_allowed (w : Walk) (ours : w.own = .canceling) : (w.own.after .canceled).isSome = true := by
  rw [ours]
  rfl

theorem abort_holds (w : Walk) (reason : String) (stopped : w.Stopped) (still : w.Open) :
    (w.terminate .abort reason false).Holds :=
  terminate_holds w .abort reason false stopped still (abort_allowed w still) (fun no => by cases no)

theorem send_holds (w : Walk) (deadline : ℚ) (rejected : ∀ r ∈ w.remotes, r.accepted = some false) (still : w.Open)
    (silent : w.fired = none) : (w.send deadline).Holds := by
  refine ⟨?_,still,silent⟩
  intro i r found different
  rw [send,List.getElem?_append] at found
  split at found
  · exact rejected r (List.mem_of_getElem? found)
  · rename_i past
    have beyond : i - w.remotes.length ≠ 0 := by omega
    obtain ⟨k,succ⟩ := Nat.exists_eq_succ_of_ne_zero beyond
    rw [succ] at found
    cases found

theorem cancel_holds (w : Walk) (goal : Nat) (patience : ℚ) (ending : Ending) (walking : w.Walking goal)
    (still : w.Open) (ours : ending = .canceled → w.own = .canceling) : (w.cancel goal patience ending).Holds := by
  have later : Later w (w.change goal (fun r => { r with cancelSent := true })) :=
    Later.change w goal _ ⟨fun _ same => same,fun _ same => same,fun _ => rfl⟩
  have sent := remote_sent w goal (by intro none_; rw [Walking,none_] at walking; cases walking.1)
  have there : (w.change goal (fun r => { r with cancelSent := true })).remotes[goal]? =
      some { w.remote goal with cancelSent := true } := by
    simp only [change,List.getElem?_modify,sent,if_true,Option.map_eq_map,Option.map_some]
  have known := remote_some _ goal _ there
  refine ⟨⟨later.walking goal walking,?_,ours⟩,still⟩
  exact congrArg Remote.cancelSent known

theorem remote_sound (w : Walk) (goal : Nat) (sound : ∀ r ∈ w.remotes, r.Sound) : (w.remote goal).Sound := by
  by_cases blank : w.remote goal = {}
  · rw [blank]
    exact ⟨(fun no => by cases no),(fun no => by cases no)⟩
  · exact sound _ (remote_mem w goal blank)

end Walk
namespace Request
variable (request : Request)
open Walk

/-- One step of the thread, where no send is given up and no strange end is taken for ours. -/
theorem advance_holds (observed : Observed) (w : Walk) (kept : w.Kept) (orderly : Orderly w (.thread observed)) :
    (w.advance request observed).Holds := by
  have holds := kept.holds
  unfold Holds at holds
  unfold Orderly at orderly
  unfold advance
  split at holds
  case h_1 =>
    obtain ⟨empty,still,silent⟩ := holds
    split
    · exact abort_holds w _ (fun r member => by rw [empty] at member; cases member) still
    · exact send_holds w _ (fun r member => by rw [empty] at member; cases member) still silent
  case h_2 deadline goal until_ stands =>
    simp only [stands] at orderly
    obtain ⟨others,still,silent⟩ := holds
    split
    · rename_i taken
      exact ⟨⟨taken.2,others⟩,still,silent⟩
    · rename_i refused
      obtain ⟨verdict,decided⟩ := Option.isSome_iff_exists.mp ((remote_sound w goal kept.sound).1 orderly)
      have rejected : (w.remote goal).accepted = some false := by
        cases verdict with
        | false => exact decided
        | true => exact absurd ⟨orderly,decided⟩ refused
      have stopped : ∀ r ∈ w.remotes, r.accepted = some false := by
        intro r member
        obtain ⟨i,found⟩ := List.mem_iff_getElem?.mp member
        by_cases same : i = goal
        · rw [← same,remote_some w i r found] at rejected
          exact rejected
        · exact others i r found same
      split
      · exact abort_holds w _ (fun r member => .inl (stopped r member)) still
      · exact ⟨stopped,still,silent⟩
  case h_3 =>
    exact send_holds w _ holds.1 holds.2.1 holds.2.2
  case h_4 goal _ _ =>
    split
    · rename_i over_
      exact ⟨holds.1,(remote_sound w goal kept.sound).2 over_,holds.2⟩
    · exact holds
  case h_5 goal _ _ _ =>
    split
    · rename_i over_
      exact ⟨holds.1,(remote_sound w goal kept.sound).2 over_,holds.2⟩
    · exact holds
  case h_6 goal _ _ =>
    split
    · exact cancel_holds w goal _ _ holds.1 holds.2.1 (fun no => by cases no)
    · exact holds
  case h_7 goal _ _ =>
    split
    · rename_i ours
      exact cancel_holds w goal _ _ holds.1 holds.2.1 (fun _ => ours)
    · split
      · exact holds
      · exact holds
  case h_8 goal _ _ =>
    split
    · exact holds
    · exact cancel_holds _ goal _ _ holds.1 holds.2.1 (fun no => by cases no)
  case h_9 =>
    exact holds
  case h_10 goal _ ending _ =>
    obtain ⟨cancelling,still⟩ := holds
    have stopped := stopped_of_others w goal cancelling.1.2 (.inr (.inr cancelling.2.1))
    cases ending with
    | timeout => exact abort_holds w _ stopped still
    | canceled =>
      exact terminate_holds w .canceled _ false stopped still (canceled_allowed w (cancelling.2.2 rfl)) (fun no => by cases no)
    | fired trigger =>
      exact terminate_holds w .succeed _ false stopped still (succeed_allowed w still) (fun no => by cases no)
  case h_11 goal stands =>
    simp only [stands] at orderly
    obtain ⟨walking,ended,still,silent⟩ := holds
    have stopped := stopped_of_others w goal walking.2 (.inr (.inl ended))
    have member := remote_mem w goal (by intro blank; rw [Walking,blank] at walking; cases walking.1)
    split
    · rename_i succeeded
      exact terminate_holds w .succeed _ true stopped still (succeed_allowed w still) (fun _ => ⟨silent,_,member,succeeded⟩)
    · rename_i strange
      exact terminate_holds w .canceled _ false stopped still (canceled_allowed w (orderly strange)) (fun no => by cases no)
    · exact abort_holds w _ stopped still
  case h_12 reason status stands =>
    unfold Holds
    rw [stands]
    exact holds
  case h_13 => exact holds.elim

/-- The thread sends a goal, cancels one or leaves them as they are. -/
theorem advance_remotes (observed : Observed) (w : Walk) :
    (w.advance request observed).remotes = w.remotes ∨
      (w.advance request observed).remotes = w.remotes ++ [({} : Remote)] ∨
      ∃ goal, (w.advance request observed).remotes = (w.change goal (fun r => { r with cancelSent := true })).remotes := by
  unfold advance
  split
  · split
    · exact .inl rfl
    · exact .inr (.inl rfl)
  · split
    · exact .inl rfl
    · split
      · exact .inl rfl
      · exact .inl rfl
  · exact .inr (.inl rfl)
  · split
    · exact .inl rfl
    · exact .inl rfl
  · split
    · exact .inl rfl
    · exact .inl rfl
  · split
    · exact .inr (.inr ⟨_,rfl⟩)
    · exact .inl rfl
  · split
    · exact .inr (.inr ⟨_,rfl⟩)
    · split
      · exact .inl rfl
      · exact .inl rfl
  · split
    · exact .inl rfl
    · exact .inr (.inr ⟨_,rfl⟩)
  · exact .inl rfl
  · split
    · exact .inl rfl
    · exact .inl rfl
    · exact .inl rfl
  · split
    · exact .inl rfl
    · exact .inl rfl
    · exact .inl rfl
  · exact .inl rfl
  · exact .inl rfl

theorem advance_sound (observed : Observed) (w : Walk) (sound : ∀ r ∈ w.remotes, r.Sound) :
    ∀ r ∈ (w.advance request observed).remotes, r.Sound := by
  rcases advance_remotes request observed w with same | sent | ⟨goal,cancelled⟩
  · rw [same]
    exact sound
  · rw [sent]
    intro r member
    rcases List.mem_append.mp member with old | new
    · exact sound r old
    · rw [List.mem_singleton.mp new]
      exact ⟨(fun no => by cases no),(fun no => by cases no)⟩
  · rw [cancelled]
    exact sound_change w goal _ sound id

theorem next_kept (w : Walk) (event : Happening) (kept : w.Kept) (possible : Possible w event)
    (orderly : Orderly w event) : (next request w event).Kept := by
  cases event with
  | tick now => exact (Later.same w { w with clock := now } rfl rfl rfl (.inl rfl) rfl).kept kept.sound kept
  | decide goal accepted =>
    refine change_kept w goal _ ⟨fun yes known => ?_,fun _ same => same,id⟩ (fun sound => ⟨fun _ => rfl,sound.2⟩) kept
    rw [possible.2] at known
    cases known
  | answer goal =>
    exact change_kept w goal _ ⟨fun _ same => same,fun _ same => same,id⟩ (fun sound => ⟨fun _ => possible,sound.2⟩) kept
  | finish goal status =>
    refine change_kept w goal _ ⟨fun _ same => same,fun ended known => ?_,id⟩ (fun sound => ⟨sound.1,fun _ => rfl⟩) kept
    rw [possible.2] at known
    cases known
  | report goal =>
    exact change_kept w goal _ ⟨fun _ same => same,fun _ same => same,id⟩ (fun sound => ⟨sound.1,fun _ => possible.1⟩) kept
  | ackCancel goal => exact change_kept w goal _ ⟨fun _ same => same,fun _ same => same,id⟩ id kept
  | requestCancel => exact (Later.same w { w with own := .canceling } rfl rfl rfl (.inr ⟨possible,rfl⟩) rfl).kept kept.sound kept
  | thread observed => exact ⟨advance_sound request observed w kept.sound,advance_holds request observed w kept orderly⟩

theorem initial_kept (w : Walk) (initial : (machine request).initial w) : w.Kept := by
  obtain ⟨stage,own,remotes,performed,fired⟩ := initial
  constructor
  · rw [remotes]
    intro r member
    cases member
  · unfold Holds
    rw [stage]
    exact ⟨remotes,⟨performed,.inl own⟩,fired⟩

theorem reaches_kept (w : Walk) (reached : (machine request).Reaches Orderly w) : w.Kept :=
  reached.invariant Walk.Kept (fun s => initial_kept request s)
    (fun s event _ kept possible orderly => next_kept request s event kept possible orderly)

/-- A goal ends canceled only if its cancel was asked for. -/
theorem canceled_asked (state : OwnState) (allowed : (state.after .canceled).isSome = true) : state = .canceling := by
  cases state with
  | canceling => rfl
  | executing => cases allowed
  | succeeded => cases allowed
  | aborted => cases allowed
  | canceled => cases allowed

/-- Where each send is answered within its wait and no walk ends canceled unless the
caller asked for it, a MoveTo that is over leaves no walk behind, ended once, and
reports what happened. -/
theorem walk_over (w : Walk) (reached : (machine request).Reaches Orderly w) (done : w.Over) :
    w.Stopped ∧ w.Single ∧ (∀ state, (state,GoalEvent.canceled) ∈ w.performed → state = .canceling) ∧ w.Honest := by
  have holds := (reaches_kept request w reached).holds
  unfold Holds at holds
  rcases done with raised | ⟨reason,status,returned⟩
  · rw [raised] at holds
    exact holds.elim
  · rw [returned] at holds
    obtain ⟨stopped,single,honest,_⟩ := holds
    refine ⟨stopped,single,fun state asked => ?_,honest⟩
    obtain ⟨from_,event,performed,allowed⟩ := single
    rw [performed] at asked
    cases List.mem_singleton.mp asked
    exact canceled_asked state allowed

instance (w : Walk) : (event : Happening) → Decidable (Possible w event)
  | .tick now => inferInstanceAs (Decidable (w.clock ≤ now))
  | .decide goal _ => inferInstanceAs (Decidable (goal < w.remotes.length ∧ (w.remote goal).accepted = none))
  | .answer goal => inferInstanceAs (Decidable ((w.remote goal).accepted.isSome = true))
  | .finish goal _ => inferInstanceAs (Decidable ((w.remote goal).accepted = some true ∧ (w.remote goal).ended = none))
  | .report goal => inferInstanceAs (Decidable ((w.remote goal).ended.isSome = true ∧ (w.remote goal).answered = true))
  | .ackCancel goal => inferInstanceAs (Decidable ((w.remote goal).cancelSent = true))
  | .requestCancel => inferInstanceAs (Decidable (w.own = .executing))
  | .thread _ => inferInstanceAs (Decidable (w.ready = true))

instance (w : Walk) (event : Happening) : Decidable ((machine request).enabled w event) :=
  inferInstanceAs (Decidable (Possible w event))

/-- `Orderly` at one stage of the thread. -/
def decidableStage (w : Walk) : (stage : Stage) → Decidable (match stage with
    | .sending _ goal _ => (w.remote goal).answered = true
    | .finishing goal => (w.remote goal).ended = some .canceled → w.own = .canceling
    | _ => True)
  | .sending _ goal _ => inferInstanceAs (Decidable ((w.remote goal).answered = true))
  | .finishing goal => inferInstanceAs (Decidable ((w.remote goal).ended = some .canceled → w.own = .canceling))
  | .start | .resting _ _ | .looping _ _ | .sleeping _ _ _ | .timing _ _ | .listening _ _ | .checking _ _
  | .awaitingCancel _ _ _ | .awaitingResult _ _ _ | .returned _ _ | .raised => .isTrue trivial

instance (w : Walk) : (event : Happening) → Decidable (Orderly w event)
  | .thread _ => decidableStage w w.stage
  | .tick _ | .decide _ _ | .answer _ | .finish _ _ | .report _ | .ackCancel _ | .requestCancel => .isTrue trivial

/-- A walk that succeeds. -/
def fulfilled : List Happening :=
  [.thread {},.decide 0 true,.answer 0,.thread {},.finish 0 .succeeded,.report 0,.thread {},.thread {}]

/-- A goal whose acceptance comes after the thread has stopped waiting for it. -/
def abandoned : List Happening := [.thread {},.tick 30,.thread {},.decide 0 true,.answer 0]

/-- A walk that the server ends canceled by itself. -/
def preempted : List Happening :=
  [.thread {},.decide 0 true,.answer 0,.thread {},.finish 0 .canceled,.report 0,.thread {},.thread {}]

/-- A run from the start of an ordinary goal. -/
def walkedBy (events : List Happening) : Walk := (machine {}).runs { clock := 0 } events

theorem walk_over_fulfilled : (walkedBy fulfilled).stage = .returned "completed" true ∧ (walkedBy fulfilled).Stopped ∧
    (walkedBy fulfilled).Single ∧
    (∀ state, (state,GoalEvent.canceled) ∈ (walkedBy fulfilled).performed → state = .canceling) ∧
    (walkedBy fulfilled).Honest := by
  have ends : (walkedBy fulfilled).stage = .returned "completed" true := by decide +kernel
  have reached : (machine {}).Reaches Orderly (walkedBy fulfilled) :=
    (machine {}).reaches_runs _ _ fulfilled (.start _ ⟨rfl,rfl,rfl,rfl,rfl⟩) (by decide +kernel)
  exact ⟨ends,walk_over {} (walkedBy fulfilled) reached (.inr ⟨_,_,ends⟩)⟩

/-- The MoveTo is over and its walk goes on, and a walk ended by the server raises. -/
theorem walk_left_running :
    ((machine {}).Reachable (walkedBy abandoned) ∧ (walkedBy abandoned).stage = .returned "aborted" false ∧
      ¬(walkedBy abandoned).Stopped) ∧
    ((machine {}).Reachable (walkedBy preempted) ∧ (walkedBy preempted).stage = .raised ∧
      ¬(walkedBy preempted).Single) := by
  have left : { accepted := some true,answered := true } ∈ (walkedBy abandoned).remotes := by decide +kernel
  have raised : (walkedBy preempted).performed = [(.executing,.canceled)] := by decide +kernel
  refine ⟨⟨?_,by decide +kernel,fun stopped => ?_⟩,⟨?_,by decide +kernel,fun single => ?_⟩⟩
  · exact (machine {}).reaches_runs _ _ abandoned (.start _ ⟨rfl,rfl,rfl,rfl,rfl⟩) (by decide +kernel)
  · rcases stopped _ left with rejected | ended | sent
    · cases rejected
    · cases ended
    · cases sent
  · exact (machine {}).reaches_runs _ _ preempted (.start _ ⟨rfl,rfl,rfl,rfl,rfl⟩) (by decide +kernel)
  · obtain ⟨state,event,performed,allowed⟩ := single
    rw [raised] at performed
    cases performed
    cases allowed

end Request
end AmigaFleet.Planners
