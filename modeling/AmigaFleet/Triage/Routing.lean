import AmigaFleet.Triage.Node
import AmigaFleet.Replanning.Decisions

/-! What a failing leaf comes to: one call of the model, a verdict after every failure,
and for a verdict to escalate one report, about that leaf. -/
namespace AmigaFleet.Triage
open Lib
open Replanning (Xml)
open Mission (MissionTask)

deriving instance DecidableEq for MissionTask

def Mark.callOf : Mark → Option String
  | called name => some name
  | _ => none

/-- The report for the verdict on the node. -/
def Mark.reportOn (name : String) : Mark → Option Report
  | infeasible verdictOn report _ => if verdictOn = some name then some report else none
  | _ => none

def System.calls (s : System) : List String := s.trail.filterMap Mark.callOf
def System.reportsOn (s : System) (name : String) : List Report := s.trail.filterMap (Mark.reportOn name)

/-- The verdict is not out yet. -/
def Stage.unpublished : Stage → Bool
  | gathering | asking | recording _ | publishing _ => true
  | _ => false

def Callback.republishes (name : String) : Callback → Bool
  | republishing payload => payload.node = name
  | _ => false

/-- What the node and its record hold on one leaf. -/
structure Account where
  pending : Bool := false
  payload : Option Payload := none
  calls : Nat := 0
  reports : List Report := []

def account (node : Node) (trail : List Mark) (name : String) : Account where
  pending := decide (name ∈ node.routing)
  payload := node.routes.get? name
  calls := (trail.filterMap Mark.callOf).count name
  reports := trail.filterMap (Mark.reportOn name)

/-- The verdict is the one held. -/
structure Account.Holds (a : Account) (name : String) (payload : Payload) : Prop where
  ended : a.pending = false
  held : a.payload = some payload
  node : payload.node = name
  calls : a.calls ≤ 1

/-- What a thread has left on its leaf when it comes to a block. -/
def Account.Fits (a : Account) (name : String) : Stage → Prop
  | .gathering => a = { pending := true }
  | .asking => a = { pending := true, calls := 1 }
  | .recording _ => a.pending = true ∧ a.payload = none ∧ a.calls ≤ 1 ∧ a.reports = []
  | .publishing payload => a.Holds name payload ∧ a.reports = []
  | .escalating payload | .announcing payload _ _ | .raised payload _ =>
    a.Holds name payload ∧ payload.verdict.route = .escalate ∧ a.reports = []
  | .finished payload => a.Holds name payload ∧ a.reports.length = if payload.verdict.route = .escalate then 1 else 0

/-- One more mark in the record. -/
theorem account_mark (node : Node) (trail : List Mark) (m : Mark) (name : String) :
    account node (trail ++ [m]) name =
      { account node trail name with
        calls := (account node trail name).calls + if m.callOf = some name then 1 else 0
        reports := (account node trail name).reports ++ (m.reportOn name).toList } := by
  have call : ([m].filterMap Mark.callOf).count name = if m.callOf = some name then 1 else 0 := by
    cases spoken : m.callOf with
    | none => simp [spoken]
    | some n => by_cases same : n = name <;> simp [spoken,same]
  have report : [m].filterMap (Mark.reportOn name) = (m.reportOn name).toList := by
    cases told : m.reportOn name <;> simp [told]
  simp only [account,List.filterMap_append,List.count_append,call,report]

/-- A mark that is about something else. -/
theorem account_aside (node : Node) (trail : List Mark) (m : Mark) (name : String) (call : m.callOf ≠ some name)
    (report : m.reportOn name = none) : account node (trail ++ [m]) name = account node trail name := by
  rw [account_mark,if_neg call,report]
  simp

theorem account_recorded (s : Node) (trail : List Mark) (name other : String) (payload : Payload)
    (different : other ≠ name) :
    account { s with routes := s.routes.set name payload, routing := s.routing.filter (· ≠ name) } trail other =
      account s trail other := by
  simp [account,Dict.get?_set_ne _ _ _ _ different,different]

section
variable (repr : Json → String)

/-- A publication on the leaf is still to come. -/
def Awaited (s : System) (name : String) : Prop :=
  (∃ t ∈ s.threads, t.name repr = name ∧ t.stage.unpublished = true) ∨ ∃ c ∈ s.callbacks, c.republishes name = true

/-- Every failure has its answer behind it, or in sight. -/
def Answered (s : System) : Prop :=
  ∀ event after, .failed event :: after <:+ s.trail →
    Awaited repr s (nodeOf repr event) ∨ ∃ payload, payload.node = nodeOf repr event ∧ .routed payload ∈ after

/-- One thread for a leaf, and what it has left. -/
structure Routed (s : System) : Prop where
  distinct : (s.threads.map (Thread.name repr)).Nodup
  fits : ∀ t ∈ s.threads, (account s.node s.trail (t.name repr)).Fits (t.name repr) t.stage
  fresh : ∀ name, (∀ t ∈ s.threads, t.name repr ≠ name) → account s.node s.trail name = {}
  again : ∀ payload, .republishing payload ∈ s.callbacks → s.node.routes.get? payload.node = some payload
  verdicts : ∀ payload, .routed payload ∈ s.trail → s.node.routes.get? payload.node = some payload
  answered : Answered repr s

variable (fix : String → String → Option Codec.Target)

theorem Account.Fits.node {a : Account} {name : String} {payload : Payload} {fault : Fields} {missionXml : Option Xml}
    (fits : a.Fits name (.announcing payload fault missionXml)) : payload.node = name := fits.1.node

theorem Account.Fits.pending {a : Account} {name : String} {stage : Stage} (fits : a.Fits name stage)
    (pending : a.pending = true) : stage.unpublished = true := by
  cases stage with
  | escalating payload | announcing payload fault missionXml | finished payload | raised payload error =>
    rw [fits.1.ended] at pending
    cases pending
  | _ => rfl

theorem Account.Fits.known {a : Account} {name : String} {stage : Stage} (fits : a.Fits name stage) (idle : a.pending = false) :
    ∃ payload, a.payload = some payload := by
  cases stage with
  | gathering | asking =>
    rw [show a = _ from fits] at idle
    cases idle
  | recording verdict =>
    rw [fits.1] at idle
    cases idle
  | _ => exact ⟨_,fits.1.held⟩

theorem Account.Fits.about {a : Account} {name : String} {stage : Stage} {payload : Payload} (fits : a.Fits name stage)
    (held : a.payload = some payload) : payload.node = name := by
  cases stage with
  | gathering | asking =>
    rw [show a = _ from fits] at held
    cases held
  | recording verdict =>
    rw [fits.2.1] at held
    cases held
  | _ =>
    obtain rfl := Option.some.inj (held.symm.trans fits.1.held)
    exact fits.1.node

theorem Account.Fits.calls_le {a : Account} {name : String} {stage : Stage} (fits : a.Fits name stage) : a.calls ≤ 1 := by
  cases stage with
  | gathering => exact (congrArg Account.calls fits).trans_le (by decide)
  | asking => exact (congrArg Account.calls fits).le
  | recording verdict => exact fits.2.2.1
  | _ => exact fits.1.calls

theorem Account.Fits.reports_le {a : Account} {name : String} {stage : Stage} (fits : a.Fits name stage) :
    a.reports.length ≤ 1 := by
  cases stage with
  | gathering | asking =>
    rw [show a = _ from fits]
    decide
  | recording verdict =>
    rw [fits.2.2.2]
    decide
  | publishing payload =>
    rw [fits.2]
    decide
  | finished payload =>
    rw [fits.2]
    split <;> decide
  | _ =>
    rw [fits.2.2]
    decide

namespace Routed
variable {repr} {s : System} (routed : Routed repr s)
include routed

/-- What a leaf's account can be. -/
theorem known (name : String) :
    account s.node s.trail name = {} ∨
      ∃ t ∈ s.threads, t.name repr = name ∧ (account s.node s.trail name).Fits name t.stage := by
  by_cases known : ∃ t ∈ s.threads, t.name repr = name
  · obtain ⟨t,member,rfl⟩ := known
    exact .inr ⟨t,member,rfl,routed.fits t member⟩
  · exact .inl (routed.fresh name (fun t member same => known ⟨t,member,same⟩))

theorem busy (name : String) (pending : name ∈ s.node.routing) :
    ∃ t ∈ s.threads, t.name repr = name ∧ t.stage.unpublished = true := by
  have waiting : (account s.node s.trail name).pending = true := decide_eq_true pending
  obtain untouched | ⟨t,member,mine,fits⟩ := routed.known name
  · rw [untouched] at waiting
    cases waiting
  · exact ⟨t,member,mine,fits.pending waiting⟩

theorem held (name : String) (payload : Payload) (cached : s.node.routes.get? name = some payload) :
    payload.node = name := by
  have cached : (account s.node s.trail name).payload = some payload := cached
  obtain untouched | ⟨t,-,-,fits⟩ := routed.known name
  · rw [untouched] at cached
    cases cached
  · exact fits.about cached

theorem unknown (name : String) (idle : name ∉ s.node.routing) (none : s.node.routes.get? name = none) :
    ∀ t ∈ s.threads, t.name repr ≠ name := by
  rintro t member rfl
  obtain ⟨payload,held⟩ := (routed.fits t member).known (by simpa [account] using idle)
  rw [show (account s.node s.trail (t.name repr)).payload = Option.none from none] at held
  cases held

end Routed

/-- A block of one thread is nothing to another leaf. -/
theorem block_other (s : System) (t : Thread) (reply : Reply) (name : String) (other : t.name repr ≠ name)
    (fits : (account s.node s.trail (t.name repr)).Fits (t.name repr) t.stage) :
    account (s.block repr fix t reply).1.node (s.block repr fix t reply).1.trail name = account s.node s.trail name := by
  obtain ⟨event,stage⟩ := t
  cases stage with
  | gathering =>
    simp only [System.block]
    split
    · rfl
    · rfl
    · exact account_aside _ _ _ _ (fun same => other (Option.some.inj same)) rfl
  | asking =>
    simp only [System.block]
    split <;> rfl
  | recording verdict => exact account_recorded _ _ _ _ _ (Ne.symm other)
  | publishing payload => exact account_aside _ _ _ _ nofun rfl
  | announcing payload fault missionXml =>
    simp only [System.block]
    split
    · refine account_aside _ _ _ _ nofun (if_neg ?_)
      rw [fits.node]
      exact fun same => other (Option.some.inj same)
    · rfl
  | _ => rfl

/-- A block leaves on its own leaf what fits the next. -/
theorem block_fits (s : System) (t : Thread) (reply : Reply)
    (fits : (account s.node s.trail (t.name repr)).Fits (t.name repr) t.stage) :
    (account (s.block repr fix t reply).1.node (s.block repr fix t reply).1.trail (t.name repr)).Fits (t.name repr)
      (s.block repr fix t reply).2 := by
  obtain ⟨event,stage⟩ := t
  cases stage with
  | gathering =>
    have started : account s.node s.trail (nodeOf repr event) = { pending := true } := fits
    simp only [System.block]
    split
    · exact ⟨by rw [Thread.name,started],by rw [Thread.name,started],by rw [Thread.name,started]; decide,
        by rw [Thread.name,started]⟩
    · exact ⟨by rw [Thread.name,started],by rw [Thread.name,started],by rw [Thread.name,started]; decide,
        by rw [Thread.name,started]⟩
    · change account s.node (s.trail ++ [.called (nodeOf repr event)]) (nodeOf repr event) = _
      rw [account_mark,started]
      simp [Mark.callOf,Mark.reportOn]
  | asking =>
    have asked : account s.node s.trail (nodeOf repr event) = { pending := true, calls := 1 } := fits
    simp only [System.block]
    split <;>
      exact ⟨by rw [Thread.name,asked],by rw [Thread.name,asked],by rw [Thread.name,asked],by rw [Thread.name,asked]⟩
  | recording verdict =>
    obtain ⟨-,-,calls,reports⟩ := fits
    exact ⟨⟨by simp [account,System.block],by simp [account,System.block],rfl,calls⟩,reports⟩
  | publishing payload =>
    obtain ⟨holds,reports⟩ := fits
    have same : account s.node (s.trail ++ [.routed payload]) (nodeOf repr event) =
        account s.node s.trail (nodeOf repr event) := account_aside _ _ _ _ nofun rfl
    simp only [System.block,Thread.name]
    rw [same]
    split
    · rename_i escalate
      exact ⟨holds,escalate,reports⟩
    · rename_i kept
      exact ⟨holds,by rw [if_neg kept]; exact congrArg List.length reports⟩
  | escalating payload => exact fits
  | announcing payload fault missionXml =>
    obtain ⟨holds,escalate,reports⟩ := fits
    simp only [System.block]
    split
    · rename_i report said
      change (account s.node (s.trail ++ [.infeasible (some payload.node) report s.node.missionXml])
        (nodeOf repr event)).Fits _ _
      have mine : payload.node = nodeOf repr event := holds.node
      rw [account_mark]
      refine ⟨⟨holds.ended,holds.held,holds.node,?_⟩,?_⟩
      · exact holds.calls
      · rw [if_pos escalate]
        simp [Mark.reportOn,mine,show (account s.node s.trail (nodeOf repr event)).reports = [] from reports]
    · exact ⟨holds,escalate,reports⟩
  | finished payload => exact fits
  | raised payload error => exact fits

/-- What a block leaves alone. -/
structure Aside (s after : System) : Prop where
  threads : after.threads = s.threads
  callbacks : after.callbacks = s.callbacks
  lastFault : after.node.lastFault = s.node.lastFault
  missionXml : after.node.missionXml = s.node.missionXml

theorem block_aside (s : System) (t : Thread) (reply : Reply) : Aside s (s.block repr fix t reply).1 := by
  obtain ⟨event,stage⟩ := t
  cases stage with
  | gathering =>
    simp only [System.block]
    split <;> exact ⟨rfl,rfl,rfl,rfl⟩
  | asking =>
    simp only [System.block]
    split <;> exact ⟨rfl,rfl,rfl,rfl⟩
  | announcing payload fault missionXml =>
    simp only [System.block]
    split <;> exact ⟨rfl,rfl,rfl,rfl⟩
  | _ => exact ⟨rfl,rfl,rfl,rfl⟩

theorem next_thread (s : System) (i : Nat) (reply : Reply) (t : Thread) (mine : s.threads[i]? = some t) :
    s.next repr fix (.thread i reply) =
      { (s.block repr fix t reply).1 with
        threads := s.threads.set i { t with stage := (s.block repr fix t reply).2 } } := by
  simp only [System.next,mine,(block_aside repr fix s t reply).threads]

/-- What the rest of a callback does to the record: a verdict published again, or
nothing, or a report without a verdict. -/
theorem turn_cases (s : System) (c : Callback) :
    ∃ marks, (s.turn repr fix c).1 = { s with trail := s.trail ++ marks } ∧
      ((∃ payload, c = .republishing payload ∧ marks = [.routed payload]) ∨
        ((∀ payload, c ≠ .republishing payload) ∧
          (marks = [] ∨ ∃ report, marks = [.infeasible none report s.node.missionXml]))) := by
  cases c with
  | republishing payload => exact ⟨_,rfl,.inl ⟨payload,rfl,rfl⟩⟩
  | announcing cause detail fault missionXml =>
    simp only [System.turn]
    split
    · exact ⟨_,rfl,.inr ⟨nofun,.inr ⟨_,rfl⟩⟩⟩
    · exact ⟨[],by simp,.inr ⟨nofun,.inl rfl⟩⟩
  | _ => exact ⟨[],by simp [System.turn],.inr ⟨nofun,.inl rfl⟩⟩

theorem turn_after (s : System) (c : Callback) (payload : Payload) : (s.turn repr fix c).2 ≠ .republishing payload := by
  cases c with
  | announcing cause detail fault missionXml =>
    simp only [System.turn]
    split <;> exact nofun
  | _ => exact nofun

theorem next_callback (s : System) (i : Nat) (c : Callback) (mine : s.callbacks[i]? = some c) :
    s.next repr fix (.callback i) =
      { (s.turn repr fix c).1 with callbacks := s.callbacks.set i (s.turn repr fix c).2 } := by
  obtain ⟨marks,same,-⟩ := turn_cases repr fix s c
  simp only [System.next,mine,same]

/-- A verdict once recorded stays. -/
theorem block_routes (s : System) (t : Thread) (reply : Reply)
    (fits : (account s.node s.trail (t.name repr)).Fits (t.name repr) t.stage) (name : String) (payload : Payload)
    (held : s.node.routes.get? name = some payload) :
    (s.block repr fix t reply).1.node.routes.get? name = some payload := by
  by_cases other : t.name repr = name
  · obtain ⟨event,stage⟩ := t
    cases stage with
    | recording verdict =>
      obtain ⟨-,none,-,-⟩ := fits
      rw [← other] at held
      rw [show s.node.routes.get? _ = Option.none from none] at held
      cases held
    | gathering =>
      simp only [System.block]
      split <;> exact held
    | asking =>
      simp only [System.block]
      split <;> exact held
    | announcing payload fault missionXml =>
      simp only [System.block]
      split <;> exact held
    | _ => exact held
  · have same := congrArg Account.payload (block_other repr fix s t reply name other fits)
    exact same.trans held

/-- What a block adds to the record. Only the publication of a verdict is a verdict, and
no block is a failure. -/
theorem block_trail (s : System) (t : Thread) (reply : Reply) :
    ∃ marks, (s.block repr fix t reply).1.trail = s.trail ++ marks ∧ (∀ event, .failed event ∉ marks) ∧
      (∀ payload, .routed payload ∈ marks → t.stage = .publishing payload) ∧
      (t.stage.unpublished = true → (s.block repr fix t reply).2.unpublished = true ∨
        ∃ payload, t.stage = .publishing payload ∧ .routed payload ∈ marks) := by
  obtain ⟨event,stage⟩ := t
  cases stage with
  | gathering =>
    simp only [System.block]
    split
    · exact ⟨[],by simp,by simp,by simp,fun _ => .inl rfl⟩
    · exact ⟨[],by simp,by simp,by simp,fun _ => .inl rfl⟩
    · exact ⟨_,rfl,by simp,by simp,fun _ => .inl rfl⟩
  | asking =>
    simp only [System.block]
    split <;> exact ⟨[],by simp,by simp,by simp,fun _ => .inl rfl⟩
  | recording verdict => exact ⟨[],by simp [System.block],by simp,by simp,fun _ => .inl rfl⟩
  | publishing payload =>
    exact ⟨_,rfl,by simp,by simp,fun _ => .inr ⟨payload,rfl,List.mem_singleton_self _⟩⟩
  | announcing payload fault missionXml =>
    simp only [System.block]
    split
    · exact ⟨_,rfl,by simp,by simp,nofun⟩
    · exact ⟨[],by simp,by simp,by simp,nofun⟩
  | _ => exact ⟨[],by simp [System.block],by simp,by simp,nofun⟩

/-- A failure in a longer record is one of the record before, or of what was added. -/
theorem failed_suffix (trail marks after : List Mark) (event : Fields) (suffix : .failed event :: after <:+ trail ++ marks)
    (old : .failed event ∉ marks) : ∃ rest, after = rest ++ marks ∧ .failed event :: rest <:+ trail := by
  obtain ⟨before,same⟩ := suffix
  rcases List.append_eq_append_iff.mp same with ⟨mid,rfl,rest⟩ | ⟨mid,rfl,rest⟩
  · cases mid with
    | nil => exact absurd (by rw [List.nil_append] at rest; rw [← rest]; exact List.mem_cons_self) old
    | cons head mid =>
      obtain ⟨rfl,rfl⟩ := List.cons.inj rest
      exact ⟨mid,rfl,before,rfl⟩
  · exact absurd (by rw [rest]; simp) old

variable {repr}

theorem Answered.grows {s after : System} (answered : Answered repr s) (marks : List Mark)
    (trail : after.trail = s.trail ++ marks) (old : ∀ event, .failed event ∉ marks)
    (awaited : ∀ name, Awaited repr s name → Awaited repr after name ∨
      ∃ payload, payload.node = name ∧ .routed payload ∈ marks) : Answered repr after := by
  intro event later suffix
  rw [trail] at suffix
  obtain ⟨rest,rfl,before⟩ := failed_suffix _ _ _ _ suffix (old event)
  obtain waiting | ⟨payload,about,out⟩ := answered event rest before
  · obtain waiting | ⟨payload,about,out⟩ := awaited _ waiting
    · exact .inl waiting
    · exact .inr ⟨payload,about,List.mem_append_right _ out⟩
  · exact .inr ⟨payload,about,List.mem_append_left _ out⟩

theorem Answered.fails {s after : System} (answered : Answered repr s) (event : Fields)
    (trail : after.trail = s.trail ++ [.failed event]) (awaited : ∀ name, Awaited repr s name → Awaited repr after name)
    (new : Awaited repr after (nodeOf repr event)) : Answered repr after := by
  intro other later suffix
  rw [trail,List.suffix_concat_iff] at suffix
  obtain none | ⟨rest,same,before⟩ := suffix
  · cases none
  · cases rest with
    | nil =>
      obtain ⟨⟨rfl⟩,-⟩ := List.cons.inj same
      exact .inl new
    | cons head rest =>
      obtain ⟨rfl,rfl⟩ := List.cons.inj same
      obtain waiting | ⟨payload,about,out⟩ := answered other rest before
      · exact .inl (awaited _ waiting)
      · exact .inr ⟨payload,about,List.mem_append_left _ out⟩

namespace Routed
variable {s : System} (routed : Routed repr s)
include routed

/-- More callbacks, and another plan. -/
theorem same (after : System) (threads : after.threads = s.threads) (trail : after.trail = s.trail)
    (routing : after.node.routing = s.node.routing) (routes : after.node.routes = s.node.routes)
    (callbacks : s.callbacks ⊆ after.callbacks)
    (again : ∀ payload, .republishing payload ∈ after.callbacks → .republishing payload ∈ s.callbacks) :
    Routed repr after := by
  have accounts (name : String) : account after.node after.trail name = account s.node s.trail name := by
    simp only [account,trail,routing,routes]
  refine ⟨?_,?_,?_,?_,?_,?_⟩
  · rw [threads]
    exact routed.distinct
  · intro t member
    rw [accounts]
    exact routed.fits t (threads ▸ member)
  · intro name others
    rw [accounts]
    exact routed.fresh name (threads ▸ others)
  · intro payload member
    rw [routes]
    exact routed.again payload (again payload member)
  · intro payload member
    rw [routes]
    exact routed.verdicts payload (trail ▸ member)
  · refine routed.answered.grows [] (by rw [trail,List.append_nil]) (by simp) ?_
    rintro name (⟨t,member,mine,waiting⟩ | ⟨c,member,mine⟩)
    · exact .inl (.inl ⟨t,threads ▸ member,mine,waiting⟩)
    · exact .inl (.inr ⟨c,callbacks member,mine⟩)

theorem onFault (event : Fields) : Routed repr (s.onFault repr event) := by
  simp only [System.onFault]
  split
  · exact routed
  have accounts (node : Node) (name : String) :
      account node (s.trail ++ [.failed event]) name = account node s.trail name := account_aside _ _ _ _ nofun rfl
  have trail (payload : Payload) (member : Mark.routed payload ∈ s.trail ++ [.failed event]) :
      s.node.routes.get? payload.node = some payload :=
    routed.verdicts payload (by simpa using member)
  have later (after : System) (threads : s.threads ⊆ after.threads) (callbacks : s.callbacks ⊆ after.callbacks)
      (name : String) (waiting : Awaited repr s name) : Awaited repr after name := by
    obtain ⟨t,member,mine,waiting⟩ | ⟨c,member,mine⟩ := waiting
    · exact .inl ⟨t,threads member,mine,waiting⟩
    · exact .inr ⟨c,callbacks member,mine⟩
  split
  · rename_i cached known
    refine ⟨routed.distinct,?_,?_,?_,trail,?_⟩
    · intro t member
      exact (accounts s.node (t.name repr)).symm ▸ routed.fits t member
    · exact fun name others => (accounts s.node name).trans (routed.fresh name others)
    · intro payload member
      obtain member | here := List.mem_append.mp member
      · exact routed.again payload member
      · obtain ⟨rfl⟩ := List.mem_singleton.mp here
        rw [routed.held _ _ known]
        exact known
    · refine routed.answered.fails event rfl
        (later _ (List.Subset.refl _) (List.subset_append_left _ _)) (.inr ⟨.republishing cached,by simp,?_⟩)
      simp [Callback.republishes,routed.held _ _ known]
  · rename_i none
    split
    · rename_i pending
      refine ⟨routed.distinct,?_,?_,routed.again,trail,?_⟩
      · intro t member
        exact (accounts s.node (t.name repr)).symm ▸ routed.fits t member
      · exact fun name others => (accounts s.node name).trans (routed.fresh name others)
      · exact routed.answered.fails event rfl (later _ (List.Subset.refl _) (List.Subset.refl _))
          (.inl (routed.busy _ pending))
    · rename_i idle
      have unknown := routed.unknown _ idle none
      have untouched (name : String) (other : name ≠ nodeOf repr event) :
          account { s.node with lastFault := some event, routing := s.node.routing ++ [nodeOf repr event] }
            (s.trail ++ [.failed event]) name = account s.node s.trail name := by
        rw [accounts]
        simp [account,other]
      refine ⟨?_,?_,?_,routed.again,trail,?_⟩
      · rw [List.map_append,List.nodup_append]
        refine ⟨routed.distinct,by simp,?_⟩
        intro name member other single
        obtain ⟨t,there,rfl⟩ := List.mem_map.mp member
        rw [List.map_singleton,List.mem_singleton] at single
        rw [single]
        exact unknown t there
      · intro t member
        obtain member | here := List.mem_append.mp member
        · exact (untouched _ (unknown t member)).symm ▸ routed.fits t member
        · obtain rfl := List.mem_singleton.mp here
          change account _ _ _ = _
          have fresh := routed.fresh _ unknown
          simp only [account,Account.mk.injEq] at fresh
          rw [accounts]
          simp [account,Thread.name,fresh]
      · intro name others
        have other : name ≠ nodeOf repr event := fun same =>
          others { event } (List.mem_append_right _ (List.mem_singleton_self _)) same.symm
        exact (untouched name other).trans (routed.fresh name (fun t member => others t (by simp [member])))
      · exact routed.answered.fails event rfl (later _ (List.subset_append_left _ _) (List.Subset.refl _))
          (.inl ⟨{ event },List.mem_append_right _ (List.mem_singleton_self _),rfl,rfl⟩)

theorem block (i : Nat) (t : Thread) (reply : Reply) (mine : s.threads[i]? = some t) :
    Routed repr { (s.block repr fix t reply).1 with
      threads := s.threads.set i { t with stage := (s.block repr fix t reply).2 } } := by
  have member := List.mem_of_getElem? mine
  have fits := routed.fits t member
  have names : (s.threads.set i { t with stage := (s.block repr fix t reply).2 }).map (Thread.name repr) =
      s.threads.map (Thread.name repr) := map_set_key _ _ _ t _ mine rfl
  have aside := block_aside repr fix s t reply
  obtain ⟨marks,trail,old,verdicts,out⟩ := block_trail repr fix s t reply
  refine ⟨names ▸ routed.distinct,?_,?_,?_,?_,?_⟩
  · intro u placed
    obtain rfl | ⟨there,other⟩ := mem_set_key (Thread.name repr) _ _ _ _ _ routed.distinct mine placed
    · exact block_fits repr fix s t reply fits
    · exact (block_other repr fix s t reply _ other.symm fits).symm ▸ routed.fits u there
  · intro name others
    have apart : ∀ u ∈ s.threads, u.name repr ≠ name := by
      intro u there same
      have kept : name ∈ s.threads.map (Thread.name repr) := List.mem_map.mpr ⟨u,there,same⟩
      rw [← names] at kept
      obtain ⟨w,placed,same⟩ := List.mem_map.mp kept
      exact others w placed same
    exact (block_other repr fix s t reply name (apart t member) fits).trans (routed.fresh name apart)
  · intro payload waiting
    exact block_routes repr fix s t reply fits _ _ (routed.again payload (aside.callbacks ▸ waiting))
  · intro payload said
    refine block_routes repr fix s t reply fits _ _ ?_
    obtain said | now := List.mem_append.mp (trail ▸ said)
    · exact routed.verdicts payload said
    · rw [verdicts payload now] at fits
      have holds := fits.1
      rw [holds.node]
      exact holds.held
  · refine routed.answered.grows marks trail old ?_
    rintro name (⟨u,there,rfl,waiting⟩ | ⟨c,there,about⟩)
    · by_cases same : u = t
      · subst same
        obtain waiting | ⟨payload,publishing,said⟩ := out waiting
        · exact .inl (.inl ⟨_,List.mem_set (List.getElem?_eq_some_iff.mp mine).1 _,rfl,waiting⟩)
        · rw [publishing] at fits
          exact .inr ⟨payload,fits.1.node,said⟩
      · exact .inl (.inl ⟨u,mem_set_other _ _ _ t _ mine there same,rfl,waiting⟩)
    · exact .inl (.inr ⟨c,aside.callbacks.symm ▸ there,about⟩)

theorem turn (i : Nat) (c : Callback) (mine : s.callbacks[i]? = some c) :
    Routed repr { (s.turn repr fix c).1 with callbacks := s.callbacks.set i (s.turn repr fix c).2 } := by
  obtain ⟨marks,same,kinds⟩ := turn_cases repr fix s c
  have aside (name : String) : account s.node (s.trail ++ marks) name = account s.node s.trail name := by
    obtain ⟨payload,-,rfl⟩ | ⟨-,rfl | ⟨report,rfl⟩⟩ := kinds
    · exact account_aside _ _ _ _ nofun rfl
    · rw [List.append_nil]
    · exact account_aside _ _ _ _ nofun rfl
  have member := List.mem_of_getElem? mine
  simp only [same]
  refine ⟨routed.distinct,?_,?_,?_,?_,?_⟩
  · exact fun t there => (aside _).symm ▸ routed.fits t there
  · exact fun name others => (aside name).trans (routed.fresh name others)
  · intro payload waiting
    obtain waiting | here := List.mem_or_eq_of_mem_set waiting
    · exact routed.again payload waiting
    · exact absurd here.symm (turn_after repr fix s c payload)
  · intro payload said
    obtain said | now := List.mem_append.mp said
    · exact routed.verdicts payload said
    · obtain ⟨other,rfl,rfl⟩ | ⟨-,rfl | ⟨report,rfl⟩⟩ := kinds
      · obtain ⟨rfl⟩ := List.mem_singleton.mp now
        exact routed.again payload member
      · cases now
      · cases List.mem_singleton.mp now
  · refine routed.answered.grows marks rfl ?_ ?_
    · obtain ⟨payload,-,rfl⟩ | ⟨-,rfl | ⟨report,rfl⟩⟩ := kinds <;> simp
    · rintro name (⟨t,there,about,waiting⟩ | ⟨other,there,about⟩)
      · exact .inl (.inl ⟨t,there,about,waiting⟩)
      · by_cases turned : other = c
        · subst turned
          obtain ⟨payload,rfl,rfl⟩ | ⟨none,-⟩ := kinds
          · exact .inr ⟨payload,of_decide_eq_true about,List.mem_singleton_self _⟩
          · cases other with
            | republishing payload => exact absurd rfl (none payload)
            | _ => cases about
        · exact .inl (.inr ⟨other,mem_set_other _ _ _ c _ mine there turned,about⟩)

theorem next (e : Event) : Routed repr (s.next repr fix e) := by
  cases e with
  | statusChange event => exact routed.onFault event
  | mission xml => exact routed.same _ rfl rfl rfl rfl (List.Subset.refl _) (fun _ => id)
  | plannerStatus info =>
    simp only [System.next,System.onPlannerStatus]
    split
    · exact routed
    · exact routed.same _ rfl rfl rfl rfl (List.subset_append_left _ _) (by simp)
  | abort info => exact routed.same _ rfl rfl rfl rfl (List.subset_append_left _ _) (by simp [System.next,System.onAbort])
  | thread i reply =>
    cases mine : s.threads[i]? with
    | none => simpa only [System.next,mine] using routed
    | some t => exact next_thread repr fix s i reply t mine ▸ routed.block fix i t reply mine
  | callback i =>
    cases mine : s.callbacks[i]? with
    | none => simpa only [System.next,mine] using routed
    | some c => exact next_callback repr fix s i c mine ▸ routed.turn fix i c mine

end Routed

theorem routed_start : Routed repr {} where
  distinct := List.nodup_nil
  fits := nofun
  fresh := fun _ _ => rfl
  again := nofun
  verdicts := nofun
  answered := fun event after suffix => by
    have none := List.suffix_nil.mp suffix
    cases none

variable (repr)

/-- An escalation for a verdict reads a failure of its own leaf, and the leaf's unit is the
same in the plan that it read and in the one held when it goes out. -/
def Undisturbed (s : System) : Event → Prop
  | .thread i _ =>
    ∀ t ∈ s.threads[i]?,
      match t.stage with
      | .escalating payload => s.node.lastFault.map (nodeOf repr) = some payload.node
      | .announcing payload _ missionXml =>
        (taskOn fix missionXml payload.node).toOption.isSome = true ∧
          taskOn fix s.node.missionXml payload.node = taskOn fix missionXml payload.node
      | _ => True
  | _ => True

instance (s : System) : (e : Event) → Decidable (Undisturbed repr fix s e)
  | .thread i _ => by
    have (t : Thread) : Decidable (match t.stage with
        | .escalating payload => s.node.lastFault.map (nodeOf repr) = some payload.node
        | .announcing payload _ missionXml =>
          (taskOn fix missionXml payload.node).toOption.isSome = true ∧
            taskOn fix s.node.missionXml payload.node = taskOn fix missionXml payload.node
        | _ => True) := by split <;> infer_instance
    unfold Undisturbed
    infer_instance
  | .statusChange _ | .mission _ | .plannerStatus _ | .abort _ | .callback _ => inferInstanceAs (Decidable True)

/-- What an escalation in progress has read, and that none ended in an exception. -/
def Stage.Tells (trail : List Mark) : Stage → Prop
  | .announcing payload fault _ => .failed fault ∈ trail ∧ nodeOf repr fault = payload.node
  | .raised _ _ => False
  | _ => True

/-- The report is about the node of its verdict. -/
def About (trail : List Mark) (name : String) (report : Report) (held : Option Xml) : Prop :=
  .failed report.fault ∈ trail ∧ nodeOf repr report.fault = name ∧ taskOn fix held name = .ok report.task

structure Told (s : System) : Prop where
  leaves : ∀ event, .failed event ∈ s.trail → nodeOf repr event ≠ ""
  last : ∀ event, s.node.lastFault = some event → .failed event ∈ s.trail
  threads : ∀ t ∈ s.threads, t.stage.Tells repr s.trail
  about : ∀ name report held, .infeasible (some name) report held ∈ s.trail → About repr fix s.trail name report held

/-- Every verdict is accounted for in this state. -/
structure Accountable (s : System) : Prop where
  once : ∀ name, s.calls.count name ≤ 1
  answered : ∀ event after, .failed event :: after <:+ s.trail → ¬Awaited repr s (nodeOf repr event) →
    ∃ payload, payload.node = nodeOf repr event ∧ .routed payload ∈ after
  verdicts : ∀ payload, .routed payload ∈ s.trail → s.node.routes.get? payload.node = some payload
  reported : ∀ name payload, s.node.routes.get? name = some payload →
    (∀ t ∈ s.threads, t.name repr = name → t.stage.ended = true) →
      (s.reportsOn name).length = if payload.verdict.route = .escalate then 1 else 0
  single : ∀ name, (s.reportsOn name).length ≤ 1
  about : ∀ name report held, .infeasible (some name) report held ∈ s.trail → About repr fix s.trail name report held

theorem field_node (event : Fields) (some_ : nodeOf repr event ≠ "") :
    Json.field repr event "node" "" = nodeOf repr event := by
  unfold nodeOf Json.textOr Json.field at *
  cases found : event.lookup "node" with
  | none => rfl
  | some value =>
    rw [found] at some_
    by_cases truthy : value.truthy = true
    · simp [Option.filter,truthy]
    · exact absurd (by simp [Option.filter,truthy]) some_

variable {repr fix}

theorem Stage.Tells.mono {trail later : List Mark} {stage : Stage} (tells : stage.Tells repr trail) (grows : trail ⊆ later) :
    stage.Tells repr later := by
  cases stage with
  | announcing payload fault missionXml => exact ⟨grows tells.1,tells.2⟩
  | _ => exact tells

theorem Told.grows {s after : System} (told : Told repr fix s) (marks : List Mark) (trail : after.trail = s.trail ++ marks)
    (leaves : ∀ event, .failed event ∈ marks → nodeOf repr event ≠ "")
    (last : ∀ event, after.node.lastFault = some event → s.node.lastFault = some event ∨ .failed event ∈ marks)
    (threads : ∀ t ∈ after.threads, t ∈ s.threads ∨ t.stage.Tells repr s.trail)
    (about : ∀ name report held, .infeasible (some name) report held ∈ marks → About repr fix s.trail name report held) :
    Told repr fix after := by
  have more : s.trail ⊆ after.trail := trail ▸ List.subset_append_left _ _
  refine ⟨?_,?_,?_,?_⟩
  · intro event member
    obtain member | member := List.mem_append.mp (trail ▸ member)
    · exact told.leaves event member
    · exact leaves event member
  · intro event held
    obtain held | new := last event held
    · exact more (told.last event held)
    · exact trail ▸ List.mem_append_right _ new
  · intro t member
    obtain old | tells := threads t member
    · exact (told.threads t old).mono more
    · exact tells.mono more
  · intro name report held member
    obtain member | member := List.mem_append.mp (trail ▸ member)
    · exact (told.about name report held member).imp (fun failed => more failed) id
    · exact (about name report held member).imp (fun failed => more failed) id

theorem Told.onFault {s : System} (told : Told repr fix s) (event : Fields) : Told repr fix (s.onFault repr event) := by
  simp only [System.onFault]
  split
  · exact told
  rename_i leaf
  have named : nodeOf repr event ≠ "" := fun none => leaf (by simp [wholeTree,none])
  have last (e : Fields) (same : some event = some e) : s.node.lastFault = some e ∨ Mark.failed e ∈ [Mark.failed event] :=
    .inr (by simp [Option.some.inj same])
  split
  · exact told.grows [.failed event] rfl (by simp [named]) last (fun t member => .inl member) (by simp)
  split
  · exact told.grows [.failed event] rfl (by simp [named]) last (fun t member => .inl member) (by simp)
  · refine told.grows [.failed event] rfl (by simp [named]) last (fun t member => ?_) (by simp)
    obtain member | here := List.mem_append.mp member
    · exact .inl member
    · obtain rfl := List.mem_singleton.mp here
      exact .inr trivial

theorem Told.block {s : System} (told : Told repr fix s) (i : Nat) (t : Thread) (reply : Reply)
    (mine : s.threads[i]? = some t) (calm : Undisturbed repr fix s (.thread i reply)) :
    Told repr fix { (s.block repr fix t reply).1 with
      threads := s.threads.set i { t with stage := (s.block repr fix t reply).2 } } := by
  have tells := told.threads t (List.mem_of_getElem? mine)
  have undisturbed := calm t mine
  have placed (stage : Stage) (fine : stage.Tells repr s.trail) :
      ∀ u ∈ s.threads.set i { t with stage }, u ∈ s.threads ∨ u.stage.Tells repr s.trail := by
    intro u member
    obtain member | rfl := List.mem_or_eq_of_mem_set member
    · exact .inl member
    · exact .inr fine
  obtain ⟨event,stage⟩ := t
  cases stage with
  | gathering =>
    simp only [System.block]
    split
    · exact told.grows [] (by simp) (by simp) (fun _ => .inl) (placed _ trivial) (by simp)
    · exact told.grows [] (by simp) (by simp) (fun _ => .inl) (placed _ trivial) (by simp)
    · exact told.grows _ rfl (by simp) (fun _ => .inl) (placed _ trivial) (by simp)
  | asking =>
    simp only [System.block]
    split <;> exact told.grows [] (by simp) (by simp) (fun _ => .inl) (placed _ trivial) (by simp)
  | recording verdict =>
    exact told.grows [] (by simp [System.block]) (by simp) (fun _ => .inl) (placed _ trivial) (by simp)
  | publishing payload =>
    refine told.grows [.routed payload] rfl (by simp) (fun _ => .inl) (placed _ ?_) (by simp)
    simp only [System.block]
    split <;> trivial
  | escalating payload =>
    obtain ⟨fault,held,about⟩ := Option.map_eq_some_iff.mp undisturbed
    refine told.grows [] (by simp [System.block]) (by simp) (fun _ => .inl) (placed _ ?_) (by simp)
    change Stage.Tells repr s.trail (.announcing payload (s.node.lastFault.getD []) s.node.missionXml)
    rw [held]
    exact ⟨told.last fault held,about⟩
  | announcing payload fault missionXml =>
    obtain ⟨failed,about⟩ := tells
    obtain ⟨resolves,same⟩ := undisturbed
    have named := told.leaves fault failed
    have looked : taskFor repr fix fault missionXml = taskOn fix missionXml payload.node := by
      rw [taskFor,field_node repr fault named,about,if_neg (about ▸ named)]
    obtain ⟨task,resolved⟩ : ∃ task, taskOn fix missionXml payload.node = .ok task := by
      cases resolved : taskOn fix missionXml payload.node with
      | ok task => exact ⟨task,rfl⟩
      | error error =>
        rw [resolved] at resolves
        cases resolves
    simp only [System.block,System.announce,looked,resolved]
    refine told.grows _ rfl (by simp) (fun _ => .inl) (placed _ trivial) ?_
    intro name report held member
    obtain ⟨rfl,rfl,rfl⟩ := List.mem_singleton.mp member
    exact ⟨failed,about,same.trans resolved⟩
  | finished payload =>
    exact told.grows [] (by simp [System.block]) (by simp) (fun _ => .inl) (placed _ trivial) (by simp)
  | raised payload error => exact absurd tells id

theorem Told.turn {s : System} (told : Told repr fix s) (i : Nat) (c : Callback) :
    Told repr fix { (s.turn repr fix c).1 with callbacks := s.callbacks.set i (s.turn repr fix c).2 } := by
  obtain ⟨marks,same,kinds⟩ := turn_cases repr fix s c
  simp only [same]
  refine told.grows marks rfl ?_ (fun _ => .inl) (fun t member => .inl member) ?_
  · obtain ⟨payload,-,rfl⟩ | ⟨-,rfl | ⟨report,rfl⟩⟩ := kinds <;> simp
  · obtain ⟨payload,-,rfl⟩ | ⟨-,rfl | ⟨report,rfl⟩⟩ := kinds <;> simp

theorem Told.next {s : System} (told : Told repr fix s) (e : Event) (calm : Undisturbed repr fix s e) :
    Told repr fix (s.next repr fix e) := by
  cases e with
  | statusChange event => exact told.onFault event
  | mission xml => exact told.grows [] (by simp [System.next]) (by simp) (fun _ => .inl) (fun _ => .inl) (by simp)
  | plannerStatus info =>
    simp only [System.next,System.onPlannerStatus]
    split
    · exact told
    · exact told.grows [] (by simp) (by simp) (fun _ => .inl) (fun _ => .inl) (by simp)
  | abort info =>
    exact told.grows [] (by simp [System.next,System.onAbort]) (by simp) (fun _ => .inl) (fun _ => .inl) (by simp)
  | thread i reply =>
    cases mine : s.threads[i]? with
    | none => simpa only [System.next,mine] using told
    | some t => exact next_thread repr fix s i reply t mine ▸ told.block i t reply mine calm
  | callback i =>
    cases mine : s.callbacks[i]? with
    | none => simpa only [System.next,mine] using told
    | some c => exact next_callback repr fix s i c mine ▸ told.turn i c

theorem told_start : Told repr fix {} where
  leaves := fun _ member => absurd member List.not_mem_nil
  last := nofun
  threads := fun _ member => absurd member List.not_mem_nil
  about := fun _ _ _ member => absurd member List.not_mem_nil

theorem accountable {s : System} (routed : Routed repr s) (told : Told repr fix s) : Accountable repr fix s where
  once := fun name => by
    change (account s.node s.trail name).calls ≤ 1
    obtain untouched | ⟨t,-,-,fits⟩ := routed.known name
    · rw [untouched]
      decide
    · exact fits.calls_le
  answered := fun event after suffix past => (routed.answered event after suffix).resolve_left past
  verdicts := routed.verdicts
  reported := fun name payload held past => by
    have held : (account s.node s.trail name).payload = some payload := held
    change (account s.node s.trail name).reports.length = _
    obtain untouched | ⟨t,member,mine,fits⟩ := routed.known name
    · rw [untouched] at held
      cases held
    · have ended := past t member mine
      have tells := told.threads t member
      obtain ⟨event,stage⟩ := t
      cases stage with
      | finished other =>
        obtain rfl := Option.some.inj (held.symm.trans fits.1.held)
        exact fits.2
      | raised other error => exact absurd tells id
      | _ => cases ended
  single := fun name => by
    change (account s.node s.trail name).reports.length ≤ 1
    obtain untouched | ⟨t,-,-,fits⟩ := routed.known name
    · rw [untouched]
      decide
    · exact fits.reports_le
  about := told.about

end

theorem verdicts_accountable (repr : Json → String) (fix : String → String → Option Codec.Target) (s : System)
    (reached : (machine repr fix).Reaches (Undisturbed repr fix) s) : Accountable repr fix s := by
  have both : Routed repr s ∧ Told repr fix s := by
    refine Machine.Reaches.invariant (fun s => Routed repr s ∧ Told repr fix s) ?_ ?_ s reached
    · rintro s rfl
      exact ⟨routed_start,told_start⟩
    · exact fun s e _ holds _ calm => ⟨holds.1.next fix e,holds.2.next e calm⟩
  exact accountable both.1 both.2

def plain (_ : Json) : String := ""
def nowhere (_ _ : String) : Option Codec.Target := none

def failing (leaf : String) : Event := .statusChange [("node",.str leaf),("status",.str "FAILURE")]

def givenUp : Reply := .ok (.dict [("route",.str "escalate"),("rationale",.str "blocked")])

/-- One leaf fails, and is handed to the fleet. -/
def shedRun : List Event :=
  [.mission (.plan Replanning.twoTrees),failing "to_10"] ++ List.replicate 6 (.thread 0 givenUp) ++ [failing "to_60"]

theorem verdicts_accountable_shed :
    ((machine plain nowhere).runs {} shedRun).trail.length = 5 ∧
      Accountable plain nowhere ((machine plain nowhere).runs {} shedRun) :=
  ⟨by decide +kernel,verdicts_accountable plain nowhere _
    ((machine plain nowhere).reaches_runs _ _ _ (.start _ rfl) (by decide +kernel))⟩

/-- Another leaf fails before the model has answered. -/
def overtakenRun : List Event :=
  [.mission (.plan Replanning.twoTrees),failing "to_10",.thread 0 givenUp,failing "to_60"] ++
    List.replicate 5 (.thread 0 givenUp)

def crossed : Mark → Bool
  | .infeasible (some name) report _ => name = "to_10" && nodeOf plain report.fault = "to_60"
  | _ => false

/-- The report for the verdict on the one leaf is about the other. -/
theorem overtaken_misreported :
    ¬∀ (repr : Json → String) (fix : String → String → Option Codec.Target) (s : System),
      (machine repr fix).Reachable s → Accountable repr fix s := by
  intro accountable
  have about := (accountable plain nowhere ((machine plain nowhere).runs {} overtakenRun)
    ((machine plain nowhere).reaches_runs _ _ _ (.start _ rfl) (by decide +kernel))).about
  have misreported : ((machine plain nowhere).runs {} overtakenRun).trail.any crossed = true := by decide +kernel
  obtain ⟨mark,member,wrong⟩ := List.any_eq_true.mp misreported
  cases mark with
  | infeasible verdictOn report held =>
    cases verdictOn with
    | some name =>
      simp only [crossed,Bool.and_eq_true,decide_eq_true_eq] at wrong
      have right := (about name report held member).2.1
      rw [wrong.1,wrong.2] at right
      exact absurd right (by decide)
    | none => cases wrong
  | _ => cases wrong

end AmigaFleet.Triage
