import AmigaFleet.Coordinator.Escalation
import AmigaFleet.Coordinator.Requests
import AmigaFleet.Coordinator.Sponsors
import AmigaFleet.Coordinator.Takeover
import AmigaFleet.Lib.Places
import AmigaFleet.Lib.Visits

/-! The coordinator's node about its session: escalations on threads of their own, notes
drained off the lock, and the preemption flag. Every block that holds a lock is one step,
and callbacks of the blocking group take turns in any order. -/
namespace AmigaFleet.CoordinatorNode
open Lib Coordinator

/-- `TopicPreemption`, with what its two topics were given. -/
structure TopicPreemption where
  requested : Bool := false
  reason : String := ""
  flags : List Bool := [false]
  reasons : List String := []

namespace TopicPreemption

def requestYield (p : TopicPreemption) (reason : String) : TopicPreemption :=
  let p := { p with reason := reason, reasons := p.reasons ++ [reason] }
  if p.requested then p else { p with requested := true, flags := p.flags ++ [true] }

def clear (p : TopicPreemption) : TopicPreemption :=
  if p.requested then { requested := false, reason := "", flags := p.flags ++ [false], reasons := p.reasons ++ [""] }
  else p

/-- A request with its reason, or an acknowledgement. -/
def deal (p : TopicPreemption) : Option String → TopicPreemption
  | some reason => p.requestYield reason
  | none => p.clear

end TopicPreemption

/-- What came of an escalation. -/
inductive Fate where
  | unresolved (error : Json.NumberError)
  | declined (context : AnomalyContext)
  | reported (asked : Option AnomalyContext) (task : Option Task) (detail : String) (door : Door)

inductive Mark where
  | accepted (taskId : Int) (payload : Fields)
  | ignored (taskId : Int)
  | asked (taskId : Int) (context : AnomalyContext)
  | reported (taskId : Int) (task : Option Task) (detail : String) (door : Door)
  | left (taskId : Int)

/-- Where a thread of `_interpret_and_apply` stands. -/
inductive Stage where
  | resolving
  | resolved (task : Option Task)
  | asking (context : AnomalyContext)
  | deciding (asked : Option AnomalyContext) (task : Option Task) (door : Door)
  | leaving (fate : Fate)

structure Thread where
  taskId : Int
  payload : Fields
  stage : Stage := .resolving

/-- A call of `_drain_note_requests`: what it took, and how much of it has been interpreted. -/
structure Drain where
  requests : List NoteContext
  interpreted : Nat := 0

structure Params where
  useTriageAgent : Bool := true
  defaultTaskCapabilities : List String := ["MoveToTreeID"]

structure System where
  session : Session := {}
  preemption : TopicPreemption := {}
  inFlight : List Int := []
  threads : List Thread := []
  drains : List Drain := []
  trail : List Mark := []
  /-- Every request and acknowledgement so far. -/
  signals : List (Option String) := []
  /-- Every note that was ever queued for interpretation. -/
  queued : List NoteContext := []
  /-- The notes that were handed to the interpreter, with the drain that did. -/
  calls : List (Nat × NoteContext) := []

inductive Event where
  | op (label : Label)
  | replanRejected (task : Task) (reason : String) (world : World)
  | preemptAck (data : Bool)
  | infeasible (data : Option Json)
  | thread (k : Nat) (world : World) (response : Option Triage.Response)
  | drain (world : World)
  | interpret (k : Nat) (world : World) (revision : Option (Option BidRevision))

/-- What reaches the session from the layer below and from its timer. -/
def outside : Op → Bool
  | .message _ | .note _ | .outcome _ _ | .tick => true
  | .own _ | .report .. | .takeNoteRequests | .revise .. => false

def yieldReason : Call → Option String
  | .requestYield reason => some reason
  | _ => none

/-- The requests to yield that an operation made, in its order. -/
def yields (before after : Session) : List String := (newCalls before after).reverse.filterMap yieldReason

section
variable (repr : Json → String) (p : Params) (cfg : Config)

namespace System

def perform (world : World) (op : Op) (s : System) : System :=
  let session := (s.session.perform cfg world op).state
  { s with
    session
    preemption := (yields s.session session).foldl TopicPreemption.requestYield s.preemption
    signals := s.signals ++ (yields s.session session).map some
    queued := s.queued ++ session.noteRequests.drop s.session.noteRequests.length }

/-- `_on_preempt_ack`. -/
def onPreemptAck (data : Bool) (s : System) : System :=
  if data then { s with preemption := s.preemption.clear, signals := s.signals ++ [none] } else s

/-- `_on_infeasible`. A task id that is none raises here, and nothing is started. -/
def onInfeasible (data : Option Json) (s : System) : System :=
  match parseEscalation data with
  | none => s
  | some payload =>
    match taskIdOf payload with
    | .error _ => s
    | .ok taskId =>
      if taskId ∈ s.inFlight then { s with trail := s.trail ++ [.ignored taskId] }
      else { s with
        inFlight := s.inFlight ++ [taskId]
        threads := s.threads ++ [{ taskId, payload }]
        trail := s.trail ++ [.accepted taskId payload] }

/-- The action of an answer, or nothing where the client raises. -/
def answered (response : Option Triage.Response) (context : AnomalyContext) : Option Action :=
  (response.filter Triage.Response.ok).bind (fun r => (Triage.decode repr r context).toOption)

/-- One block of a thread. -/
def block (world : World) (response : Option Triage.Response) (k : Nat) (t : Thread) (s : System) : System :=
  let go (s : System) (stage : Stage) : System := { s with threads := s.threads.set k { t with stage } }
  let detail := detailOf repr t.payload
  match t.stage with
  | .resolving =>
    match taskFor p.defaultTaskCapabilities s.session t.taskId t.payload with
    | .ok task => go s (.resolved task)
    | .error error => go s (.leaving (.unresolved error))
  | .resolved task =>
    let context := s.session.anomalyContext world task detail Codec.ReasonCode.taskFailed (world.clock s.session.log)
    if p.useTriageAgent then go { s with trail := s.trail ++ [.asked t.taskId context] } (.asking context)
    else go s (.deciding none task .asked)
  | .asking context =>
    match answered repr response context with
    | some action => go s (.deciding (some context) context.task (.given (some action)))
    | none => go s (.leaving (.declined context))
  | .deciding asked task door =>
    let s := s.perform cfg world (.report task detail Codec.ReasonCode.taskFailed door)
    go { s with trail := s.trail ++ [.reported t.taskId task detail door] } (.leaving (.reported asked task detail door))
  | .leaving _ =>
    { s with
      inFlight := s.inFlight.filter (· ≠ t.taskId)
      threads := s.threads.eraseIdx k
      trail := s.trail ++ [.left t.taskId] }

/-- `_drain_note_requests`, up to its first call of the interpreter. -/
def drain (world : World) (s : System) : System :=
  { s.perform cfg world .takeNoteRequests with drains := s.drains ++ [{ requests := s.session.noteRequests }] }

/-- The next note of a drain is interpreted, and its bid revised where that did not raise. -/
def interpret (k : Nat) (world : World) (revision : Option (Option BidRevision)) (s : System) : System :=
  match s.drains[k]? with
  | none => s
  | some d =>
    match d.requests[d.interpreted]? with
    | none => s
    | some context =>
      let s := { s with
        drains := s.drains.set k { d with interpreted := d.interpreted + 1 }
        calls := s.calls ++ [(k,context)] }
      match revision with
      | none => s
      | some revision => s.perform cfg world (.revise context.taskId revision)

def next (s : System) : Event → System
  | .op label => s.perform cfg label.world label.op
  | .replanRejected task reason world => s.perform cfg world (.report (some task)
      ("replan rejected by verification: " ++ reason) Codec.ReasonCode.taskFailed .asked)
  | .preemptAck data => s.onPreemptAck data
  | .infeasible data => s.onInfeasible data
  | .thread k world response =>
    match s.threads[k]? with
    | none => s
    | some t => s.block repr p cfg world response k t
  | .drain world => s.drain cfg world
  | .interpret k world revision => s.interpret cfg k world revision

def enabled (s : System) : Event → Prop
  | .op label => (Coordinator.machine cfg).enabled s.session label ∧ outside label.op = true
  | .thread k _ _ => k < s.threads.length
  | .interpret k _ _ => s.drains[k]?.any (fun d => decide (d.interpreted < d.requests.length))
  | .replanRejected .. | .preemptAck _ | .infeasible _ | .drain _ => True

instance (s : System) : (e : Event) → Decidable (s.enabled cfg e)
  | .op label =>
    inferInstanceAs (Decidable ((Coordinator.machine cfg).enabled s.session label ∧ outside label.op = true))
  | .thread k _ _ => inferInstanceAs (Decidable (k < s.threads.length))
  | .interpret k _ _ => inferInstanceAs (Decidable (s.drains[k]?.any (fun d => decide (d.interpreted < d.requests.length)) = true))
  | .replanRejected .. | .preemptAck _ | .infeasible _ | .drain _ => inferInstanceAs (Decidable True)

/-- The node from its start. -/
def machine : Machine System Event where
  initial s := s = {}
  enabled := enabled cfg
  next := next repr p cfg

instance (s : System) (e : Event) : Decidable ((machine repr p cfg).enabled s e) :=
  inferInstanceAs (Decidable (s.enabled cfg e))

end System
end

/-! ### What the session is told and says -/

section
variable (cfg : Config) (world : World)

/-- An operation adds to the queue of notes, but for the one that takes them. -/
theorem perform_queues (op : Op) (others : op ≠ .takeNoteRequests) (s : Session) :
    s.noteRequests <+: (s.perform cfg world op).state.noteRequests := by
  by_cases silent : op.silent = true
  · rw [Session.perform_requests cfg world op silent s]
  · cases op with
    | takeNoteRequests => exact absurd rfl others
    | note note =>
      rw [Session.perform,Flow.state_returned]
      obtain same | ⟨pending,_,_,same⟩ := Session.onNote_cases cfg world note s
      · rw [same]
      · rw [same]
        exact List.prefix_append _ _
    | revise taskId revision =>
      rw [Session.perform,Flow.state_returned]
      unfold Session.reviseBid
      split
      · exact List.prefix_refl _
      · exact List.prefix_refl _
      · split
        · exact List.prefix_refl _
        · split <;> exact List.prefix_refl _
    | message message =>
      cases message with
      | taskAnnounce m =>
        rw [Session.perform,Session.onMessage]
        split
        · exact List.prefix_refl _
        · rw [Flow.state_handled]
          obtain ⟨same,_⟩ | ⟨task,fitness,answers,_⟩ :=
            Session.onAnnounce_cases cfg world m (world.clock s.log) (s.say (.received (.taskAnnounce m) s.tasks))
          · rw [same]
            exact List.prefix_refl _
          · rw [Session.onAnnounce_answers cfg world m _ _ task fitness answers]
            exact List.prefix_append _ _
      | _ => exact absurd rfl silent
    | _ => exact absurd rfl silent

theorem yields_log (op : Op) (s : Session) :
    (s.perform cfg world op).state.log.reverse.filterMap yieldReason =
      s.log.reverse.filterMap yieldReason ++ yields s (s.perform cfg world op).state := by
  obtain ⟨added,grown⟩ := Session.perform_log cfg world op s
  rw [yields,newCalls_of_log _ _ added grown.symm,← grown,List.reverse_append,List.filterMap_append]

end

/-! ### The flag -/

namespace TopicPreemption

/-- What the topics show after the signals so far, the last of which is given. -/
structure Shows (p : TopicPreemption) (last : Option String) : Prop where
  requested : p.requested = last.isSome
  reason : p.reason = last.getD ""
  turns : p.flags.IsChain (· ≠ ·)
  lowered : p.flags.head? = some false
  flag : p.flags.getLast? = some p.requested
  told : p.reasons.getLast?.getD "" = p.reason

theorem Shows.raise {p : TopicPreemption} {last : Option String} (shows_ : p.Shows last) (reason : String) :
    (p.requestYield reason).Shows (some reason) := by
  unfold requestYield
  cases up : p.requested with
  | true =>
    exact ⟨rfl,rfl,shows_.turns,shows_.lowered,shows_.flag.trans (congrArg some up),by simp⟩
  | false =>
    refine ⟨rfl,rfl,?_,?_,by simp,by simp⟩
    · refine List.isChain_append.mpr ⟨shows_.turns,List.isChain_singleton _,?_⟩
      intro flag last next first
      rw [shows_.flag,up] at last
      cases last
      cases first
      exact Bool.false_ne_true
    · simp [List.head?_append,shows_.lowered]

theorem Shows.lower {p : TopicPreemption} {last : Option String} (shows_ : p.Shows last) : p.clear.Shows none := by
  unfold clear
  cases up : p.requested with
  | true =>
    refine ⟨rfl,rfl,?_,?_,by simp,by simp⟩
    · refine List.isChain_append.mpr ⟨shows_.turns,List.isChain_singleton _,?_⟩
      intro flag last next first
      rw [shows_.flag,up] at last
      cases last
      cases first
      exact Bool.true_eq_false.mp
    · simp [List.head?_append,shows_.lowered]
  | false =>
    have nothing : last = none := by
      rw [shows_.requested] at up
      simpa using up
    rw [nothing] at shows_
    exact shows_

theorem shows_signals (signals : List (Option String)) :
    (signals.foldl deal {}).Shows (signals.getLast?.getD none) := by
  induction signals using List.reverseRecOn with
  | nil => exact ⟨rfl,rfl,List.isChain_singleton _,rfl,rfl,rfl⟩
  | append_singleton signals signal ih =>
    rw [List.foldl_append,List.getLast?_concat]
    cases signal with
    | none => exact ih.lower
    | some reason => exact ih.raise reason

theorem deal_requests (p : TopicPreemption) (reasons : List String) :
    (reasons.map some).foldl deal p = reasons.foldl requestYield p := by
  rw [List.foldl_map]
  rfl

end TopicPreemption

/-! ### Threads -/

def Mark.about : Mark → Option Int
  | accepted taskId _ | asked taskId _ | reported taskId .. | left taskId => some taskId
  | ignored _ => none

def Fate.marks (taskId : Int) : Fate → List Mark
  | unresolved _ => []
  | declined context => [.asked taskId context]
  | reported asked task detail door => asked.toList.map (.asked taskId) ++ [.reported taskId task detail door]

def Stage.marks (taskId : Int) : Stage → List Mark
  | resolving | resolved _ => []
  | asking context => [.asked taskId context]
  | deciding asked _ _ => asked.toList.map (.asked taskId)
  | leaving fate => fate.marks taskId

def Thread.marks (t : Thread) : List Mark := .accepted t.taskId t.payload :: t.stage.marks t.taskId

section
variable (repr : Json → String) (p : Params) (taskId : Int) (payload : Fields)

/-- What triage is asked of the escalation. -/
structure Asks (context : AnomalyContext) : Prop where
  enabled : p.useTriageAgent = true
  task : About taskId context.task
  detail : context.detail = detailOf repr payload

/-- How the report of the escalation comes by its task and its action. -/
inductive Decides : Option AnomalyContext → Option Task → Door → Prop
  | triage (context : AnomalyContext) (asks : Asks repr p taskId payload context) (response : Triage.Response)
      (action : Action) (decoded : Triage.decode repr response context = .ok action)
      (about : Triage.kindOf action ≠ "add_task" → context.task = some action.task) :
      Decides (some context) context.task (.given (some action))
  | interpreter (task : Option Task) (disabled : p.useTriageAgent = false) (about : About taskId task) :
      Decides none task .asked

def Fate.Sound : Fate → Prop
  | unresolved error => ∃ s, taskFor p.defaultTaskCapabilities s taskId payload = .error error
  | declined context => Asks repr p taskId payload context
  | reported asked task detail door => Decides repr p taskId payload asked task door ∧ detail = detailOf repr payload

def Stage.Sound : Stage → Prop
  | resolving => True
  | resolved task => About taskId task
  | asking context => Asks repr p taskId payload context
  | deciding asked task door => Decides repr p taskId payload asked task door
  | leaving fate => fate.Sound repr p taskId payload

/-- The marks of an escalation from when it is accepted to when its thread is gone. -/
def Ended (taskId : Int) (visit : List Mark) : Prop :=
  ∃ payload fate, visit = .accepted taskId payload :: Fate.marks taskId fate ++ [.left taskId] ∧
    Fate.Sound repr p taskId payload fate

end

/-! ### Runs -/

namespace System

/-- The session runs as a session does, and the topics follow what it asks and what is acknowledged. -/
structure Signalled (cfg : Config) (s : System) : Prop where
  session : (Coordinator.machine cfg).Reachable s.session
  preemption : s.preemption = s.signals.foldl TopicPreemption.deal {}
  requests : s.signals.filterMap id = s.session.log.reverse.filterMap yieldReason

/-- Every note queued has gone to one drain or waits, and each drain has interpreted its first ones. -/
structure Drained (s : System) : Prop where
  queued : s.queued = s.drains.flatMap Drain.requests ++ s.session.noteRequests
  within : ∀ d ∈ s.drains, d.interpreted ≤ d.requests.length
  called : ∀ k, (s.calls.filter (fun call => call.1 = k)).map Prod.snd =
    (s.drains[k]?.map (fun d => d.requests.take d.interpreted)).getD []

/-- Nothing but threads, ids and the trail is touched. -/
structure Aside (s t : System) : Prop where
  session : t.session = s.session
  preemption : t.preemption = s.preemption
  signals : t.signals = s.signals
  drains : t.drains = s.drains
  queued : t.queued = s.queued
  calls : t.calls = s.calls

structure Answered (repr : Json → String) (p : Params) (s : System) : Prop where
  inFlight : s.inFlight = s.threads.map Thread.taskId
  sound : ∀ t ∈ s.threads, t.stage.Sound repr p t.taskId t.payload
  visits : Visits Thread.taskId Mark.about Thread.marks (Ended repr p) s.trail s.threads

section
variable {repr : Json → String} {p : Params} {cfg : Config} {s : System}

theorem Signalled.perform (kept : s.Signalled cfg) (world : World) (op : Op)
    (enabled : (Coordinator.machine cfg).enabled s.session ⟨world,op⟩) : (s.perform cfg world op).Signalled cfg where
  session := Machine.Reaches.step s.session (Label.mk world op) kept.session enabled trivial
  preemption := by
    simp only [System.perform]
    rw [List.foldl_append,TopicPreemption.deal_requests,← kept.preemption]
  requests := by
    simp only [System.perform]
    rw [List.filterMap_append,kept.requests,List.filterMap_map,yields_log]
    simp

theorem Signalled.acknowledged (kept : s.Signalled cfg) (data : Bool) : (s.onPreemptAck data).Signalled cfg := by
  unfold onPreemptAck
  split
  · refine ⟨kept.session,?_,?_⟩
    · rw [List.foldl_append,← kept.preemption]
      rfl
    · rw [List.filterMap_append,kept.requests]
      simp
  · exact kept

theorem Signalled.aside {t : System} (kept : s.Signalled cfg) (aside : Aside s t) : t.Signalled cfg where
  session := aside.session ▸ kept.session
  preemption := by rw [aside.preemption,aside.signals,kept.preemption]
  requests := by rw [aside.signals,aside.session,kept.requests]

theorem Drained.perform (kept : s.Drained) (world : World) (op : Op) (others : op ≠ .takeNoteRequests) :
    (s.perform cfg world op).Drained where
  queued := by
    obtain ⟨new,more⟩ := perform_queues cfg world op others s.session
    simp only [System.perform]
    rw [kept.queued,← more,List.drop_left,List.append_assoc]
  within := kept.within
  called := kept.called

theorem Drained.aside {t : System} (kept : s.Drained) (aside : Aside s t) : t.Drained where
  queued := by rw [aside.queued,aside.drains,aside.session,kept.queued]
  within := aside.drains ▸ kept.within
  called k := by rw [aside.calls,aside.drains,kept.called]

theorem Drained.drain (kept : s.Drained) (world : World) : (s.drain cfg world).Drained where
  queued := by
    simp only [System.drain,System.perform,Session.perform,Flow.state_returned]
    rw [kept.queued,List.flatMap_append]
    simp
  within := by
    intro d member
    obtain old | last := List.mem_append.mp member
    · exact kept.within d old
    · rw [List.mem_singleton.mp last]
      exact Nat.zero_le _
  called k := by
    have before := kept.called k
    simp only [System.drain,System.perform]
    rw [before]
    by_cases here : k = s.drains.length
    · rw [here,List.getElem?_append_right le_rfl,Nat.sub_self,List.getElem?_eq_none le_rfl]
      rfl
    · by_cases old : k < s.drains.length
      · rw [List.getElem?_append_left old]
      · rw [List.getElem?_append_right (by omega),List.getElem?_eq_none (by omega),List.getElem?_eq_none (by simp; omega)]

/-- A drain goes on to its next note. -/
theorem Drained.call (kept : s.Drained) (k : Nat) (d : Drain) (context : NoteContext) (found : s.drains[k]? = some d)
    (waits : d.requests[d.interpreted]? = some context) :
    Drained { s with
      drains := s.drains.set k { d with interpreted := d.interpreted + 1 }
      calls := s.calls ++ [(k,context)] } where
  queued := by
    have flat : (s.drains.set k { d with interpreted := d.interpreted + 1 }).flatMap Drain.requests =
        s.drains.flatMap Drain.requests := by
      rw [List.flatMap_def,List.flatMap_def,map_set_key Drain.requests s.drains k d
        { d with interpreted := d.interpreted + 1 } found rfl]
    simp only
    rw [flat,kept.queued]
  within := by
    intro other member
    obtain old | rfl := List.mem_or_eq_of_mem_set member
    · exact kept.within other old
    · exact (List.getElem?_eq_some_iff.mp waits).1
  called j := by
    have before := kept.called j
    simp only
    rw [List.filter_append,List.map_append,before]
    by_cases here : k = j
    · subst here
      rw [List.getElem?_set_self (List.getElem?_eq_some_iff.mp found).1,found]
      simp only [Option.map_some,Option.getD_some]
      rw [List.take_add_one,waits]
      simp
    · rw [List.getElem?_set_ne here]
      simp [here]

/-- What the threads and their trail do not show. -/
theorem Answered.same {t : System} (kept : s.Answered repr p) (inFlight : t.inFlight = s.inFlight)
    (threads : t.threads = s.threads) (trail : t.trail = s.trail) : t.Answered repr p where
  inFlight := by rw [inFlight,threads,kept.inFlight]
  sound := threads ▸ kept.sound
  visits := by
    rw [threads,trail]
    exact kept.visits

theorem Answered.infeasible (kept : s.Answered repr p) (data : Option Json) : (s.onInfeasible data).Answered repr p := by
  unfold onInfeasible
  split
  · exact kept
  split
  · exact kept
  rename_i payload _ _ taskId _
  split
  · exact ⟨kept.inFlight,kept.sound,kept.visits.pass [.ignored taskId] (fun m member => by rw [List.mem_singleton.mp member]; rfl)⟩
  · rename_i free
    refine ⟨?_,?_,?_⟩
    · simp [kept.inFlight]
    · intro t member
      obtain old | last := List.mem_append.mp member
      · exact kept.sound t old
      · rw [List.mem_singleton.mp last]
        trivial
    · rw [kept.inFlight] at free
      apply kept.visits.enter { taskId, payload } free
      intro m member
      rw [List.mem_singleton.mp member]
      rfl

/-- A thread goes on to another stage. -/
theorem Answered.advance {t : System} (kept : s.Answered repr p) (k : Nat) (thread : Thread) (found : s.threads[k]? = some thread)
    (stage : Stage) (new : List Mark) (more : stage.marks thread.taskId = thread.stage.marks thread.taskId ++ new)
    (own : ∀ m ∈ new, m.about = some thread.taskId) (sound : stage.Sound repr p thread.taskId thread.payload)
    (inFlight : t.inFlight = s.inFlight) (threads : t.threads = s.threads.set k { thread with stage })
    (trail : t.trail = s.trail ++ new) : t.Answered repr p := by
  obtain ⟨before,later,shape,set,-⟩ := split_place s.threads k thread found
  refine ⟨?_,?_,?_⟩
  · rw [inFlight,threads,kept.inFlight,map_set_key Thread.taskId s.threads k thread { thread with stage } found rfl]
  · rw [threads]
    intro other member
    obtain old | rfl := List.mem_or_eq_of_mem_set member
    · exact kept.sound other old
    · exact sound
  · have visits := kept.visits
    rw [shape] at visits
    rw [threads,trail,set]
    apply visits.work { thread with stage } rfl new _ own
    rw [Thread.marks,more]
    rfl

/-- A thread goes on and nothing of it shows. -/
theorem Answered.quiet {t : System} (kept : s.Answered repr p) (k : Nat) (thread : Thread) (found : s.threads[k]? = some thread)
    (stage : Stage) (more : stage.marks thread.taskId = thread.stage.marks thread.taskId)
    (sound : stage.Sound repr p thread.taskId thread.payload) (inFlight : t.inFlight = s.inFlight)
    (threads : t.threads = s.threads.set k { thread with stage }) (trail : t.trail = s.trail) : t.Answered repr p := by
  apply kept.advance k thread found stage [] _ _ sound inFlight threads
  · rw [trail,List.append_nil]
  · rw [more,List.append_nil]
  · exact fun _ absent => absurd absent List.not_mem_nil

/-- An action that adds no task is about the task it was asked for. -/
theorem decode_about (response : Triage.Response) (context : AnomalyContext) (action : Action)
    (decoded : Triage.decode repr response context = .ok action) (other : Triage.kindOf action ≠ "add_task") :
    context.task = some action.task := by
  unfold Triage.decode at decoded
  dsimp only at decoded
  split at decoded
  · split at decoded
    · cases decoded
    · rename_i task held
      injection decoded with decoded
      rw [held,← decoded]
      rfl
  · split at decoded
    · split at decoded
      · cases decoded
      · rename_i task held
        injection decoded with decoded
        rw [held,← decoded]
        rfl
    · split at decoded
      · cases taken : Triage.taskFrom response with
        | error => rw [taken] at decoded; cases decoded
        | ok task =>
          rw [taken] at decoded
          injection decoded with decoded
          rw [← decoded] at other
          exact absurd rfl other
      · cases decoded

theorem answered_decodes (response : Option Triage.Response) (context : AnomalyContext) (action : Action)
    (taken : answered repr response context = some action) :
    ∃ r, Triage.decode repr r context = .ok action := by
  obtain ⟨r,-,decoded⟩ := Option.bind_eq_some_iff.mp taken
  refine ⟨r,?_⟩
  cases decode : Triage.decode repr r context with
  | error => rw [decode] at decoded; cases decoded
  | ok other =>
    rw [decode] at decoded
    exact congrArg Except.ok (Option.some.inj decoded)

theorem Answered.block (kept : s.Answered repr p) (keyed : ∀ id r, s.session.tasks.get? id = some r → r.task.taskId = id)
    (world : World) (response : Option Triage.Response) (k : Nat) (t : Thread) (found : s.threads[k]? = some t) :
    (s.block repr p cfg world response k t).Answered repr p := by
  have sound := kept.sound t (List.mem_of_getElem? found)
  unfold System.block
  cases stage : t.stage with
  | resolving =>
    dsimp only
    split
    · rename_i task resolved
      exact kept.quiet k t found (.resolved task) (by rw [stage]; rfl) (taskFor_about _ _ keyed _ _ task resolved) rfl rfl rfl
    · rename_i error resolved
      exact kept.quiet k t found (.leaving (.unresolved error)) (by rw [stage]; rfl) ⟨s.session,resolved⟩ rfl rfl rfl
  | resolved task =>
    rw [stage] at sound
    dsimp only
    generalize made : s.session.anomalyContext world task (detailOf repr t.payload) Codec.ReasonCode.taskFailed
      (world.clock s.session.log) = context
    have about : About t.taskId context.task := by
      rw [← made]
      exact sound
    have detail : context.detail = detailOf repr t.payload := by rw [← made]; rfl
    split
    · rename_i enabled
      refine kept.advance k t found (.asking context) [.asked t.taskId context] (by rw [stage]; rfl) ?_
        ⟨enabled,about,detail⟩ rfl rfl rfl
      intro m member
      rw [List.mem_singleton.mp member]
      rfl
    · rename_i disabled
      exact kept.quiet k t found (.deciding none task .asked) (by rw [stage]; rfl)
        (.interpreter task (by simpa using disabled) sound) rfl rfl rfl
  | asking context =>
    rw [stage] at sound
    dsimp only
    split
    · rename_i action taken
      obtain ⟨r,decoded⟩ := answered_decodes response context action taken
      exact kept.quiet k t found (.deciding (some context) context.task (.given (some action))) (by rw [stage]; rfl)
        (.triage context sound r action decoded (decode_about r context action decoded)) rfl rfl rfl
    · exact kept.quiet k t found (.leaving (.declined context)) (by rw [stage]; rfl) sound rfl rfl rfl
  | deciding asked task door =>
    rw [stage] at sound
    refine kept.advance k t found (.leaving (.reported asked task (detailOf repr t.payload) door)) [.reported t.taskId task _ door]
      (by rw [stage]; rfl) ?_ ⟨sound,rfl⟩ rfl rfl rfl
    intro m member
    rw [List.mem_singleton.mp member]
    rfl
  | leaving fate =>
    rw [stage] at sound
    obtain ⟨before,later,shape,-,erased⟩ := split_place s.threads k t found
    have visits := kept.visits
    rw [shape] at visits
    refine ⟨?_,?_,?_⟩
    · dsimp only
      rw [erased,kept.inFlight,shape]
      exact keys_without before later t visits.apart
    · dsimp only
      intro other member
      exact kept.sound other (List.mem_of_mem_eraseIdx member)
    · dsimp only
      rw [erased]
      apply visits.leave [.left t.taskId]
      · intro m member
        rw [List.mem_singleton.mp member]
        rfl
      · refine ⟨t.payload,fate,?_,sound⟩
        rw [Thread.marks,stage]
        rfl

/-- A block of a thread goes on beside the session, or makes its report. -/
theorem block_cases (world : World) (response : Option Triage.Response) (k : Nat) (t : Thread) :
    Aside s (s.block repr p cfg world response k t) ∨ ∃ task detail door,
      Aside (s.perform cfg world (.report task detail Codec.ReasonCode.taskFailed door)) (s.block repr p cfg world response k t) := by
  unfold System.block
  cases t.stage with
  | resolving =>
    dsimp only
    split <;> exact .inl ⟨rfl,rfl,rfl,rfl,rfl,rfl⟩
  | resolved task =>
    dsimp only
    split <;> exact .inl ⟨rfl,rfl,rfl,rfl,rfl,rfl⟩
  | asking context =>
    dsimp only
    split <;> exact .inl ⟨rfl,rfl,rfl,rfl,rfl,rfl⟩
  | deciding asked task door => exact .inr ⟨task,_,door,⟨rfl,rfl,rfl,rfl,rfl,rfl⟩⟩
  | leaving fate => exact .inl ⟨rfl,rfl,rfl,rfl,rfl,rfl⟩

theorem onInfeasible_aside (data : Option Json) : Aside s (s.onInfeasible data) := by
  unfold onInfeasible
  split
  · exact ⟨rfl,rfl,rfl,rfl,rfl,rfl⟩
  split
  · exact ⟨rfl,rfl,rfl,rfl,rfl,rfl⟩
  split <;> exact ⟨rfl,rfl,rfl,rfl,rfl,rfl⟩

theorem Signalled.next (kept : s.Signalled cfg) (e : Event) (enabled : s.enabled cfg e) :
    (s.next repr p cfg e).Signalled cfg := by
  cases e with
  | op label => exact kept.perform label.world label.op enabled.1
  | replanRejected task reason world => exact kept.perform world _ trivial
  | preemptAck data => exact kept.acknowledged data
  | infeasible data => exact kept.aside (onInfeasible_aside data)
  | thread k world response =>
    rw [System.next]
    split
    · exact kept
    · rename_i t _
      obtain aside | ⟨task,detail,door,aside⟩ := block_cases (s := s) (p := p) world response k t
      · exact kept.aside aside
      · exact (kept.perform world (.report task detail Codec.ReasonCode.taskFailed door) trivial).aside aside
  | drain world =>
    have taken := kept.perform world .takeNoteRequests trivial
    exact ⟨taken.session,taken.preemption,taken.requests⟩
  | interpret k world revision =>
    rw [System.next]
    unfold interpret
    split
    · exact kept
    split
    · exact kept
    have called (drains : List Drain) (calls : List (Nat × NoteContext)) :
        Signalled cfg { s with drains := drains, calls := calls } := ⟨kept.session,kept.preemption,kept.requests⟩
    dsimp only
    split
    · exact called _ _
    · exact (called _ _).perform world _ trivial

theorem Drained.next (kept : s.Drained) (e : Event) (enabled : s.enabled cfg e) : (s.next repr p cfg e).Drained := by
  cases e with
  | op label =>
    apply kept.perform label.world label.op
    intro taken
    have outer := enabled.2
    rw [taken] at outer
    cases outer
  | replanRejected task reason world => exact kept.perform world _ nofun
  | preemptAck data =>
    rw [System.next,onPreemptAck]
    split <;> exact ⟨kept.queued,kept.within,kept.called⟩
  | infeasible data => exact kept.aside (onInfeasible_aside data)
  | thread k world response =>
    rw [System.next]
    split
    · exact kept
    · rename_i t _
      obtain aside | ⟨task,detail,door,aside⟩ := block_cases (s := s) (p := p) world response k t
      · exact kept.aside aside
      · exact (kept.perform world (.report task detail Codec.ReasonCode.taskFailed door) nofun).aside aside
  | drain world => exact kept.drain world
  | interpret k world revision =>
    rw [System.next]
    unfold interpret
    split
    · exact kept
    rename_i d found
    split
    · exact kept
    rename_i context waits
    have called := kept.call k d context found waits
    dsimp only
    split
    · exact called
    · exact called.perform world _ nofun

theorem Answered.next (kept : s.Answered repr p) (signalled : s.Signalled cfg) (e : Event) :
    (s.next repr p cfg e).Answered repr p := by
  cases e with
  | op label => exact kept.same rfl rfl rfl
  | replanRejected task reason world => exact kept.same rfl rfl rfl
  | preemptAck data =>
    rw [System.next,onPreemptAck]
    split
    · exact kept.same rfl rfl rfl
    · exact kept
  | infeasible data => exact kept.infeasible data
  | thread k world response =>
    rw [System.next]
    split
    · exact kept
    · rename_i t found
      exact kept.block (Session.reachable_tracked cfg _ _ (Session.tracks_backed cfg) s.session signalled.session).keyed
        world response k t found
  | drain world => exact kept.same rfl rfl rfl
  | interpret k world revision =>
    rw [System.next]
    unfold interpret
    split
    · exact kept
    split
    · exact kept
    dsimp only
    split <;> exact kept.same rfl rfl rfl

theorem signalled (reached : (machine repr p cfg).Reachable s) : s.Signalled cfg := by
  refine Machine.Reaches.invariant (Signalled cfg) ?_ (fun s e _ kept enabled _ => kept.next e enabled) s reached
  intro s initial
  rw [initial]
  exact ⟨.start _ rfl,rfl,rfl⟩

end

section
variable (repr : Json → String) (p : Params) (cfg : Config)

/-- The session of a node is a run of a session. The flag follows what that session asks
and what is acknowledged: it starts lowered, never shows the same twice, and is up, with the
reason asked for last, where a request came after the last acknowledgement. -/
theorem preemption_follows (s : System) (reached : (machine repr p cfg).Reachable s) :
    (Coordinator.machine cfg).Reachable s.session ∧ s.preemption.Shows (s.signals.getLast?.getD none) ∧
      s.signals.filterMap id = s.session.log.reverse.filterMap yieldReason := by
  have kept := signalled reached
  refine ⟨kept.session,?_,kept.requests⟩
  rw [kept.preemption]
  exact TopicPreemption.shows_signals s.signals

end

def standing : World := { clock := fun _ => 0, unit := World.still }

/-- A task is dropped, and the tree acknowledges. -/
def droppedRun : List Event :=
  [.replanRejected (Task.seventh .none) "no" { standing with
    interpret := fun _ => some (.dropTask (Task.seventh .none) .drop 1) },.preemptAck true]

theorem preemption_follows_raised :
    ((machine Triage.plain {} Config.first).runs {} droppedRun).preemption.flags = [false,true,false] ∧
      ((machine Triage.plain {} Config.first).runs {} droppedRun).preemption.Shows none := by
  have signals : ((machine Triage.plain {} Config.first).runs {} droppedRun).signals.getLast?.getD none = none := by
    decide +kernel
  refine ⟨by decide +kernel,?_⟩
  rw [← signals]
  exact (preemption_follows Triage.plain {} Config.first _
    ((machine Triage.plain {} Config.first).reaches_runs _ _ _ (.start _ rfl) (by decide +kernel))).2.1

section
variable (repr : Json → String) (p : Params) (cfg : Config)

/-- Every note queued is handed to one drain, in order, and each drain hands the
interpreter its notes in order, each once. -/
theorem notes_interpreted_once (s : System) (reached : (machine repr p cfg).Reachable s) : s.Drained := by
  refine Machine.Reaches.invariant Drained ?_ (fun s e _ kept enabled _ => kept.next e enabled) s reached
  intro s initial
  rw [initial]
  exact ⟨rfl,nofun,fun k => by simp⟩

end

/-- A task is announced, a note about it comes, and it is drained and interpreted. -/
def notedRun : List Event :=
  [.op ⟨standing,.message (.taskAnnounce ⟨2,0,7,0,0,0,0,0,1⟩)⟩,.op ⟨standing,.note ⟨2,7,0,"wet",0⟩⟩,.drain standing,
    .interpret 0 standing none]

theorem notes_interpreted_once_drained :
    ((machine Triage.plain {} Config.first).runs {} notedRun).calls.length = 1 ∧
      ((machine Triage.plain {} Config.first).runs {} notedRun).Drained :=
  ⟨by decide +kernel,notes_interpreted_once Triage.plain {} Config.first _
    ((machine Triage.plain {} Config.first).reaches_runs _ _ _ (.start _ rfl) (by decide +kernel))⟩

section
variable (repr : Json → String) (p : Params) (cfg : Config)

/-- No two threads are at work on one id. What is on the trail about an id is one whole
answer to an escalation after another, and then what the thread at work has done. -/
theorem escalations_answered (s : System) (reached : (machine repr p cfg).Reachable s) : s.Answered repr p := by
  refine Machine.Reaches.invariant (Answered repr p) ?_ (fun s e before kept _ _ => kept.next (signalled before) e) s reached
  intro s initial
  rw [initial]
  exact ⟨rfl,fun _ absent => absurd absent List.not_mem_nil,.start⟩

end

/-- Two escalations about one task at once, and another when the first is done with. -/
def sevenRun : List Event :=
  let seven : Event := .infeasible (some (.dict [("task_id",.int 7)]))
  [seven,seven] ++ List.replicate 4 (.thread 0 standing none) ++ [seven]

theorem escalations_answered_seven :
    ((machine Triage.plain {} Config.first).runs {} sevenRun).trail.length = 5 ∧
      ((machine Triage.plain {} Config.first).runs {} sevenRun).Answered Triage.plain {} :=
  ⟨by decide +kernel,escalations_answered Triage.plain {} Config.first _
    ((machine Triage.plain {} Config.first).reaches_runs _ _ _ (.start _ rfl) (by decide +kernel))⟩

end System

end AmigaFleet.CoordinatorNode
