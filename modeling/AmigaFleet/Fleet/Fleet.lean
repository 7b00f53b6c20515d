import AmigaFleet.Coordinator.Outcomes
import AmigaFleet.Coordinator.Turns
import Mathlib.Logic.Function.Basic

/-! A fleet: one session a robot, and the frames on the air between them. A
frame may be heard by any robot or lost; a robot hears each frame once at most.
The link below answers a GRANT's sender DELIVERED only once its addressee has
heard it. -/
namespace AmigaFleet.Coordinator
open Lib AmigaFleet.Codec AmigaFleet.Reliability

def Call.aired : Call → Option Message
  | .broadcast message sent => if sent then some message else none
  | .sendReliable _ _ message reply => if reply = .refused then none else some message
  | _ => none

/-- The offer a call speaks of: its announcer and its task. A Bid speaks of the
offer it was computed for. -/
def Call.offer (robot : Int) (bids : Dict Int PendingBid) : Call → Option (Int × Task)
  | .broadcast (.taskAnnounce m) _ => (Session.announcedTask m).map (fun task => (robot,task))
  | .broadcast (.bid bid) _ => (bids.get? bid.taskId).map (fun p => (p.announcerId,p.task))
  | .sendReliable record _ _ _ => some (robot,record.task)
  | _ => none

/-- A message on the air, stamped with its sender and its place among the
sender's calls. What it offers is not on the wire. -/
structure Frame where
  message : Message
  offer : Option (Int × Task)
  deriving DecidableEq

def frames (robot : Int) (before : Session) : Log → List Frame
  | [] => []
  | call::rest =>
    if rest.length < before.log.length then []
    else
      match call.aired with
      | none => frames robot before rest
      | some message => ⟨message.stamped robot (rest.length + 1),call.offer robot before.bids⟩ ::
          frames robot before rest

structure Team where
  members : List Int
  config : Int → Config
  named : ∀ robot ∈ members, (config robot).nodeId = robot

structure Fleet where
  sessions : Int → Session
  air : List Frame

inductive Event where
  | act (robot : Int) (label : Label)
  | hear (robot : Int) (frame : Frame) (world : World)
  | lose (frame : Frame)

instance (message : Message) (log : Log) : Decidable (Heard message log) :=
  decidable_of_iff (log.any (fun | .received m _ => m = message | _ => false) = true) (by
    simp only [List.any_eq_true,Heard]
    constructor
    · rintro ⟨call,member,spoken⟩
      cases call with
      | received m tasks =>
        have same : m = message := by simpa using spoken
        exact ⟨tasks,same ▸ member⟩
      | _ => cases spoken
    · rintro ⟨tasks,member⟩
      exact ⟨_,member,by simp⟩)

def Op.inward : Op → Bool
  | .message _ => true
  | _ => false

namespace Fleet
variable (team : Team)

def perform (robot : Int) (label : Label) (f : Fleet) : Fleet :=
  let after := (Coordinator.machine (team.config robot)).next (f.sessions robot) label
  { sessions := Function.update f.sessions robot after
    air := frames robot (f.sessions robot) after.log ++ f.air }

def Acked (robot : Int) (future : GrantFuture) (f : Fleet) : Prop :=
  Heard (.grant ⟨robot,future.id,future.taskId,future.winnerId⟩) (f.sessions future.winnerId).log

/-- DELIVERED is only said of a GRANT its addressee has heard. -/
def Honest (robot : Int) (f : Fleet) : Op → Prop
  | .outcome id .delivered =>
    ∀ future ∈ (f.sessions robot).futures, future.id = id → Acked robot future f
  | _ => True

/-- What a robot can do. Nor is DELIVERED said inside the call that sends the
GRANT, which nobody has heard yet. -/
def Enabled (f : Fleet) : Event → Prop
  | .act robot label => robot ∈ team.members ∧ label.op.inward = false ∧
      (Coordinator.machine (team.config robot)).enabled (f.sessions robot) label ∧ f.Honest robot label.op ∧
      ∀ call ∈ ((perform team robot label f).sessions robot).log, call.unconfirmed = true
  | .hear robot frame world => robot ∈ team.members ∧ frame ∈ f.air ∧ frame.message.src ≠ robot ∧
      ¬ Heard frame.message (f.sessions robot).log ∧
      ∀ call ∈ ((perform team robot ⟨world,.message frame.message⟩ f).sessions robot).log,
        call.unconfirmed = true
  | .lose _ => True

instance (robot : Int) (f : Fleet) : DecidablePred (f.Honest robot)
  | .outcome _ .delivered => inferInstanceAs (Decidable (∀ future ∈ _,_ → Heard _ _))
  | .outcome _ .failed | .own .. | .report .. | .message .. | .note .. | .takeNoteRequests | .revise .. |
    .tick => inferInstanceAs (Decidable True)

instance (f : Fleet) : DecidablePred (f.Enabled team)
  | .act .. => inferInstanceAs (Decidable (_ ∧ _ ∧ _ ∧ _ ∧ _))
  | .hear .. => inferInstanceAs (Decidable (_ ∧ _ ∧ _ ∧ _ ∧ _))
  | .lose _ => inferInstanceAs (Decidable True)

/-- Any robot acts at any time; any frame is heard or lost at any time. -/
def machine : Machine Fleet Event where
  initial f := f = ⟨fun _ => {},[]⟩
  enabled f event := f.Enabled team event
  next f event :=
    match event with
    | .act robot label => perform team robot label f
    | .hear robot frame world => perform team robot ⟨world,.message frame.message⟩ f
    | .lose frame => { f with air := f.air.filter (fun other => other ≠ frame) }

instance (f : Fleet) (event : Event) : Decidable ((machine team).enabled f event) :=
  inferInstanceAs (Decidable (f.Enabled team event))

@[simp] theorem perform_self (robot : Int) (label : Label) (f : Fleet) :
    (perform team robot label f).sessions robot =
      (Coordinator.machine (team.config robot)).next (f.sessions robot) label := by simp [perform]

theorem perform_other (robot other : Int) (label : Label) (f : Fleet) (different : other ≠ robot) :
    (perform team robot label f).sessions other = f.sessions other := by simp [perform,different]

/-- What every robot's session keeps, the fleet keeps. -/
theorem perform_sessions (P : Int → Session → Prop) (robot : Int) (label : Label) (f : Fleet)
    (before : ∀ r, P r (f.sessions r))
    (keeps : P robot ((Coordinator.machine (team.config robot)).next (f.sessions robot) label)) (r : Int) :
    P r ((perform team robot label f).sessions r) := by
  by_cases same : r = robot
  · rw [same,perform_self]
    exact keeps
  · rw [perform_other team robot r label f same]
    exact before r

/-- A robot's own run is a run of its session: what holds of every session run
holds in a fleet. -/
theorem session_reachable (guard : Fleet → Event → Prop) (f : Fleet)
    (reached : (machine team).Reaches guard f) (robot : Int) :
    (Coordinator.machine (team.config robot)).Reachable (f.sessions robot) := by
  refine reached.invariant (fun f => ∀ robot, (Coordinator.machine (team.config robot)).Reachable
    (f.sessions robot)) ?_ ?_ f robot
  · rintro _ rfl r
    exact .start _ rfl
  · intro f event _ before enabled _
    cases event with
    | act robot label =>
      exact perform_sessions team (fun r s => (Coordinator.machine (team.config r)).Reachable s) robot label f
        before ((before robot).step _ label enabled.2.2.1 trivial)
    | hear robot frame world =>
      have heard : (Coordinator.machine (team.config robot)).Reachable ((Coordinator.machine
          (team.config robot)).next (f.sessions robot) ⟨world,.message frame.message⟩) :=
        .step (f.sessions robot) (⟨world,.message frame.message⟩ : Label) (before robot) trivial trivial
      exact perform_sessions team (fun r s => (Coordinator.machine (team.config r)).Reachable s) robot _ f
        before heard
    | lose frame => exact before

theorem perform_grows (robot : Int) (label : Label) (f : Fleet) (r : Int) :
    (f.sessions r).log <:+ ((perform team robot label f).sessions r).log := by
  by_cases same : r = robot
  · rw [same,perform_self]
    exact Session.perform_log _ label.world label.op _
  · rw [perform_other team robot r label f same]

def SentBy (robot : Int) (log : Log) (message : Message) : Prop :=
  ∃ later call earlier sent, log = later ++ call :: earlier ∧ call.aired = some sent ∧
    message = sent.stamped robot (earlier.length + 1)

theorem sentBy_later (robot : Int) (log later : Log) (message : Message) (grows : log <:+ later)
    (sent : SentBy robot log message) : SentBy robot later message := by
  obtain ⟨added,rfl⟩ := grows
  obtain ⟨before,call,earlier,said,rfl,rest⟩ := sent
  exact ⟨added ++ before,call,earlier,said,by simp,rest⟩

theorem frames_cases (robot : Int) (before : Session) (log : Log) (frame : Frame)
    (member : frame ∈ frames robot before log) : ∃ later call earlier sent, log = later ++ call :: earlier ∧
      before.log.length ≤ earlier.length ∧ call.aired = some sent ∧
      frame = ⟨sent.stamped robot (earlier.length + 1),call.offer robot before.bids⟩ := by
  induction log with
  | nil => cases member
  | cons call rest ih =>
    have deeper : frame ∈ frames robot before rest → ∃ later call' earlier sent,
        call :: rest = later ++ call' :: earlier ∧ before.log.length ≤ earlier.length ∧
        call'.aired = some sent ∧
        frame = ⟨sent.stamped robot (earlier.length + 1),call'.offer robot before.bids⟩ := by
      intro member
      obtain ⟨later,call',earlier,sent,same,others⟩ := ih member
      exact ⟨call :: later,call',earlier,sent,by rw [same]; rfl,others⟩
    unfold frames at member
    split at member
    · cases member
    · rename_i recent
      split at member
      · exact deeper member
      · rename_i message aired
        obtain rfl | member := List.mem_cons.mp member
        · exact ⟨[],call,rest,message,rfl,not_lt.mp recent,aired,rfl⟩
        · exact deeper member

/-- Everything on the air, and everything ever heard, was sent by its sender. -/
structure Wired (f : Fleet) : Prop where
  air : ∀ frame ∈ f.air, SentBy frame.message.src (f.sessions frame.message.src).log frame.message
  heard : ∀ robot message, Heard message (f.sessions robot).log →
    SentBy message.src (f.sessions message.src).log message

theorem perform_wired (robot : Int) (label : Label) (f : Fleet)
    (handed : ∀ message, label.op = .message message →
      SentBy message.src (f.sessions message.src).log message) (before : f.Wired) :
    (perform team robot label f).Wired := by
  have still : ∀ message, SentBy message.src (f.sessions message.src).log message →
      SentBy message.src ((perform team robot label f).sessions message.src).log message :=
    fun message sent => sentBy_later _ _ _ _ (perform_grows team robot label f message.src) sent
  constructor
  · intro frame member
    obtain new | old := List.mem_append.mp member
    · obtain ⟨later,call,earlier,sent,same,_,aired,rfl⟩ := frames_cases robot _ _ frame new
      simp only [Message.stamped_src,perform_self]
      exact ⟨later,call,earlier,sent,same,aired,rfl⟩
    · exact still _ (before.air frame old)
  · intro r message heard
    by_cases same : r = robot
    · rw [same,perform_self] at heard
      obtain old | now := Session.perform_heard (team.config robot) label.world label.op message _ heard
      · exact still _ (before.heard robot message old)
      · exact still _ (handed message now)
    · rw [perform_other team robot r label f same] at heard
      exact still _ (before.heard r message heard)

theorem reachable_wired (guard : Fleet → Event → Prop) (f : Fleet)
    (reached : (machine team).Reaches guard f) : f.Wired := by
  refine reached.invariant Wired ?_ ?_ f
  · rintro _ rfl
    refine ⟨(fun _ member => by cases member),?_⟩
    rintro robot message ⟨tasks,member⟩
    cases member
  · intro f event _ before enabled _
    cases event with
    | act robot label =>
      refine perform_wired team robot label f ?_ before
      intro message same
      have outward := enabled.2.1
      rw [same] at outward
      cases outward
    | hear robot frame world =>
      refine perform_wired team robot _ f ?_ before
      rintro message ⟨⟩
      exact before.air frame enabled.2.1
    | lose frame => exact ⟨fun other member => before.air other (List.mem_filter.mp member).1,before.heard⟩

end Fleet
end AmigaFleet.Coordinator
