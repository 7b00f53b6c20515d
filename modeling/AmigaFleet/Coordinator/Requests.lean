import AmigaFleet.Coordinator.Turns

/-! The queue of note requests and the bids they are about: who adds to the
queue, and that every other operation leaves the queue alone and of each bid
leaves its announcer, its clock and its note. -/
namespace AmigaFleet.Coordinator
open Lib AmigaFleet.Codec AmigaFleet.Reliability

/-- An operation outside the note path that hears no announcement. -/
def Op.silent : Op → Bool
  | .message (.taskAnnounce _) => false
  | .note _ => false
  | .takeNoteRequests => false
  | .revise .. => false
  | _ => true

namespace Session

/-- The same bid later: sent only if it was not, and otherwise revised at most. -/
structure Kin (p q : PendingBid) : Prop where
  announcerId : q.announcerId = p.announcerId
  deliberative : q.deliberative = p.deliberative
  note : q.note = p.note
  unsent : q.sentAt = none → p.sentAt = none

def Kindred (s t : Session) : Prop :=
  ∀ id q, t.bids.get? id = some q → ∃ p, s.bids.get? id = some p ∧ Kin p q

theorem kin_refl (p : PendingBid) : Kin p p := ⟨rfl,rfl,rfl,id⟩

theorem kindred_refl (s : Session) : Kindred s s := fun _ q found => ⟨q,found,kin_refl q⟩

theorem Kindred.trans (s t u : Session) (first : Kindred s t) (second : Kindred t u) : Kindred s u := by
  intro id r found
  obtain ⟨q,there,late⟩ := second id r found
  obtain ⟨p,before,early⟩ := first id q there
  exact ⟨p,before,late.announcerId.trans early.announcerId,late.deliberative.trans early.deliberative,
    late.note.trans early.note,fun unsent => early.unsent (late.unsent unsent)⟩

theorem set_kindred (s : Session) (taskId : Int) (p q : PendingBid) (found : s.bids.get? taskId = some p)
    (kin : Kin p q) (id : Int) (r : PendingBid) (after : (s.bids.set taskId q).get? id = some r) :
    ∃ o, s.bids.get? id = some o ∧ Kin o r := by
  obtain ⟨rfl,rfl⟩ | ⟨_,after⟩ := Dict.get?_set_cases after
  · exact ⟨p,found,kin⟩
  · exact ⟨r,after,kin_refl r⟩

theorem turn_kindred (op : Op) (s t : Session) (turn : Turn op s t) : Kindred s t := by
  cases turn with
  | beside t beside => exact fun id q found => ⟨q,beside.bids ▸ found,kin_refl q⟩
  | heard message same other => exact kindred_refl s
  | granted grant same => exact fun id q found => ⟨q,pop_fewer s grant.taskId id q found,kin_refl q⟩
  | dropped taskId pending known waits => exact fun id q found => ⟨q,pop_fewer s taskId id q found,kin_refl q⟩
  | revised taskId pending after known waits same =>
    refine set_kindred s taskId pending after known ?_
    rw [same]
    exact ⟨rfl,rfl,rfl,id⟩
  | sent taskId pending now known waits =>
    exact set_kindred s taskId pending { pending with sentAt := some now } known ⟨rfl,rfl,rfl,nofun⟩

variable (cfg : Config) (world : World)

theorem perform_kindred (op : Op) (other : ∀ m, op ≠ .message (.taskAnnounce m)) (s : Session) :
    Kindred s (s.perform cfg world op).state := by
  have through : ∀ op t, Turns op s t → Kindred s t := by
    intro op t turns
    exact turns.keeps op (Kindred s) (fun u v turn before => before.trans _ _ _ (turn_kindred op u v turn)) s t
      (kindred_refl s)
  by_cases isTick : op = .tick
  · obtain ⟨t,turns,same | same⟩ := tick_turns cfg world s
    · rw [isTick,perform,same]
      exact through _ t turns
    · rw [isTick,perform,same]
      refine (through _ t turns).trans _ _ _ (fun id q found => ?_)
      exact ⟨q,prune_fewer cfg _ t id q found,kin_refl q⟩
  · exact through op _ (perform_turns cfg world op isTick other s)

theorem deal_requests (taskId : Int) (work : Desk → Flow Desk) (s : Session) :
    (s.deal taskId work).state.noteRequests = s.noteRequests := by
  cases found : s.tasks.get? taskId with
  | none => rw [state_deal_none taskId work s found]
  | some record =>
    rw [state_deal taskId work s record found]
    rfl

theorem enrollMissing_requests (task : Task) (s : Session) :
    (s.enrollMissing task).noteRequests = s.noteRequests := by
  unfold enrollMissing
  split <;> rfl

theorem enrollReported_requests (task : Option Task) (s : Session) :
    (s.enrollReported task).noteRequests = s.noteRequests := by
  unfold enrollReported
  split
  · rfl
  · split <;> rfl

theorem apply_requests (take : Task → ℚ → String → String → Session → Flow Session)
    (taken : ∀ task now cause note s, (take task now cause note s).state.noteRequests = s.noteRequests)
    (action : Action) (now : ℚ) (s : Session) :
    (s.apply cfg world take action now).state.noteRequests = s.noteRequests := by
  cases action with
  | reDelegate task reasonCode fallback note =>
    exact (deal_requests _ _ _).trans (enrollMissing_requests task _)
  | addTask task reasonCode => exact taken task now "add_task" "" _
  | dropTask task disposition reasonCode =>
    simp only [apply,dropTask]
    exact (deal_requests _ _ _).trans (enrollMissing_requests task _)

theorem reportWith_requests (take : Task → ℚ → String → String → Session → Flow Session)
    (taken : ∀ task now cause note s, (take task now cause note s).state.noteRequests = s.noteRequests)
    (task : Option Task) (detail : String) (reasonCode : Int) (door : Door) (s : Session) :
    (s.reportWith cfg world take task detail reasonCode door).state.noteRequests = s.noteRequests := by
  refine Eq.trans ?_ (enrollReported_requests task s)
  simp only [reportWith]
  generalize s.enrollReported task = t
  cases door with
  | given answer =>
    cases answer with
    | none => rfl
    | some action => exact apply_requests cfg world take taken action _ t
  | asked =>
    simp only
    split
    · rfl
    · exact apply_requests cfg world take taken _ _ _

theorem takeOn_requests (depth : Nat) (task : Task) (now : ℚ) (cause note : String) (s : Session) :
    (takeOn cfg world depth task now cause note s).state.noteRequests = s.noteRequests := by
  induction depth generalizing task now cause note s with
  | zero => rfl
  | succ depth ih =>
    simp only [takeOn]
    split
    · rfl
    · split
      · rename_i t same
        rw [show t = (s.absorb world task cause note).2 by rw [same]]
        rfl
      · rename_i result t same
        rw [show t = (s.absorb world task cause note).2 by rw [same]]
        split
        · exact reportWith_requests cfg world _ (fun task now cause note s => ih task now cause note s) _ _ _ _ _
        · rfl

theorem report_requests (task : Option Task) (detail : String) (reasonCode : Int) (door : Door) (s : Session) :
    (s.report cfg world task detail reasonCode door).state.noteRequests = s.noteRequests :=
  reportWith_requests cfg world _ (fun task now cause note s =>
    takeOn_requests cfg world (world.depth + 1) task now cause note s) task detail reasonCode door s

theorem considerSuppression_requests (bid : Bid) (s : Session) :
    (s.considerSuppression cfg bid).noteRequests = s.noteRequests := by
  unfold considerSuppression
  split
  · rfl
  · split <;> rfl

theorem onBid_requests (bid : Bid) (now : ℚ) (s : Session) :
    (s.onBid cfg world bid now).state.noteRequests = s.noteRequests := by
  unfold onBid
  split
  · exact considerSuppression_requests cfg bid s
  split
  · exact considerSuppression_requests cfg bid s
  split
  · rfl
  split
  · exact considerSuppression_requests cfg bid s
  · exact deal_requests _ _ s

theorem onGrant_requests (grant : Grant) (now : ℚ) (s : Session) :
    (s.onGrant cfg world grant now).state.noteRequests = s.noteRequests := by
  unfold onGrant
  simp only
  split
  · rfl
  split
  · rfl
  · exact takeOn_requests cfg world _ _ _ _ _ _

theorem onMessage_requests (message : Message) (other : message.type ≠ .taskAnnounce) (s : Session) :
    (s.onMessage cfg world message).state.noteRequests = s.noteRequests := by
  unfold onMessage
  simp only
  split
  · rfl
  · cases message with
    | heartbeat m =>
      simp only [Flow.state_handled,Flow.state_map]
      rfl
    | taskAnnounce m => exact absurd rfl other
    | bid m => exact onBid_requests cfg world m _ _
    | grant m => exact onGrant_requests cfg world m _ _
    | ack m => rfl
    | freeform m => rfl

theorem sendDueBid_requests (now : ℚ) (taskId : Int) (s : Session) :
    (s.sendDueBid world now taskId).state.noteRequests = s.noteRequests := by
  unfold sendDueBid
  split
  · rfl
  · split
    · unfold transmitBid
      simp only
      split <;> rfl
    · rfl

theorem maybeHeartbeat_requests (now : ℚ) (s : Session) :
    (s.maybeHeartbeat cfg world now).state.noteRequests = s.noteRequests := by
  unfold maybeHeartbeat
  split
  · rfl
  · simp only
    split <;> rfl

theorem tick_requests (s : Session) : (s.tick cfg world).state.noteRequests = s.noteRequests := by
  unfold tick
  simp only
  generalize world.clock s.log = now
  apply Flow.andThen_keeps (fun t : Session => t.noteRequests = s.noteRequests)
  · apply Flow.andThen_keeps (fun t : Session => t.noteRequests = s.noteRequests)
    · apply Flow.forEach_keeps (fun t : Session => t.noteRequests = s.noteRequests)
      · rfl
      · intro taskId _ t before
        exact (deal_requests _ _ t).trans before
    · intro t before
      apply Flow.forEach_keeps (fun t : Session => t.noteRequests = s.noteRequests)
      · exact before
      · intro taskId _ u same
        exact (sendDueBid_requests world now taskId u).trans same
  · intro t before
    apply Flow.andThen_keeps (fun t : Session => t.noteRequests = s.noteRequests)
    · exact (maybeHeartbeat_requests cfg world now t).trans before
    · intro u same
      exact same

theorem perform_requests (op : Op) (silent : op.silent = true) (s : Session) :
    (s.perform cfg world op).state.noteRequests = s.noteRequests := by
  cases op with
  | own task =>
    simp only [perform,own,Flow.state_returned]
    split <;> rfl
  | report task detail reasonCode door => exact report_requests cfg world task detail reasonCode door s
  | message message =>
    refine onMessage_requests cfg world message ?_ s
    cases message with
    | taskAnnounce m => cases silent
    | _ => simp [Message.type]
  | note note => cases silent
  | takeNoteRequests => cases silent
  | revise taskId revision => cases silent
  | outcome id outcome =>
    obtain same | ⟨future,_,_,same⟩ := resolve_cases cfg world id outcome s
    · rw [perform,same]
    · rw [perform,same]
      exact deal_requests _ _ _
  | tick => exact tick_requests cfg world s

theorem onNote_cases (note : CompletedNote) (s : Session) :
    s.onNote cfg world note = s ∨
      ∃ pending, s.bids.get? note.taskId = some pending ∧ pending.sentAt = none ∧
        s.onNote cfg world note = s.requestInterpretation note pending (world.clock s.log) := by
  unfold onNote
  split
  · exact .inl rfl
  split
  · exact .inl rfl
  split
  · exact .inl rfl
  · rename_i pending found waits
    exact .inr ⟨pending,found,by simpa using waits,rfl⟩

theorem onAnnounce_answers (announce : TaskAnnounce) (now : ℚ) (s : Session) (task : Task) (fitness : Fitness)
    (answers : Answers cfg world announce s task fitness) :
    let note := world.completedNote s.log announce.src announce.taskId
    let pending := answer cfg world announce task fitness note now s.log
    (s.onAnnounce cfg world announce now).state = { s with
      bids := s.bids.set announce.taskId pending
      noteRequests := s.noteRequests ++ note.toList.map (fun note => ⟨note.text,note.taskId,note.src,pending.task,
        pending.fitness.cost,pending.fitness.etaS,pending.fitness.feasible,now⟩) } := by
  have unanswered : s.bids.contains announce.taskId = false := by
    rw [Dict.contains,answers.unanswered]
    rfl
  simp only [onAnnounce,unanswered,answers.notOurs,answers.capable,answers.announced,answers.assessed,
    Bool.false_eq_true,Bool.true_eq_false,if_false]
  cases world.completedNote s.log announce.src announce.taskId with
  | none =>
    simp only [Option.toList_none,List.map_nil,List.append_nil]
    rfl
  | some note => rfl

theorem takeOn_replans (depth : Nat) (task : Task) (now : ℚ) (cause note : String) (s : Session)
    (free : (s.tasks.get? task.taskId).any OwnedTask.ours = false) :
    .replanAndVerify s.nextSerial { added := [task], cause := cause, note := note } ∈
      (takeOn cfg world (depth + 1) task now cause note s).state.log := by
  simp only [takeOn,free,Bool.false_eq_true,if_false]
  split
  · rename_i t same
    rw [show t = (s.absorb world task cause note).2 by rw [same]]
    exact List.mem_cons_self
  · rename_i result t same
    rw [show t = (s.absorb world task cause note).2 by rw [same]]
    split
    · obtain ⟨added,grown,_⟩ := (reportWith_beside cfg world (takeOn cfg world depth)
        (fun task now cause note s => takeOn_beside cfg world depth task now cause note s) (some task)
        ("replan rejected: " ++ result.reason) ReasonCode.taskFailed .asked
        ((s.absorb world task cause note).2.unabsorb task)).log
      rw [grown]
      exact List.mem_append_right _ (List.mem_cons_of_mem _ List.mem_cons_self)
    · exact List.mem_cons_self

theorem onMessage_replans (grant : Grant) (s : Session) (pending : PendingBid) (foreign : grant.src ≠ cfg.nodeId)
    (ours : grant.winnerId = cfg.nodeId) (found : s.bids.get? grant.taskId = some pending)
    (free : (s.tasks.get? pending.task.taskId).any OwnedTask.ours = false) :
    .replanAndVerify s.nextSerial
      { added := [pending.task], cause := "won auction from " ++ toString grant.src, note := pending.note } ∈
      (s.onMessage cfg world (.grant grant)).state.log := by
  have found : (s.say (.received (.grant grant) s.tasks)).bids.get? grant.taskId = some pending := found
  have shape : (s.onMessage cfg world (.grant grant)).state =
      ((s.say (.received (.grant grant) s.tasks)).onGrant cfg world grant (world.clock s.log)).state := by
    simp [onMessage,Message.src,foreign]
  rw [shape,onGrant]
  simp only [ours,ne_eq,not_true_eq_false,if_false,found]
  exact takeOn_replans cfg world world.depth pending.task _ _ pending.note _ free

end Session
end AmigaFleet.Coordinator
