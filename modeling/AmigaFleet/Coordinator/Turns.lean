import AmigaFleet.Coordinator.Logs

/-! The bidder's side of every operation. Owner's work leaves the bid table
alone and puts no Bid on the air; what is left is the handful of turns below. -/
namespace AmigaFleet.Coordinator
open Lib AmigaFleet.Codec AmigaFleet.Reliability

def Call.byBidder : Call → Bool
  | .broadcast (.bid _) sent => sent
  | .received .. => true
  | _ => false

theorem concerns_byBidder (r : OwnedTask) (call : Call) (concerns : call.Concerns r) :
    call.byBidder = false := by
  cases call with
  | broadcast message sent =>
    obtain ⟨q,_,rfl⟩ := concerns
    rfl
  | received message tasks => cases concerns
  | _ => rfl

def Call.bidOn (taskId : Int) : Call → Bool
  | .broadcast (.bid bid) sent => sent && decide (bid.taskId = taskId)
  | _ => false

theorem bidOn_owner (taskId : Int) (call : Call) (owner : call.byBidder = false) :
    call.bidOn taskId = false := by
  cases call with
  | broadcast message sent =>
    cases message with
    | bid bid =>
      have lost : sent = false := owner
      simp [Call.bidOn,lost]
    | _ => rfl
  | _ => rfl

namespace Session

/-- Nothing happened on the bidder's side. -/
structure Beside (s t : Session) : Prop where
  bids : t.bids = s.bids
  log : ∃ added, t.log = added ++ s.log ∧ ∀ call ∈ added, call.byBidder = false

theorem beside_refl (s : Session) : Beside s s := ⟨rfl,[],rfl,fun _ member => by cases member⟩

theorem Beside.trans (s t u : Session) (first : Beside s t) (second : Beside t u) : Beside s u := by
  obtain ⟨early,grown,quiet⟩ := first.log
  obtain ⟨late,further,silent⟩ := second.log
  refine ⟨second.bids.trans first.bids,late ++ early,by rw [further,grown,List.append_assoc],?_⟩
  intro call member
  obtain new | old := List.mem_append.mp member
  · exact silent call new
  · exact quiet call old

theorem beside_aside (s t : Session) (bids : t.bids = s.bids) (log : t.log = s.log) : Beside s t :=
  ⟨bids,[],log,fun _ member => by cases member⟩

theorem beside_say (call : Call) (owner : call.byBidder = false) (s : Session) : Beside s (s.say call) := by
  refine ⟨rfl,[call],rfl,?_⟩
  intro other member
  rw [List.mem_singleton.mp member]
  exact owner

theorem deal_beside (taskId : Int) (work : Desk → Flow Desk) (stays : Stays work) (s : Session) :
    Beside s (s.deal taskId work).state := by
  cases found : s.tasks.get? taskId with
  | none =>
    rw [state_deal_none taskId work s found]
    exact beside_refl s
  | some record =>
    rw [state_deal taskId work s record found]
    obtain ⟨added,grown,concerns⟩ := (stays ⟨record,s.log,s.futures⟩).log
    exact ⟨rfl,added,grown,fun call member => concerns_byBidder _ call (concerns call member)⟩

theorem enroll_beside (task : Task) (s : Session) : Beside s (s.enroll task) :=
  beside_aside s _ rfl rfl

theorem enrollMissing_beside (task : Task) (s : Session) : Beside s (s.enrollMissing task) := by
  unfold enrollMissing
  split
  · exact beside_refl s
  · exact enroll_beside task s

theorem enter_beside (task : Task) (s : Session) : Beside s (s.enter task) :=
  (beside_say _ rfl s).trans _ _ _ (enroll_beside task _)

theorem enrollReported_beside (task : Option Task) (s : Session) : Beside s (s.enrollReported task) := by
  unfold enrollReported
  split
  · exact beside_refl s
  · split
    · exact beside_refl s
    · exact enter_beside _ s

theorem own_beside (task : Task) (s : Session) : Beside s (s.own task) := by
  unfold own
  split
  · exact beside_refl s
  · exact enter_beside task s

theorem absorb_beside (world : World) (task : Task) (cause note : String) (s : Session) :
    Beside s (s.absorb world task cause note).2 :=
  (((enter_beside task s).trans _ _ _ (beside_say (.absorb task) rfl _)).trans _ _ _
    (beside_say (.requestYield _) rfl _)).trans _ _ _ (beside_say (.replanAndVerify _ _) rfl _)

variable (cfg : Config) (world : World)

theorem apply_beside (take : Task → ℚ → String → String → Session → Flow Session)
    (taken : ∀ task now cause note s, Beside s (take task now cause note s).state)
    (action : Action) (now : ℚ) (s : Session) : Beside s (s.apply cfg world take action now).state := by
  have said : Beside s (s.say (.apply action now s.tasks s.futures)) := beside_say _ rfl s
  refine said.trans _ _ _ ?_
  cases action with
  | reDelegate task reasonCode fallback note =>
    exact (enrollMissing_beside task _).trans _ _ _
      (deal_beside _ _ (delegate_stays cfg world _ _ _ _ _ _) _)
  | addTask task reasonCode => exact taken task now "add_task" "" _
  | dropTask task disposition reasonCode =>
    exact (enrollMissing_beside task _).trans _ _ _ (deal_beside _ _ (dispose_stays disposition now) _)

theorem reportWith_beside (take : Task → ℚ → String → String → Session → Flow Session)
    (taken : ∀ task now cause note s, Beside s (take task now cause note s).state)
    (task : Option Task) (detail : String) (reasonCode : Int) (door : Door) (s : Session) :
    Beside s (s.reportWith cfg world take task detail reasonCode door).state := by
  refine (enrollReported_beside task s).trans _ _ _ ?_
  simp only [reportWith]
  generalize s.enrollReported task = t
  cases door with
  | given answer =>
    cases answer with
    | none => exact beside_refl t
    | some action => exact apply_beside cfg world take taken action _ t
  | asked =>
    refine (beside_say (.interpretAnomaly (t.anomalyContext world task detail reasonCode
      (world.clock s.log))) rfl t).trans _ _ _ ?_
    simp only
    split
    · exact beside_refl _
    · exact apply_beside cfg world take taken _ _ _

theorem takeOn_beside (depth : Nat) (task : Task) (now : ℚ) (cause note : String) (s : Session) :
    Beside s (takeOn cfg world depth task now cause note s).state := by
  induction depth generalizing task now cause note s with
  | zero => exact beside_refl s
  | succ depth ih =>
    simp only [takeOn]
    split
    · exact beside_refl s
    · have absorbed := absorb_beside world task cause note s
      split
      · rename_i t same
        rw [same] at absorbed
        exact absorbed
      · rename_i result t same
        rw [same] at absorbed
        split
        · refine absorbed.trans _ _ _ ?_
          have released : Beside t (t.unabsorb task) := ⟨rfl,[.release task],rfl,by simp [Call.byBidder]⟩
          exact released.trans _ _ _ (reportWith_beside cfg world _
            (fun task now cause note s => ih task now cause note s) _ _ _ _ _)
        · exact absorbed

theorem report_beside (task : Option Task) (detail : String) (reasonCode : Int) (door : Door)
    (s : Session) : Beside s (s.report cfg world task detail reasonCode door).state :=
  reportWith_beside cfg world _ (fun task now cause note s =>
    takeOn_beside cfg world (world.depth + 1) task now cause note s) task detail reasonCode door s

theorem resolve_beside (id : Nat) (outcome : Outcome) (s : Session) :
    Beside s (s.resolve cfg world id outcome).state := by
  obtain same | ⟨future,_,_,same⟩ := resolve_cases cfg world id outcome s
  · rw [same]
    exact beside_refl s
  · rw [same]
    exact (beside_aside s (s.without id) rfl rfl).trans _ _ _ (deal_beside future.taskId _
      (settle_stays cfg world s.peers future.winnerId outcome) (s.without id))

theorem runAuctions_beside (now : ℚ) (s : Session) : Beside s (s.runAuctions cfg world now).state := by
  apply Flow.forEach_keeps (Beside s)
  · exact beside_refl s
  · intro taskId _ t before
    exact before.trans _ _ _ (deal_beside taskId _ (runAuction_stays cfg world t.peers now) t)

theorem maybeHeartbeat_beside (now : ℚ) (s : Session) :
    Beside s (s.maybeHeartbeat cfg world now).state := by
  unfold maybeHeartbeat
  split
  · exact beside_refl s
  · simp only
    split <;> exact ⟨rfl,[_],rfl,by simp [Call.byBidder]⟩

theorem onNote_beside (note : CompletedNote) (s : Session) : Beside s (s.onNote cfg world note) := by
  unfold onNote
  split
  · exact beside_refl s
  split
  · exact beside_refl s
  split
  · exact beside_refl s
  · exact beside_aside s _ rfl rfl

/-- What an operation can do to the bids, but for a new one and for pruning. -/
inductive Turn (op : Op) : Session → Session → Prop
  | beside (s t : Session) (beside : Beside s t) : Turn op s t
  | heard (s : Session) (message : Message) (same : op = .message message) (other : message.type ≠ .grant) :
      Turn op s (s.say (.received message s.tasks))
  | granted (s : Session) (grant : Grant) (same : op = .message (.grant grant)) :
      Turn op s { s.say (.received (.grant grant) s.tasks) with bids := s.bids.pop grant.taskId }
  | dropped (s : Session) (taskId : Int) (pending : PendingBid) (found : s.bids.get? taskId = some pending)
      (waits : pending.sentAt = none) : Turn op s { s with bids := s.bids.pop taskId }
  | revised (s : Session) (taskId : Int) (pending after : PendingBid)
      (found : s.bids.get? taskId = some pending) (waits : pending.sentAt = none)
      (same : after = { pending with fitness := after.fitness, sendAt := after.sendAt }) :
      Turn op s { s with bids := s.bids.set taskId after }
  | sent (s : Session) (taskId : Int) (pending : PendingBid) (now : ℚ)
      (found : s.bids.get? taskId = some pending) (waits : pending.sentAt = none) :
      Turn op s { s.say (.broadcast (.bid pending.wire) true) with
        bids := s.bids.set taskId { pending with sentAt := some now } }

abbrev Turns (op : Op) : Session → Session → Prop := Relation.ReflTransGen (Turn op)

theorem Turns.keeps (op : Op) (I : Session → Prop) (keeps : ∀ s t, Turn op s t → I s → I t)
    (s t : Session) (turns : Turns op s t) (holds : I s) : I t := by
  induction turns with
  | refl => exact holds
  | tail _ last ih => exact keeps _ _ last ih

theorem considerSuppression_turns (op : Op) (bid : Bid) (s : Session) :
    Turns op s (s.considerSuppression cfg bid) := by
  unfold considerSuppression
  split
  · exact .refl
  · rename_i pending found
    split
    · rename_i silenced
      exact .single (.dropped s bid.taskId pending found silenced.1)
    · exact .refl

theorem onBid_turns (op : Op) (bid : Bid) (now : ℚ) (s : Session) :
    Turns op s (s.onBid cfg world bid now).state := by
  unfold onBid
  split
  · exact considerSuppression_turns cfg op bid s
  · split
    · exact considerSuppression_turns cfg op bid s
    · split
      · exact .refl
      · split
        · exact considerSuppression_turns cfg op bid s
        · exact .single (.beside s _ (deal_beside _ _ (fileBid_stays cfg world s _ now) s))

theorem onGrant_beside (grant : Grant) (now : ℚ) (s : Session) :
    Beside { s with bids := s.bids.pop grant.taskId } (s.onGrant cfg world grant now).state := by
  unfold onGrant
  simp only
  split
  · exact beside_refl _
  split
  · exact beside_refl _
  · exact takeOn_beside cfg world _ _ _ _ _ _

theorem onMessage_turns (message : Message) (other : message.type ≠ .taskAnnounce) (s : Session) :
    Turns (.message message) s (s.onMessage cfg world message).state := by
  unfold onMessage
  simp only
  split
  · exact .refl
  · cases message with
    | heartbeat m =>
      simp only [Flow.state_handled,Flow.state_map]
      exact .head (.heard s _ rfl (by simp [Message.type])) (.single (.beside _ _ (beside_aside _ _ rfl rfl)))
    | taskAnnounce m => exact absurd rfl other
    | bid m => exact .head (.heard s _ rfl (by simp [Message.type])) (onBid_turns cfg world _ m _ _)
    | grant m =>
      exact .head (.granted s m rfl) (.single (.beside _ _
        (onGrant_beside cfg world m _ (s.say (.received (.grant m) s.tasks)))))
    | ack m => exact .single (.heard s _ rfl (by simp [Message.type]))
    | freeform m => exact .single (.heard s _ rfl (by simp [Message.type]))

theorem reviseBid_turns (taskId : Int) (revision : Option BidRevision) (s : Session) :
    Turns (.revise taskId revision) s (s.reviseBid cfg world taskId revision) := by
  unfold reviseBid
  split
  · exact .refl
  · exact .refl
  · rename_i revision pending found
    split
    · exact .refl
    · rename_i waits
      have waits : pending.sentAt = none := by simpa using waits
      split
      · exact .refl
      · exact .single (.dropped s taskId pending found waits)
      · exact .single (.revised s taskId pending _ found waits rfl)

theorem sendDueBid_turns (op : Op) (now : ℚ) (taskId : Int) (s : Session) :
    Turns op s (s.sendDueBid world now taskId).state := by
  unfold sendDueBid
  split
  · exact .refl
  rename_i pending found
  split
  · rename_i due
    unfold transmitBid
    simp only
    split
    · rename_i sent
      rw [sent]
      exact .single (.sent s taskId pending now found due.1)
    · rename_i lost
      have lost : world.broadcast s.log (.bid pending.wire) = false := by simpa using lost
      rw [lost]
      exact .single (.beside s _ (beside_say _ rfl s))
  · exact .refl

theorem tick_rule (P : Session → Prop) (s : Session) (start : P s)
    (aside : ∀ t u, Beside t u → P t → P u)
    (due : ∀ taskId t, P t → P (t.sendDueBid world (world.clock s.log) taskId).state) :
    ∃ t, P t ∧ ((s.tick cfg world).state = t ∨ (s.tick cfg world).state = t.prune cfg (world.clock s.log)) := by
  unfold tick
  simp only
  generalize world.clock s.log = now at due ⊢
  have aged : P (s.agePeers cfg now) := aside s _ (beside_aside s _ rfl rfl) start
  have owner : P ((s.agePeers cfg now).runAuctions cfg world now).state :=
    aside _ _ (runAuctions_beside cfg world now (s.agePeers cfg now)) aged
  have sent : P (((s.agePeers cfg now).runAuctions cfg world now).andThen (sendDueBids world now)).state := by
    apply Flow.andThen_keeps P _ _ owner
    intro t before
    exact Flow.forEach_keeps P _ _ _ before (fun taskId _ u holds => due taskId u holds)
  generalize ((s.agePeers cfg now).runAuctions cfg world now).andThen (sendDueBids world now) = flow at sent ⊢
  cases flow with
  | raised t => exact ⟨t,sent,.inl rfl⟩
  | returned t =>
    have beat : P (t.maybeHeartbeat cfg world now).state :=
      aside t _ (maybeHeartbeat_beside cfg world now t) sent
    simp only [Flow.andThen_returned]
    generalize t.maybeHeartbeat cfg world now = last at beat ⊢
    cases last with
    | raised u => exact ⟨u,beat,.inl rfl⟩
    | returned u => exact ⟨u,beat,.inr rfl⟩

theorem tick_turns (s : Session) : ∃ t, Turns .tick s t ∧ ((s.tick cfg world).state = t ∨
    (s.tick cfg world).state = t.prune cfg (world.clock s.log)) := by
  refine tick_rule cfg world (Turns .tick s) s .refl ?_ ?_
  · intro t u moved before
    exact before.tail (.beside t u moved)
  · intro taskId t before
    exact before.trans (sendDueBid_turns world .tick _ taskId t)

theorem perform_turns (op : Op) (notTick : op ≠ .tick)
    (other : ∀ m, op ≠ .message (.taskAnnounce m)) (s : Session) :
    Turns op s (s.perform cfg world op).state := by
  cases op with
  | own task => exact .single (.beside s _ (own_beside task s))
  | report task detail reasonCode door =>
    exact .single (.beside s _ (report_beside cfg world task detail reasonCode door s))
  | message message =>
    refine onMessage_turns cfg world message ?_ s
    cases message with
    | taskAnnounce m => exact absurd rfl (other m)
    | _ => exact nofun
  | note note => exact .single (.beside s _ (onNote_beside cfg world note s))
  | takeNoteRequests => exact .single (.beside s _ (beside_aside s _ rfl rfl))
  | revise taskId revision => exact reviseBid_turns cfg world taskId revision s
  | outcome id outcome => exact .single (.beside s _ (resolve_beside cfg world id outcome s))
  | tick => exact absurd rfl notTick

/-- An announcement this session answers: no bid on it yet, not its own task, and
everything it asks its nodes comes back. -/
structure Answers (announce : TaskAnnounce) (s : Session) (task : Task) (fitness : Fitness) : Prop where
  unanswered : s.bids.get? announce.taskId = none
  notOurs : (s.tasks.get? announce.taskId).any OwnedTask.ours = false
  capable : hasCapabilities cfg.capMask announce.reqCapMask = true
  announced : announcedTask announce = some task
  assessed : assess world task s.log = some fitness

theorem onAnnounce_cases (announce : TaskAnnounce) (now : ℚ) (s : Session) :
    ((s.onAnnounce cfg world announce now).state = s ∧
      ¬ ∃ task fitness, Answers cfg world announce s task fitness) ∨
    ∃ task fitness, Answers cfg world announce s task fitness ∧ ∃ requests note,
      (s.onAnnounce cfg world announce now).state = { s with
        bids := s.bids.set announce.taskId (answer cfg world announce task fitness note now s.log)
        noteRequests := requests } := by
  unfold onAnnounce
  split
  · rename_i answered
    refine .inl ⟨rfl,?_⟩
    rintro ⟨task,fitness,answers⟩
    simp [Dict.contains,answers.unanswered] at answered
  rename_i unanswered
  split
  · rename_i ours
    refine .inl ⟨rfl,?_⟩
    rintro ⟨task,fitness,answers⟩
    rw [answers.notOurs] at ours
    cases ours
  rename_i notOurs
  split
  · rename_i incapable
    refine .inl ⟨rfl,?_⟩
    rintro ⟨task,fitness,answers⟩
    rw [answers.capable] at incapable
    cases incapable
  rename_i capable
  split
  · rename_i unbuilt
    refine .inl ⟨rfl,?_⟩
    rintro ⟨task,fitness,answers⟩
    rw [answers.announced] at unbuilt
    cases unbuilt
  rename_i task announced
  split
  · rename_i raised
    refine .inl ⟨rfl,?_⟩
    rintro ⟨other,fitness,answers⟩
    have announced := announced.symm.trans answers.announced
    injection announced with same
    rw [same,answers.assessed] at raised
    cases raised
  rename_i fitness assessed
  have answers : Answers cfg world announce s task fitness :=
    ⟨by simpa [Dict.contains] using unanswered,by simpa using notOurs,by simpa using capable,announced,assessed⟩
  refine .inr ⟨task,fitness,answers,?_⟩
  cases known : world.completedNote s.log announce.src announce.taskId with
  | none => exact ⟨s.noteRequests,none,rfl⟩
  | some note => exact ⟨_,some note,rfl⟩

def BidsKeyed (s : Session) : Prop :=
  ∀ id p, s.bids.get? id = some p → p.taskId = id ∧ p.task.taskId = id

theorem announcedTask_taskId (announce : TaskAnnounce) (task : Task)
    (announced : announcedTask announce = some task) : task.taskId = announce.taskId := by
  obtain ⟨location,_,built⟩ := Option.bind_eq_some_iff.mp announced
  exact Task.build_taskId _ _ _ _ task built

theorem set_keyed (s t : Session) (taskId : Int) (pending : PendingBid)
    (same : pending.taskId = taskId ∧ pending.task.taskId = taskId)
    (bids : t.bids = s.bids.set taskId pending) (before : s.BidsKeyed) : t.BidsKeyed := by
  intro id p found
  rw [bids] at found
  obtain ⟨rfl,rfl⟩ | ⟨_,found⟩ := Dict.get?_set_cases found
  · exact same
  · exact before id p found

theorem fewer_keyed (s t : Session) (fewer : ∀ id p, t.bids.get? id = some p → s.bids.get? id = some p)
    (before : s.BidsKeyed) : t.BidsKeyed :=
  fun id p found => before id p (fewer id p found)

theorem pop_fewer (s : Session) (taskId id : Int) (p : PendingBid)
    (found : (s.bids.pop taskId).get? id = some p) : s.bids.get? id = some p :=
  (Dict.get?_pop_cases found).2

theorem turn_keyed (op : Op) (s t : Session) (turn : Turn op s t) (before : s.BidsKeyed) : t.BidsKeyed := by
  cases turn with
  | beside t beside => exact fewer_keyed s t (fun id p found => beside.bids ▸ found) before
  | heard message same other => exact before
  | granted grant same => exact fewer_keyed s _ (pop_fewer s grant.taskId) before
  | dropped taskId pending found waits => exact fewer_keyed s _ (pop_fewer s taskId) before
  | revised taskId pending after found waits same =>
    refine set_keyed s _ taskId after ?_ rfl before
    rw [same]
    exact before taskId pending found
  | sent taskId pending now found waits =>
    exact set_keyed s _ taskId { pending with sentAt := some now } (before taskId pending found) rfl before

theorem prune_fewer (now : ℚ) (s : Session) (id : Int) (p : PendingBid)
    (found : (s.prune cfg now).bids.get? id = some p) : s.bids.get? id = some p :=
  ((Dict.get?_retain _ _ _ _).mp found).1

theorem perform_keyed (op : Op) (s : Session) (before : s.BidsKeyed) :
    (s.perform cfg world op).state.BidsKeyed := by
  by_cases isTick : op = .tick
  · obtain ⟨t,turns,same | same⟩ := tick_turns cfg world s
    · rw [isTick,perform,same]
      exact turns.keeps _ _ (turn_keyed .tick) s t before
    · rw [isTick,perform,same]
      exact fewer_keyed t _ (prune_fewer cfg _ t) (turns.keeps _ _ (turn_keyed .tick) s t before)
  by_cases isAnnounce : ∃ m, op = .message (.taskAnnounce m)
  · obtain ⟨m,rfl⟩ := isAnnounce
    simp only [perform,onMessage]
    split
    · exact before
    · obtain ⟨same,_⟩ | ⟨task,fitness,answers,requests,note,same⟩ := onAnnounce_cases cfg world m
        (world.clock s.log) (s.say (.received (.taskAnnounce m) s.tasks))
      · rw [Flow.state_handled,same]
        exact before
      · rw [Flow.state_handled,same]
        exact set_keyed s _ m.taskId _ ⟨rfl,announcedTask_taskId m task answers.announced⟩ rfl before
  · push Not at isAnnounce
    exact (perform_turns cfg world op isTick isAnnounce s).keeps _ _ (turn_keyed op) s _ before

theorem reachable_keyed (s : Session) (reached : (machine cfg).Reachable s) : s.BidsKeyed := by
  refine reached.invariant BidsKeyed ?_ ?_ s
  · intro s initial id p found
    rw [show s = {} from initial] at found
    cases found
  · intro s label _ before _ _
    exact perform_keyed cfg label.world label.op s before

theorem turn_heard (op : Op) (m : Message) (s t : Session) (turn : Turn op s t) (heard : Heard m t.log) :
    Heard m s.log ∨ op = .message m := by
  obtain ⟨tasks,member⟩ := heard
  cases turn with
  | beside t beside =>
    obtain ⟨added,grown,quiet⟩ := beside.log
    rw [grown] at member
    obtain new | old := List.mem_append.mp member
    · have silent := quiet _ new
      cases silent
    · exact .inl ⟨tasks,old⟩
  | heard message same other =>
    obtain new | old := List.mem_cons.mp member
    · injection new with new
      exact .inr (new ▸ same)
    · exact .inl ⟨tasks,old⟩
  | granted grant same =>
    obtain new | old := List.mem_cons.mp member
    · injection new with new
      exact .inr (new ▸ same)
    · exact .inl ⟨tasks,old⟩
  | dropped taskId pending found waits => exact .inl ⟨tasks,member⟩
  | revised taskId pending after found waits same => exact .inl ⟨tasks,member⟩
  | sent taskId pending now found waits =>
    obtain new | old := List.mem_cons.mp member
    · cases new
    · exact .inl ⟨tasks,old⟩

theorem perform_heard (op : Op) (m : Message) (s : Session)
    (heard : Heard m (s.perform cfg world op).state.log) : Heard m s.log ∨ op = .message m := by
  have through : ∀ t, Turns op s t → Heard m t.log → Heard m s.log ∨ op = .message m := by
    intro t turns
    refine turns.keeps op (fun t => Heard m t.log → Heard m s.log ∨ op = .message m) ?_ s t .inl
    intro u v turn before heard
    obtain old | same := turn_heard op m u v turn heard
    · exact before old
    · exact .inr same
  by_cases isTick : op = .tick
  · obtain ⟨t,turns,same | same⟩ := tick_turns cfg world s
    · rw [isTick,perform,same] at heard
      exact through t (isTick ▸ turns) heard
    · rw [isTick,perform,same] at heard
      exact through t (isTick ▸ turns) heard
  by_cases isAnnounce : ∃ m, op = .message (.taskAnnounce m)
  · obtain ⟨announce,rfl⟩ := isAnnounce
    have log : (s.perform cfg world (.message (.taskAnnounce announce))).state.log = s.log ∨
        (s.perform cfg world (.message (.taskAnnounce announce))).state.log =
          .received (.taskAnnounce announce) s.tasks :: s.log := by
      simp only [perform,onMessage]
      split
      · exact .inl rfl
      · obtain ⟨bids,requests,shape⟩ := onAnnounce_aside cfg world announce (world.clock s.log)
          (s.say (.received (.taskAnnounce announce) s.tasks))
        rw [Flow.state_handled,shape]
        exact .inr rfl
    obtain same | same := log
    · exact .inl (same ▸ heard)
    · rw [same] at heard
      obtain ⟨tasks,member⟩ := heard
      obtain new | old := List.mem_cons.mp member
      · injection new with new
        exact .inr (by rw [new])
      · exact .inl ⟨tasks,old⟩
  · push Not at isAnnounce
    exact through _ (perform_turns cfg world op isTick isAnnounce s) heard

end Session
end AmigaFleet.Coordinator
