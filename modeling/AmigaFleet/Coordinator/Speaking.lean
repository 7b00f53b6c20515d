import AmigaFleet.Coordinator.Turns

/-! Which offers an operation speaks of: the tasks it had under auction or
granted before, and those it opens an auction on; and its Bids speak of offers
it had a bid on before. -/
namespace AmigaFleet.Coordinator
open Lib AmigaFleet.Codec AmigaFleet.Reliability

def OwnedTask.InPlay (r : OwnedTask) : Prop := r.state = .announced ∨ r.state = .granted

def Call.offered : Call → Option Task
  | .broadcast (.taskAnnounce m) _ => Session.announcedTask m
  | .sendReliable record _ _ _ => some record.task
  | _ => none

def Opened (task : Task) (calls : Log) : Prop := ∃ record, .opened record ∈ calls ∧ record.task = task

theorem opened_later (task : Task) (added calls : Log) (opened : Opened task calls) :
    Opened task (added ++ calls) := by
  obtain ⟨record,member,same⟩ := opened
  exact ⟨record,List.mem_append_right _ member,same⟩

theorem concerns_offered (r : OwnedTask) (call : Call) (concerns : call.Concerns r) (task : Task)
    (offered : call.offered = some task) : task = r.task := by
  cases call with
  | broadcast message sent =>
    obtain ⟨q,same,rfl⟩ := concerns
    have reads := (Session.announced_announcement q).symm.trans offered
    injection reads with reads
    exact reads.symm.trans same
  | sendReliable record dst message reply =>
    injection offered with offered
    exact offered.symm.trans concerns.2.1
  | _ => cases offered

namespace Desk
variable (params : CoordinatorParams) (world : World) (peers : Registry)

def Quiet (start d : Desk) : Prop :=
  ∃ added, d.log = added ++ start.log ∧ ∀ call ∈ added, call.offered = none

theorem say_quiet (start : Desk) (call : Call) (d : Desk) (none : call.offered = none)
    (before : Quiet start d) : Quiet start (d.say call) := by
  obtain ⟨added,same,quiet⟩ := before
  refine ⟨call::added,by simp [same],?_⟩
  intro other member
  obtain rfl | old := List.mem_cons.mp member
  · exact none
  · exact quiet other old

theorem leaveMission_quiet (start : Desk) (cause : String) (d : Desk) (before : Quiet start d) :
    Quiet start (d.leaveMission cause) := by
  unfold leaveMission
  split
  · exact say_quiet start _ _ rfl before
  · exact before

theorem rejoinMission_quiet (start : Desk) (cause : String) (d : Desk) (before : Quiet start d) :
    Quiet start (d.rejoinMission cause) := by
  unfold rejoinMission
  split
  · exact before
  · exact say_quiet start _ _ rfl before

theorem dispose_quiet (start : Desk) (disposition : LocalDisposition) (now : ℚ) (d : Desk)
    (before : Quiet start d) : Quiet start (d.disposeLocally disposition now) := by
  cases disposition with
  | drop =>
    apply leaveMission_quiet
    apply say_quiet _ _ _ rfl
    exact say_quiet start _ _ rfl before
  | hold => exact rejoinMission_quiet start _ _ before
  | requestHuman =>
    apply rejoinMission_quiet
    exact say_quiet start _ _ rfl before

/-- Work speaks of its task only if the task was in play, or by opening an auction on it. -/
def Justified (start d : Desk) : Prop := ∀ added, d.log = added ++ start.log →
  start.record.InPlay ∨ Opened start.record.task added ∨
    (¬ d.record.InPlay ∧ ∀ call ∈ added, call.offered = none)

theorem dispose_justified (start d : Desk) (disposition : LocalDisposition) (now : ℚ)
    (before : Quiet start d) : Justified start (d.disposeLocally disposition now) := by
  intro added grown
  obtain ⟨other,same,quiet⟩ := dispose_quiet start disposition now d before
  rw [same] at grown
  rw [List.append_cancel_right grown] at quiet
  refine .inr (.inr ⟨?_,quiet⟩)
  rw [dispose_record]
  split <;> simp [OwnedTask.InPlay]

theorem announce_opens (now : ℚ) (d : Desk) :
    ∃ later, (d.announce params world peers now).state.log = later ++ (d.announcing now).log := by
  have noted := emitNote_works world (d.announcing now) _ (works_refl (d.announcing now))
  have sent : Works (d.announcing now) (d.announce params world peers now).state := by
    apply Flow.andThen_keeps (Works (d.announcing now))
    · exact emitAnnounce_works params world _ now _ (put_works _ _ _ rfl rfl noted)
    · intro e emitted
      exact standDown_works _ e emitted
  obtain ⟨later,grown⟩ := sent.grows
  exact ⟨later,grown.symm⟩

theorem announce_justified (start d : Desk) (now : ℚ) (works : Works start d) :
    Justified start (d.announce params world peers now).state := by
  intro added grown
  obtain ⟨later,same⟩ := announce_opens params world peers now d
  obtain ⟨before,log,_⟩ := works.log
  have shape : added = later ++ (.opened d.record :: before) := by
    refine (List.append_left_inj start.log).mp ?_
    rw [← grown,same]
    simp [announcing,log]
  refine .inr (.inl ⟨d.record,?_,works.task⟩)
  rw [shape]
  exact List.mem_append_right _ List.mem_cons_self

end Desk

namespace Session
variable (cfg : Config) (world : World)

theorem delegate_justified (peers : Registry) (openAuctions : Nat) (reasonCode : Int)
    (fallback : LocalDisposition) (note : String) (now : ℚ) (d : Desk) :
    Desk.Justified d (delegate cfg world peers openAuctions reasonCode fallback note now d).state := by
  obtain ⟨inFlight,_⟩ | ⟨_,_,same⟩ | ⟨_,_,same⟩ :=
    delegate_cases cfg world peers openAuctions reasonCode fallback note now d
  · exact fun _ _ => .inl inFlight
  · rw [same]
    exact Desk.dispose_justified d _ fallback now ⟨[],rfl,fun _ member => by cases member⟩
  · rw [same]
    exact Desk.announce_justified cfg.params world peers d _ now
      (Desk.put_works d _ d rfl rfl (Desk.works_refl d))

theorem justified_same (d : Desk) : Desk.Justified d d := by
  intro added grown
  have none : added = [] := by simpa using grown
  by_cases inPlay : d.record.InPlay
  · exact .inl inPlay
  · refine .inr (.inr ⟨inPlay,?_⟩)
    rw [none]
    exact fun _ member => by cases member

theorem runAuction_justified (peers : Registry) (now : ℚ) (d : Desk) :
    Desk.Justified d (runAuction cfg world peers now d).state := by
  cases collects : collecting d.record with
  | none =>
    have same : runAuction cfg world peers now d = .returned d := by
      unfold runAuction
      rw [collects]
    rw [same]
    exact justified_same d
  | some auction => exact fun _ _ => .inl (.inl ((collecting_eq_some _ _).mp collects).1)

theorem settle_justified (peers : Registry) (winnerId : Int) (outcome : Outcome) (d : Desk) :
    Desk.Justified d (d.settle cfg.params world peers winnerId outcome).state := by
  obtain ⟨_,same⟩ | ⟨granted,_⟩ | ⟨granted,_⟩ :=
    Desk.settle_cases cfg.params world peers winnerId outcome d
  · rw [same]
    exact justified_same d
  · exact fun _ _ => .inl (.inr granted)
  · exact fun _ _ => .inl (.inr granted)

def Plays (s : Session) (task : Task) : Prop :=
  ∃ q, s.tasks.get? task.taskId = some q ∧ q.InPlay ∧ q.task = task

/-- From one state to the other, the owner speaks of what was in play, and of
what it has opened an auction on. -/
structure Speaks (start s : Session) : Prop where
  keyed : ∀ id r, s.tasks.get? id = some r → r.task.taskId = id
  calls : ∃ added, s.log = added ++ start.log ∧
    (∀ id r, s.tasks.get? id = some r → r.InPlay → start.Plays r.task ∨ Opened r.task added) ∧
    ∀ call ∈ added, ∀ task, call.offered = some task → start.Plays task ∨ Opened task added

variable (start : Session)

theorem speaks_refl (keyed : ∀ id r, start.tasks.get? id = some r → r.task.taskId = id) :
    Speaks start start := by
  refine ⟨keyed,[],rfl,?_,fun _ member => by cases member⟩
  intro id r found inPlay
  exact .inl ⟨r,by rw [keyed id r found]; exact found,inPlay,rfl⟩

theorem speaks_quiet (s t : Session) (added : Log) (grown : t.log = added ++ s.log)
    (quiet : ∀ call ∈ added, call.offered = none)
    (records : ∀ id r, t.tasks.get? id = some r → r.task.taskId = id ∧
      (r.InPlay → ∃ q, s.tasks.get? id = some q ∧ q.InPlay ∧ q.task = r.task))
    (before : Speaks start s) : Speaks start t := by
  obtain ⟨old,same,played,offered⟩ := before.calls
  refine ⟨fun id r found => (records id r found).1,added ++ old,by rw [grown,same,List.append_assoc],?_,?_⟩
  · intro id r found inPlay
    obtain ⟨q,there,was,task⟩ := (records id r found).2 inPlay
    rw [← task]
    obtain plays | opened := played id q there was
    · exact .inl plays
    · exact .inr (opened_later _ added old opened)
  · intro call member task offers
    obtain new | earlier := List.mem_append.mp member
    · rw [quiet call new] at offers
      cases offers
    · obtain plays | opened := offered call earlier task offers
      · exact .inl plays
      · exact .inr (opened_later _ added old opened)

theorem speaks_fewer (s t : Session) (added : Log) (grown : t.log = added ++ s.log)
    (quiet : ∀ call ∈ added, call.offered = none)
    (fewer : ∀ id r, t.tasks.get? id = some r → s.tasks.get? id = some r)
    (before : Speaks start s) : Speaks start t :=
  speaks_quiet start s t added grown quiet (fun id r found =>
    ⟨before.keyed id r (fewer id r found),fun inPlay => ⟨r,fewer id r found,inPlay,rfl⟩⟩) before

theorem speaks_enroll (task : Task) (s t : Session) (added : Log) (grown : t.log = added ++ s.log)
    (quiet : ∀ call ∈ added, call.offered = none) (tasks : t.tasks = (s.enroll task).tasks)
    (before : Speaks start s) : Speaks start t := by
  refine speaks_quiet start s t added grown quiet ?_ before
  intro id r found
  rw [tasks] at found
  obtain ⟨rfl,rfl⟩ | ⟨_,found⟩ := Dict.get?_set_cases found
  · exact ⟨rfl,by rintro (same | same) <;> cases same⟩
  · exact ⟨before.keyed id r found,fun inPlay => ⟨r,found,inPlay,rfl⟩⟩

theorem enrollMissing_speaks (task : Task) (s : Session) (before : Speaks start s) :
    Speaks start (s.enrollMissing task) := by
  unfold enrollMissing
  split
  · exact before
  · exact speaks_enroll start task s _ [] rfl (fun _ member => by cases member) rfl before

theorem deal_speaks (taskId : Int) (work : Desk → Flow Desk) (stays : Stays work) (s : Session)
    (justified : ∀ r, s.tasks.get? taskId = some r →
      Desk.Justified ⟨r,s.log,s.futures⟩ (work ⟨r,s.log,s.futures⟩).state)
    (before : Speaks start s) : Speaks start (s.deal taskId work).state := by
  cases found : s.tasks.get? taskId with
  | none =>
    rw [state_deal_none taskId work s found]
    exact before
  | some record =>
    rw [state_deal taskId work s record found]
    have why := justified record found
    have works := stays ⟨record,s.log,s.futures⟩
    generalize (work ⟨record,s.log,s.futures⟩).state = d at why works
    obtain ⟨new,grown,concerns⟩ := works.log
    obtain ⟨old,same,played,offered⟩ := before.calls
    have grown : d.log = new ++ s.log := grown
    have task : d.record.task = record.task := works.task
    have later : ∀ task, start.Plays task ∨ Opened task old → start.Plays task ∨ Opened task (new ++ old) :=
      fun task before => before.imp id (opened_later task new old)
    -- Whatever this work speaks of is the record's task, in play or just opened.
    have spoken : d.record.InPlay ∨ (∃ call ∈ new, ∃ task, call.offered = some task) →
        start.Plays record.task ∨ Opened record.task (new ++ old) := by
      intro speaks
      obtain inPlay | opened | ⟨out,quiet⟩ := why new grown
      · exact later _ (played taskId record found inPlay)
      · obtain ⟨other,member,about⟩ := opened
        exact .inr ⟨other,List.mem_append_left _ member,about⟩
      · obtain inPlay | ⟨call,member,task,offers⟩ := speaks
        · exact absurd inPlay out
        · rw [quiet call member] at offers
          cases offers
    refine ⟨?_,new ++ old,by simp [store,grown,same],?_,?_⟩
    · intro id r there
      obtain ⟨rfl,rfl⟩ | ⟨_,there⟩ := Dict.get?_set_cases there
      · rw [task]
        exact before.keyed id record found
      · exact before.keyed id r there
    · intro id r there inPlay
      obtain ⟨_,rfl⟩ | ⟨_,there⟩ := Dict.get?_set_cases there
      · rw [task]
        exact spoken (.inl inPlay)
      · exact later _ (played id r there inPlay)
    · intro call member offer offers
      obtain now | earlier := List.mem_append.mp member
      · rw [concerns_offered _ call (concerns call now) offer offers]
        exact spoken (.inr ⟨call,now,offer,offers⟩)
      · exact later _ (offered call earlier offer offers)

theorem plain_offered (call : Call) (plain : call.plain = true) : call.offered = none := by
  cases call with
  | broadcast message sent =>
    cases message with
    | taskAnnounce m => cases plain
    | _ => rfl
  | sendReliable record dst message reply => cases plain
  | _ => rfl

theorem move_speaks (s t : Session) (move : Move cfg world s t) (before : Speaks start s) :
    Speaks start t := by
  have said : ∀ (call : Call) (s : Session), call.offered = none → Speaks start s → Speaks start (s.say call) :=
    fun call s none before => speaks_fewer start s _ [call] rfl (by simpa using none)
      (fun _ _ found => found) before
  cases move with
  | aside t tasks log futures serial =>
    exact speaks_fewer start s t [] log (fun _ member => by cases member) (fun _ _ found => tasks ▸ found) before
  | told call plain => exact said call s (plain_offered call plain) before
  | enrolled task free =>
    exact speaks_enroll start task s _ [.entered task s.futures] rfl (by simp [Call.offered]) rfl before
  | absorbed task cause note free =>
    exact speaks_enroll start task s _ [.replanAndVerify _ _,.requestYield _,.absorb task,
      .entered task s.futures] rfl (by simp [Call.offered]) rfl before
  | unabsorbed task cause note free =>
    have absorbed : Speaks start (s.absorb world task cause note).2 :=
      speaks_enroll start task s _ [.replanAndVerify _ _,.requestYield _,.absorb task,
        .entered task s.futures] rfl (by simp [Call.offered]) rfl before
    refine speaks_fewer start _ _ [.release task] rfl (by simp [Call.offered]) ?_ absorbed
    exact fun id r found => (Dict.get?_pop_cases found).2
  | delegated task reasonCode fallback note now =>
    refine deal_speaks start task.taskId _ (delegate_stays cfg world _ _ _ _ _ _) _ ?_
      (enrollMissing_speaks start task _ (said _ s rfl before))
    exact fun r _ => delegate_justified cfg world _ _ _ _ _ _ _
  | dropped task disposition reasonCode now =>
    refine deal_speaks start task.taskId _ (dispose_stays disposition now) _ ?_
      (enrollMissing_speaks start task _ (said _ s rfl before))
    exact fun r _ => Desk.dispose_justified _ _ disposition now ⟨[],rfl,fun _ member => by cases member⟩
  | filed bid now record auction after found collects welcome taken heard =>
    refine deal_speaks start bid.taskId _ (fileBid_stays cfg world s after now) s ?_ before
    intro r there _ _
    rw [found] at there
    injection there with there
    exact .inl (.inl (there ▸ ((collecting_eq_some _ _).mp collects).1))
  | ran taskId now =>
    exact deal_speaks start taskId _ (runAuction_stays cfg world s.peers now) s
      (fun r _ => runAuction_justified cfg world s.peers now _) before
  | forgot gone =>
    refine speaks_quiet start s _ [] rfl (fun _ member => by cases member) ?_ before
    intro id r found
    simp only [Dict.get?_mapValues] at found
    obtain ⟨old,there,rfl⟩ := Option.map_eq_some_iff.mp found
    exact ⟨before.keyed id old there,fun inPlay => ⟨old,there,inPlay,rfl⟩⟩
  | pruned now =>
    exact speaks_fewer start s _ [] rfl (fun _ member => by cases member)
      (fun id r found => ((Dict.get?_retain _ _ _ _).mp found).1) before

theorem perform_speaks (op : Op) (keyed : ∀ id r, start.tasks.get? id = some r → r.task.taskId = id) :
    Speaks start (start.perform cfg world op).state := by
  have before := speaks_refl start keyed
  by_cases isOutcome : ∃ id outcome, op = .outcome id outcome
  · obtain ⟨id,outcome,rfl⟩ := isOutcome
    obtain same | ⟨future,_,_,same⟩ := resolve_cases cfg world id outcome start
    · rw [perform,same]
      exact before
    · rw [perform,same]
      refine deal_speaks start future.taskId _ (settle_stays cfg world start.peers _ _) (start.without id)
        (fun r _ => settle_justified cfg world start.peers _ _ _) ?_
      exact speaks_fewer start start _ [] rfl (fun _ member => by cases member) (fun _ _ found => found) before
  · push Not at isOutcome
    exact Moves.keeps cfg world (Speaks start) (move_speaks cfg world start) start _
      (perform_moves cfg world op isOutcome start) before

/-- The bids and the Bids aired all go back to bids there were. -/
structure Derived (start s : Session) : Prop where
  keyed : s.BidsKeyed
  bids : ∀ id p, s.bids.get? id = some p →
    ∃ q, start.bids.get? id = some q ∧ q.announcerId = p.announcerId ∧ q.task = p.task
  aired : ∃ added, s.log = added ++ start.log ∧
    ∀ bid, .broadcast (.bid bid) true ∈ added → ∃ q, start.bids.get? bid.taskId = some q

theorem derived_refl (keyed : start.BidsKeyed) : Derived start start :=
  ⟨keyed,fun _ p found => ⟨p,found,rfl,rfl⟩,[],rfl,fun _ member => by cases member⟩

theorem derived_step (s t : Session) (added : Log) (keyed : t.BidsKeyed) (grown : t.log = added ++ s.log)
    (quiet : ∀ bid, .broadcast (.bid bid) true ∈ added → ∃ q, s.bids.get? bid.taskId = some q)
    (bids : ∀ id p, t.bids.get? id = some p →
      ∃ q, s.bids.get? id = some q ∧ q.announcerId = p.announcerId ∧ q.task = p.task)
    (before : Derived start s) : Derived start t := by
  obtain ⟨old,same,aired⟩ := before.aired
  refine ⟨keyed,?_,added ++ old,by rw [grown,same,List.append_assoc],?_⟩
  · intro id p found
    obtain ⟨q,there,announcer,task⟩ := bids id p found
    obtain ⟨first,here,first_announcer,first_task⟩ := before.bids id q there
    exact ⟨first,here,first_announcer.trans announcer,first_task.trans task⟩
  · intro bid member
    obtain new | earlier := List.mem_append.mp member
    · obtain ⟨q,there⟩ := quiet bid new
      obtain ⟨first,here,_⟩ := before.bids _ q there
      exact ⟨first,here⟩
    · exact aired bid earlier

theorem turn_derived (op : Op) (s t : Session) (turn : Turn op s t) (before : Derived start s) :
    Derived start t := by
  have keyed := turn_keyed op s t turn before.keyed
  have fewer : (∀ id p, t.bids.get? id = some p → s.bids.get? id = some p) → ∀ id p,
      t.bids.get? id = some p →
        ∃ q, s.bids.get? id = some q ∧ q.announcerId = p.announcerId ∧ q.task = p.task :=
    fun fewer id p found => ⟨p,fewer id p found,rfl,rfl⟩
  have replaced : ∀ taskId (pending after : PendingBid), s.bids.get? taskId = some pending →
      pending.announcerId = after.announcerId → pending.task = after.task →
      ∀ id p, (s.bids.set taskId after).get? id = some p →
        ∃ q, s.bids.get? id = some q ∧ q.announcerId = p.announcerId ∧ q.task = p.task := by
    intro taskId pending after found announcer task id p there
    obtain ⟨rfl,rfl⟩ | ⟨_,there⟩ := Dict.get?_set_cases there
    · exact ⟨pending,found,announcer,task⟩
    · exact ⟨p,there,rfl,rfl⟩
  cases turn with
  | beside t beside =>
    obtain ⟨added,grown,quiet⟩ := beside.log
    refine derived_step start s t added keyed grown ?_ (fewer (fun _ _ found => beside.bids ▸ found)) before
    intro bid member
    have owner := quiet _ member
    cases owner
  | heard message same other =>
    exact derived_step start s _ [_] keyed rfl (by simp) (fewer (fun _ _ found => found)) before
  | granted grant same =>
    exact derived_step start s _ [_] keyed rfl (by simp) (fewer (pop_fewer s grant.taskId)) before
  | dropped taskId pending found waits =>
    exact derived_step start s _ [] keyed rfl (by simp) (fewer (pop_fewer s taskId)) before
  | revised taskId pending after found waits same =>
    exact derived_step start s _ [] keyed rfl (by simp)
      (replaced taskId pending after found (by rw [same]) (by rw [same])) before
  | sent taskId pending now found waits =>
    refine derived_step start s _ [.broadcast (.bid pending.wire) true] keyed rfl ?_
      (replaced taskId pending _ found rfl rfl) before
    intro bid member
    have same : bid = pending.wire := by simpa using member
    have about : pending.wire.taskId = taskId := (before.keyed taskId pending found).1
    exact ⟨pending,by rw [same,about]; exact found⟩

theorem perform_derived (op : Op) (keyed : start.BidsKeyed) :
    (∀ id p, (start.perform cfg world op).state.bids.get? id = some p →
      (∃ q, start.bids.get? id = some q ∧ q.announcerId = p.announcerId ∧ q.task = p.task) ∨
      ∃ m, op = .message (.taskAnnounce m) ∧ m.taskId = id ∧ p.announcerId = m.src ∧
        announcedTask m = some p.task) ∧
    ∃ added, (start.perform cfg world op).state.log = added ++ start.log ∧
      ∀ bid, .broadcast (.bid bid) true ∈ added → ∃ q, start.bids.get? bid.taskId = some q := by
  have before := derived_refl start keyed
  by_cases isTick : op = .tick
  · obtain ⟨t,turns,same | same⟩ := tick_turns cfg world start
    · have derived := turns.keeps _ (Derived start) (turn_derived start .tick) start t before
      rw [isTick,perform,same]
      exact ⟨fun id p found => .inl (derived.bids id p found),derived.aired⟩
    · have derived := turns.keeps _ (Derived start) (turn_derived start .tick) start t before
      rw [isTick,perform,same]
      exact ⟨fun id p found => .inl (derived.bids id p (prune_fewer cfg _ t id p found)),derived.aired⟩
  by_cases isAnnounce : ∃ m, op = .message (.taskAnnounce m)
  · obtain ⟨m,rfl⟩ := isAnnounce
    simp only [perform,onMessage]
    split
    · exact ⟨fun id p found => .inl (before.bids id p found),before.aired⟩
    · obtain ⟨same,_⟩ | ⟨task,fitness,answers,requests,note,same⟩ := onAnnounce_cases cfg world m
        (world.clock start.log) (start.say (.received (.taskAnnounce m) start.tasks))
      · rw [Flow.state_handled,same]
        exact ⟨fun id p found => .inl (before.bids id p found),[_],rfl,by simp⟩
      · rw [Flow.state_handled,same]
        refine ⟨?_,[_],rfl,by simp⟩
        intro id p found
        obtain ⟨rfl,rfl⟩ | ⟨_,found⟩ := Dict.get?_set_cases found
        · exact .inr ⟨m,rfl,rfl,rfl,answers.announced⟩
        · exact .inl (before.bids id p found)
  · push Not at isAnnounce
    have derived := (perform_turns cfg world op isTick isAnnounce start).keeps _ (Derived start)
      (turn_derived start op) start _ before
    exact ⟨fun id p found => .inl (derived.bids id p found),derived.aired⟩

end Session
end AmigaFleet.Coordinator
