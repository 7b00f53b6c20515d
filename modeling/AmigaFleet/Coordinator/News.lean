import AmigaFleet.Coordinator.Containment
import AmigaFleet.Coordinator.Mission

/-! What the books last did about a task: entered it, or asked for it to be put into the
mission or taken out of it. A record says in the mission exactly if that is where it stands. -/
namespace AmigaFleet.Coordinator
open Lib AmigaFleet.Codec AmigaFleet.Reliability

namespace Call

/-- Where the call asks for the task to be. -/
def asks (id : Int) : Call → Option Bool
  | .replanAndVerify _ delta =>
    if delta.added.any (fun task => task.taskId = id) then some true
    else if delta.removed.any (fun task => task.taskId = id) then some false
    else none
  | _ => none

/-- The call enters the task into the books. -/
def books (id : Int) : Call → Bool
  | .entered task _ => task.taskId = id
  | .apply (.reDelegate task ..) _ tasks _ => task.taskId = id && !tasks.contains id
  | .apply (.dropTask task ..) _ tasks _ => task.taskId = id && !tasks.contains id
  | _ => false

def news (id : Int) (call : Call) : Option Bool := (call.asks id).or (if call.books id then some true else none)

theorem news_quiet (id : Int) (call : Call) (silent : call.asks id = none) (unbooked : call.books id = false) :
    call.news id = none := by
  simp [news,silent,unbooked]

end Call

def lastNews (id : Int) (log : Log) : Option Bool := log.findSome? (Call.news id)

@[simp] theorem lastNews_cons (id : Int) (call : Call) (log : Log) :
    lastNews id (call :: log) = (call.news id).or (lastNews id log) := by
  cases heard : call.news id with
  | none => simp [lastNews,heard]
  | some found => simp [lastNews,heard]

theorem lastNews_append (id : Int) (added log : Log) : lastNews id (added ++ log) = (lastNews id added).or (lastNews id log) := by
  simp [lastNews,List.findSome?_append]

namespace Desk
variable (params : CoordinatorParams) (world : World) (peers : Registry) (start : Desk)

/-- The record says what the log says, and the log says nothing new of other tasks. -/
structure Known (d : Desk) : Prop where
  task : d.record.task = start.record.task
  told : lastNews start.record.task.taskId d.log = some d.record.inMission
  apart : ∀ id, id ≠ start.record.task.taskId → lastNews id d.log = lastNews id start.log

theorem known_refl (told : lastNews start.record.task.taskId start.log = some start.record.inMission) :
    Known start start := ⟨rfl,told,fun _ _ => rfl⟩

theorem put_known (record : OwnedTask) (d : Desk) (task : record.task = d.record.task)
    (inMission : record.inMission = d.record.inMission) (before : Known start d) : Known start (d.put record) :=
  ⟨task.trans before.task,before.told.trans (congrArg some inMission.symm),before.apart⟩

theorem say_known (call : Call) (d : Desk) (quiet : ∀ id, call.news id = none) (before : Known start d) :
    Known start (d.say call) := by
  refine ⟨before.task,?_,fun id other => ?_⟩
  · rw [say_log,lastNews_cons,quiet]
    exact before.told
  · rw [say_log,lastNews_cons,quiet]
    exact before.apart id other

theorem known_other (d : Desk) (before : Known start d) (id : Int) (other : id ≠ start.record.task.taskId) :
    d.record.task.taskId ≠ id := by
  rw [before.task]
  exact other.symm

theorem leaveMission_known (cause : String) (d : Desk) (before : Known start d) : Known start (d.leaveMission cause) := by
  unfold leaveMission
  split
  · refine ⟨before.task,?_,fun id other => ?_⟩
    · simp [Call.news,Call.asks,before.task]
    · simp [Call.news,Call.asks,Call.books,known_other start d before id other,before.apart id other]
  · exact before

theorem rejoinMission_known (cause : String) (d : Desk) (before : Known start d) :
    Known start (d.rejoinMission cause) := by
  unfold rejoinMission
  split
  · exact before
  · refine ⟨before.task,?_,fun id other => ?_⟩
    · simp [Call.news,Call.asks,before.task]
    · simp [Call.news,Call.asks,Call.books,known_other start d before id other,before.apart id other]

theorem disposeLocally_known (disposition : LocalDisposition) (now : ℚ) (d : Desk) (before : Known start d) :
    Known start (d.disposeLocally disposition now) := by
  cases disposition with
  | drop =>
    apply leaveMission_known
    apply say_known _ _ _ (fun _ => rfl)
    apply say_known _ _ _ (fun _ => rfl)
    exact put_known start _ d rfl rfl before
  | hold =>
    apply rejoinMission_known
    exact put_known start _ d rfl rfl before
  | requestHuman =>
    apply rejoinMission_known
    apply say_known _ _ _ (fun _ => rfl)
    exact put_known start _ d rfl rfl before

theorem emitNote_known (d : Desk) (before : Known start d) : Known start (d.emitNote world).2 := by
  unfold emitNote
  split
  · exact before
  · exact say_known start _ d (fun _ => rfl) before

theorem emitAnnounce_known (now : ℚ) (d : Desk) (before : Known start d) :
    Known start (d.emitAnnounce params world now).state := by
  unfold emitAnnounce
  simp only
  have said := say_known start (.broadcast (.taskAnnounce (announcement d.record))
    (world.broadcast d.log (.taskAnnounce (announcement d.record)))) d (fun _ => rfl) before
  split
  · exact put_known start _ _ rfl rfl said
  · exact said

theorem offer_known (now : ℚ) (d : Desk) (before : Known start d) : Known start (d.offer params world peers now) := by
  have opened : Known start (d.announcing now) := say_known start _ _ (fun _ => rfl) (put_known start _ d rfl rfl before)
  exact put_known start _ _ rfl rfl (emitNote_known world start _ opened)

theorem announce_known (now : ℚ) (d : Desk) (before : Known start d) :
    Known start (d.announce params world peers now).state := by
  apply Flow.andThen_keeps (Known start)
  · exact emitAnnounce_known params world start now _ (offer_known params world peers start now d before)
  · intro e emitted
    apply leaveMission_known
    exact say_known start _ e (fun _ => rfl) emitted

theorem fallBack_known (now : ℚ) (d : Desk) (before : Known start d) :
    Known start (d.fallBack params world peers now).state := by
  obtain ⟨_,again⟩ | ⟨_,ended⟩ := fallBack_cases params world peers now d
  · rw [again]
    exact announce_known params world peers start now _ (put_known start _ d rfl rfl before)
  · rw [ended]
    exact disposeLocally_known start _ now _ (put_known start _ d rfl rfl before)

theorem award_known (winnerId : Int) (d : Desk) (before : Known start d) : Known start (d.award world winnerId) :=
  say_known start _ _ (fun _ => rfl) (put_known start _ d rfl rfl before)

theorem grantDelivered_known (winnerId : Int) (now : ℚ) (d : Desk) (before : Known start d) :
    Known start (d.grantDelivered winnerId now) := by
  apply leaveMission_known
  apply say_known _ _ _ (fun _ => rfl)
  apply say_known _ _ _ (fun _ => rfl)
  exact put_known start _ d rfl rfl before

theorem lose_known (winnerId : Int) (d : Desk) (before : Known start d) : Known start (d.lose winnerId) :=
  put_known start _ d rfl rfl before

theorem cascades_known : Cascades params world peers (Known start) (Known start) (Known start) where
  still _ before := before
  noBid d now before := disposeLocally_known start _ now _ (put_known start _ d rfl rfl before)
  sent d _ winner before _ _ _ := ⟨before.task,(award_known world start winner.bidderId d before).told,
    (award_known world start winner.bidderId d before).apart⟩
  delivered d _ winner now before _ _ _ :=
    grantDelivered_known start _ now _ (award_known world start winner.bidderId d before)
  failed d _ winner before _ _ _ := lose_known start _ _ (award_known world start winner.bidderId d before)
  reopened d before _ := put_known start _ d rfl rfl before
  fallenBack d now before _ := fallBack_known params world peers start now d before

end Desk

namespace Session
variable (cfg : Config) (world : World)

/-- Every record is filed under its task and says what the log says. -/
structure Told (s : Session) : Prop where
  keyed : ∀ id r, s.tasks.get? id = some r → r.task.taskId = id
  told : ∀ id r, s.tasks.get? id = some r → lastNews id s.log = some r.inMission

/-- What the work leaves the record saying, if it said what the log says before. -/
def Knows (work : Desk → Flow Desk) : Prop :=
  ∀ d, lastNews d.record.task.taskId d.log = some d.record.inMission → Desk.Known d (work d).state

theorem delegate_knows (peers : Registry) (openAuctions : Nat) (reasonCode : Int) (fallback : LocalDisposition)
    (note : String) (now : ℚ) : Knows (delegate cfg world peers openAuctions reasonCode fallback note now) := by
  intro d told
  have instructed := Desk.put_known d (instructed fallback reasonCode note d.record) d rfl rfl (Desk.known_refl d told)
  obtain ⟨_,same⟩ | ⟨_,_,same⟩ | ⟨_,_,same⟩ := delegate_cases cfg world peers openAuctions reasonCode fallback note now d
  · rw [same]
    exact instructed
  · rw [same]
    exact Desk.disposeLocally_known d fallback now _ instructed
  · rw [same]
    exact Desk.announce_known cfg.params world peers d now _ instructed

theorem dispose_knows (disposition : LocalDisposition) (now : ℚ) :
    Knows (fun d => .returned (d.disposeLocally disposition now)) :=
  fun d told => Desk.disposeLocally_known d disposition now d (Desk.known_refl d told)

theorem fileBid_knows (s : Session) (auction : Auction) (now : ℚ) : Knows (s.fileBid cfg world auction now) := by
  intro d told
  exact (Desk.cascades_known cfg.params world s.peers d).maybeClose _ _ _ _ _ _ now _
    (Desk.put_known d _ d rfl rfl (Desk.known_refl d told))

theorem runAuction_knows (peers : Registry) (now : ℚ) : Knows (runAuction cfg world peers now) := by
  intro d told
  exact runAuction_rule cfg world peers _ _ _ (Desk.cascades_known cfg.params world peers d) now d
    (fun _ => Desk.known_refl d told) (fun _ _ => Desk.known_refl d told)
    (fun _ => Desk.emitAnnounce_known cfg.params world d now d (Desk.known_refl d told))

theorem settle_knows (peers : Registry) (winnerId : Int) (outcome : Outcome) :
    Knows (fun d => d.settle cfg.params world peers winnerId outcome) := by
  intro d told
  exact (Desk.cascades_known cfg.params world peers d).settle _ _ _ _ _ _ winnerId outcome d
    (fun _ => Desk.known_refl d told)
    (fun now _ _ => Desk.grantDelivered_known d winnerId now d (Desk.known_refl d told))
    (fun _ _ => Desk.lose_known d winnerId d (Desk.known_refl d told))

theorem deal_told (taskId : Int) (work : Desk → Flow Desk) (knows : Knows work) (s : Session) (before : s.Told) :
    (s.deal taskId work).state.Told := by
  cases found : s.tasks.get? taskId with
  | none =>
    rw [state_deal_none taskId work s found]
    exact before
  | some record =>
    rw [state_deal taskId work s record found]
    have here := before.keyed taskId record found
    have known := knows ⟨record,s.log,s.futures⟩ (by
      simp only [here]
      exact before.told taskId record found)
    obtain ⟨task,told,apart⟩ := known
    simp only [here] at told apart
    refine ⟨fun id r there => ?_,fun id r there => ?_⟩
    · obtain ⟨rfl,rfl⟩ | ⟨_,there⟩ := Dict.get?_set_cases there
      · exact (congrArg Task.taskId task).trans here
      · exact before.keyed id r there
    · obtain ⟨rfl,rfl⟩ | ⟨other,there⟩ := Dict.get?_set_cases there
      · exact told
      · exact (apart id other).trans (before.told id r there)

theorem say_told (call : Call) (quiet : ∀ id, call.news id = none) (s : Session) (before : s.Told) :
    (s.say call).Told := by
  refine ⟨before.keyed,fun id r found => ?_⟩
  change lastNews id (call :: s.log) = _
  rw [lastNews_cons,quiet]
  exact before.told id r found

theorem enter_told (task : Task) (s : Session) (before : s.Told) : (s.enter task).Told := by
  refine ⟨fun id r found => ?_,fun id r found => ?_⟩
  · obtain ⟨rfl,rfl⟩ | ⟨_,found⟩ := Dict.get?_set_cases found
    · rfl
    · exact before.keyed id r found
  · change lastNews id (.entered task s.futures :: s.log) = _
    obtain ⟨rfl,rfl⟩ | ⟨other,found⟩ := Dict.get?_set_cases found
    · simp [Call.news,Call.asks,Call.books]
    · have different : task.taskId ≠ id := fun same => other same.symm
      rw [lastNews_cons,Call.news_quiet id _ rfl (by simp [Call.books,different])]
      exact before.told id r found

theorem absorb_told (task : Task) (cause note : String) (s : Session) (before : s.Told) :
    (s.absorb world task cause note).2.Told := by
  have entered := say_told (.requestYield ("task " ++ toString task.taskId ++ " absorbed (" ++ cause ++ ")"))
    (fun _ => rfl) _ (say_told (.absorb task) (fun _ => rfl) _ (enter_told task s before))
  refine ⟨entered.keyed,fun id r found => ?_⟩
  change lastNews id (.replanAndVerify s.nextSerial { added := [task], cause := cause, note := note } :: _) = _
  rw [lastNews_cons]
  have before := entered.told id r found
  by_cases same : task.taskId = id
  · have fresh : (s.absorb world task cause note).2.tasks.get? id = some { serial := s.nextSerial, task := task } := by
      rw [← same]
      exact Dict.get?_set_self _ _ _
    obtain rfl := Option.some.inj (fresh.symm.trans found)
    simp [Call.news,Call.asks,same]
  · rw [Call.news_quiet id _ (by simp [Call.asks,same]) rfl]
    exact before

/-- `_apply` writes down that it enrolls a task, before it does. -/
theorem enroll_told (task : Task) (action : Action) (now : ℚ) (s : Session) (before : s.Told)
    (mine : ∀ id tasks futures, Call.books id (.apply action now tasks futures) =
      (decide (task.taskId = id) && !tasks.contains id)) :
    ((s.say (.apply action now s.tasks s.futures)).enrollMissing task).Told := by
  have silent : ∀ id, Call.asks id (.apply action now s.tasks s.futures) = none := fun _ => rfl
  unfold enrollMissing
  split
  · rename_i there
    refine ⟨before.keyed,fun id r found => ?_⟩
    change lastNews id (_ :: s.log) = _
    have recorded : s.tasks.contains id = true := (Dict.contains_iff _ _).mpr ⟨r,found⟩
    rw [lastNews_cons,Call.news_quiet id _ (silent id) (by simp [mine,recorded])]
    exact before.told id r found
  · rename_i missing
    have missing : s.tasks.contains task.taskId = false := (Bool.not_eq_true _).mp missing
    refine ⟨fun id r found => ?_,fun id r found => ?_⟩
    · obtain ⟨rfl,rfl⟩ | ⟨_,found⟩ := Dict.get?_set_cases found
      · rfl
      · exact before.keyed id r found
    · change lastNews id (_ :: s.log) = _
      obtain ⟨rfl,rfl⟩ | ⟨other,found⟩ := Dict.get?_set_cases found
      · rw [lastNews_cons]
        simp [Call.news,silent,mine,missing]
      · have different : task.taskId ≠ id := fun same => other same.symm
        rw [lastNews_cons,Call.news_quiet id _ (silent id) (by simp [mine,different])]
        exact before.told id r found

theorem move_told (s t : Session) (move : Move cfg world s t) (before : s.Told) : t.Told := by
  cases move with
  | aside t tasks log futures serial =>
    refine ⟨?_,?_⟩
    · rw [tasks]
      exact before.keyed
    · rw [tasks,log]
      exact before.told
  | told call plain =>
    refine say_told call (fun id => ?_) s before
    cases call with
    | replanAndVerify serial delta => cases plain
    | apply action now tasks futures =>
      cases action with
      | addTask task reasonCode => rfl
      | _ => cases plain
    | entered task futures => cases plain
    | _ => rfl
  | enrolled task free => exact enter_told task s before
  | absorbed task cause note free => exact absorb_told world task cause note s before
  | unabsorbed task cause note free =>
    have said := say_told (.release task) (fun _ => rfl) _ (absorb_told world task cause note s before)
    refine ⟨fun id r found => ?_,fun id r found => ?_⟩
    · exact said.keyed id r (Dict.get?_pop_cases found).2
    · exact said.told id r (Dict.get?_pop_cases found).2
  | delegated task reasonCode fallback note now =>
    exact deal_told _ _ (delegate_knows cfg world _ _ _ _ _ _) _
      (enroll_told task (.reDelegate task reasonCode fallback note) now s before (fun _ _ _ => rfl))
  | dropped task disposition reasonCode now =>
    exact deal_told _ _ (dispose_knows disposition now) _
      (enroll_told task (.dropTask task disposition reasonCode) now s before (fun _ _ _ => rfl))
  | filed bid now record auction after found collects welcome taken heard =>
    exact deal_told _ _ (fileBid_knows cfg world s after now) s before
  | ran taskId now => exact deal_told _ _ (runAuction_knows cfg world s.peers now) s before
  | forgot gone =>
    refine ⟨fun id r found => ?_,fun id r found => ?_⟩
    · simp only [Dict.get?_mapValues] at found
      obtain ⟨q,there,rfl⟩ := Option.map_eq_some_iff.mp found
      exact before.keyed id q there
    · simp only [Dict.get?_mapValues] at found
      obtain ⟨q,there,rfl⟩ := Option.map_eq_some_iff.mp found
      exact before.told id q there
  | pruned now =>
    refine ⟨fun id r found => ?_,fun id r found => ?_⟩
    · exact before.keyed id r ((Dict.get?_retain _ _ _ _).mp found).1
    · exact before.told id r ((Dict.get?_retain _ _ _ _).mp found).1

theorem perform_told (op : Op) (s : Session) (before : s.Told) : (s.perform cfg world op).state.Told := by
  by_cases outcome : ∃ id result, op = .outcome id result
  · obtain ⟨id,result,rfl⟩ := outcome
    simp only [perform,resolve]
    split
    · exact before
    · have apart : (s.without id).Told := ⟨before.keyed,before.told⟩
      exact deal_told _ _ (settle_knows cfg world s.peers _ result) _ apart
  · exact Moves.keeps cfg world Told (move_told cfg world) s _
      (perform_moves cfg world op (fun id result same => outcome ⟨id,result,same⟩) s) before

end Session

/-- A task that a peer has acknowledged is out of our mission. -/
def OwnedTask.GivenAway (r : OwnedTask) : Prop := r.state = .transferred → r.inMission = false

namespace Desk
variable (params : CoordinatorParams) (world : World) (peers : Registry)

theorem dispose_givenAway (disposition : LocalDisposition) (now : ℚ) (d : Desk) :
    (d.disposeLocally disposition now).record.GivenAway := by
  rw [dispose_record]
  split <;> exact nofun

theorem announce_givenAway (now : ℚ) (d : Desk) : (d.announce params world peers now).state.record.GivenAway := by
  obtain ⟨_,_,_,shape⟩ := announce_record params world peers now d
  rw [shape]
  exact nofun

theorem fallBack_givenAway (now : ℚ) (d : Desk) : (d.fallBack params world peers now).state.record.GivenAway := by
  obtain ⟨_,again⟩ | ⟨_,ended⟩ := fallBack_cases params world peers now d
  · rw [again]
    exact announce_givenAway params world peers now _
  · rw [ended]
    exact dispose_givenAway _ now _

theorem cascades_givenAway : Cascades params world peers (fun d => d.record.state ≠ .transferred) (fun _ => True)
    (fun d => d.record.GivenAway) where
  still d before := fun given => absurd given before
  noBid d now before := dispose_givenAway _ now _
  sent d _ winner before _ _ _ := by
    rw [await_record,award_record]
    exact nofun
  delivered d _ winner now before _ _ _ := by
    rw [grantDelivered_record]
    exact fun _ => rfl
  failed _ _ _ _ _ _ _ := trivial
  reopened d _ _ := nofun
  fallenBack d now _ _ := fallBack_givenAway params world peers now d

end Desk

theorem Session.tracks_givenAway (cfg : Config) : Tracks cfg (fun r _ => r.GivenAway) (fun _ _ => True) where
  live _ _ _ := trivial
  frame _ _ _ _ holds := holds
  past _ _ _ _ _ := trivial
  unknown _ _ _ := trivial
  fresh _ _ _ _ := nofun
  absorbed _ _ _ _ _ _ := nofun
  forgotten _ _ _ holds := holds
  delegated world peers task reasonCode fallback note now tasks r log futures found holds := by
    intro after
    obtain ⟨_,same⟩ | ⟨_,_,same⟩ | ⟨_,_,same⟩ := delegate_cases cfg world peers (announcedIn tasks)
      reasonCode fallback note now
      ⟨r,.apply (.reDelegate task reasonCode fallback note) now tasks futures :: log,futures⟩
    · simp only [after,same]
      exact holds
    · simp only [after,same]
      exact Desk.dispose_givenAway _ now _
    · simp only [after,same]
      exact Desk.announce_givenAway _ _ _ now _
  dropped task disposition reasonCode now tasks r log futures found holds := Desk.dispose_givenAway _ now _
  filed world peers bid now d auction filed _ collects _ _ holds := by
    have announced := ((collecting_eq_some _ _).mp collects).1
    exact (Desk.cascades_givenAway cfg.params world peers).maybeClose _ _ _ _ _ _ now _ (by simp [announced])
  ran world peers now d holds := by
    refine runAuction_rule cfg world peers _ _ _ (Desk.cascades_givenAway cfg.params world peers) now d
      (fun _ => holds) ?_ ?_
    · intro auction collects
      simp [((collecting_eq_some _ _).mp collects).1]
    · intro open_
      obtain ⟨change,_,shape⟩ := Desk.emitAnnounce_record cfg.params world now d
      rw [shape]
      exact open_
  settled world peers winnerId outcome d holds :=
    (Desk.cascades_givenAway cfg.params world peers).settle _ _ _ _ _ _ winnerId outcome d (fun _ => holds)
      (fun now _ _ => by rw [Desk.grantDelivered_record]; exact fun _ => rfl) (fun _ _ => trivial)

/-- The replanner that hands each change over to a thread of its own, and says so. -/
def World.dispatching (world : World) : World :=
  { world with replan := fun _ _ => some { accepted := true, reason := "verification dispatched" } }

/-- Since the base, nothing was asked, and no task but these was entered. -/
def Booked (free : List Task) (base log : Log) : Prop :=
  ∃ added, log = added ++ base ∧ ∀ id, ∀ call ∈ added, call.asks id = none ∧
    (call.books id = true → ∃ task ∈ free, task.taskId = id)

/-- Since the base, every task entered was asked for afterwards. -/
def Followed (base log : Log) : Prop :=
  ∃ added, log = added ++ base ∧ ∀ id front call back, added = front ++ call :: back → call.books id = true →
    ∃ later ∈ front, (later.asks id).isSome = true

theorem booked_refl (free : List Task) (base : Log) : Booked free base base := ⟨[],rfl,by simp⟩

theorem booked_cons (free : List Task) (base log : Log) (call : Call) (before : Booked free base log)
    (silent : ∀ id, call.asks id = none) (mine : ∀ id, call.books id = true → ∃ task ∈ free, task.taskId = id) :
    Booked free base (call :: log) := by
  obtain ⟨added,rfl,calls⟩ := before
  refine ⟨call :: added,rfl,fun id other member => ?_⟩
  obtain rfl | member := List.mem_cons.mp member
  · exact ⟨silent id,mine id⟩
  · exact calls id other member

theorem Booked.mono {free more : List Task} {base log : Log} (booked : Booked free base log) (fewer : free ⊆ more) :
    Booked more base log := by
  obtain ⟨added,grown,calls⟩ := booked
  refine ⟨added,grown,fun id call member => ⟨(calls id call member).1,fun books => ?_⟩⟩
  obtain ⟨task,free,same⟩ := (calls id call member).2 books
  exact ⟨task,fewer free,same⟩

theorem followed_unbooked (base added : Log) (unbooked : ∀ id, ∀ call ∈ added, call.books id = false) :
    Followed base (added ++ base) := by
  refine ⟨added,rfl,fun id front call back same booked => ?_⟩
  have member : call ∈ added := by
    rw [same]
    exact List.mem_append_right _ List.mem_cons_self
  rw [unbooked id call member] at booked
  cases booked

theorem followed_refl (base : Log) : Followed base base := followed_unbooked base [] (by simp)

theorem Followed.trans {base mid log : Log} (first : Followed base mid) (second : Followed mid log) :
    Followed base log := by
  obtain ⟨early,rfl,before⟩ := first
  obtain ⟨late,rfl,after⟩ := second
  refine ⟨late ++ early,(List.append_assoc _ _ _).symm,fun id front call back same booked => ?_⟩
  obtain ⟨rest,rfl,earlier⟩ | ⟨rest,rfl,later⟩ := List.append_eq_append_iff.mp same
  · obtain ⟨call,member,asked⟩ := before id rest call back earlier booked
    exact ⟨call,List.mem_append_right _ member,asked⟩
  · cases rest with
    | nil =>
      obtain ⟨_,member,_⟩ := before id [] call back (by simpa using later.symm) booked
      cases member
    | cons head rest =>
      obtain ⟨rfl,rfl⟩ := List.cons.inj later
      exact after id front call rest rfl booked

theorem concerns_unbooked (r : OwnedTask) (call : Call) (concerns : call.Concerns r) (id : Int) :
    call.books id = false := by
  cases call with
  | entered task futures => cases concerns
  | apply action now tasks futures => cases concerns
  | _ => rfl

namespace Session
variable (cfg : Config) (world : World)

theorem deal_followed (taskId : Int) (work : Desk → Flow Desk) (stays : Stays work) (s : Session) :
    Followed s.log (s.deal taskId work).state.log := by
  cases found : s.tasks.get? taskId with
  | none =>
    rw [state_deal_none taskId work s found]
    exact followed_refl _
  | some record =>
    rw [state_deal taskId work s record found]
    obtain ⟨added,grown,calls⟩ := (stays ⟨record,s.log,s.futures⟩).log
    change Followed s.log (work ⟨record,s.log,s.futures⟩).state.log
    rw [grown]
    exact followed_unbooked s.log added (fun id call member => concerns_unbooked record call (calls call member) id)

theorem absorb_followed (task : Task) (cause note : String) (s : Session) :
    Followed s.log (s.absorb world task cause note).2.log := by
  let delta : MissionDelta := { added := [task], cause := cause, note := note }
  refine ⟨[.replanAndVerify s.nextSerial delta,
    .requestYield ("task " ++ toString task.taskId ++ " absorbed (" ++ cause ++ ")"),.absorb task,.entered task s.futures],
    rfl,fun id front call back same booked => ?_⟩
  have asked : task.taskId = id → ((Call.replanAndVerify s.nextSerial delta).asks id).isSome = true := by
    rintro rfl
    simp [delta,Call.asks]
  cases front with
  | nil =>
    obtain ⟨rfl,-⟩ := List.cons.inj same
    cases booked
  | cons head front =>
    obtain ⟨rfl,tail⟩ := List.cons.inj same
    refine ⟨_,List.mem_cons_self,asked ?_⟩
    have member : call ∈ [Call.requestYield ("task " ++ toString task.taskId ++ " absorbed (" ++ cause ++ ")"),
        .absorb task,.entered task s.futures] := tail ▸ List.mem_append_right _ List.mem_cons_self
    simp only [List.mem_cons,List.not_mem_nil,or_false] at member
    obtain rfl | rfl | rfl := member
    · cases booked
    · cases booked
    · simpa [Call.books] using booked

theorem takeOn_followed (depth : Nat) (task : Task) (now : ℚ) (cause note : String) (s : Session) :
    Followed s.log (takeOn cfg world.dispatching depth task now cause note s).state.log := by
  cases depth with
  | zero => exact followed_refl _
  | succ depth =>
    simp only [takeOn]
    split
    · exact followed_refl _
    · exact absorb_followed world.dispatching task cause note s

/-- The tasks that the action would enter. -/
def Action.enrolls (action : Action) (s : Session) : List Task :=
  match action with
  | .reDelegate task .. | .dropTask task .. => if s.tasks.contains task.taskId then [] else [task]
  | .addTask .. => []

/-- The tasks that the operation would enter without asking for them. -/
def entering (s : Session) : Op → List Task
  | .own task => if (s.tasks.get? task.taskId).any OwnedTask.ours then [] else [task]
  | .report reported detail reasonCode door =>
    (reported.filter (fun task => !s.tasks.contains task.taskId)).toList ++
      match s.comesTo world reported detail reasonCode door with
      | some (action,t) => Action.enrolls action t
      | none => []
  | _ => []

theorem apply_followed (free : List Task) (base : Log) (action : Action) (now : ℚ) (s : Session)
    (before : Booked free base s.log) (mine : Action.enrolls action s ⊆ free) :
    ∃ mid, Booked free base mid ∧ Followed mid (s.apply cfg world.dispatching
      (takeOn cfg world.dispatching (world.dispatching.depth + 1)) action now).state.log := by
  let call : Call := .apply action now s.tasks s.futures
  have enrolled : ∀ task id, Action.enrolls action s = (if s.tasks.contains task.taskId then [] else [task]) →
      (decide (task.taskId = id) && !s.tasks.contains id) = true → ∃ task ∈ free, task.taskId = id := by
    intro task id same booked
    simp only [Bool.and_eq_true,decide_eq_true_eq,Bool.not_eq_eq_eq_not,Bool.not_true] at booked
    obtain ⟨rfl,missing⟩ := booked
    exact ⟨task,mine (by simp [same,missing]),rfl⟩
  have said : Booked free base (call :: s.log) := by
    refine booked_cons free base s.log call before (fun _ => rfl) (fun id booked => ?_)
    cases action with
    | reDelegate task reasonCode fallback note => exact enrolled task id rfl booked
    | addTask task reasonCode => cases booked
    | dropTask task disposition reasonCode => exact enrolled task id rfl booked
  refine ⟨call :: s.log,said,?_⟩
  cases action with
  | reDelegate task reasonCode fallback note =>
    have dealt := deal_followed task.taskId _ (delegate_stays cfg world.dispatching ((s.say call).enrollMissing task).peers
      ((s.say call).enrollMissing task).openAuctions reasonCode fallback note now) ((s.say call).enrollMissing task)
    rw [enrollMissing_log] at dealt
    exact dealt
  | addTask task reasonCode => exact takeOn_followed cfg world _ task now "add_task" "" (s.say call)
  | dropTask task disposition reasonCode =>
    have dealt := deal_followed task.taskId _ (dispose_stays disposition now) ((s.say call).enrollMissing task)
    rw [enrollMissing_log] at dealt
    exact dealt

theorem report_followed (reported : Option Task) (detail : String) (reasonCode : Int) (door : Door) (s : Session) :
    ∃ mid, Booked (s.entering world.dispatching (.report reported detail reasonCode door)) s.log mid ∧
      Followed mid (s.report cfg world.dispatching reported detail reasonCode door).state.log := by
  have enrolled : Booked (s.entering world.dispatching (.report reported detail reasonCode door)) s.log
      (s.enrollReported reported).log := by
    cases reported with
    | none => exact booked_refl _ _
    | some task =>
      simp only [enrollReported]
      split
      · exact booked_refl _ _
      · rename_i missing
        refine booked_cons _ _ _ _ (booked_refl _ _) (fun _ => rfl) (fun id booked => ⟨task,?_,by simpa [Call.books] using booked⟩)
        simp [entering,missing]
  have applied : ∀ action (t : Session) now, s.comesTo world.dispatching reported detail reasonCode door = some (action,t) →
      Booked (s.entering world.dispatching (.report reported detail reasonCode door)) s.log t.log →
      ∃ mid, Booked (s.entering world.dispatching (.report reported detail reasonCode door)) s.log mid ∧
        Followed mid (t.apply cfg world.dispatching
          (takeOn cfg world.dispatching (world.dispatching.depth + 1)) action now).state.log := by
    intro action t now chosen before
    refine apply_followed cfg world _ s.log action now t before ?_
    simp only [entering,chosen]
    exact List.subset_append_right _ _
  cases door with
  | given answer =>
    cases answer with
    | none => exact ⟨_,enrolled,followed_refl _⟩
    | some action => exact applied action _ (world.clock s.log) rfl enrolled
  | asked =>
    have said := booked_cons _ _ _ (.interpretAnomaly ((s.enrollReported reported).anomalyContext world.dispatching
      reported detail reasonCode (world.clock s.log))) enrolled (fun _ => rfl) (fun _ booked => by cases booked)
    simp only [report,reportWith]
    split
    · exact ⟨_,said,followed_refl _⟩
    · rename_i action asked
      refine applied action _ (world.clock s.log) ?_ said
      simp only [comesTo]
      exact Option.map_eq_some_iff.mpr ⟨action,asked,rfl⟩

theorem onMessage_followed (message : Message) (s : Session) :
    Followed s.log (s.onMessage cfg world.dispatching message).state.log := by
  unfold onMessage
  simp only
  split
  · exact followed_refl _
  have said : Followed s.log (s.say (.received message s.tasks)).log :=
    followed_unbooked s.log [.received message s.tasks] (by simp [Call.books])
  refine said.trans ?_
  generalize s.say (.received message s.tasks) = t
  cases message with
  | heartbeat m =>
    simp only [Flow.state_handled,Flow.state_map]
    exact followed_refl _
  | taskAnnounce m =>
    obtain ⟨bids,requests,shape⟩ := onAnnounce_aside cfg world.dispatching m (world.dispatching.clock s.log) t
    simp only [Flow.state_handled,shape]
    exact followed_refl _
  | bid m =>
    simp only [Flow.state_handled,onBid]
    have quiet : (t.considerSuppression cfg m).log = t.log := by
      unfold considerSuppression
      split
      · rfl
      · split <;> rfl
    split
    · rw [Flow.state_returned,quiet]
      exact followed_refl _
    split
    · rw [Flow.state_returned,quiet]
      exact followed_refl _
    split
    · exact followed_refl _
    split
    · rw [Flow.state_returned,quiet]
      exact followed_refl _
    · exact deal_followed _ _ (fileBid_stays cfg world.dispatching t _ _) t
  | grant m =>
    simp only [Flow.state_handled,onGrant]
    split
    · exact followed_refl _
    split
    · exact followed_refl _
    · exact takeOn_followed cfg world _ _ _ _ _ _
  | ack m => exact followed_refl _
  | freeform m => exact followed_refl _

theorem tick_followed (s : Session) : Followed s.log (s.tick cfg world.dispatching).state.log := by
  unfold tick
  simp only
  generalize world.dispatching.clock s.log = now
  apply Flow.andThen_keeps (fun t : Session => Followed s.log t.log)
  · apply Flow.andThen_keeps (fun t : Session => Followed s.log t.log)
    · apply Flow.forEach_keeps (fun t : Session => Followed s.log t.log)
      · exact followed_refl _
      · intro taskId _ t before
        exact before.trans (deal_followed taskId _ (runAuction_stays cfg world.dispatching t.peers now) t)
    · intro t before
      apply Flow.forEach_keeps (fun t : Session => Followed s.log t.log)
      · exact before
      · intro taskId _ u moved
        refine moved.trans ?_
        unfold sendDueBid
        split
        · exact followed_refl _
        split
        · unfold transmitBid
          simp only
          split <;> exact followed_unbooked u.log [_] (by simp [Call.books])
        · exact followed_refl _
  · intro t before
    apply Flow.andThen_keeps (fun t : Session => Followed s.log t.log)
    · refine before.trans ?_
      unfold maybeHeartbeat
      split
      · exact followed_refl _
      · simp only
        split <;> exact followed_unbooked t.log [_] (by simp [Call.books])
    · intro u moved
      exact moved

/-- An operation first enters what it names, and then asks for all that it enters. -/
theorem perform_followed (op : Op) (s : Session) :
    ∃ mid, Booked (s.entering world.dispatching op) s.log mid ∧
      Followed mid (s.perform cfg world.dispatching op).state.log := by
  cases op with
  | own task =>
    refine ⟨_,?_,followed_refl _⟩
    simp only [entering,perform,Flow.state_returned,own]
    split
    · exact booked_refl _ _
    · exact booked_cons _ _ _ _ (booked_refl _ _) (fun _ => rfl)
        (fun id booked => ⟨task,List.mem_cons_self,by simpa [Call.books] using booked⟩)
  | report task detail reasonCode door => exact report_followed cfg world task detail reasonCode door s
  | message message => exact ⟨_,booked_refl _ _,onMessage_followed cfg world message s⟩
  | note note =>
    refine ⟨_,booked_refl _ _,?_⟩
    simp only [perform,Flow.state_returned,onNote]
    split
    · exact followed_refl _
    split
    · exact followed_refl _
    · split <;> exact followed_refl _
  | takeNoteRequests => exact ⟨_,booked_refl _ _,followed_refl _⟩
  | revise taskId revision =>
    have quiet : (s.reviseBid cfg world.dispatching taskId revision).log = s.log := by
      unfold reviseBid
      split
      · rfl
      · rfl
      · split
        · rfl
        · split <;> rfl
    refine ⟨_,booked_refl _ _,?_⟩
    change Followed s.log (s.reviseBid cfg world.dispatching taskId revision).log
    rw [quiet]
    exact followed_refl _
  | outcome id outcome =>
    refine ⟨_,booked_refl _ _,?_⟩
    simp only [perform,resolve]
    split
    · exact followed_refl _
    · exact deal_followed _ _ (settle_stays cfg world.dispatching s.peers _ outcome) (s.without id)
  | tick => exact ⟨_,booked_refl _ _,tick_followed cfg world s⟩

end Session
end AmigaFleet.Coordinator
