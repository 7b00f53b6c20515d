import AmigaFleet.Coordinator.Speaking
import AmigaFleet.Fleet.Handover

/-! Several robots offering tasks under one id. A Bid and a GRANT carry the id
alone; as long as an auction is opened only when nothing in the fleet speaks of
its id for another offer, everyone means the same offer by it. -/
namespace AmigaFleet.Coordinator
open Lib AmigaFleet.Codec AmigaFleet.Reliability
open Session (field clockAt given)

instance (r : OwnedTask) : Decidable r.InPlay := inferInstanceAs (Decidable (_ ∨ _))

def Frame.about (frame : Frame) : Option Int :=
  match frame.message with
  | .taskAnnounce m => some m.taskId
  | .bid bid => some bid.taskId
  | .grant grant => some grant.taskId
  | _ => none

def openings (calls : Log) : List OwnedTask :=
  calls.filterMap (fun | .opened record => some record | _ => none)

theorem mem_openings (calls : Log) (record : OwnedTask) :
    record ∈ openings calls ↔ .opened record ∈ calls := by
  simp only [openings,List.mem_filterMap]
  constructor
  · rintro ⟨call,member,shape⟩
    cases call with
    | opened other =>
      injection shape with shape
      exact shape ▸ member
    | _ => cases shape
  · exact fun member => ⟨_,member,rfl⟩

namespace Session
variable (cfg : Config)

/-- Every bid on file answers an announcement that was heard. -/
def Heeds (s : Session) : Prop := ∀ id p, s.bids.get? id = some p → ∃ m, Heard (.taskAnnounce m) s.log ∧
  m.taskId = id ∧ m.src = p.announcerId ∧ announcedTask m = some p.task

theorem perform_heeds (world : World) (op : Op) (s : Session) (keyed : s.BidsKeyed) (before : s.Heeds) :
    (s.perform cfg world op).state.Heeds := by
  have grows := perform_log cfg world op s
  have still : ∀ id p, s.bids.get? id = some p → ∃ m, Heard (.taskAnnounce m) (s.perform cfg world op).state.log ∧
      m.taskId = id ∧ m.src = p.announcerId ∧ announcedTask m = some p.task := by
    intro id p found
    obtain ⟨m,heard,rest⟩ := before id p found
    exact ⟨m,heard_later _ _ _ grows heard,rest⟩
  intro id p found
  obtain ⟨q,there,announcer,task⟩ | ⟨m,rfl,named,announcer,reads⟩ :=
    (perform_derived cfg world s op keyed).1 id p found
  · rw [← announcer,← task]
    exact still id q there
  · by_cases own : m.src = cfg.nodeId
    · refine still id p ?_
      rwa [perform,onMessage,if_pos (show (Message.taskAnnounce m).src = cfg.nodeId from own)] at found
    · refine ⟨m,⟨s.tasks,?_⟩,named,announcer.symm,reads⟩
      rw [perform,onMessage,if_neg (show (Message.taskAnnounce m).src ≠ cfg.nodeId from own),Flow.state_handled]
      obtain ⟨same,_⟩ | ⟨_,_,_,_,_,same⟩ := onAnnounce_cases cfg world m (world.clock s.log)
        (s.say (.received (.taskAnnounce m) s.tasks))
      · rw [same]
        exact List.mem_cons_self
      · rw [same]
        exact List.mem_cons_self

theorem reachable_heeds (s : Session) (reached : (machine cfg).Reachable s) : s.Heeds := by
  have both : s.BidsKeyed ∧ s.Heeds := by
    refine reached.invariant (fun s => s.BidsKeyed ∧ s.Heeds) ?_ ?_ s
    · rintro _ rfl
      exact ⟨(fun _ _ found => by cases found),(fun _ _ found => by cases found)⟩
    · intro s label _ before _ _
      exact ⟨perform_keyed cfg label.world label.op s before.1,
        perform_heeds cfg label.world label.op s before.1 before.2⟩
  exact both.2

end Session

namespace Fleet
variable (team : Team)

/-- Everything in the fleet that speaks of this id speaks of this robot's offer
of this task: the bids on file, the frames on the air, and the records under
auction or granted. -/
structure Sole (f : Fleet) (taskId robot : Int) (task : Task) : Prop where
  bids : ∀ r ∈ team.members, ∀ p ∈ (f.sessions r).bids.get? taskId, p.announcerId = robot ∧ p.task = task
  air : ∀ frame ∈ f.air, frame.about = some taskId → frame.offer = some (robot,task)
  records : ∀ r ∈ team.members, ∀ q ∈ (f.sessions r).tasks.get? taskId, q.InPlay → r = robot ∧ q.task = task

/-- Every auction this operation opens is the sole offer under its id: before
the operation, and among the auctions the operation opens. -/
def OpensAlone (robot : Int) (label : Label) (f : Fleet) : Prop :=
  let opened := openings (newCalls (f.sessions robot) ((perform team robot label f).sessions robot))
  ∀ record ∈ opened, f.Sole team record.task.taskId robot record.task ∧
    ∀ other ∈ opened, other.task.taskId = record.task.taskId → other.task = record.task

instance (f : Fleet) (taskId robot : Int) (task : Task) : Decidable (f.Sole team taskId robot task) :=
  decidable_of_iff ((∀ r ∈ team.members, ∀ p ∈ (f.sessions r).bids.get? taskId,
      p.announcerId = robot ∧ p.task = task) ∧
    (∀ frame ∈ f.air, frame.about = some taskId → frame.offer = some (robot,task)) ∧
    ∀ r ∈ team.members, ∀ q ∈ (f.sessions r).tasks.get? taskId, q.InPlay → r = robot ∧ q.task = task)
    ⟨fun ⟨bids,air,records⟩ => ⟨bids,air,records⟩,fun sole => ⟨sole.bids,sole.air,sole.records⟩⟩

instance (robot : Int) (label : Label) (f : Fleet) : Decidable (OpensAlone team robot label f) :=
  inferInstanceAs (Decidable (∀ record ∈ openings _,_ ∧ ∀ other ∈ openings _,_ → _))

def Alone (f : Fleet) : Event → Prop
  | .act robot label => OpensAlone team robot label f
  | .hear robot frame world => OpensAlone team robot ⟨world,.message frame.message⟩ f
  | .lose _ => True

instance (f : Fleet) : DecidablePred (f.Alone team)
  | .act .. => inferInstanceAs (Decidable (OpensAlone ..))
  | .hear .. => inferInstanceAs (Decidable (OpensAlone ..))
  | .lose _ => inferInstanceAs (Decidable True)

/-- What a robot makes of a frame is about the offer the frame speaks of: the
first task added because of a GRANT is the one its sender granted, as the winner
heard its sender announce it; a Bid heard while collecting answers what is
collected for; and a bid taken off the file by a GRANT was made to its sender. -/
structure Meant (robot : Int) (frame : Frame) (before after : Session) : Prop where
  added : ∀ grant task, frame.message = .grant grant → addedFirst (newCalls before after) = some task →
    frame.offer = some (grant.src,task) ∧ ∃ m, Heard (.taskAnnounce m) before.log ∧
      m.taskId = grant.taskId ∧ m.src = grant.src ∧ Session.announcedTask m = some task
  arbitrated : ∀ bid q, frame.message = .bid bid → before.tasks.get? bid.taskId = some q →
    (Session.collecting q).isSome = true → frame.offer = some (robot,q.task)
  removed : ∀ grant p, frame.message = .grant grant → before.bids.get? grant.taskId = some p →
    after.bids.get? grant.taskId = none → p.announcerId = grant.src

def Labelled (frame : Frame) : Prop :=
  match frame.message with
  | .taskAnnounce m => ∃ task, Session.announcedTask m = some task ∧ frame.offer = some (m.src,task)
  | .grant grant => ∃ task, frame.offer = some (grant.src,task)
  | _ => True

theorem frames_labelled (robot : Int) (before after : Session)
    (said : ∀ call ∈ after.log, Session.SaidWell call) (frame : Frame)
    (member : frame ∈ frames robot before after.log) : Labelled frame := by
  obtain ⟨later,call,earlier,sent,log,_,aired,rfl⟩ := frames_cases robot before after.log frame member
  have well := said call (by rw [log]; exact List.mem_append_right _ List.mem_cons_self)
  obtain rfl | ⟨record,dst,reply,rfl⟩ := aired_said call sent aired
  · cases sent with
    | taskAnnounce m =>
      obtain ⟨task,reads⟩ := well
      refine ⟨task,reads,?_⟩
      simp [Call.offer,reads]
    | grant grant => cases well
    | _ => trivial
  · have shape : sent = .grant ⟨0,0,record.task.taskId,dst⟩ := well
    subst shape
    exact ⟨record.task,rfl⟩

theorem reachable_labelled (guard : Fleet → Event → Prop) (f : Fleet)
    (reached : (machine team).Reaches guard f) : ∀ frame ∈ f.air, Labelled frame := by
  induction reached with
  | start f initial =>
    rw [show f = ⟨fun _ => {},[]⟩ from initial]
    exact fun _ member => by cases member
  | step f event before enabled allowed ih =>
    have sessions := session_reachable team guard _ (.step f event before enabled allowed)
    have said := fun robot => Session.reachable_saidWell _ _ (sessions robot)
    cases event with
    | act robot label =>
      intro frame member
      obtain new | old := List.mem_append.mp member
      · exact frames_labelled robot _ _ (by simpa [machine] using said robot) frame new
      · exact ih frame old
    | hear robot heard world =>
      intro frame member
      obtain new | old := List.mem_append.mp member
      · exact frames_labelled robot _ _ (by simpa [machine] using said robot) frame new
      · exact ih frame old
    | lose lost => exact fun frame member => ih frame (List.mem_filter.mp member).1

theorem mem_newCall (added log later earlier : Log) (call : Call)
    (same : added ++ log = later ++ call :: earlier) (recent : log.length ≤ earlier.length) : call ∈ added := by
  obtain ⟨middle,rfl,_⟩ | ⟨middle,rfl,rest⟩ := List.append_eq_append_iff.mp same
  · have lengths := congrArg List.length same
    simp only [List.length_append,List.length_cons] at lengths
    omega
  · cases middle with
    | nil =>
      have lengths := congrArg List.length rest
      simp only [List.length_cons,List.nil_append] at lengths
      omega
    | cons first others =>
      injection rest with first_eq _
      rw [first_eq]
      exact List.mem_append_right _ List.mem_cons_self

/-- The operation speaks of the sole offer under the id: every auction it opens
there is this robot's, on this task. -/
def OpensOnly (taskId : Int) (robot r : Int) (task : Task) (added : Log) : Prop :=
  ∀ record, .opened record ∈ added → record.task.taskId = taskId → robot = r ∧ record.task = task

variable (robot : Int) (label : Label) (f : Fleet) (taskId r : Int) (task : Task)

theorem spoken_sole (member : robot ∈ team.members) (added : Log) (sole : f.Sole team taskId r task)
    (only : OpensOnly taskId robot r task added) (offer : Task) (about : offer.taskId = taskId)
    (spoken : (f.sessions robot).Plays offer ∨ Opened offer added) : robot = r ∧ offer = task := by
  obtain ⟨q,found,inPlay,same⟩ | ⟨record,opened,same⟩ := spoken
  · rw [about] at found
    rw [← same]
    exact sole.records robot member q found inPlay
  · rw [← same] at about ⊢
    exact only record opened about

theorem call_sole (member : robot ∈ team.members) (added : Log) (sole : f.Sole team taskId r task)
    (only : OpensOnly taskId robot r task added)
    (offers : ∀ call ∈ added, ∀ offer, call.offered = some offer →
      (f.sessions robot).Plays offer ∨ Opened offer added)
    (aired : ∀ bid, .broadcast (.bid bid) true ∈ added → ∃ q, (f.sessions robot).bids.get? bid.taskId = some q)
    (call : Call) (new : call ∈ added) (well : Session.SaidWell call) (sent : Message)
    (went : call.aired = some sent) (place : Int)
    (about : Frame.about ⟨sent.stamped robot place,call.offer robot (f.sessions robot).bids⟩ = some taskId) :
    call.offer robot (f.sessions robot).bids = some (r,task) := by
  obtain rfl | ⟨record,dst,reply,rfl⟩ := aired_said call sent went
  · cases sent with
    | taskAnnounce m =>
      obtain ⟨offer,reads⟩ := well
      have same : m.taskId = taskId := by simpa [Frame.about,Message.stamped] using about
      have built : offer.taskId = taskId := (Session.announcedTask_taskId m offer reads).trans same
      obtain ⟨rfl,rfl⟩ := spoken_sole team robot f taskId r task member added sole only offer built
        (offers _ new offer reads)
      simp [Call.offer,reads]
    | bid bid =>
      have same : bid.taskId = taskId := by simpa [Frame.about,Message.stamped] using about
      obtain ⟨q,found⟩ := aired bid new
      obtain ⟨announcer,offered⟩ := sole.bids robot member q (same ▸ found)
      simp [Call.offer,found,announcer,offered]
    | grant grant => cases well
    | _ => cases about
  · have shape : sent = .grant ⟨0,0,record.task.taskId,dst⟩ := well
    subst shape
    have same : record.task.taskId = taskId := by simpa [Frame.about,Message.stamped] using about
    obtain ⟨rfl,rfl⟩ := spoken_sole team robot f taskId r task member added sole only record.task same
      (offers _ new _ rfl)
    rfl

theorem perform_keeps_sole (member : robot ∈ team.members)
    (reached : (Coordinator.machine (team.config robot)).Reachable (f.sessions robot))
    (said : ∀ call ∈ ((perform team robot label f).sessions robot).log, Session.SaidWell call)
    (handed : ∀ m, label.op = .message (.taskAnnounce m) → ∃ frame ∈ f.air, frame.about = some m.taskId ∧
      ∃ task, Session.announcedTask m = some task ∧ frame.offer = some (m.src,task))
    (sole : f.Sole team taskId r task)
    (only : OpensOnly taskId robot r task (newCalls (f.sessions robot) ((perform team robot label f).sessions robot))) :
    (perform team robot label f).Sole team taskId r task := by
  have tracked := Session.reachable_tracked (team.config robot) _ _ (Session.tracks_backed _) _ reached
  have keyed := Session.reachable_keyed (team.config robot) _ reached
  have speaks := Session.perform_speaks (team.config robot) label.world (f.sessions robot) label.op tracked.keyed
  have derived := Session.perform_derived (team.config robot) label.world (f.sessions robot) label.op keyed
  obtain ⟨added,grown,played,offers⟩ := speaks.calls
  obtain ⟨bids,others,sameLog,aired⟩ := derived
  rw [List.append_cancel_right (sameLog.symm.trans grown)] at aired
  rw [perform_self] at said only
  have new : newCalls (f.sessions robot) ((Coordinator.machine (team.config robot)).next (f.sessions robot)
      label) = added := newCalls_of_log _ _ added grown
  rw [new] at only
  constructor
  · intro other among p found
    by_cases same : other = robot
    · rw [same,perform_self] at found
      obtain ⟨q,there,announcer,about⟩ | ⟨m,heard,named,announcer,reads⟩ := bids taskId p found
      · obtain ⟨mine,its⟩ := sole.bids robot member q there
        exact ⟨announcer.symm.trans mine,about.symm.trans its⟩
      · obtain ⟨frame,onAir,about,offer,said,its⟩ := handed m heard
        have offered := sole.air frame onAir (by rw [about,named])
        rw [its] at offered
        injection offered with offered
        injection offered with mine same
        rw [said] at reads
        injection reads with reads
        exact ⟨announcer.trans mine,reads.symm.trans same⟩
    · rw [perform_other team robot other label f same] at found
      exact sole.bids other among p found
  · intro frame onAir about
    obtain now | old := List.mem_append.mp onAir
    · obtain ⟨later,call,earlier,sent,log,recent,went,rfl⟩ := frames_cases robot _ _ frame now
      have inNew : call ∈ added := mem_newCall added _ later earlier call (grown.symm.trans log) recent
      have well := said call (by rw [log]; exact List.mem_append_right _ List.mem_cons_self)
      exact call_sole team robot f taskId r task member added sole only offers aired call inNew well sent
        went _ about
    · exact sole.air frame old about
  · intro other among q found inPlay
    by_cases same : other = robot
    · rw [same,perform_self] at found
      have built : q.task.taskId = taskId := speaks.keyed taskId q found
      rw [same]
      exact spoken_sole team robot f taskId r task member added sole only q.task built
        (played taskId q found inPlay)
    · rw [perform_other team robot other label f same] at found
      exact sole.records other among q found inPlay

def Unmixed : Prop := ∀ taskId, ∃ r task, f.Sole team taskId r task

theorem perform_unmixed (member : robot ∈ team.members)
    (reached : (Coordinator.machine (team.config robot)).Reachable (f.sessions robot))
    (said : ∀ call ∈ ((perform team robot label f).sessions robot).log, Session.SaidWell call)
    (handed : ∀ m, label.op = .message (.taskAnnounce m) → ∃ frame ∈ f.air, frame.about = some m.taskId ∧
      ∃ task, Session.announcedTask m = some task ∧ frame.offer = some (m.src,task))
    (alone : OpensAlone team robot label f) (before : f.Unmixed team) :
    (perform team robot label f).Unmixed team := by
  intro taskId
  by_cases opens : ∃ record ∈ openings (newCalls (f.sessions robot) ((perform team robot label f).sessions
      robot)), record.task.taskId = taskId
  · obtain ⟨record,opened,rfl⟩ := opens
    obtain ⟨sole,single⟩ := alone record opened
    refine ⟨robot,record.task,perform_keeps_sole team robot label f _ robot record.task member reached said
      handed sole ?_⟩
    exact fun other now about => ⟨rfl,single other ((mem_openings _ _).mpr now) about⟩
  · push Not at opens
    obtain ⟨r,task,sole⟩ := before taskId
    refine ⟨r,task,perform_keeps_sole team robot label f taskId r task member reached said handed sole ?_⟩
    exact fun other now about => absurd about (opens other ((mem_openings _ _).mpr now))

theorem reachable_unmixed (reached : (machine team).Reaches (Alone team) f) : f.Unmixed team := by
  induction reached with
  | start f initial =>
    rw [show f = ⟨fun _ => {},[]⟩ from initial]
    refine fun taskId => ⟨0,default,?_,?_,?_⟩
    · exact fun _ _ _ found => by cases found
    · exact fun _ onAir => by cases onAir
    · exact fun _ _ _ found => by cases found
  | step f event before enabled alone ih =>
    have sessions := session_reachable team (Alone team) f before
    have after := session_reachable team (Alone team) _ (.step f event before enabled alone)
    have said := fun robot => Session.reachable_saidWell _ _ (after robot)
    cases event with
    | act robot label =>
      refine perform_unmixed team robot label f enabled.1 (sessions robot) (said robot) ?_ alone ih
      intro m same
      have outward := enabled.2.1
      rw [same] at outward
      cases outward
    | hear robot frame world =>
      refine perform_unmixed team robot ⟨world,.message frame.message⟩ f enabled.1 (sessions robot)
        (said robot) ?_ alone ih
      intro m same
      have same : frame.message = .taskAnnounce m := by injection same
      have labelled := reachable_labelled team (Alone team) f before frame enabled.2.1
      simp only [Labelled,same] at labelled
      exact ⟨frame,enabled.2.1,by simp [Frame.about,same],labelled⟩
    | lose lost =>
      intro taskId
      obtain ⟨r,task,sole⟩ := ih taskId
      exact ⟨r,task,sole.bids,fun frame onAir => sole.air frame (List.mem_filter.mp onAir).1,sole.records⟩

/-- While every auction is opened alone under its id, whatever is heard is about
the offer it is taken for. -/
theorem alone_meant (reached : (machine team).Reaches (Alone team) f) (frame : Frame) (world : World)
    (enabled : f.Enabled team (.hear robot frame world)) :
    Meant robot frame (f.sessions robot) ((perform team robot ⟨world,.message frame.message⟩ f).sessions robot) := by
  have unmixed := reachable_unmixed team f reached
  have labelled := reachable_labelled team (Alone team) f reached frame enabled.2.1
  have heeds := Session.reachable_heeds _ _ (session_reachable team _ f reached robot)
  -- A GRANT on the air and a bid on file under its id are about one offer.
  have granted : ∀ grant p, frame.message = .grant grant → (f.sessions robot).bids.get? grant.taskId = some p →
      p.announcerId = grant.src ∧ frame.offer = some (grant.src,p.task) := by
    intro grant p same found
    obtain ⟨r,task,sole⟩ := unmixed grant.taskId
    have offer := sole.air frame enabled.2.1 (by simp [Frame.about,same])
    obtain ⟨announcer,its⟩ := sole.bids robot enabled.1 p found
    simp only [Labelled,same] at labelled
    obtain ⟨granted,sender⟩ := labelled
    rw [offer] at sender
    injection sender with sender
    injection sender with sender _
    rw [announcer,its,← sender]
    exact ⟨rfl,offer⟩
  constructor
  · intro grant task same adds
    rw [perform_self,same] at adds
    obtain ⟨p,found,rfl⟩ := Session.granted_adds (team.config robot) world grant (f.sessions robot) task adds
    obtain ⟨announcer,offer⟩ := granted grant p same found
    obtain ⟨m,heard,about,src,reads⟩ := heeds grant.taskId p found
    exact ⟨offer,m,heard,about,src.trans announcer,reads⟩
  · intro bid q same found collects
    obtain ⟨r,task,sole⟩ := unmixed bid.taskId
    obtain ⟨auction,collects⟩ := Option.isSome_iff_exists.mp collects
    obtain ⟨mine,its⟩ := sole.records robot enabled.1 q found
      (.inl ((Session.collecting_eq_some _ _).mp collects).1)
    rw [mine,its]
    exact sole.air frame enabled.2.1 (by simp [Frame.about,same])
  · intro grant p same found _
    exact (granted grant p same found).1

/-- Robot 2 adds the task it was granted, as robot 1 announced it. -/
theorem alone_meant_granted : ∃ m, Heard (.taskAnnounce m)
    (((machine crew).runs ⟨fun _ => {},[]⟩ grantedFleet).sessions 2).log ∧
    m.taskId = 7 ∧ m.src = 1 ∧ Session.announcedTask m = some field := by
  have reached := (machine crew).reaches_runs (Alone crew) ⟨fun _ => {},[]⟩ grantedFleet (.start _ rfl)
    (by decide +kernel)
  have meant := alone_meant crew 2 _ reached (grantTo 2 9) (clockAt 8) (by decide +kernel)
  exact (meant.added ⟨1,9,7,2⟩ field rfl (by decide +kernel)).2

/-- Another robot's plan has its own task under the same id. -/
def vineyard : Task := .seventh .row

def vineyardAnnounced : Frame := ⟨.taskAnnounce ⟨3,4,7,0,TargetKind.aisle.code,5,0,0,0⟩,some (3,vineyard)⟩

/-- Both auctions overlap: robot 2 answers the first it hears of, and the other
robot files that answer and grants it. -/
def overlappingFleet : List Event :=
  [.act 1 ⟨clockAt 0,.own field⟩,.act 1 (given 1 (.reDelegate field 0 .hold "")),.act 3 ⟨clockAt 0,.own vineyard⟩,
    .act 3 ⟨clockAt 1,.report (some vineyard) "blocked" 0 (.given (some (.reDelegate vineyard 0 .hold "")))⟩,
    .hear 2 announced (costing 0 1),.hear 2 vineyardAnnounced (costing 0 1),.act 2 ⟨clockAt 3,.tick⟩,
    .hear 3 ⟨.bid ⟨2,3,7,0,true,0⟩,some (1,field)⟩ (clockAt 4),.act 3 ⟨clockAt 7,.tick⟩]

def vineyardGrant : Frame := ⟨.grant ⟨3,8,7,2⟩,some (3,vineyard)⟩

/-- The winner adds the other robot's task. -/
theorem overlap_misgranted : ∃ f, (machine crew).Reachable f ∧
    f.Enabled crew (.hear 2 vineyardGrant (clockAt 8)) ∧
    ¬ Meant 2 vineyardGrant (f.sessions 2)
      ((perform crew 2 ⟨clockAt 8,.message vineyardGrant.message⟩ f).sessions 2) := by
  refine ⟨(machine crew).runs ⟨fun _ => {},[]⟩ overlappingFleet,?_,by decide +kernel,?_⟩
  · exact (machine crew).reaches_runs _ _ overlappingFleet (.start _ rfl) (by decide +kernel)
  · intro meant
    have offered := (meant.added ⟨3,8,7,2⟩ field rfl (by decide +kernel)).1
    revert offered
    decide +kernel

end Fleet
end AmigaFleet.Coordinator
