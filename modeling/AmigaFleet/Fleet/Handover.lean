import AmigaFleet.Coordinator.Sponsors
import AmigaFleet.Coordinator.Takeover
import AmigaFleet.Fleet.Fleet

/-! A confirmed hand-over orphans no task: the robot a GRANT is confirmed by has
taken the task on. -/
namespace AmigaFleet.Coordinator.Fleet
open Lib AmigaFleet.Codec AmigaFleet.Reliability
open Session (field clockAt given)
variable (team : Team)

/-- Within the bidder's memory: no tick finds a bid old enough to be pruned. -/
def Timely (f : Fleet) : Event → Prop
  | .act robot ⟨world,.tick⟩ =>
      (f.sessions robot).Recent (team.config robot) (world.clock (f.sessions robot).log)
  | _ => True

/-- A GRANT reaches its addressee with no other GRANT of that task heard since
the addressee last sent a Bid on it. -/
def Unpreempted (f : Fleet) : Event → Prop
  | .hear robot frame _ =>
    match frame.message with
    | .grant grant => grant.winnerId = robot → overheard grant.taskId (f.sessions robot).log = false
    | _ => True
  | _ => True

instance (f : Fleet) : DecidablePred (f.Timely team)
  | .act _ ⟨_,.tick⟩ => inferInstanceAs (Decidable (Session.Recent ..))
  | .act _ ⟨_,.own ..⟩ | .act _ ⟨_,.report ..⟩ | .act _ ⟨_,.message ..⟩ | .act _ ⟨_,.note ..⟩ |
    .act _ ⟨_,.takeNoteRequests⟩ | .act _ ⟨_,.revise ..⟩ | .act _ ⟨_,.outcome ..⟩ | .hear .. | .lose _ =>
    inferInstanceAs (Decidable True)

instance (f : Fleet) : DecidablePred f.Unpreempted
  | .hear _ ⟨.grant _,_⟩ _ => inferInstanceAs (Decidable (_ → _))
  | .hear _ ⟨.heartbeat _,_⟩ _ | .hear _ ⟨.taskAnnounce _,_⟩ _ | .hear _ ⟨.bid _,_⟩ _ |
    .hear _ ⟨.ack _,_⟩ _ | .hear _ ⟨.freeform _,_⟩ _ | .act .. | .lose _ => inferInstanceAs (Decidable True)

def Guard (f : Fleet) (event : Event) : Prop := f.Timely team event ∧ f.Unpreempted event

instance (f : Fleet) (event : Event) : Decidable (f.Guard team event) :=
  inferInstanceAs (Decidable (_ ∧ _))

theorem reachable_remembers (f : Fleet) (reached : (machine team).Reaches (Guard team) f) (robot : Int) :
    (f.sessions robot).Remembers := by
  have both : ∀ robot, (f.sessions robot).BidsKeyed ∧ (f.sessions robot).Remembers := by
    refine reached.invariant (fun f => ∀ robot, (f.sessions robot).BidsKeyed ∧ (f.sessions robot).Remembers)
      ?_ ?_ f
    · rintro _ rfl r
      exact ⟨(fun _ _ found => by cases found),(fun _ stands => by cases stands)⟩
    · intro f event _ before _ guard
      cases event with
      | act robot label =>
        refine perform_sessions team (fun _ s => s.BidsKeyed ∧ s.Remembers) robot label f before ?_
        obtain ⟨keyed,remembers⟩ := before robot
        refine ⟨Session.perform_keyed _ label.world label.op _ keyed,
          Session.perform_remembers _ label.world label.op _ ?_ keyed remembers⟩
        obtain ⟨world,op⟩ := label
        rintro rfl
        exact guard.1
      | hear robot frame world =>
        refine perform_sessions team (fun _ s => s.BidsKeyed ∧ s.Remembers) robot
          ⟨world,.message frame.message⟩ f before ?_
        obtain ⟨keyed,remembers⟩ := before robot
        exact ⟨Session.perform_keyed _ world (.message frame.message) _ keyed,
          Session.perform_remembers _ world (.message frame.message) _ nofun keyed remembers⟩
      | lose frame => exact before
  exact (both robot).2

theorem stamped_bid (sent : Message) (robot place : Int) (bid : Bid)
    (same : .bid bid = sent.stamped robot place) : ∃ plain, sent = .bid plain ∧ plain.taskId = bid.taskId := by
  cases sent with
  | bid plain =>
    injection same with same
    exact ⟨plain,rfl,by rw [same]⟩
  | _ => cases same

theorem stamped_grant (sent : Message) (robot place : Int) (grant : Grant)
    (same : .grant grant = sent.stamped robot place) :
    ∃ plain, sent = .grant plain ∧ plain.taskId = grant.taskId ∧ plain.winnerId = grant.winnerId := by
  cases sent with
  | grant plain =>
    injection same with same
    exact ⟨plain,rfl,by rw [same],by rw [same]⟩
  | _ => cases same

theorem aired_said (call : Call) (message : Message) (aired : call.aired = some message) :
    call = .broadcast message true ∨ ∃ record dst reply, call = .sendReliable record dst message reply := by
  cases call with
  | broadcast m sent =>
    simp only [Call.aired] at aired
    split at aired
    · rename_i went
      injection aired with aired
      exact .inl (by rw [aired,went])
    · cases aired
  | sendReliable record dst m reply =>
    simp only [Call.aired] at aired
    split at aired
    · cases aired
    · injection aired with aired
      exact .inr ⟨record,dst,reply,by rw [aired]⟩
  | _ => cases aired

theorem grant_sent (robot : Int) (s : Session) (grant : Grant) (said : ∀ call ∈ s.log, Session.SaidWell call)
    (sent : SentBy robot s.log (.grant grant)) :
    ∃ record, (record,grant.winnerId) ∈ grants s.log ∧ record.task.taskId = grant.taskId := by
  obtain ⟨later,call,earlier,message,log,aired,same⟩ := sent
  obtain ⟨plain,rfl,taskId,winnerId⟩ := stamped_grant message robot _ grant same
  have member : call ∈ s.log := by
    rw [log]
    exact List.mem_append_right _ List.mem_cons_self
  have well := said call member
  obtain rfl | ⟨record,dst,reply,rfl⟩ := aired_said call _ aired
  · cases well
  · have shape : Message.grant plain = .grant ⟨0,0,record.task.taskId,dst⟩ := well
    injection shape with shape
    refine ⟨record,List.mem_filterMap.mpr ⟨_,member,?_⟩,?_⟩
    · rw [← winnerId,shape]
    · rw [← taskId,shape]

theorem bid_sent (robot : Int) (s : Session) (bid : Bid) (said : ∀ call ∈ s.log, Session.SaidWell call)
    (sent : SentBy robot s.log (.bid bid)) : ∃ call ∈ s.log, call.bidOn bid.taskId = true := by
  obtain ⟨later,call,earlier,message,log,aired,same⟩ := sent
  obtain ⟨plain,rfl,taskId⟩ := stamped_bid message robot _ bid same
  have member : call ∈ s.log := by
    rw [log]
    exact List.mem_append_right _ List.mem_cons_self
  obtain rfl | ⟨record,dst,reply,rfl⟩ := aired_said call _ aired
  · exact ⟨_,member,by simp [Call.bidOn,taskId]⟩
  · have well : Message.bid plain = .grant _ := said _ member
    cases well

theorem granted_bid (guard : Fleet → Event → Prop) (f : Fleet) (reached : (machine team).Reaches guard f)
    (frame : Frame) (member : frame ∈ f.air) (grant : Grant) (same : frame.message = .grant grant) :
    ∃ call ∈ (f.sessions grant.winnerId).log, call.bidOn grant.taskId = true := by
  have wired := reachable_wired team guard f reached
  have sessions := session_reachable team guard f reached
  have sent := wired.air frame member
  rw [same] at sent
  obtain ⟨record,granted,taskId⟩ := grant_sent _ _ grant
    (Session.reachable_saidWell _ _ (sessions _)) sent
  obtain ⟨bid,heard,src,about⟩ := Session.granted_bidHeard _ _ (sessions _) record grant.winnerId granted
  have bidSent := wired.heard _ (.bid bid) heard
  rw [← src,← taskId,← about]
  exact bid_sent _ _ bid (Session.reachable_saidWell _ _ (sessions _)) bidSent

def Taken (f : Fleet) : Prop := ∀ robot grant, Heard (.grant grant) (f.sessions robot).log →
  grant.winnerId = robot → tookOn grant false (f.sessions robot).log = true

theorem perform_taken (robot : Int) (label : Label) (f : Fleet) (before : f.Taken)
    (handed : ∀ grant, label.op = .message (.grant grant) → grant.winnerId = robot →
      tookOn grant false ((Coordinator.machine (team.config robot)).next (f.sessions robot) label).log = true) :
    (perform team robot label f).Taken := by
  intro r grant heard mine
  by_cases same : r = robot
  · rw [same,perform_self] at heard ⊢
    obtain old | now := Session.perform_heard (team.config robot) label.world label.op _ _ heard
    · obtain ⟨added,grown⟩ := Session.perform_log (team.config robot) label.world label.op (f.sessions robot)
      have took := tookOn_later grant added _ false (before robot grant old (mine.trans same))
      rw [grown] at took
      exact took
    · exact handed grant now (mine.trans same)
  · rw [perform_other team robot r label f same] at heard ⊢
    exact before r grant heard mine

theorem reachable_taken (f : Fleet) (reached : (machine team).Reaches (Guard team) f) : f.Taken := by
  refine reached.invariant Taken ?_ ?_ f
  · rintro _ rfl robot grant ⟨tasks,member⟩
    cases member
  · intro f event soFar before enabled guard
    cases event with
    | act robot label =>
      refine perform_taken team robot label f before ?_
      intro grant same
      have outward := enabled.2.1
      rw [same] at outward
      cases outward
    | hear robot frame world =>
      refine perform_taken team robot ⟨world,.message frame.message⟩ f before ?_
      intro grant same mine
      have same : frame.message = .grant grant := by
        injection same
      have named := team.named robot enabled.1
      have fresh := guard.2
      simp only [Unpreempted,same] at fresh
      have bid := granted_bid team _ f soFar frame enabled.2.1 grant same
      rw [mine] at bid
      have stands := standing_of_bid grant.taskId _ bid (fresh mine)
      obtain ⟨p,found,_⟩ := reachable_remembers team f soFar robot grant.taskId stands
      have peer : grant.src ≠ robot := by
        have other := enabled.2.2.1
        rw [same] at other
        exact other
      simp only [same]
      refine Session.granted_tookOn (team.config robot) world grant (f.sessions robot) p ?_ ?_ found ?_
      · rw [mine,named]
      · rw [named]
        exact peer
      · exact Session.reachable_keyed _ _ (session_reachable team _ f soFar robot)
    | lose frame => exact before

/-- Every GRANT its addressee has acknowledged was taken on there, and a record
becomes TRANSFERRED only through such a GRANT. -/
theorem handover_taken (f : Fleet) (reached : (machine team).Reaches (Guard team) f) :
    f.Taken ∧ ∀ robot label taskId r, f.Enabled team (.act robot label) →
      ((perform team robot label f).sessions robot).tasks.get? taskId = some r → r.state = .transferred →
      (∃ q, (f.sessions robot).tasks.get? taskId = some q ∧ q.serial = r.serial ∧ q.state = .transferred) ∨
      ∃ grant, grant.src = robot ∧ grant.taskId = taskId ∧
        Heard (.grant grant) (f.sessions grant.winnerId).log ∧
        tookOn grant false (f.sessions grant.winnerId).log = true := by
  have taken := reachable_taken team f reached
  refine ⟨taken,?_⟩
  intro robot label taskId r enabled after transferred
  rw [perform_self] at after
  obtain before | ⟨id,future,same,found,about⟩ | ⟨added,grown,confirmed⟩ :=
    Session.next_transferred (team.config robot) (f.sessions robot) label taskId r after transferred
  · exact .inl before
  · right
    have honest := enabled.2.2.2.1
    rw [same] at honest
    have acked := honest future (List.mem_of_find?_eq_some found) (by simpa using List.find?_some found)
    exact ⟨⟨robot,future.id,future.taskId,future.winnerId⟩,rfl,about,acked,taken _ _ acked rfl⟩
  · have quiet := enabled.2.2.2.2
    rw [perform_self,grown] at quiet
    exact absurd confirmed (not_confirmed r added (fun call member =>
      quiet call (List.mem_append_left _ member)))

def crew : Team where
  members := [1,2,3]
  config robot := if robot = 2 then .second else if robot = 3 then .third else .first
  named := by decide

def costing (cost : Int) (now : ℚ) : World where
  clock _ := now
  fitness := fun _ _ _ _ _ => some { feasible := true, cost := cost }
  unit := World.still

def announced : Frame := ⟨.taskAnnounce ⟨1,4,7,0,TargetKind.aisle.code,3,0,0,0⟩,some (1,field)⟩

def bidFrom (robot cost : Int) : Frame := ⟨.bid ⟨robot,2,7,0,true,cost⟩,some (1,field)⟩

def grantTo (robot place : Int) : Frame := ⟨.grant ⟨1,place,7,robot⟩,some (1,field)⟩

def grantedFleet : List Event :=
  [.act 1 ⟨clockAt 0,.own field⟩,.act 1 (given 1 (.reDelegate field 0 .hold "")),
    .hear 2 announced (costing 0 1),.hear 3 announced (costing 10 1),.act 2 ⟨clockAt 3,.tick⟩,
    .act 3 ⟨clockAt 3,.tick⟩,.hear 1 (bidFrom 2 0) (clockAt 4),.hear 1 (bidFrom 3 10) (clockAt 4),
    .act 1 ⟨clockAt 7,.tick⟩]

/-- The GRANT is heard by its addressee, and confirmed. -/
theorem handover_taken_granted : ∃ grant : Grant, grant.src = 1 ∧ grant.taskId = 7 ∧
    Heard (.grant grant) (((machine crew).runs ⟨fun _ => {},[]⟩
      (grantedFleet ++ [.hear 2 (grantTo 2 9) (clockAt 8)])).sessions grant.winnerId).log ∧
    tookOn grant false (((machine crew).runs ⟨fun _ => {},[]⟩
      (grantedFleet ++ [.hear 2 (grantTo 2 9) (clockAt 8)])).sessions grant.winnerId).log = true := by
  have reached := (machine crew).reaches_runs (Guard crew) ⟨fun _ => {},[]⟩
    (grantedFleet ++ [.hear 2 (grantTo 2 9) (clockAt 8)]) (.start _ rfl) (by decide +kernel)
  have after : (((perform crew 1 ⟨clockAt 9,.outcome 9 .delivered⟩ ((machine crew).runs ⟨fun _ => {},[]⟩
      (grantedFleet ++ [.hear 2 (grantTo 2 9) (clockAt 8)]))).sessions 1).tasks.get? 7).map OwnedTask.state =
      some .transferred := by decide +kernel
  have before : ((((machine crew).runs ⟨fun _ => {},[]⟩ (grantedFleet ++
      [.hear 2 (grantTo 2 9) (clockAt 8)])).sessions 1).tasks.get? 7).map OwnedTask.state =
      some .granted := by decide +kernel
  obtain ⟨r,found,transferred⟩ := Option.map_eq_some_iff.mp after
  obtain ⟨q,there,_,was⟩ | taken :=
    (handover_taken crew _ reached).2 1 _ 7 r (by decide +kernel) found transferred
  · rw [there,Option.map_some,was] at before
    cases before
  · exact taken

/-- Robot 3 overhears the GRANT to robot 2 and forgets its bid; that GRANT
fails, robot 3 is granted as the runner-up, and acknowledges what it drops. -/
def orphanedFleet : List Event := grantedFleet ++ [.hear 3 (grantTo 2 9) (clockAt 8),
  .act 1 ⟨clockAt 20,.outcome 9 .failed⟩,.hear 3 (grantTo 3 11) (clockAt 21),
  .act 1 ⟨clockAt 22,.outcome 11 .delivered⟩]

theorem handover_orphans : ∃ f, (machine crew).Reaches (Timely crew) f ∧ ¬ f.Taken ∧
    ((f.sessions 1).tasks.get? 7).map (fun r => (r.state,r.grantedTo)) = some (.transferred,some 3) ∧
    (f.sessions 3).tasks.get? 7 = none := by
  refine ⟨(machine crew).runs ⟨fun _ => {},[]⟩ orphanedFleet,?_,?_,by decide +kernel,by decide +kernel⟩
  · exact (machine crew).reaches_runs _ _ orphanedFleet (.start _ rfl) (by decide +kernel)
  · intro taken
    have took := taken 3 ⟨1,11,7,3⟩ (by decide +kernel) rfl
    revert took
    decide +kernel

end AmigaFleet.Coordinator.Fleet
