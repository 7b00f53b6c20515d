import AmigaFleet.Coordinator.Settling

/-! The mission holds a task iff we intend to execute it, and every replan is a
change. The deltas of one record swing: each takes back what the one before did. -/
namespace AmigaFleet.Coordinator
open Lib AmigaFleet.Codec AmigaFleet.Reliability

def MissionDelta.Removes (task : Task) (delta : MissionDelta) : Prop :=
  delta.removed = [task] ∧ delta.added = []

def MissionDelta.Adds (task : Task) (delta : MissionDelta) : Prop :=
  delta.removed = [] ∧ delta.added = [task]

theorem MissionDelta.not_removes_adds (task : Task) (delta : MissionDelta) :
    ¬ (delta.Removes task ∧ delta.Adds task) := by
  rintro ⟨removes,adds⟩
  have empty := removes.1.symm.trans adds.1
  cases empty

/-- Each delta removes or adds this task alone, and no neighbours do the same. -/
structure Alternates (task : Task) (deltas : List MissionDelta) : Prop where
  each : ∀ delta ∈ deltas, delta.Removes task ∨ delta.Adds task
  turns : deltas.IsChain (fun later earlier => later.Removes task ↔ earlier.Adds task)

/-- The deltas of a record, newest first, with where the newest leaves the task. -/
def Swings (task : Task) : Bool → List MissionDelta → Prop
  | true,[] => True
  | false,[] => False
  | true,delta::rest => delta.Adds task ∧ (rest = [] ∨ Swings task false rest)
  | false,delta::rest => delta.Removes task ∧ Swings task true rest

theorem Swings.alternates (task : Task) (held : Bool) (deltas : List MissionDelta)
    (swings : Swings task held deltas) : Alternates task deltas := by
  induction deltas generalizing held with
  | nil => exact ⟨(fun _ member => by cases member),List.isChain_nil⟩
  | cons delta rest ih =>
    cases held with
    | true =>
      obtain ⟨adds,rfl | before⟩ := swings
      · refine ⟨?_,List.isChain_singleton _⟩
        intro other member
        rw [List.mem_singleton.mp member]
        exact .inr adds
      · have tail := ih false before
        refine ⟨?_,?_⟩
        · intro other member
          obtain rfl | old := List.mem_cons.mp member
          · exact .inr adds
          · exact tail.each other old
        · cases rest with
          | nil => exact List.isChain_singleton _
          | cons earlier rest =>
            refine List.isChain_cons_cons.mpr ⟨⟨?_,?_⟩,tail.turns⟩
            · intro removes
              exact absurd ⟨removes,adds⟩ (delta.not_removes_adds task)
            · intro added
              exact absurd ⟨before.1,added⟩ (earlier.not_removes_adds task)
    | false =>
      obtain ⟨removes,before⟩ := swings
      have tail := ih true before
      refine ⟨?_,?_⟩
      · intro other member
        obtain rfl | old := List.mem_cons.mp member
        · exact .inl removes
        · exact tail.each other old
      · cases rest with
        | nil => exact List.isChain_singleton _
        | cons earlier rest =>
          exact List.isChain_cons_cons.mpr ⟨⟨fun _ => before.1,fun _ => removes⟩,tail.turns⟩

def deltasOf (serial : Nat) (log : Log) : List MissionDelta :=
  log.filterMap (fun
    | .replanAndVerify other delta => if other = serial then some delta else none
    | _ => none)

theorem deltasOf_unrelated (serial : Nat) (added log : Log) (unrelated : Unrelated serial added) :
    deltasOf serial (added ++ log) = deltasOf serial log := by
  have nothing : deltasOf serial added = [] := by
    refine List.filterMap_eq_nil_iff.mpr ?_
    intro call member
    cases call with
    | replanAndVerify other delta =>
      have different : other ≠ serial := fun same => unrelated _ member (by rw [Call.serial?,same])
      simp [different]
    | _ => rfl
  simpa [deltasOf] using nothing

def Announced : Call → Prop
  | .broadcast (.taskAnnounce _) sent => sent = true
  | _ => True

instance : DecidablePred Announced
  | .broadcast (.taskAnnounce _) _ => inferInstanceAs (Decidable (_ = true))
  | .broadcast (.heartbeat _) _ | .broadcast (.bid _) _ | .broadcast (.grant _) _ |
    .broadcast (.ack _) _ | .broadcast (.freeform _) _ | .sendNote .. | .sendReliable .. | .absorb .. |
    .release .. | .markTransferred .. | .replanAndVerify .. | .requestYield .. | .interpretAnomaly .. |
    .apply .. | .received .. | .entered .. | .opened .. => inferInstanceAs (Decidable True)

namespace Desk
variable (params : CoordinatorParams) (world : World) (peers : Registry)

def Swung (d : Desk) : Prop := Swings d.record.task d.record.inMission (deltasOf d.record.serial d.log)

theorem leaveMission_swung (cause : String) (d : Desk) (before : d.Swung) : (d.leaveMission cause).Swung := by
  unfold leaveMission
  split
  · rename_i inside
    rw [Swung,inside] at before
    simp only [Swung,say_record,put_record,say_log,put_log,deltasOf,List.filterMap_cons,if_true]
    exact ⟨⟨rfl,rfl⟩,before⟩
  · exact before

theorem rejoinMission_swung (cause : String) (d : Desk) (before : d.Swung) : (d.rejoinMission cause).Swung := by
  unfold rejoinMission
  split
  · exact before
  · rename_i outside
    have outside : d.record.inMission = false := by simpa using outside
    rw [Swung,outside] at before
    simp only [Swung,say_record,put_record,say_log,put_log,deltasOf,List.filterMap_cons,if_true]
    exact ⟨⟨rfl,rfl⟩,.inr before⟩

theorem disposeLocally_swung (disposition : LocalDisposition) (now : ℚ) (d : Desk) (before : d.Swung) :
    (d.disposeLocally disposition now).Swung := by
  cases disposition with
  | drop =>
    apply leaveMission_swung
    exact before
  | hold =>
    apply rejoinMission_swung
    exact before
  | requestHuman =>
    apply rejoinMission_swung
    exact before

theorem emitAnnounce_swung (now : ℚ) (d : Desk) (before : d.Swung) :
    (d.emitAnnounce params world now).state.Swung := by
  unfold emitAnnounce
  simp only
  split
  · exact before
  · exact before

theorem offer_swung (now : ℚ) (d : Desk) (before : d.Swung) : (d.offer params world peers now).Swung := by
  have opened : (d.announcing now).Swung := before
  simp only [offer,emitNote]
  split
  · exact opened
  · exact opened

theorem announce_swung (now : ℚ) (d : Desk) (before : d.Swung) :
    (d.announce params world peers now).state.Swung := by
  apply Flow.andThen_keeps Swung
  · exact emitAnnounce_swung params world now _ (offer_swung params world peers now d before)
  · intro e emitted
    apply leaveMission_swung
    exact emitted

theorem fallBack_swung (now : ℚ) (d : Desk) (before : d.Swung) :
    (d.fallBack params world peers now).state.Swung := by
  obtain ⟨_,again⟩ | ⟨_,ended⟩ := fallBack_cases params world peers now d
  · rw [again]
    exact announce_swung params world peers now _ before
  · rw [ended]
    exact disposeLocally_swung _ now _ before

theorem grantDelivered_swung (winnerId : Int) (now : ℚ) (d : Desk) (before : d.Swung) :
    (d.grantDelivered winnerId now).Swung := by
  apply leaveMission_swung
  exact before

theorem announce_leaves (now : ℚ) (d : Desk)
    (calls : ∀ call ∈ (d.announce params world peers now).state.log, Announced call) :
    (d.announce params world peers now).state.record.inMission = false := by
  unfold announce emitAnnounce at calls ⊢
  simp only at calls ⊢
  split at calls
  · rename_i sent
    rw [if_pos sent]
    simp [standDown]
  · rename_i lost
    have said := calls _ List.mem_cons_self
    exact absurd said lost

/-- In step: in the mission exactly when OURS. -/
def Aligned (d : Desk) : Prop := (∀ call ∈ d.log, Announced call) →
  (d.record.inMission = true ↔ d.record.state = .ours)

def Outside (d : Desk) : Prop := (∀ call ∈ d.log, Announced call) → d.record.inMission = false

theorem dispose_aligned (disposition : LocalDisposition) (now : ℚ) (d : Desk) :
    (d.disposeLocally disposition now).Aligned := by
  intro _
  rw [dispose_record]
  split
  · simp
  · simp

theorem announce_aligned (now : ℚ) (d : Desk) : (d.announce params world peers now).state.Aligned := by
  intro calls
  have outside := announce_leaves params world peers now d calls
  obtain ⟨_,_,_,shape⟩ := announce_record params world peers now d
  rw [outside]
  rw [shape]
  simp

theorem fallBack_aligned (now : ℚ) (d : Desk) : (d.fallBack params world peers now).state.Aligned := by
  obtain ⟨_,again⟩ | ⟨_,ended⟩ := fallBack_cases params world peers now d
  · rw [again]
    exact announce_aligned params world peers now _
  · rw [ended]
    exact dispose_aligned _ now _

theorem grantDelivered_aligned (winnerId : Int) (now : ℚ) (d : Desk) :
    (d.grantDelivered winnerId now).Aligned := by
  intro _
  rw [grantDelivered_record]
  simp

theorem cascades_mission : Cascades params world peers
    (fun d => d.Swung ∧ d.Outside ∧ d.record.state ≠ .ours) (fun d => d.Swung ∧ d.Outside)
    (fun d => d.Swung ∧ d.Aligned) where
  still d before := by
    refine ⟨before.1,fun calls => ?_⟩
    simp [before.2.1 calls,before.2.2]
  noBid d now before := ⟨disposeLocally_swung _ now _ before.1,dispose_aligned _ now _⟩
  sent d _ winner before _ _ _ := by
    refine ⟨before.1,fun calls => ?_⟩
    have outside := before.2.1 (fun call member => calls call (List.mem_cons_of_mem _ member))
    rw [await_record,award_record]
    simp [outside]
  delivered d _ winner now before _ _ _ :=
    ⟨grantDelivered_swung _ now _ before.1,grantDelivered_aligned _ now _⟩
  failed d _ winner before _ _ _ :=
    ⟨before.1,fun calls => before.2.1 (fun call member => calls call (List.mem_cons_of_mem _ member))⟩
  reopened d before _ := ⟨before.1,before.2,nofun⟩
  fallenBack d now before _ :=
    ⟨fallBack_swung params world peers now d before.1,fallBack_aligned params world peers now d⟩

end Desk

namespace Session
variable (cfg : Config) (world : World)

def InStep (r : OwnedTask) (log : Log) : Prop :=
  Swings r.task r.inMission (deltasOf r.serial log) ∧
    ((∀ call ∈ log, Announced call) → (r.inMission = true ↔ r.state = .ours))

theorem unrelated_inStep (serial : Nat) (task : Task) (log : Log) (unrelated : Unrelated serial log) :
    InStep { serial := serial, task := task } log := by
  have nothing := deltasOf_unrelated serial log [] unrelated
  rw [List.append_nil] at nothing
  refine ⟨?_,fun _ => by simp⟩
  rw [nothing]
  trivial

theorem outside_of_state (r : OwnedTask) (log : Log) (inStep : InStep r log) (other : r.state ≠ .ours)
    (calls : ∀ call ∈ log, Announced call) : r.inMission = false := by
  have out : ¬ r.inMission = true := fun inside => other ((inStep.2 calls).mp inside)
  simpa using out

theorem tracks_inStep : Tracks cfg InStep
    (fun serial log => ∃ task inMission, Swings task inMission (deltasOf serial log)) where
  live r log holds := ⟨_,_,holds.1⟩
  frame r log added unrelated holds := by
    refine ⟨?_,fun calls => holds.2 (fun call member => calls call (List.mem_append_right _ member))⟩
    rw [deltasOf_unrelated _ _ _ unrelated]
    exact holds.1
  past serial log added unrelated holds := by
    rw [deltasOf_unrelated _ _ _ unrelated]
    exact holds
  unknown serial log unrelated :=
    ⟨default,_,(unrelated_inStep serial default log unrelated).1⟩
  fresh serial task log unrelated := unrelated_inStep serial task log unrelated
  absorbed serial task cause note log unrelated := by
    have nothing := deltasOf_unrelated serial log [] unrelated
    rw [List.append_nil] at nothing
    refine ⟨?_,fun _ => by simp⟩
    simp only [deltasOf,List.filterMap_cons,if_true]
    exact ⟨⟨rfl,rfl⟩,.inl nothing⟩
  forgotten _ _ _ holds := holds
  delegated world peers task reasonCode fallback note now tasks r log futures found holds := by
    intro after
    obtain ⟨_,same⟩ | ⟨_,_,same⟩ | ⟨_,_,same⟩ := delegate_cases cfg world peers (announcedIn tasks)
      reasonCode fallback note now
      ⟨r,.apply (.reDelegate task reasonCode fallback note) now tasks futures :: log,futures⟩
    · simp only [after,same]
      exact holds
    · simp only [after,same]
      exact ⟨Desk.disposeLocally_swung _ now _ holds.1,Desk.dispose_aligned _ now _⟩
    · simp only [after,same]
      exact ⟨Desk.announce_swung _ _ _ now _ holds.1,Desk.announce_aligned _ _ _ now _⟩
  dropped task disposition reasonCode now tasks r log futures found holds :=
    ⟨Desk.disposeLocally_swung _ now _ holds.1,Desk.dispose_aligned _ now _⟩
  filed world peers bid now d auction filed _ collects _ _ holds := by
    have announced := ((collecting_eq_some _ _).mp collects).1
    have other : d.record.state ≠ .ours := by simp [announced]
    exact (Desk.cascades_mission cfg.params world peers).maybeClose _ _ _ _ _ _ now _
      ⟨holds.1,outside_of_state _ _ holds other,other⟩
  ran world peers now d holds := by
    refine runAuction_rule cfg world peers _ _ _ (Desk.cascades_mission cfg.params world peers) now d
      (fun _ => holds) ?_ ?_
    · intro auction collects
      have announced := ((collecting_eq_some _ _).mp collects).1
      have other : d.record.state ≠ .ours := by simp [announced]
      exact ⟨holds.1,outside_of_state _ _ holds other,other⟩
    · intro open_
      obtain ⟨change,_,shape⟩ := Desk.emitAnnounce_record cfg.params world now d
      refine ⟨Desk.emitAnnounce_swung _ _ now d open_.1,?_,?_⟩
      · intro calls
        rw [Desk.emitAnnounce_log] at calls
        rw [shape]
        exact open_.2.1 (fun call member => calls call (List.mem_cons_of_mem _ member))
      · rw [shape]
        exact open_.2.2
  settled world peers winnerId outcome d holds := by
    refine (Desk.cascades_mission cfg.params world peers).settle _ _ _ _ _ _ winnerId outcome d
      (fun _ => holds) ?_ ?_
    · intro now _ _
      exact ⟨Desk.grantDelivered_swung _ now _ holds.1,Desk.grantDelivered_aligned _ now _⟩
    · intro granted _
      exact ⟨holds.1,outside_of_state d.record d.log holds (by simp [granted])⟩

def unansweredRun : List Label :=
  [⟨clockAt 0,.own field⟩,given 1 (.reDelegate field 0 .hold ""),⟨clockAt 7,.tick⟩]

end Session
end AmigaFleet.Coordinator
