import AmigaFleet.Coordinator.Cap

/-! Which GRANT an outcome is applied to. The callback sees the task id, the
winner and the state tag. While no action brings the record of a task back with
its GRANT still in flight, that is enough: the GRANT in flight for a record of
ours is the one the record stands on. -/
namespace AmigaFleet.Coordinator
open Lib AmigaFleet.Codec AmigaFleet.Reliability

def Flying (taskId : Int) (futures : List GrantFuture) : Prop :=
  ∃ future ∈ futures, future.taskId = taskId

instance (taskId : Int) (futures : List GrantFuture) : Decidable (Flying taskId futures) :=
  inferInstanceAs (Decidable (∃ future ∈ futures, future.taskId = taskId))

namespace Session
variable (cfg : Config) (world : World)

/-- A call that leaves the record of its task alone if a GRANT of it is in flight. -/
def LeavesFlying : Call → Prop
  | .entered task futures => ¬ Flying task.taskId futures
  | .apply (.dropTask task disposition _) _ _ futures => Flying task.taskId futures → disposition = .drop
  | .apply (.reDelegate task _ fallback _) now tasks futures => Flying task.taskId futures →
      (tasks.get? task.taskId).any (fun r => r.state = .granted) = true ∨
      fallback = .drop ∧ Refuses cfg (announcedIn tasks) now
        ((tasks.get? task.taskId).getD { serial := 0, task := task })
  | _ => True

instance : DecidablePred (LeavesFlying cfg)
  | .entered .. => inferInstanceAs (Decidable (¬ _))
  | .apply (.dropTask ..) .. => inferInstanceAs (Decidable (_ → _))
  | .apply (.reDelegate ..) .. => inferInstanceAs (Decidable (_ → _ ∨ _ ∧ _))
  | .apply (.addTask ..) .. | .broadcast .. | .sendNote .. | .sendReliable .. | .absorb .. | .release .. |
    .markTransferred .. | .replanAndVerify .. | .requestYield .. | .interpretAnomaly .. | .received .. |
    .opened .. =>
    inferInstanceAs (Decidable True)

end Session

namespace Desk
variable (params : CoordinatorParams) (world : World) (peers : Registry)

def Grounded (d : Desk) : Prop := ¬ Flying d.record.task.taskId d.futures

/-- The GRANT in flight, if the record is ours, is the one it stands on; and it is the only one. -/
structure Linked (d : Desk) : Prop where
  stands : ∀ future ∈ d.futures, future.taskId = d.record.task.taskId → d.record.ours = true →
    d.record.state = .granted ∧ d.record.grantedTo = some future.winnerId
  alone : ∀ future ∈ d.futures, ∀ other ∈ d.futures, future.taskId = d.record.task.taskId →
    other.taskId = d.record.task.taskId → future = other

theorem Grounded.linked (d : Desk) (grounded : d.Grounded) : d.Linked where
  stands future member same := absurd ⟨future,member,same⟩ grounded
  alone future member _ _ same := absurd ⟨future,member,same⟩ grounded

theorem Linked.grounded (d : Desk) (linked : d.Linked) (ours : d.record.ours = true)
    (other : d.record.state ≠ .granted) : d.Grounded := by
  rintro ⟨future,member,same⟩
  exact other (linked.stands future member same ours).1

theorem unsent_grounded (start d : Desk) (unsent : Unsent start d)
    (task : d.record.task = start.record.task) (grounded : start.Grounded) : d.Grounded := by
  unfold Grounded at grounded ⊢
  rw [unsent.futures,task]
  exact grounded

theorem dispose_grounded (disposition : LocalDisposition) (now : ℚ) (d : Desk) (grounded : d.Grounded) :
    (d.disposeLocally disposition now).Grounded :=
  unsent_grounded d _ (disposeLocally_unsent d disposition now d ⟨rfl,rfl⟩)
    (disposeLocally_works d disposition now d (works_refl d)).task grounded

theorem announce_grounded (now : ℚ) (d : Desk) (grounded : d.Grounded) :
    (d.announce params world peers now).state.Grounded :=
  unsent_grounded d _ (announce_unsent params world peers d now d ⟨rfl,rfl⟩)
    (announce_works params world peers d now d (works_refl d)).task grounded

theorem fallBack_grounded (now : ℚ) (d : Desk) (grounded : d.Grounded) :
    (d.fallBack params world peers now).state.Grounded :=
  unsent_grounded d _ (fallBack_unsent params world peers d now d ⟨rfl,rfl⟩)
    (fallBack_works params world peers d now d (works_refl d)).task grounded

theorem grantDelivered_grounded (winnerId : Int) (now : ℚ) (d : Desk) (grounded : d.Grounded) :
    (d.grantDelivered winnerId now).Grounded :=
  unsent_grounded d _ (grantDelivered_unsent d winnerId now d ⟨rfl,rfl⟩)
    (grantDelivered_works d winnerId now d (works_refl d)).task grounded

theorem await_linked (winnerId : Int) (d : Desk) (grounded : d.Grounded) :
    ((d.award world winnerId).await winnerId).Linked := by
  have only : ∀ future ∈ ((d.award world winnerId).await winnerId).futures,
      future.taskId = d.record.task.taskId →
      future = ⟨(d.award world winnerId).log.length,d.record.task.taskId,winnerId⟩ := by
    intro future member same
    obtain new | old := List.mem_cons.mp member
    · exact new
    · exact absurd ⟨future,old,same⟩ grounded
  refine ⟨?_,?_⟩
  · intro future member same _
    rw [only future member same]
    exact ⟨rfl,rfl⟩
  · intro future member other also same too
    rw [only future member same,only other also too]

theorem cascades_linked : Cascades params world peers Grounded Grounded Linked where
  still _ grounded := grounded.linked
  noBid _ now grounded := (dispose_grounded _ now _ grounded).linked
  sent d _ winner grounded _ _ _ := await_linked world winner.bidderId d grounded
  delivered d _ winner now grounded _ _ _ :=
    (grantDelivered_grounded winner.bidderId now (d.award world winner.bidderId) grounded).linked
  failed _ _ _ grounded _ _ _ := grounded
  reopened _ grounded _ := grounded
  fallenBack d now grounded _ := (fallBack_grounded params world peers now d grounded).linked

def Alone (d : Desk) : Prop := ∀ future ∈ d.futures, ∀ other ∈ d.futures,
  future.taskId = d.record.task.taskId → other.taskId = d.record.task.taskId → future = other

theorem relinquished_linked (now : ℚ) (d : Desk) (alone : d.Alone) : (d.disposeLocally .drop now).Linked := by
  have unsent := disposeLocally_unsent d .drop now d ⟨rfl,rfl⟩
  have works := disposeLocally_works d .drop now d (works_refl d)
  refine ⟨?_,?_⟩
  · intro _ _ _ ours
    rw [dispose_record] at ours
    cases ours
  · rw [unsent.futures,works.task]
    exact alone

end Desk

namespace Session
variable (cfg : Config) (world : World)

theorem delegate_linked (peers : Registry) (openAuctions : Nat) (reasonCode : Int)
    (fallback : LocalDisposition) (note : String) (now : ℚ) (d : Desk) (alone : d.Alone)
    (busy : d.record.state = .announced ∨ d.record.state = .granted → d.Linked)
    (leaves : Flying d.record.task.taskId d.futures → d.record.state = .granted ∨
      fallback = .drop ∧ Refuses cfg openAuctions now d.record) :
    (delegate cfg world peers openAuctions reasonCode fallback note now d).state.Linked := by
  obtain ⟨inFlight,same⟩ | ⟨inFlight,refused,same⟩ | ⟨inFlight,room,same⟩ :=
    delegate_cases cfg world peers openAuctions reasonCode fallback note now d
  · rw [same]
    have linked := busy inFlight
    exact ⟨linked.stands,linked.alone⟩
  · rw [same]
    by_cases flying : Flying d.record.task.taskId d.futures
    · obtain granted | ⟨dropped,_⟩ := leaves flying
      · exact absurd (.inr granted) inFlight
      · rw [dropped]
        exact Desk.relinquished_linked now _ alone
    · have grounded : (d.put (instructed fallback reasonCode note d.record)).Grounded := flying
      exact (Desk.dispose_grounded fallback now _ grounded).linked
  · rw [same]
    by_cases flying : Flying d.record.task.taskId d.futures
    · obtain granted | ⟨_,refused⟩ := leaves flying
      · exact absurd (.inr granted) inFlight
      · exact absurd refused room
    · have grounded : (d.put (instructed fallback reasonCode note d.record)).Grounded := flying
      exact (Desk.announce_grounded cfg.params world peers now _ grounded).linked

theorem collecting_grounded (d : Desk) (auction : Auction) (collects : collecting d.record = some auction)
    (linked : d.Linked) : d.Grounded := by
  have announced := ((collecting_eq_some _ _).mp collects).1
  exact linked.grounded d (ours_of_state _ _ announced rfl) (by simp [announced])

theorem runAuction_linked (peers : Registry) (now : ℚ) (d : Desk) (linked : d.Linked) :
    (runAuction cfg world peers now d).state.Linked := by
  refine runAuction_rule cfg world peers _ _ _ (Desk.cascades_linked cfg.params world peers) now d
    (fun _ => linked) (fun auction collects => collecting_grounded d auction collects linked) ?_
  intro grounded
  exact Desk.unsent_grounded d _ (Desk.emitAnnounce_unsent cfg.params world d now d ⟨rfl,rfl⟩)
    (Desk.emitAnnounce_works cfg.params world d now d (Desk.works_refl d)).task grounded

/-- Every record with the GRANT in flight for it, and no two in flight for one task. -/
structure Link (s : Session) : Prop where
  keyed : ∀ id r, s.tasks.get? id = some r → r.task.taskId = id
  stands : ∀ id r, s.tasks.get? id = some r → ∀ future ∈ s.futures, future.taskId = id →
    r.ours = true → r.state = .granted ∧ r.grantedTo = some future.winnerId
  alone : ∀ future ∈ s.futures, ∀ other ∈ s.futures, future.taskId = other.taskId → future = other

/-- As `Link`, but for the record of one task. -/
structure Elsewhere (taskId : Int) (s : Session) : Prop where
  keyed : ∀ id r, s.tasks.get? id = some r → r.task.taskId = id
  stands : ∀ id r, s.tasks.get? id = some r → id ≠ taskId → ∀ future ∈ s.futures, future.taskId = id →
    r.ours = true → r.state = .granted ∧ r.grantedTo = some future.winnerId
  alone : ∀ future ∈ s.futures, ∀ other ∈ s.futures, future.taskId = other.taskId → future = other

theorem Link.elsewhere (taskId : Int) (s : Session) (link : s.Link) : s.Elsewhere taskId :=
  ⟨link.keyed,(fun id r found _ => link.stands id r found),link.alone⟩

theorem Link.linked (s : Session) (link : s.Link) (id : Int) (r : OwnedTask)
    (found : s.tasks.get? id = some r) : Desk.Linked ⟨r,s.log,s.futures⟩ where
  stands future member same := link.stands id r found future member (same.trans (link.keyed id r found))
  alone future member other also same too := link.alone future member other also (same.trans too.symm)

theorem link_fewer (s t : Session) (fewer : ∀ id r, t.tasks.get? id = some r → s.tasks.get? id = some r)
    (futures : ∀ future ∈ t.futures, future ∈ s.futures) (link : s.Link) : t.Link where
  keyed id r found := link.keyed id r (fewer id r found)
  stands id r found future member := link.stands id r (fewer id r found) future (futures future member)
  alone future member other also := link.alone future (futures future member) other (futures other also)

theorem enroll_elsewhere (task : Task) (s : Session) (link : s.Link) :
    (s.enroll task).Elsewhere task.taskId where
  keyed id r found := by
    obtain ⟨rfl,rfl⟩ | ⟨_,found⟩ := Dict.get?_set_cases found
    · rfl
    · exact link.keyed id r found
  stands id r found other := by
    simp only [enroll,Dict.get?_set,if_neg other] at found
    exact link.stands id r found
  alone := link.alone

theorem enrollMissing_elsewhere (task : Task) (s : Session) (link : s.Link) :
    (s.enrollMissing task).Elsewhere task.taskId := by
  unfold enrollMissing
  split
  · exact link.elsewhere _ _
  · exact enroll_elsewhere task s link

theorem link_enroll (task : Task) (s : Session) (grounded : ¬ Flying task.taskId s.futures) (link : s.Link) :
    (s.enroll task).Link := by
  have elsewhere := enroll_elsewhere task s link
  refine ⟨elsewhere.keyed,?_,elsewhere.alone⟩
  intro id r found future member same
  by_cases here : id = task.taskId
  · exact absurd ⟨future,member,same.trans here⟩ grounded
  · exact elsewhere.stands id r found here future member same

theorem link_deal (taskId : Int) (work : Desk → Flow Desk) (stays : Stays work) (s : Session)
    (elsewhere : s.Elsewhere taskId) (missing : s.tasks.get? taskId = none → s.Link)
    (worked : ∀ r, s.tasks.get? taskId = some r → (work ⟨r,s.log,s.futures⟩).state.Linked) :
    (s.deal taskId work).state.Link := by
  cases found : s.tasks.get? taskId with
  | none =>
    rw [state_deal_none taskId work s found]
    exact missing found
  | some record =>
    rw [state_deal taskId work s record found]
    have done := worked record found
    have works := stays ⟨record,s.log,s.futures⟩
    have here := elsewhere.keyed taskId record found
    generalize (work ⟨record,s.log,s.futures⟩).state = d at done works
    have task : d.record.task.taskId = taskId := (congrArg Task.taskId works.task).trans here
    have old : ∀ future ∈ d.futures, future ∈ s.futures ∨ future.taskId = taskId := by
      intro future member
      exact (works.futures future member).imp_right (fun same => same.trans here)
    refine ⟨?_,?_,?_⟩
    · intro id r there
      obtain ⟨rfl,rfl⟩ | ⟨_,there⟩ := Dict.get?_set_cases there
      · exact task
      · exact elsewhere.keyed id r there
    · intro id r there future member same ours
      obtain ⟨at_,rfl⟩ | ⟨away,there⟩ := Dict.get?_set_cases there
      · exact done.stands future member (same.trans (at_.trans task.symm)) ours
      · have before := (old future member).resolve_right (fun at_ => away (same.symm.trans at_))
        exact elsewhere.stands id r there away future before same ours
    · intro future member other also same
      by_cases at_ : future.taskId = taskId
      · exact done.alone future member other also (at_.trans task.symm)
          ((same.symm.trans at_).trans task.symm)
      · exact elsewhere.alone future ((old future member).resolve_right at_) other
          ((old other also).resolve_right (fun there => at_ (same.trans there))) same

theorem enrollMissing_there (task : Task) (s : Session) :
    (s.enrollMissing task).tasks.get? task.taskId ≠ none := by
  unfold enrollMissing
  split
  · rename_i there
    obtain ⟨r,found⟩ := (Dict.contains_iff _ _).mp there
    rw [found]
    exact Option.some_ne_none r
  · simp [enroll]

theorem unabsorbed_link (task : Task) (cause note : String) (s : Session) (grounded : ¬ Flying task.taskId s.futures)
    (link : s.Link) : ((s.absorb world task cause note).2.unabsorb task).Link := by
  refine link_fewer (s.enroll task) _ ?_ (fun _ member => member) (link_enroll task s grounded link)
  exact fun id r found => (Dict.get?_pop_cases found).2

/-- A ReDelegate works on the record it finds or enters. If a GRANT of its task
is in flight, that record is granted, or is handled locally and dropped. -/
theorem delegated_link (task : Task) (reasonCode : Int) (fallback : LocalDisposition) (note : String) (now : ℚ)
    (s : Session) (link : s.Link)
    (leaves : LeavesFlying cfg (.apply (.reDelegate task reasonCode fallback note) now s.tasks s.futures)) :
    (s.beginDelegation cfg world task reasonCode fallback note now).state.Link := by
  have elsewhere := enrollMissing_elsewhere task s link
  refine link_deal task.taskId _ (delegate_stays cfg world _ _ _ _ _ _) _ elsewhere
    (fun missing => absurd missing (enrollMissing_there task _)) ?_
  intro r found
  have known := enrollMissing_get? task _ r found
  rw [openAuctions_enrollMissing,enrollMissing_futures]
  refine delegate_linked cfg world _ _ _ _ _ now _ ?_ ?_ ?_
  · exact fun future member other also same too =>
      link.alone future member other also (same.trans too.symm)
  · intro busy
    obtain old | ⟨_,rfl⟩ := known
    · exact ⟨(link.linked s _ _ old).stands,(link.linked s _ _ old).alone⟩
    · cases busy with
      | inl announced => cases announced
      | inr granted => cases granted
  · intro flying
    have same : r.task.taskId = task.taskId := elsewhere.keyed _ r found
    have leaves := leaves (show Flying task.taskId s.futures from same ▸ flying)
    obtain old | ⟨missing,rfl⟩ := known
    · rw [old] at leaves
      exact leaves.imp_left (fun granted => by simpa using granted)
    · rw [missing] at leaves
      exact .inr (leaves.resolve_left (fun none => by cases none))

theorem dropped_link (task : Task) (disposition : LocalDisposition) (reasonCode : Int) (now : ℚ) (s : Session)
    (link : s.Link)
    (leaves : LeavesFlying cfg (.apply (.dropTask task disposition reasonCode) now s.tasks s.futures)) :
    (s.dropTask task disposition now).state.Link := by
  have elsewhere := enrollMissing_elsewhere task s link
  refine link_deal task.taskId _ (dispose_stays disposition now) _ elsewhere
    (fun missing => absurd missing (enrollMissing_there task _)) ?_
  intro r found
  rw [enrollMissing_futures]
  have same : r.task.taskId = task.taskId := elsewhere.keyed _ r found
  by_cases flying : Flying task.taskId s.futures
  · rw [leaves flying]
    refine Desk.relinquished_linked now _ ?_
    exact fun future member other also same too =>
      link.alone future member other also (same.trans too.symm)
  · refine (Desk.dispose_grounded disposition now _ ?_).linked
    intro aloft
    exact flying (same ▸ aloft)

theorem forgot_link (gone : List PeerRecord) (s : Session) (link : s.Link) :
    Link { s with tasks := s.tasks.mapValues (forgetGone gone) } := by
  have known : ∀ id r, (s.tasks.mapValues (forgetGone gone)).get? id = some r →
      ∃ old, s.tasks.get? id = some old ∧ forgetGone gone old = r := by
    intro id r found
    rw [Dict.get?_mapValues] at found
    exact Option.map_eq_some_iff.mp found
  refine ⟨?_,?_,link.alone⟩
  · intro id r found
    obtain ⟨old,there,rfl⟩ := known id r found
    exact link.keyed id old there
  · intro id r found
    obtain ⟨old,there,rfl⟩ := known id r found
    exact link.stands id old there

theorem move_link (s t : Session) (move : Move cfg world s t) (calls : ∀ call ∈ t.log, LeavesFlying cfg call)
    (link : s.Link) : t.Link := by
  cases move with
  | aside t tasks log futures serial =>
    exact link_fewer s t (fun id r found => tasks ▸ found) (fun future member => futures ▸ member) link
  | told call plain => exact ⟨link.keyed,link.stands,link.alone⟩
  | enrolled task free =>
    exact link_enroll task _ (calls _ List.mem_cons_self) ⟨link.keyed,link.stands,link.alone⟩
  | absorbed task cause note free =>
    have grounded := calls (.entered task s.futures) (by simp [absorb,enter,enroll,say])
    have entered := link_enroll task s grounded link
    exact ⟨entered.keyed,entered.stands,entered.alone⟩
  | unabsorbed task cause note free =>
    exact unabsorbed_link world task cause note s
      (calls (.entered task s.futures) (by simp [absorb,enter,enroll,say,unabsorb])) link
  | delegated task reasonCode fallback note now =>
    have logged := calls _ ((beginDelegation_log cfg world _ _ _ _ _ (s.say _)).subset List.mem_cons_self)
    exact delegated_link cfg world task reasonCode fallback note now (s.say _)
      ⟨link.keyed,link.stands,link.alone⟩ logged
  | dropped task disposition reasonCode now =>
    have logged := calls _ ((dropTask_log task disposition now (s.say _)).subset List.mem_cons_self)
    exact dropped_link cfg task disposition reasonCode now (s.say _) ⟨link.keyed,link.stands,link.alone⟩ logged
  | filed bid now record auction after found collects welcome taken heard =>
    refine link_deal bid.taskId _ (fileBid_stays cfg world s after now) s (link.elsewhere _ _)
      (fun _ => link) ?_
    intro r same
    rw [found] at same
    cases same
    have grounded := collecting_grounded ⟨record,s.log,s.futures⟩ auction collects (link.linked s _ _ found)
    exact (Desk.cascades_linked cfg.params world s.peers).maybeClose _ _ _ _ _ _ now _ grounded
  | ran taskId now =>
    refine link_deal taskId _ (runAuction_stays cfg world s.peers now) s (link.elsewhere _ _)
      (fun _ => link) ?_
    intro r found
    exact runAuction_linked cfg world s.peers now _ (link.linked s _ _ found)
  | forgot gone => exact forgot_link gone s link
  | pruned now =>
    exact link_fewer s _ (fun id r found => ((Dict.get?_retain _ _ _ _).mp found).1) (fun _ member => member)
      link

theorem resolve_link (id : Nat) (outcome : Outcome) (s : Session) (link : s.Link) :
    (s.resolve cfg world id outcome).state.Link := by
  obtain same | ⟨future,member,rfl,same⟩ := resolve_cases cfg world id outcome s
  · rw [same]
    exact link
  · rw [same]
    have rest : (s.without future.id).Link :=
      link_fewer s _ (fun _ _ found => found) (fun _ left => (List.mem_filter.mp left).1) link
    refine link_deal future.taskId _ (settle_stays cfg world s.peers _ _) _ (rest.elsewhere _ _)
      (fun _ => rest) ?_
    intro r found
    have grounded : Desk.Grounded ⟨r,s.log,(s.without future.id).futures⟩ := by
      rintro ⟨other,left,same⟩
      obtain ⟨also,different⟩ := List.mem_filter.mp left
      have here : r.task.taskId = future.taskId := link.keyed _ r found
      have equal := link.alone other also future member (same.trans here)
      rw [equal] at different
      simp at different
    exact (Desk.cascades_linked cfg.params world s.peers).settle _ _ _ _ _ _ future.winnerId outcome _
      (fun _ => grounded.linked) (fun now _ _ => (Desk.grantDelivered_grounded _ now _ grounded).linked)
      (fun _ _ => grounded)

theorem reachable_link (s : Session) (reached : (machine cfg).Reachable s)
    (calls : ∀ call ∈ s.log, LeavesFlying cfg call) : s.Link := by
  refine invariant cfg (LeavesFlying cfg) Link ?_ ?_ ?_ s reached calls
  · exact ⟨(fun _ _ found => by cases found),(fun _ _ found => by cases found),
      (fun _ member => by cases member)⟩
  · intro world s t move calls link
    exact move_link cfg world s t move calls link
  · intro world s id outcome _ link
    exact resolve_link cfg world id outcome s link

end Session

/-- Among the calls, a GRANT of this very record that came back DELIVERED at
once, sent to the robot the record is granted to. -/
def Confirmed (r : OwnedTask) (calls : Log) : Prop :=
  ∃ record dst message, Call.sendReliable record dst message (.resolved .delivered) ∈ calls ∧
    record.serial = r.serial ∧ record.state = .granted ∧ record.grantedTo = some dst ∧
    r.grantedTo = some dst

def Call.unconfirmed : Call → Bool
  | .sendReliable _ _ _ reply => reply ≠ .resolved .delivered
  | _ => true

theorem not_confirmed (r : OwnedTask) (calls : Log) (quiet : ∀ call ∈ calls, call.unconfirmed = true) :
    ¬ Confirmed r calls := by
  rintro ⟨record,dst,message,member,_⟩
  have later := quiet _ member
  simp [Call.unconfirmed] at later

namespace Desk
variable (params : CoordinatorParams) (world : World) (peers : Registry)

/-- A record found TRANSFERRED was so before, or a GRANT of it was confirmed since. -/
def Handed (start d : Desk) : Prop := d.record.state = .transferred →
  (start.record.state = .transferred ∧ d.record.grantedTo = start.record.grantedTo) ∨
    ∃ added, d.log = added ++ start.log ∧ Confirmed d.record added

theorem dispose_transferred (disposition : LocalDisposition) (now : ℚ) (d : Desk) :
    (d.disposeLocally disposition now).record.state ≠ .transferred := by
  rw [dispose_record]
  split <;> simp

theorem announce_transferred (now : ℚ) (d : Desk) :
    (d.announce params world peers now).state.record.state ≠ .transferred := by
  rw [announce_announced]
  simp

theorem fallBack_transferred (now : ℚ) (d : Desk) :
    (d.fallBack params world peers now).state.record.state ≠ .transferred := by
  obtain ⟨_,again⟩ | ⟨_,ended⟩ := fallBack_cases params world peers now d
  · rw [again]
    exact announce_transferred params world peers now _
  · rw [ended]
    exact dispose_transferred _ now _

theorem award_handed (start d : Desk) (winnerId : Int) (now : ℚ) (works : Works start d)
    (reply : world.sendReliable d.log = .resolved .delivered) :
    Handed start ((d.award world winnerId).grantDelivered winnerId now) := by
  intro _
  obtain ⟨before,same,_⟩ := works.log
  obtain ⟨after,grown,_⟩ := (grantDelivered_works (d.award world winnerId) winnerId now
    (d.award world winnerId) (works_refl _)).log
  refine .inr ⟨after ++ [.sendReliable (d.award world winnerId).record winnerId
    (.grant ⟨0,0,d.record.task.taskId,winnerId⟩) (world.sendReliable d.log)] ++ before,?_,?_⟩
  · rw [grown]
    simp [award,say,put,same]
  · refine ⟨(d.award world winnerId).record,winnerId,.grant ⟨0,0,d.record.task.taskId,winnerId⟩,?_,?_,
      rfl,rfl,?_⟩
    · rw [reply]
      exact List.mem_append_left _ (List.mem_append_right _ List.mem_cons_self)
    · rw [grantDelivered_record]
    · rw [grantDelivered_record]
      rfl

theorem cascades_handed (start : Desk) : Cascades params world peers
    (fun d => Works start d ∧ d.record.state ≠ .transferred) (Works start) (Handed start) where
  still _ before := fun transferred => absurd transferred before.2
  noBid _ now _ := fun transferred => absurd transferred (dispose_transferred _ now _)
  sent _ _ _ _ _ _ _ := nofun
  delivered d _ winner now before _ _ reply := award_handed world start d winner.bidderId now before.1 reply
  failed d _ winner before _ _ _ :=
    lose_works start _ _ (award_works world start winner.bidderId d before.1)
  reopened d before _ := ⟨put_works start _ d rfl rfl before,nofun⟩
  fallenBack d now _ _ := fun transferred => absurd transferred (fallBack_transferred params world peers now d)

end Desk

namespace Session
variable (cfg : Config) (world : World)

/-- As `Desk.Handed`, for every record of a table. -/
def Handed (s t : Session) : Prop := ∀ id r, t.tasks.get? id = some r → r.state = .transferred →
  (∃ q, s.tasks.get? id = some q ∧ q.state = .transferred ∧ q.serial = r.serial ∧
    r.grantedTo = q.grantedTo) ∨ ∃ added, t.log = added ++ s.log ∧ Confirmed r added

theorem handed_fewer (s t : Session) (fewer : ∀ id r, t.tasks.get? id = some r → r.state = .transferred →
    ∃ q, s.tasks.get? id = some q ∧ q.state = .transferred ∧ q.serial = r.serial ∧
      r.grantedTo = q.grantedTo) : s.Handed t :=
  fun id r found transferred => .inl (fewer id r found transferred)

theorem handed_trans (s t u : Session) (grows : s.log <:+ t.log) (first : s.Handed t)
    (further : t.log <:+ u.log) (second : t.Handed u) : s.Handed u := by
  intro id r found transferred
  obtain ⟨before,grown⟩ := grows
  obtain ⟨after,more⟩ := further
  obtain ⟨q,there,was,serial,granted⟩ | ⟨added,same,confirmed⟩ := second id r found transferred
  · obtain ⟨p,here,been,earlier,same⟩ | ⟨added,same,confirmed⟩ := first id q there was
    · exact .inl ⟨p,here,been,earlier.trans serial,granted.trans same⟩
    · refine .inr ⟨after ++ added,?_,?_⟩
      · rw [← more,same,List.append_assoc]
      · obtain ⟨record,dst,message,member,shape,state,to_,also⟩ := confirmed
        exact ⟨record,dst,message,List.mem_append_right _ member,shape.trans serial,state,to_,
          granted.trans also⟩
  · refine .inr ⟨added ++ before,?_,?_⟩
    · rw [same,← grown,List.append_assoc]
    · obtain ⟨record,dst,message,member,rest⟩ := confirmed
      exact ⟨record,dst,message,List.mem_append_left _ member,rest⟩

theorem handed_deal (taskId : Int) (work : Desk → Flow Desk) (stays : Stays work) (s : Session)
    (worked : ∀ r, s.tasks.get? taskId = some r →
      Desk.Handed ⟨r,s.log,s.futures⟩ (work ⟨r,s.log,s.futures⟩).state) :
    s.Handed (s.deal taskId work).state := by
  cases found : s.tasks.get? taskId with
  | none =>
    rw [state_deal_none taskId work s found]
    exact handed_fewer s s (fun id r there was => ⟨r,there,was,rfl,rfl⟩)
  | some record =>
    rw [state_deal taskId work s record found]
    have done := worked record found
    have works := stays ⟨record,s.log,s.futures⟩
    generalize (work ⟨record,s.log,s.futures⟩).state = d at done works
    intro id r there transferred
    obtain ⟨same,rfl⟩ | ⟨_,there⟩ := Dict.get?_set_cases there
    · obtain ⟨was,granted⟩ | ⟨added,grown,confirmed⟩ := done transferred
      · exact .inl ⟨record,same ▸ found,was,works.serial.symm,granted⟩
      · exact .inr ⟨added,grown,confirmed⟩
    · exact .inl ⟨r,there,transferred,rfl,rfl⟩

theorem enroll_transferred (task : Task) (s : Session) (id : Int) (r : OwnedTask)
    (found : (s.enroll task).tasks.get? id = some r) (transferred : r.state = .transferred) :
    s.tasks.get? id = some r := by
  obtain ⟨_,rfl⟩ | ⟨_,found⟩ := Dict.get?_set_cases found
  · cases transferred
  · exact found

theorem enrollMissing_transferred (task : Task) (s : Session) (id : Int) (r : OwnedTask)
    (found : (s.enrollMissing task).tasks.get? id = some r) (transferred : r.state = .transferred) :
    s.tasks.get? id = some r := by
  unfold enrollMissing at found
  split at found
  · exact found
  · exact enroll_transferred task s id r found transferred

theorem handed_action (call : Call) (task : Task) (work : Desk → Flow Desk) (stays : Stays work) (s : Session)
    (worked : ∀ d, Desk.Handed d (work d).state) :
    s.Handed (((s.say call).enrollMissing task).deal task.taskId work).state := by
  refine handed_trans s ((s.say call).enrollMissing task) _ ?_ ?_ (deal_log _ work _ stays)
    (handed_deal task.taskId work stays _ (fun r _ => worked _))
  · rw [enrollMissing_log]
    exact List.suffix_cons _ _
  · exact handed_fewer s _ (fun id r found was =>
      ⟨r,enrollMissing_transferred task (s.say call) id r found was,was,rfl,rfl⟩)

theorem delegate_handed (peers : Registry) (openAuctions : Nat) (reasonCode : Int)
    (fallback : LocalDisposition) (note : String) (now : ℚ) (d : Desk) :
    Desk.Handed d (delegate cfg world peers openAuctions reasonCode fallback note now d).state := by
  intro transferred
  obtain ⟨inFlight,same⟩ | ⟨_,_,same⟩ | ⟨_,_,same⟩ :=
    delegate_cases cfg world peers openAuctions reasonCode fallback note now d
  · rw [same] at transferred
    have was : d.record.state = .transferred := transferred
    rw [was] at inFlight
    cases inFlight with
    | inl announced => cases announced
    | inr granted => cases granted
  · rw [same] at transferred
    exact absurd transferred (Desk.dispose_transferred _ _ _)
  · rw [same] at transferred
    exact absurd transferred (Desk.announce_transferred _ _ _ _ _)

theorem runAuction_handed (peers : Registry) (now : ℚ) (d : Desk) :
    Desk.Handed d (runAuction cfg world peers now d).state := by
  refine runAuction_rule cfg world peers _ _ _ (Desk.cascades_handed cfg.params world peers d) now d ?_ ?_ ?_
  · exact fun _ transferred => .inl ⟨transferred,rfl⟩
  · intro auction collects
    have announced := ((collecting_eq_some _ _).mp collects).1
    exact ⟨Desk.works_refl d,by simp [announced]⟩
  · intro before
    obtain ⟨_,_,shape⟩ := Desk.emitAnnounce_record cfg.params world now d
    refine ⟨Desk.emitAnnounce_works cfg.params world d now d before.1,?_⟩
    rw [shape]
    exact before.2

theorem move_handed (s t : Session) (move : Move cfg world s t) : s.Handed t := by
  cases move with
  | aside t tasks log futures serial =>
    exact handed_fewer s t (fun id r found was => ⟨r,tasks ▸ found,was,rfl,rfl⟩)
  | told call plain => exact handed_fewer s _ (fun id r found was => ⟨r,found,was,rfl,rfl⟩)
  | enrolled task free =>
    exact handed_fewer s _ (fun id r found was => ⟨r,enroll_transferred task _ id r found was,was,rfl,rfl⟩)
  | absorbed task cause note free =>
    exact handed_fewer s _ (fun id r found was => ⟨r,enroll_transferred task _ id r found was,was,rfl,rfl⟩)
  | unabsorbed task cause note free =>
    refine handed_fewer s _ ?_
    intro id r found was
    exact ⟨r,enroll_transferred task _ id r (Dict.get?_pop_cases found).2 was,was,rfl,rfl⟩
  | delegated task reasonCode fallback note now =>
    exact handed_action _ task _ (delegate_stays cfg world _ _ _ _ _ _) s
      (delegate_handed cfg world _ _ reasonCode fallback note now)
  | dropped task disposition reasonCode now =>
    exact handed_action _ task _ (dispose_stays disposition now) s
      (fun d transferred => absurd transferred (Desk.dispose_transferred disposition now d))
  | filed bid now record auction after found collects welcome taken heard =>
    refine handed_deal bid.taskId _ (fileBid_stays cfg world s after now) s ?_
    intro r same
    rw [found] at same
    cases same
    have announced := ((collecting_eq_some _ _).mp collects).1
    refine (Desk.cascades_handed cfg.params world s.peers _).maybeClose _ _ _ _ _ _ now _ ⟨?_,?_⟩
    · exact Desk.put_works _ _ _ rfl rfl (Desk.works_refl _)
    · simp [announced]
  | ran taskId now =>
    exact handed_deal taskId _ (runAuction_stays cfg world s.peers now) s
      (fun r _ => runAuction_handed cfg world s.peers now _)
  | forgot gone =>
    refine handed_fewer s _ ?_
    intro id r found was
    rw [Dict.get?_mapValues] at found
    obtain ⟨old,there,rfl⟩ := Option.map_eq_some_iff.mp found
    exact ⟨old,there,was,rfl,rfl⟩
  | pruned now =>
    exact handed_fewer s _ (fun id r found was => ⟨r,((Dict.get?_retain _ _ _ _).mp found).1,was,rfl,rfl⟩)

theorem moves_handed (s t : Session) (moves : Moves cfg world s t) : s.Handed t := by
  induction moves with
  | refl => exact handed_fewer s s (fun id r found was => ⟨r,found,was,rfl,rfl⟩)
  | tail path last ih =>
    exact handed_trans s _ _ (moves_log cfg world _ _ path) ih (move_log cfg world _ _ last)
      (move_handed cfg world _ _ last)

structure Faithful (s t : Session) (op : Op) : Prop where
  /-- A delivered GRANT leaves its task with a record that is not ours. -/
  delivered : ∀ id future, op = .outcome id .delivered →
    s.futures.find? (fun f => f.id = id) = some future →
    ∀ r, t.tasks.get? future.taskId = some r → r.ours = false
  /-- A record turns TRANSFERRED on a delivered GRANT to the robot it is granted
  to: one reported by this operation, or one sent and confirmed within it. -/
  transferred : ∀ taskId r, t.tasks.get? taskId = some r → r.state = .transferred →
    (∃ q, s.tasks.get? taskId = some q ∧ q.serial = r.serial ∧ q.state = .transferred) ∨
    (∃ id future q, op = .outcome id .delivered ∧
      s.futures.find? (fun f => f.id = id) = some future ∧ future.taskId = taskId ∧
      s.tasks.get? taskId = some q ∧ q.serial = r.serial ∧ q.state = .granted ∧
      q.grantedTo = some future.winnerId) ∨
    ∃ added, t.log = added ++ s.log ∧ Confirmed r added
  /-- A failed GRANT changes no record granted to another robot. -/
  failed : ∀ id future, op = .outcome id .failed →
    s.futures.find? (fun f => f.id = id) = some future →
    ∀ taskId r robot, s.tasks.get? taskId = some r → r.grantedTo = some robot →
      robot ≠ future.winnerId → t.tasks.get? taskId = some r

theorem link_future (s : Session) (link : s.Link) (id : Nat) (future : GrantFuture)
    (found : s.futures.find? (fun f => f.id = id) = some future) (r : OwnedTask)
    (there : s.tasks.get? future.taskId = some r) (ours : r.ours = true) :
    r.state = .granted ∧ r.grantedTo = some future.winnerId :=
  link.stands future.taskId r there future (List.mem_of_find?_eq_some found) rfl ours

theorem resolve_record (id : Nat) (outcome : Outcome) (s : Session) (future : GrantFuture)
    (found : s.futures.find? (fun f => f.id = id) = some future) (taskId : Int) (r : OwnedTask)
    (after : (s.resolve cfg world id outcome).state.tasks.get? taskId = some r) :
    (taskId ≠ future.taskId ∧ s.tasks.get? taskId = some r) ∨
    ∃ q, taskId = future.taskId ∧ s.tasks.get? taskId = some q ∧
      (s.resolve cfg world id outcome).state.log = (Desk.settle cfg.params world s.peers future.winnerId
        outcome ⟨q,s.log,(s.without id).futures⟩).state.log ∧
      r = (Desk.settle cfg.params world s.peers future.winnerId
        outcome ⟨q,s.log,(s.without id).futures⟩).state.record := by
  unfold resolve at after ⊢
  rw [found] at after ⊢
  simp only [Flow.state_handled] at after ⊢
  cases there : s.tasks.get? future.taskId with
  | none =>
    rw [state_deal_none future.taskId _ (s.without id) there] at after
    refine .inl ⟨?_,after⟩
    rintro rfl
    have none := there.symm.trans after
    cases none
  | some q =>
    rw [state_deal future.taskId _ (s.without id) q there] at after ⊢
    obtain ⟨same,rfl⟩ | ⟨other,after⟩ := Dict.get?_set_cases after
    · exact .inr ⟨q,same,same ▸ there,rfl,rfl⟩
    · exact .inl ⟨other,after⟩

theorem resolve_delivered (id : Nat) (s : Session) (link : s.Link) (future : GrantFuture)
    (found : s.futures.find? (fun f => f.id = id) = some future) (r : OwnedTask)
    (after : (s.resolve cfg world id .delivered).state.tasks.get? future.taskId = some r) :
    r.ours = false := by
  obtain ⟨other,_⟩ | ⟨q,_,there,_,rfl⟩ := resolve_record cfg world id .delivered s future found _ r after
  · exact absurd rfl other
  · obtain ⟨stale,same⟩ | ⟨_,_,same⟩ | ⟨_,failed,_⟩ :=
      Desk.settle_cases cfg.params world s.peers future.winnerId .delivered
        ⟨q,s.log,(s.without id).futures⟩
    · rw [same]
      by_contra ours
      have ours : q.ours = true := by simpa using ours
      exact stale (link_future s link id future found q there ours).1
    · rw [same,Flow.state_returned,Desk.grantDelivered_record]
      rfl
    · cases failed

theorem resolve_transferred (id : Nat) (outcome : Outcome) (s : Session) (future : GrantFuture)
    (found : s.futures.find? (fun f => f.id = id) = some future) (taskId : Int)
    (r : OwnedTask) (after : (s.resolve cfg world id outcome).state.tasks.get? taskId = some r)
    (transferred : r.state = .transferred) :
    (∃ q, s.tasks.get? taskId = some q ∧ q.serial = r.serial ∧ q.state = .transferred) ∨
    (∃ q, outcome = .delivered ∧ future.taskId = taskId ∧ s.tasks.get? taskId = some q ∧
      q.serial = r.serial ∧ q.state = .granted) ∨
    ∃ added, (s.resolve cfg world id outcome).state.log = added ++ s.log ∧ Confirmed r added := by
  obtain ⟨_,there⟩ | ⟨q,rfl,there,log,rfl⟩ := resolve_record cfg world id outcome s future found taskId r after
  · exact .inl ⟨r,there,rfl,transferred⟩
  · obtain ⟨_,same⟩ | ⟨granted,good,same⟩ | ⟨_,_,⟨_,same⟩ | ⟨_,closing⟩⟩ :=
      Desk.settle_cases cfg.params world s.peers future.winnerId outcome
        ⟨q,s.log,(s.without id).futures⟩
    · rw [same] at transferred ⊢
      exact .inl ⟨q,there,rfl,transferred⟩
    · refine .inr (.inl ⟨q,good,rfl,there,?_,granted⟩)
      rw [same,Flow.state_returned,Desk.grantDelivered_record]
    · rw [same] at transferred
      exact absurd transferred (Desk.fallBack_transferred _ _ _ _ _)
    · have handed := (Desk.cascades_handed cfg.params world s.peers
        ⟨q,s.log,(s.without id).futures⟩).closing _ _ _ _ _ _ _ _ _ closing
        ⟨Desk.put_works _ _ _ rfl rfl (Desk.lose_works _ _ _ (Desk.works_refl _)),nofun⟩
      obtain ⟨was,_⟩ | confirmed := handed transferred
      · exact .inl ⟨q,there,(settle_stays cfg world s.peers future.winnerId outcome
          ⟨q,s.log,(s.without id).futures⟩).serial.symm,was⟩
      · rw [log]
        exact .inr (.inr confirmed)

theorem next_transferred (s : Session) (label : Label) (taskId : Int) (r : OwnedTask)
    (after : ((machine cfg).next s label).tasks.get? taskId = some r) (transferred : r.state = .transferred) :
    (∃ q, s.tasks.get? taskId = some q ∧ q.serial = r.serial ∧ q.state = .transferred) ∨
    (∃ id future, label.op = .outcome id .delivered ∧
      s.futures.find? (fun f => f.id = id) = some future ∧ future.taskId = taskId) ∨
    ∃ added, ((machine cfg).next s label).log = added ++ s.log ∧ Confirmed r added := by
  obtain ⟨world,op⟩ := label
  by_cases isOutcome : ∃ id outcome, op = .outcome id outcome
  · obtain ⟨id,outcome,rfl⟩ := isOutcome
    simp only [machine,perform] at after ⊢
    cases found : s.futures.find? (fun f => f.id = id) with
    | none =>
      have same : (s.resolve cfg world id outcome).state = s := by
        unfold resolve
        rw [found]
        rfl
      rw [same] at after
      exact .inl ⟨r,after,rfl,transferred⟩
    | some future =>
      obtain before | ⟨q,good,about,_⟩ | confirmed :=
        resolve_transferred cfg world id outcome s future found taskId r after transferred
      · exact .inl before
      · exact .inr (.inl ⟨id,future,by rw [good],found,about⟩)
      · exact .inr (.inr confirmed)
  · push Not at isOutcome
    obtain ⟨q,there,was,serial,_⟩ | confirmed :=
      moves_handed cfg world s _ (perform_moves cfg world op isOutcome s) taskId r after transferred
    · exact .inl ⟨q,there,serial,was⟩
    · exact .inr (.inr confirmed)

theorem resolve_failed (id : Nat) (s : Session) (link : s.Link) (future : GrantFuture)
    (found : s.futures.find? (fun f => f.id = id) = some future) (taskId : Int) (r : OwnedTask)
    (robot : Int) (there : s.tasks.get? taskId = some r) (granted : r.grantedTo = some robot)
    (other : robot ≠ future.winnerId) :
    (s.resolve cfg world id .failed).state.tasks.get? taskId = some r := by
  unfold resolve
  rw [found]
  simp only [Flow.state_handled]
  cases here : s.tasks.get? future.taskId with
  | none =>
    rw [state_deal_none future.taskId _ (s.without id) here]
    exact there
  | some q =>
    rw [state_deal future.taskId _ (s.without id) q here]
    simp only [store,Dict.get?_set]
    split
    · rename_i same
      rw [same,here] at there
      injection there with equal
      obtain ⟨_,unchanged⟩ | ⟨_,good,_⟩ | ⟨state,_,_⟩ :=
        Desk.settle_cases cfg.params world s.peers future.winnerId .failed
          ⟨q,s.log,(s.without id).futures⟩
      · rw [← equal]
        exact congrArg some (congrArg (fun flow => flow.state.record) unchanged)
      · cases good
      · have stands := link_future s link id future found q here (ours_of_state q _ state rfl)
        rw [equal,granted] at stands
        injection stands.2 with robots
        exact absurd robots other
    · exact there

theorem resolve_faithful (id : Nat) (outcome : Outcome) (s : Session) (link : s.Link) :
    s.Faithful (s.resolve cfg world id outcome).state (.outcome id outcome) := by
  refine ⟨?_,?_,?_⟩
  · rintro _ future ⟨⟩ found r after
    exact resolve_delivered cfg world id s link future found r after
  · intro taskId r after transferred
    cases found : s.futures.find? (fun f => f.id = id) with
    | none =>
      have same : (s.resolve cfg world id outcome).state = s := by
        unfold resolve
        rw [found]
        rfl
      rw [same] at after
      exact .inl ⟨r,after,rfl,transferred⟩
    | some future =>
      obtain before | ⟨q,good,rfl,there,serial,granted⟩ | confirmed :=
        resolve_transferred cfg world id outcome s future found taskId r after transferred
      · exact .inl before
      · have stands := link_future s link id future found q there (ours_of_state q _ granted rfl)
        rw [good]
        exact .inr (.inl ⟨id,future,q,rfl,found,rfl,there,serial,granted,stands.2⟩)
      · exact .inr (.inr confirmed)
  · rintro _ future ⟨⟩ found taskId r robot there granted other
    exact resolve_failed cfg world id s link future found taskId r robot there granted other

/-- In every run that leaves a task alone while its GRANT is in flight, every
outcome is applied to the GRANT it reports on. -/
theorem outcomes_faithful (s : Session) (reached : (machine cfg).Reachable s)
    (calls : ∀ call ∈ s.log, LeavesFlying cfg call) (label : Label) :
    s.Faithful ((machine cfg).next s label) label.op := by
  have link := reachable_link cfg s reached calls
  obtain ⟨world,op⟩ := label
  by_cases isOutcome : ∃ id outcome, op = .outcome id outcome
  · obtain ⟨id,outcome,rfl⟩ := isOutcome
    exact resolve_faithful cfg world id outcome s link
  · push Not at isOutcome
    refine ⟨?_,?_,?_⟩
    · intro id _ same
      exact absurd same (isOutcome id _)
    · intro taskId r found transferred
      have handed := moves_handed cfg world s _ (perform_moves cfg world op isOutcome s)
      obtain ⟨q,there,was,serial,_⟩ | confirmed := handed taskId r found transferred
      · exact .inl ⟨q,there,serial,was⟩
      · exact .inr (.inr confirmed)
    · intro id _ same
      exact absurd same (isOutcome id _)

theorem outcomes_faithful_granted : ((machine robot).runs {} grantedRun).Faithful
    ((machine robot).next ((machine robot).runs {} grantedRun) ⟨clockAt 20,.outcome 8 .delivered⟩)
    (.outcome 8 .delivered) := by
  have reached := (machine robot).reaches_runs (fun _ _ => True) {} grantedRun (.start _ rfl)
    (by decide +kernel)
  exact outcomes_faithful robot _ reached (by decide +kernel) ⟨clockAt 20,.outcome 8 .delivered⟩

/-- Held while its GRANT is in flight, delegated again, and granted to another robot. -/
def regrantedRun : List Label := grantedRun ++ [given 8 (.dropTask field .hold 0),
  given 60 (.reDelegate field 0 .hold ""),heard 61 (.bid ⟨3,0,7,4,true,20⟩),⟨clockAt 66,.tick⟩]

/-- The first GRANT's delivery hands over the record that stands on the second. -/
theorem outcomes_faithful_regranted : ∃ s label, (machine robot).Reachable s ∧
    (machine robot).enabled s label ∧ ¬ s.Faithful ((machine robot).next s label) label.op := by
  refine ⟨(machine robot).runs {} regrantedRun,⟨clockAt 67,.outcome 8 .delivered⟩,?_,by decide +kernel,?_⟩
  · exact (machine robot).reaches_runs _ {} regrantedRun (.start _ rfl) (by decide +kernel)
  · intro faithful
    have before : (((machine robot).runs {} regrantedRun).tasks.get? 7).map (fun r => (r.state,r.grantedTo)) =
        some (.granted,some 3) := by decide +kernel
    have flying : ((machine robot).runs {} regrantedRun).futures.find? (fun f => f.id = 8) =
        some ⟨8,7,2⟩ := by decide +kernel
    have after : (((machine robot).next ((machine robot).runs {} regrantedRun)
        ⟨clockAt 67,.outcome 8 .delivered⟩).tasks.get? 7).map OwnedTask.state = some .transferred := by
      decide +kernel
    have silent : ∀ call ∈ ((machine robot).next ((machine robot).runs {} regrantedRun)
        ⟨clockAt 67,.outcome 8 .delivered⟩).log, call.unconfirmed = true := by decide +kernel
    obtain ⟨r,found,transferred⟩ := Option.map_eq_some_iff.mp after
    obtain ⟨q,there,_,was⟩ | ⟨id,future,q,same,known,_,there,_,_,granted⟩ | ⟨added,grown,confirmed⟩ :=
      faithful.transferred 7 r found transferred
    · rw [there] at before
      injection before with before
      injection before with state _
      rw [was] at state
      cases state
    · injection same with same _
      rw [← same,flying] at known
      injection known with known
      rw [there] at before
      injection before with before
      injection before with _ to_
      rw [granted,← known] at to_
      injection to_ with to_
      exact absurd to_ (by decide)
    · exact not_confirmed r added (fun call member => silent call (grown ▸ List.mem_append_left _ member))
        confirmed

end Session
end AmigaFleet.Coordinator
