import AmigaFleet.Coordinator.Logs

/-! The record rule. What a fact about one record and the calls about it needs
to hold in every state: each piece of work on that record keeps it, and calls
about other records do not touch it. -/
namespace AmigaFleet.Coordinator
open Lib AmigaFleet.Codec AmigaFleet.Reliability

def Unrelated (serial : Nat) (calls : Log) : Prop := ∀ call ∈ calls, call.serial? ≠ some serial

theorem unrelated_of_none (serial : Nat) (call : Call) (none : call.serial? = none) :
    Unrelated serial [call] := by
  intro other member
  rw [List.mem_singleton.mp member,none]
  exact nofun

theorem plain_serial? (call : Call) (plain : call.plain = true) : call.serial? = none := by
  cases call <;> simp_all [Call.plain,Call.serial?]

def FoundIn (tasks : Dict Int OwnedTask) (task : Task) (r : OwnedTask) : Prop :=
  r.task.taskId = task.taskId ∧ (tasks.get? task.taskId = some r ∨
    (tasks.get? task.taskId = none ∧ ∃ serial, r = { serial := serial, task := task }))

def announcedIn (tasks : Dict Int OwnedTask) : Nat := tasks.countValues (fun r => r.state = .announced)

/-- `J` ties a live record to the log; `K` is what the log keeps of any record. -/
structure Tracks (cfg : Config) (J : OwnedTask → Log → Prop) (K : Nat → Log → Prop) : Prop where
  live : ∀ r log, J r log → K r.serial log
  frame : ∀ r log added, Unrelated r.serial added → J r log → J r (added ++ log)
  past : ∀ serial log added, Unrelated serial added → K serial log → K serial (added ++ log)
  unknown : ∀ serial log, Unrelated serial log → K serial log
  fresh : ∀ serial task log, Unrelated serial log → J { serial := serial, task := task } log
  absorbed : ∀ serial task cause note log, Unrelated serial log → J { serial := serial, task := task }
    (.replanAndVerify serial { added := [task], cause := cause, note := note } :: log)
  forgotten : ∀ gone r log, J r log → J (Session.forgetGone gone r) log
  delegated : ∀ world peers task reasonCode fallback note now tasks r log futures, FoundIn tasks task r →
    J r (.apply (.reDelegate task reasonCode fallback note) now tasks futures :: log) →
    let after := (Session.delegate cfg world peers (announcedIn tasks) reasonCode fallback note now
      ⟨r,.apply (.reDelegate task reasonCode fallback note) now tasks futures :: log,futures⟩).state
    J after.record after.log
  dropped : ∀ task disposition reasonCode now tasks r log futures, FoundIn tasks task r →
    J r (.apply (.dropTask task disposition reasonCode) now tasks futures :: log) →
    let after := Desk.disposeLocally disposition now
      ⟨r,.apply (.dropTask task disposition reasonCode) now tasks futures :: log,futures⟩
    J after.record after.log
  filed : ∀ world peers (bid : Bid) now (d : Desk) auction filed, Heard (.bid bid) d.log →
    Session.collecting d.record = some auction → bid.src ∉ d.record.excludedBidders →
    auction.record bid now = some filed → J d.record d.log →
    let after := ((d.put { d.record with auction := some filed }).maybeClose cfg.params world peers now).state
    J after.record after.log
  ran : ∀ world peers now (d : Desk), J d.record d.log →
    let after := (Session.runAuction cfg world peers now d).state
    J after.record after.log
  settled : ∀ world peers winnerId outcome (d : Desk), J d.record d.log →
    let after := (d.settle cfg.params world peers winnerId outcome).state
    J after.record after.log

namespace Session
variable (cfg : Config) (world : World)

structure Tracked (J : OwnedTask → Log → Prop) (K : Nat → Log → Prop) (s : Session) : Prop where
  keyed : ∀ id r, s.tasks.get? id = some r → r.task.taskId = id
  below : ∀ id r, s.tasks.get? id = some r → r.serial < s.nextSerial
  apart : ∀ id other r q, s.tasks.get? id = some r → s.tasks.get? other = some q →
    r.serial = q.serial → id = other
  logged : ∀ call ∈ s.log, ∀ serial, call.serial? = some serial → serial < s.nextSerial
  here : ∀ id r, s.tasks.get? id = some r → J r s.log
  ever : ∀ serial, K serial s.log

variable (J : OwnedTask → Log → Prop) (K : Nat → Log → Prop) (rule : Tracks cfg J K)

theorem Tracked.unused (s : Session) (tracked : s.Tracked J K) : Unrelated s.nextSerial s.log := by
  intro call member about
  exact absurd (tracked.logged call member _ about) (lt_irrefl _)

theorem tracked_aside (s t : Session) (tasks : t.tasks = s.tasks) (log : t.log = s.log)
    (serial : t.nextSerial = s.nextSerial) (before : s.Tracked J K) : t.Tracked J K where
  keyed := tasks ▸ before.keyed
  below := tasks ▸ serial ▸ before.below
  apart := tasks ▸ before.apart
  logged := log ▸ serial ▸ before.logged
  here := tasks ▸ log ▸ before.here
  ever := log ▸ before.ever

theorem tracked_fewer (s : Session) (tasks : Dict Int OwnedTask)
    (fewer : ∀ id r, tasks.get? id = some r → s.tasks.get? id = some r) (before : s.Tracked J K) :
    Tracked J K { s with tasks := tasks } where
  keyed id r found := before.keyed id r (fewer id r found)
  below id r found := before.below id r (fewer id r found)
  apart id other r q found also := before.apart id other r q (fewer id r found) (fewer other q also)
  logged := before.logged
  here id r found := before.here id r (fewer id r found)
  ever := before.ever

include rule in
theorem tracked_say (call : Call) (none : call.serial? = none) (s : Session) (before : s.Tracked J K) :
    (s.say call).Tracked J K where
  keyed := before.keyed
  below := before.below
  apart := before.apart
  logged other member serial about := by
    obtain rfl | old := List.mem_cons.mp member
    · rw [none] at about
      cases about
    · exact before.logged other old serial about
  here id r found := rule.frame r s.log [call] (unrelated_of_none _ call none) (before.here id r found)
  ever serial := rule.past serial s.log [call] (unrelated_of_none _ call none) (before.ever serial)

theorem tracked_enter (task : Task) (added : Log) (s : Session) (before : s.Tracked J K)
    (own : ∀ call ∈ added, ∀ serial, call.serial? = some serial → serial = s.nextSerial)
    (frame : ∀ r log added, Unrelated r.serial added → J r log → J r (added ++ log))
    (past : ∀ serial log added, Unrelated serial added → K serial log → K serial (added ++ log))
    (live : ∀ r log, J r log → K r.serial log)
    (here : J { serial := s.nextSerial, task := task } (added ++ s.log)) :
    Tracked J K { s.enroll task with log := added ++ s.log } where
  keyed id r found := by
    obtain ⟨rfl,rfl⟩ | ⟨_,found⟩ := Dict.get?_set_cases found
    · rfl
    · exact before.keyed id r found
  below id r found := by
    obtain ⟨rfl,rfl⟩ | ⟨_,found⟩ := Dict.get?_set_cases found
    · exact Nat.lt_succ_self _
    · exact Nat.lt_succ_of_lt (before.below id r found)
  apart id other r q found also same := by
    obtain ⟨rfl,rfl⟩ | ⟨_,found⟩ := Dict.get?_set_cases found <;>
      obtain ⟨rfl,rfl⟩ | ⟨_,also⟩ := Dict.get?_set_cases also
    · rfl
    · exact absurd same (Nat.ne_of_gt (before.below other q also))
    · exact absurd same (Nat.ne_of_lt (before.below id r found))
    · exact before.apart id other r q found also same
  logged call member serial about := by
    obtain new | old := List.mem_append.mp member
    · rw [own call new serial about]
      exact Nat.lt_succ_self _
    · exact Nat.lt_succ_of_lt (before.logged call old serial about)
  here id r found := by
    obtain ⟨_,rfl⟩ | ⟨_,found⟩ := Dict.get?_set_cases found
    · exact here
    · refine frame r s.log added ?_ (before.here id r found)
      intro call member about
      have below := before.below id r found
      rw [own call member _ about] at below
      exact absurd below (lt_irrefl _)
  ever serial := by
    by_cases same : serial = s.nextSerial
    · rw [same]
      exact live _ _ here
    · refine past serial s.log added ?_ (before.ever serial)
      intro call member about
      exact same (own call member serial about)

include rule in
theorem tracked_enroll (task : Task) (s : Session) (before : s.Tracked J K) :
    (s.enroll task).Tracked J K :=
  tracked_enter J K task [] s before (fun _ member => by cases member) rule.frame rule.past rule.live
    (rule.fresh _ task s.log (before.unused J K))

include rule in
theorem tracked_enrollMissing (task : Task) (s : Session) (before : s.Tracked J K) :
    (s.enrollMissing task).Tracked J K := by
  unfold enrollMissing
  split
  · exact before
  · exact tracked_enroll cfg J K rule task s before

include rule in
theorem tracked_deal (taskId : Int) (work : Desk → Flow Desk) (stays : Stays work) (s : Session)
    (before : s.Tracked J K)
    (worked : ∀ r, s.tasks.get? taskId = some r → J r s.log →
      J (work ⟨r,s.log,s.futures⟩).state.record (work ⟨r,s.log,s.futures⟩).state.log) :
    (s.deal taskId work).state.Tracked J K := by
  cases found : s.tasks.get? taskId with
  | none =>
    rw [state_deal_none taskId work s found]
    exact before
  | some record =>
    rw [state_deal taskId work s record found]
    have done := worked record found (before.here taskId record found)
    have works := stays ⟨record,s.log,s.futures⟩
    generalize (work ⟨record,s.log,s.futures⟩).state = d at done works
    obtain ⟨added,grown,concerns⟩ := works.log
    have own := fun call member => concerns_serial? _ call (concerns call member)
    have serial : d.record.serial = record.serial := works.serial
    have task : d.record.task = record.task := works.task
    have grown : d.log = added ++ s.log := grown
    have others : ∀ other, other ≠ record.serial → Unrelated other added := by
      intro other different call member about
      exact different (own call member other about)
    refine ⟨?_,?_,?_,?_,?_,?_⟩
    · intro id r there
      obtain ⟨rfl,rfl⟩ | ⟨_,there⟩ := Dict.get?_set_cases there
      · rw [task]
        exact before.keyed id record found
      · exact before.keyed id r there
    · intro id r there
      obtain ⟨_,rfl⟩ | ⟨_,there⟩ := Dict.get?_set_cases there
      · rw [serial]
        exact before.below taskId record found
      · exact before.below id r there
    · intro id other r q there also same
      obtain ⟨here,rfl⟩ | ⟨_,there⟩ := Dict.get?_set_cases there <;>
        obtain ⟨away,rfl⟩ | ⟨_,also⟩ := Dict.get?_set_cases also
      · exact here.trans away.symm
      · rw [serial] at same
        exact here.trans (before.apart taskId other record q found also same)
      · rw [serial] at same
        exact (before.apart id taskId r record there found same).trans away.symm
      · exact before.apart id other r q there also same
    · intro call member n about
      simp only [store,grown] at member ⊢
      obtain new | old := List.mem_append.mp member
      · rw [own call new n about]
        exact before.below taskId record found
      · exact before.logged call old n about
    · intro id r there
      obtain ⟨_,rfl⟩ | ⟨elsewhere,there⟩ := Dict.get?_set_cases there
      · exact done
      · simp only [store,grown]
        refine rule.frame r s.log added (others r.serial ?_) (before.here id r there)
        intro same
        exact elsewhere (before.apart id taskId r record there found same)
    · intro n
      simp only [store]
      by_cases same : n = record.serial
      · rw [same,← serial]
        exact rule.live _ _ done
      · rw [grown]
        exact rule.past n s.log added (others n same) (before.ever n)

include rule in
theorem tracked_absorb (task : Task) (cause note : String) (s : Session) (before : s.Tracked J K) :
    (s.absorb world task cause note).2.Tracked J K := by
  have unused := before.unused J K
  refine tracked_enter J K task [.replanAndVerify s.nextSerial
    { added := [task], cause := cause, note := note },.requestYield ("task " ++ toString task.taskId ++
      " absorbed (" ++ cause ++ ")"),.absorb task,.entered task s.futures] s before ?_ rule.frame rule.past rule.live ?_
  · intro call member serial about
    simp only [List.mem_cons,List.not_mem_nil,or_false] at member
    obtain rfl | rfl | rfl | rfl := member
    · cases about
      rfl
    · cases about
    · cases about
    · cases about
  · refine rule.absorbed _ _ _ _ _ ?_
    intro call member
    obtain rfl | rfl | rfl | old := by simpa using member
    · exact nofun
    · exact nofun
    · exact nofun
    · exact unused call old

theorem tracked_forgot (gone : List PeerRecord) (s : Session) (before : s.Tracked J K)
    (forgotten : ∀ gone r log, J r log → J (forgetGone gone r) log) :
    Tracked J K { s with tasks := s.tasks.mapValues (forgetGone gone) } := by
  have known : ∀ id r, (s.tasks.mapValues (forgetGone gone)).get? id = some r →
      ∃ old, s.tasks.get? id = some old ∧ forgetGone gone old = r := by
    intro id r found
    rw [Dict.get?_mapValues] at found
    exact Option.map_eq_some_iff.mp found
  refine ⟨?_,?_,?_,before.logged,?_,before.ever⟩
  · intro id r found
    obtain ⟨old,there,rfl⟩ := known id r found
    exact before.keyed id old there
  · intro id r found
    obtain ⟨old,there,rfl⟩ := known id r found
    exact before.below id old there
  · intro id other r q found also same
    obtain ⟨old,there,rfl⟩ := known id r found
    obtain ⟨away,yonder,rfl⟩ := known other q also
    exact before.apart id other old away there yonder same
  · intro id r found
    obtain ⟨old,there,rfl⟩ := known id r found
    exact forgotten gone old s.log (before.here id old there)

theorem foundIn_enrollMissing (task : Task) (s : Session) (r : OwnedTask)
    (tracked : (s.enrollMissing task).Tracked J K)
    (found : (s.enrollMissing task).tasks.get? task.taskId = some r) : FoundIn s.tasks task r := by
  refine ⟨tracked.keyed _ r found,?_⟩
  obtain old | ⟨missing,fresh⟩ := enrollMissing_get? task s r found
  · exact .inl old
  · exact .inr ⟨missing,_,fresh⟩

theorem openAuctions_enrollMissing (task : Task) (s : Session) :
    (s.enrollMissing task).openAuctions = announcedIn s.tasks := by
  unfold enrollMissing
  split
  · rfl
  · rename_i missing
    rw [Dict.contains,Bool.not_eq_true,Option.isSome_eq_false_iff,Option.isNone_iff_eq_none] at missing
    have count := Dict.countValues_set s.tasks (fun r => r.state = .announced) task.taskId
      { serial := s.nextSerial, task := task }
    simp only [missing,Dict.indicator] at count
    simpa [openAuctions,enroll,announcedIn] using count

include rule in
theorem move_tracked (s t : Session) (move : Move cfg world s t) (before : s.Tracked J K) :
    t.Tracked J K := by
  cases move with
  | aside t tasks log futures serial => exact tracked_aside J K s t tasks log serial before
  | told call plain => exact tracked_say cfg J K rule call (plain_serial? call plain) s before
  | enrolled task free =>
    exact tracked_enroll cfg J K rule task _ (tracked_say cfg J K rule (.entered task s.futures) rfl s before)
  | absorbed task cause note free => exact tracked_absorb cfg world J K rule task cause note s before
  | unabsorbed task cause note free =>
    have absorbed := tracked_absorb cfg world J K rule task cause note s before
    refine tracked_fewer J K _ _ ?_ (tracked_say cfg J K rule (.release task) rfl _ absorbed)
    exact fun id r found => (Dict.get?_pop_cases found).2
  | delegated task reasonCode fallback note now =>
    have entered := tracked_enrollMissing cfg J K rule task _ (tracked_say cfg J K rule
      (.apply (.reDelegate task reasonCode fallback note) now s.tasks s.futures) rfl s before)
    refine tracked_deal cfg J K rule task.taskId _ (delegate_stays cfg world _ _ _ _ _ _) _ entered ?_
    intro r found holds
    rw [openAuctions_enrollMissing]
    rw [enrollMissing_log] at holds ⊢
    rw [enrollMissing_futures]
    exact rule.delegated world _ task reasonCode fallback note now s.tasks r s.log s.futures
      (foundIn_enrollMissing J K task (s.say _) r entered found) holds
  | dropped task disposition reasonCode now =>
    have entered := tracked_enrollMissing cfg J K rule task _ (tracked_say cfg J K rule
      (.apply (.dropTask task disposition reasonCode) now s.tasks s.futures) rfl s before)
    refine tracked_deal cfg J K rule task.taskId _ (dispose_stays disposition now) _ entered ?_
    intro r found holds
    rw [enrollMissing_log] at holds ⊢
    rw [enrollMissing_futures]
    exact rule.dropped task disposition reasonCode now s.tasks r s.log s.futures
      (foundIn_enrollMissing J K task (s.say _) r entered found) holds
  | filed bid now record auction after found collects welcome taken heard =>
    refine tracked_deal cfg J K rule bid.taskId _ (fileBid_stays cfg world s after now) s before ?_
    intro r same holds
    rw [found] at same
    cases same
    exact rule.filed world s.peers bid now ⟨record,s.log,s.futures⟩ auction after heard collects
      welcome taken holds
  | ran taskId now =>
    refine tracked_deal cfg J K rule taskId _ (runAuction_stays cfg world s.peers now) s before ?_
    intro r _ holds
    exact rule.ran world s.peers now ⟨r,s.log,s.futures⟩ holds
  | forgot gone => exact tracked_forgot J K gone s before rule.forgotten
  | pruned now =>
    exact tracked_fewer J K s _ (fun id r found => ((Dict.get?_retain _ _ _ _).mp found).1) before

include rule in
theorem resolve_tracked (id : Nat) (outcome : Outcome) (s : Session) (before : s.Tracked J K) :
    (s.resolve cfg world id outcome).state.Tracked J K := by
  obtain same | ⟨future,_,_,same⟩ := resolve_cases cfg world id outcome s
  · rw [same]
    exact before
  · rw [same]
    refine tracked_deal cfg J K rule future.taskId _ (settle_stays cfg world s.peers _ _) _
      (tracked_aside J K s _ rfl rfl rfl before) ?_
    intro r _ holds
    exact rule.settled world s.peers future.winnerId outcome _ holds

include rule in
/-- The record rule, over every run. -/
theorem reachable_tracked (s : Session) (reached : (machine cfg).Reachable s) : s.Tracked J K := by
  refine invariant cfg (fun _ => True) (Tracked J K) ?_ ?_ ?_ s reached (fun _ _ => trivial)
  · refine ⟨?_,?_,?_,?_,?_,?_⟩
    · exact fun _ _ found => by cases found
    · exact fun _ _ found => by cases found
    · exact fun _ _ _ _ found => by cases found
    · exact fun _ member => by cases member
    · exact fun _ _ found => by cases found
    · exact fun serial => rule.unknown serial [] (fun _ member => by cases member)
  · intro world s t move _ before
    exact move_tracked cfg world J K rule s t move before
  · intro world s id outcome _ before
    exact resolve_tracked cfg world J K rule id outcome s before

end Session
end AmigaFleet.Coordinator
