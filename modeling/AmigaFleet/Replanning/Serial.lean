import AmigaFleet.Replanning.Decisions

/-! The accepted edits as a sequence: each made on the plan that the one before it
left, and every plan held the result of all of them. -/
namespace AmigaFleet.Replanning
open Lib AmigaFleet.Mission

/-- The plan that the entries come to, one after another: an edit is made on the
plan before it, and the planner's candidate replaces the plan it was compared with. -/
inductive Serial (settings : Settings) : List Entry → Option Xml → Prop
  | start : Serial settings [] none
  | mission (log : List Entry) (plan : Option Xml) (xml : Xml) (before : Serial settings log plan) :
      Serial settings (log ++ [.mission xml]) (some xml)
  | edit (log : List Entry) (active : Xml) (before : Serial settings log (some active)) (r : Request)
      (orchard : Option Orchard) (edit : Edit) (made : applyTaskEdit settings orchard r active = .ok edit) :
      Serial settings (log ++ [.commit (some r) (some (some active)) (.plan edit.candidate)])
        (some (.plan edit.candidate))
  | candidate (log : List Entry) (plan : Option Xml) (before : Serial settings log plan)
      (basis : Option (Option Xml)) (xml : Xml) (compared : ∀ other, basis = some other → other = plan) :
      Serial settings (log ++ [.commit none basis xml]) (some xml)

def Handler.entry (h : Handler) : Entry := .commit h.request h.basis h.candidate

/-- The active plan is what the accepted edits come to, and every request that was
accepted on a plan is one of them. -/
def Serialised (settings : Settings) (s : System) : Prop :=
  Serial settings s.log s.arbiter.activeMissionXml ∧
    ∀ h ∈ s.requests, ∀ verified, h.stage = .answered .accepted verified → h.basis.isSome = true → h.entry ∈ s.log

/-- The handler may still commit. -/
def Stage.undecided : Stage → Bool
  | .counting _ | .publishing _ | .disarming _ _ | .withdrawing _ _ | .answered _ _ => false
  | .recording _ result => result.accepted
  | .returned .accepted | .acting .accepted _ => true
  | .returned _ | .acting _ _ => false
  | _ => true

/-- The handler has read the active plan, and may still commit. -/
def Handler.engaged (h : Handler) : Bool := h.basis.isSome && h.stage.undecided

/-- A candidate is committed, and a mission from elsewhere taken in, only while no
other decision is between reading the plan and its own commit; and a plan that
comes back is the last that was published, or the active one. -/
def Exclusive (s : System) : Event → Prop
  | .mission xml => s.arbiter.publishedXml ≠ some xml → ∀ h ∈ s.requests, h.engaged = false
  | .echo => ∀ xml ∈ s.air.head?, s.arbiter.publishedXml = some xml ∨ s.arbiter.activeMissionXml = some xml
  | .planner _ => s.planner.any Handler.commits = true → ∀ h ∈ s.requests, h.engaged = false
  | .service i _ => s.requests[i]?.any Handler.commits = true →
      s.planner.any Handler.engaged = false ∧ ∀ h ∈ s.requests.eraseIdx i, h.engaged = false
  | _ => True

instance (s : System) : (e : Event) → Decidable (Exclusive s e)
  | .mission xml =>
    inferInstanceAs (Decidable (s.arbiter.publishedXml ≠ some xml → ∀ h ∈ s.requests, h.engaged = false))
  | .echo =>
    inferInstanceAs (Decidable (∀ xml ∈ s.air.head?,
      s.arbiter.publishedXml = some xml ∨ s.arbiter.activeMissionXml = some xml))
  | .planner _ =>
    inferInstanceAs (Decidable (s.planner.any Handler.commits = true → ∀ h ∈ s.requests, h.engaged = false))
  | .service i _ =>
    inferInstanceAs (Decidable (s.requests[i]?.any Handler.commits = true →
      s.planner.any Handler.engaged = false ∧ ∀ h ∈ s.requests.eraseIdx i, h.engaged = false))
  | .candidate _ | .request _ | .orchard _ | .failed _ | .succeeded _ | .completed | .budget _ =>
    inferInstanceAs (Decidable True)

/-- Past its commit, with the answer still to be given or given. -/
def Stage.settled : Stage → Bool
  | .publishing _ | .disarming .accepted _ | .withdrawing .accepted _ | .answered .accepted _ => true
  | _ => false

/-- The candidate is the request's edit of the plan, or the plan waits to be edited. -/
def Handler.Built (settings : Settings) (r : Request) (active : Xml) (h : Handler) : Prop :=
  match h.stage with
  | .editing other => other = active
  | _ => ∃ orchard edit, applyTaskEdit settings orchard r active = .ok edit ∧ h.candidate = .plan edit.candidate

theorem built_iff (settings : Settings) (r : Request) (active : Xml) (h : Handler)
    (other : ∀ active, h.stage ≠ .editing active) :
    h.Built settings r active ↔
      ∃ orchard edit, applyTaskEdit settings orchard r active = .ok edit ∧ h.candidate = .plan edit.candidate := by
  unfold Handler.Built
  split
  · rename_i active stage
    exact absurd stage (other active)
  · rfl

/-- What a handler was built on is the plan, and what it committed is in the log. -/
def Handler.Current (settings : Settings) (plan : Option Xml) (log : List Entry) (h : Handler) : Prop :=
  match h.request with
  | none => ∀ basis, h.engaged = true → h.basis = some basis → basis = plan
  | some r =>
    (h.stage.undecided = true → ∃ active, plan = some active ∧ h.basis = some (some active) ∧
        h.Built settings r active) ∧
      (h.stage.settled = true → h.basis.isSome = true → h.entry ∈ log)

theorem current_other (settings : Settings) (plan other : Option Xml) (log more : List Entry) (h : Handler)
    (current : h.Current settings plan log) (free : h.engaged = false) : h.Current settings other (log ++ more) := by
  unfold Handler.Current at current ⊢
  cases requested : h.request with
  | none =>
    intro basis engaged
    rw [free] at engaged
    cases engaged
  | some r =>
    simp only [requested] at current
    refine ⟨fun undecided => ?_,fun settled read => List.mem_append_left _ (current.2 settled read)⟩
    obtain ⟨active,-,basis,-⟩ := current.1 undecided
    simp [Handler.engaged,basis,undecided] at free

theorem advance_active (settings : Settings) (o : Oracle) (h : Handler) (s : Arbiter) (waits : h.commits = false) :
    (h.advance settings o s).1.activeMissionXml = s.activeMissionXml := by
  obtain ⟨request,candidate,clause,departing,basis,gate,stage⟩ := h
  cases stage with
  | editing active => cases request <;> rfl
  | arming =>
    rw [advance_block _ _ _ _ (by simp)]
    simp only [Handler.block]
    split <;> rfl
  | checking =>
    rw [advance_block _ _ _ _ (by simp)]
    simp only [Handler.block]
    split
    · rfl
    · split <;> rfl
  | acting verdict verified =>
    cases verdict with
    | accepted => cases waits
    | _ => rfl
  | disarming verdict verified =>
    rw [advance_block _ _ _ _ (by simp)]
    simp only [Handler.block]
    split <;> rfl
  | _ => rfl

theorem advance_commits (settings : Settings) (o : Oracle) (h : Handler) (s : Arbiter) (commits : h.commits = true) :
    (h.advance settings o s).1.activeMissionXml = some h.candidate ∧
      (h.advance settings o s).2.entry = h.entry ∧ (h.advance settings o s).2.engaged = false := by
  obtain ⟨request,candidate,clause,departing,basis,gate,stage⟩ := h
  cases stage with
  | acting verdict verified =>
    cases verdict with
    | accepted => exact ⟨rfl,rfl,Bool.and_false _⟩
    | _ => cases commits
  | _ => cases commits

theorem acted (settings : Settings) (o : Oracle) (h : Handler) (s : Arbiter) (commits : h.commits = true) :
    (h.advance settings o s).2.stage.undecided = false := by
  obtain ⟨request,candidate,clause,departing,basis,gate,stage⟩ := h
  cases stage with
  | acting verdict verified =>
    cases verdict with
    | accepted => rfl
    | _ => cases commits
  | _ => cases commits

/-- A block that commits nothing leaves a decision undecided only where it was, and
past its commit only where it was. -/
theorem advance_undecided (settings : Settings) (o : Oracle) (h : Handler) (s : Arbiter) (waits : h.commits = false)
    (other : ∀ active, h.stage ≠ .editing active) :
    ((h.advance settings o s).2.stage.undecided = true → h.stage.undecided = true) ∧
      ((h.advance settings o s).2.stage.settled = true → h.stage.settled = true) := by
  rw [advance_block _ _ _ _ other]
  obtain ⟨request,candidate,clause,departing,basis,gate,stage⟩ := h
  cases stage with
  | editing active => exact absurd rfl (other active)
  | checking =>
    simp only [Handler.block]
    split
    · exact ⟨fun _ => rfl,nofun⟩
    · split <;> exact ⟨fun _ => rfl,nofun⟩
  | comparing active =>
    simp only [Handler.block,Handler.compare]
    split
    · exact ⟨fun _ => rfl,nofun⟩
    · split <;> exact ⟨fun _ => rfl,nofun⟩
  | recording active result =>
    simp only [Handler.block,Handler.gated]
    split
    · exact ⟨nofun,nofun⟩
    · rename_i accepted
      have passed : result.accepted = true := by simpa using accepted
      split <;> exact ⟨fun _ => passed,nofun⟩
  | counting reason => exact ⟨nofun,nofun⟩
  | returned verdict => cases verdict <;> exact ⟨id,nofun⟩
  | acting verdict verified =>
    cases verdict with
    | accepted => cases waits
    | _ => cases request <;> exact ⟨nofun,nofun⟩
  | publishing verified => cases request <;> exact ⟨nofun,fun _ => rfl⟩
  | disarming verdict verified =>
    simp only [Handler.block]
    cases verdict <;> exact ⟨nofun,id⟩
  | withdrawing verdict verified => cases verdict <;> exact ⟨nofun,id⟩
  | answered verdict verified => exact ⟨nofun,id⟩
  | _ => exact ⟨fun _ => rfl,nofun⟩

theorem advance_stage (settings : Settings) (o : Oracle) (h : Handler) (s : Arbiter)
    (other : ∀ active, h.stage ≠ .editing active) : ∀ active, (h.advance settings o s).2.stage ≠ .editing active := by
  rw [advance_block _ _ _ _ other]
  obtain ⟨request,candidate,clause,departing,basis,gate,stage⟩ := h
  cases stage with
  | editing active => exact absurd rfl (other active)
  | checking =>
    simp only [Handler.block]
    split
    · nofun
    · split <;> nofun
  | comparing active =>
    simp only [Handler.block,Handler.compare]
    split
    · nofun
    · split <;> nofun
  | recording active result =>
    simp only [Handler.block,Handler.gated]
    split
    · nofun
    · split <;> nofun
  | acting verdict verified => cases verdict <;> cases request <;> nofun
  | publishing verified => cases request <;> nofun
  | disarming verdict verified =>
    simp only [Handler.block]
    split <;> nofun
  | _ => nofun

theorem advance_basis (settings : Settings) (o : Oracle) (h : Handler) (s : Arbiter) :
    (h.advance settings o s).2.basis = h.reads s := by
  unfold Handler.advance
  split
  · rename_i active r editing _
    unfold Handler.edit Handler.reads
    rw [editing]
    split <;> rfl
  · rfl

theorem reads_other (h : Handler) (s : Arbiter) (other : h.request.isSome = true ∨ h.stage ≠ .reading) :
    h.reads s = h.basis := by
  unfold Handler.reads
  split
  · rename_i reading none
    rw [none] at other
    exact absurd reading (other.resolve_left (by simp))
  · rfl

theorem current_waits (settings : Settings) (o : Oracle) (h : Handler) (s : Arbiter) (log : List Entry)
    (current : h.Current settings s.activeMissionXml log) (waits : h.commits = false) :
    (h.advance settings o s).2.Current settings s.activeMissionXml log := by
  unfold Handler.Current at current ⊢
  rw [advance_request,advance_basis]
  cases requested : h.request with
  | none =>
    simp only [requested] at current ⊢
    intro basis engaged read
    by_cases reading : h.stage = .reading
    · simp only [Handler.reads,reading,requested] at read
      exact (Option.some.inj read).symm
    · rw [reads_other h s (.inr reading)] at read
      refine current basis ?_ read
      simp only [Handler.engaged,Bool.and_eq_true] at engaged ⊢
      refine ⟨by simp [read],?_⟩
      by_cases editing : ∃ active, h.stage = .editing active
      · obtain ⟨active,stage⟩ := editing
        rw [stage]
        rfl
      · exact (advance_undecided settings o h s waits (fun active same => editing ⟨active,same⟩)).1 engaged.2
  | some r =>
    simp only [requested] at current ⊢
    rw [reads_other h s (.inl (by simp [requested]))]
    by_cases editing : ∃ active, h.stage = .editing active
    · obtain ⟨active,stage⟩ := editing
      obtain ⟨held,plan,basis,built⟩ := current.1 (by rw [stage]; rfl)
      have advanced : h.advance settings o s = (s,h.edit settings s r active) := by
        simp only [Handler.advance,stage,requested]
      rw [advanced]
      unfold Handler.edit
      split
      · exact ⟨nofun,nofun⟩
      · rename_i edit made
        obtain rfl : active = held := by simpa [Handler.Built,stage] using built
        exact ⟨fun _ => ⟨active,plan,basis,s.orchard,edit,made,rfl⟩,nofun⟩
    · have other : ∀ active, h.stage ≠ .editing active := fun active same => editing ⟨active,same⟩
      have moved := advance_undecided settings o h s waits other
      refine ⟨fun undecided => ?_,fun settled read => ?_⟩
      · obtain ⟨active,plan,basis,built⟩ := current.1 (moved.1 undecided)
        refine ⟨active,plan,basis,(built_iff _ _ _ _ ?_).mpr ?_⟩
        · exact advance_stage settings o h s other
        · rw [advance_block _ _ _ _ other]
          exact (built_iff _ _ _ _ other).mp built
      · have kept := current.2 (moved.2 settled) read
        rw [advance_block _ _ _ _ other]
        unfold Handler.entry at kept ⊢
        rwa [show h.reads s = h.basis from reads_other h s (.inl (by simp [requested]))]

theorem current_commits (settings : Settings) (h : Handler) (plan : Option Xml) (log : List Entry)
    (current : h.Current settings plan log) (serial : Serial settings log plan) (commits : h.commits = true) :
    Serial settings (log ++ [h.entry]) (some h.candidate) := by
  have undecided : h.stage.undecided = true := by
    obtain ⟨request,candidate,clause,departing,basis,gate,stage⟩ := h
    cases stage with
    | acting verdict verified =>
      cases verdict with
      | accepted => rfl
      | _ => cases commits
    | _ => cases commits
  have acting : ∀ active, h.stage ≠ .editing active := by
    intro active stage
    simp [Handler.commits,stage] at commits
  unfold Handler.Current at current
  unfold Handler.entry
  cases requested : h.request with
  | none =>
    simp only [requested] at current
    refine .candidate log plan serial h.basis h.candidate (fun other read => current other ?_ read)
    simp [Handler.engaged,undecided,read]
  | some r =>
    simp only [requested] at current
    obtain ⟨active,rfl,basis,built⟩ := current.1 undecided
    obtain ⟨orchard,edit,made,candidate⟩ := (built_iff _ _ _ _ acting).mp built
    rw [basis,candidate]
    exact .edit log active serial r orchard edit made

/-- The log comes to the active plan, and every handler stands on it. -/
structure Tracked (settings : Settings) (s : System) : Prop where
  serial : Serial settings s.log s.arbiter.activeMissionXml
  planner : ∀ h, s.planner = some h → h.request = none ∧ h.Current settings s.arbiter.activeMissionXml s.log
  requests : ∀ h ∈ s.requests, h.request.isSome = true ∧ h.Current settings s.arbiter.activeMissionXml s.log

namespace Tracked
variable {settings : Settings} {s after : System}

theorem same (tracked : Tracked settings s) (active : after.arbiter.activeMissionXml = s.arbiter.activeMissionXml)
    (log : after.log = s.log) (planner : after.planner = s.planner) (requests : after.requests = s.requests) :
    Tracked settings after where
  serial := by
    rw [log,active]
    exact tracked.serial
  planner := by
    rw [log,active,planner]
    exact tracked.planner
  requests := by
    rw [log,active,requests]
    exact tracked.requests

/-- One block of a handler, where nobody it would overtake is engaged. -/
theorem run (tracked : Tracked settings s) (o : Oracle) (h : Handler)
    (current : h.Current settings s.arbiter.activeMissionXml s.log) :
    Serial settings (s.run settings o h).1.log (s.run settings o h).1.arbiter.activeMissionXml ∧
      (s.run settings o h).2.Current settings (s.run settings o h).1.arbiter.activeMissionXml
        (s.run settings o h).1.log ∧
      ∀ k : Handler, k.Current settings s.arbiter.activeMissionXml s.log →
        (h.commits = true → k.engaged = false) →
        k.Current settings (s.run settings o h).1.arbiter.activeMissionXml (s.run settings o h).1.log := by
  cases commits : h.commits with
  | true =>
    obtain ⟨active,entry,free⟩ := advance_commits settings o h s.arbiter commits
    have held : (s.run settings o h).1.arbiter.activeMissionXml = some h.candidate := active
    have log : (s.run settings o h).1.log = s.log ++ [h.entry] := by simp [System.run,commits,Handler.entry]
    rw [held,log]
    refine ⟨current_commits settings h _ s.log current tracked.serial commits,?_,fun k current free => ?_⟩
    · unfold Handler.Current
      have request : (s.run settings o h).2.request = h.request := advance_request settings o h s.arbiter
      rw [request]
      cases h.request with
      | none =>
        intro basis engaged
        rw [show (s.run settings o h).2.engaged = false from free] at engaged
        cases engaged
      | some r =>
        refine ⟨fun undecided => ?_,fun _ _ => ?_⟩
        · rw [show (s.run settings o h).2.stage.undecided = false from acted settings o h s.arbiter commits] at undecided
          cases undecided
        · rw [show (s.run settings o h).2.entry = h.entry from entry]
          simp
    · exact current_other settings _ _ s.log [h.entry] k current (free rfl)
  | false =>
    have active : (s.run settings o h).1.arbiter.activeMissionXml = s.arbiter.activeMissionXml :=
      advance_active settings o h s.arbiter commits
    have log : (s.run settings o h).1.log = s.log := by simp [System.run,commits]
    rw [active,log]
    exact ⟨tracked.serial,current_waits settings o h s.arbiter s.log current commits,fun k current _ => current⟩

end Tracked

theorem next_tracked (settings : Settings) (s : System) (e : Event) (tracked : Tracked settings s)
    (enabled : s.enabled e) (exclusive : Exclusive s e) : Tracked settings (s.next settings e) := by
  cases e with
  | mission xml =>
    by_cases known : s.arbiter.publishedXml = some xml
    · refine tracked.same ?_ (by simp [System.next,known]) rfl rfl
      exact (onMission_active _ _).trans (if_pos known)
    · have active : (s.next settings (.mission xml)).arbiter.activeMissionXml = some xml :=
        (onMission_active _ _).trans (if_neg known)
      have log : (s.next settings (.mission xml)).log = s.log ++ [.mission xml] := by simp [System.next,known]
      refine ⟨?_,?_,?_⟩
      · rw [active,log]
        exact .mission _ _ _ tracked.serial
      · intro h mine
        have free : s.planner = none := by
          simp only [System.enabled,System.idle,Bool.and_eq_true,Option.isNone_iff_eq_none] at enabled
          exact enabled.1
        rw [show (s.next settings (.mission xml)).planner = s.planner from rfl,free] at mine
        cases mine
      · intro h member
        obtain ⟨requested,current⟩ := tracked.requests h member
        rw [active,log]
        exact ⟨requested,current_other settings _ _ s.log _ h current (exclusive known h member)⟩
  | echo =>
    cases air : s.air with
    | nil => exact absurd air enabled.2
    | cons xml rest =>
      rw [next_echo settings s xml rest air]
      refine tracked.same ?_ rfl rfl rfl
      refine (onMission_active _ _).trans ?_
      split
      · rfl
      · rename_i other
        have known : s.arbiter.publishedXml = some xml ∨ s.arbiter.activeMissionXml = some xml :=
          exclusive xml (by simp [air])
        exact (known.resolve_left other).symm
  | candidate xml =>
    refine ⟨tracked.serial,?_,tracked.requests⟩
    rintro h ⟨⟩
    exact ⟨rfl,fun basis _ read => by cases read⟩
  | request r =>
    refine ⟨tracked.serial,tracked.planner,?_⟩
    intro h member
    obtain member | rfl := List.mem_append.mp member |>.imp_right List.mem_singleton.mp
    · exact tracked.requests h member
    · unfold Handler.verifyReplan
      split
      · rename_i active held
        split
        · exact ⟨rfl,by simp [Stage.undecided],by simp [Stage.settled]⟩
        · exact ⟨rfl,fun _ => ⟨active,held,rfl,rfl⟩,by simp [Stage.settled]⟩
      · exact ⟨rfl,by simp [Stage.undecided],by simp [Stage.settled]⟩
  | planner o =>
    cases mine : s.planner with
    | none => simpa [System.next,mine] using tracked
    | some h =>
      rw [next_planner settings s o h mine]
      obtain ⟨planned,current⟩ := tracked.planner h mine
      obtain ⟨serial,after,others⟩ := tracked.run o h current
      refine ⟨serial,?_,?_⟩
      · intro k found
        simp only at found
        split at found
        · obtain rfl := Option.some.inj found
          exact ⟨(advance_request settings o h s.arbiter).trans planned,after⟩
        · cases found
      · intro k member
        obtain ⟨requested,current⟩ := tracked.requests k member
        refine ⟨requested,others k current (fun commits => exclusive ?_ k member)⟩
        simp [mine,commits]
  | service i o =>
    cases mine : s.requests[i]? with
    | none => simpa [System.next,mine] using tracked
    | some h =>
      rw [next_service settings s i o h mine]
      obtain ⟨requested,current⟩ := tracked.requests h (List.mem_of_getElem? mine)
      obtain ⟨serial,after,others⟩ := tracked.run o h current
      have alone (commits : h.commits = true) : s.planner.any Handler.engaged = false ∧
          ∀ k ∈ s.requests.eraseIdx i, k.engaged = false := exclusive (by simp [mine,commits])
      refine ⟨serial,?_,?_⟩
      · intro k found
        obtain ⟨planned,current⟩ := tracked.planner k found
        refine ⟨planned,others k current (fun commits => ?_)⟩
        have free := (alone commits).1
        rw [show s.planner = some k from found] at free
        exact free
      · intro k member
        obtain ⟨j,found⟩ := List.mem_iff_getElem?.mp member
        obtain ⟨-,rfl⟩ | ⟨other,found⟩ := set_placed _ _ _ j k found
        · exact ⟨(congrArg Option.isSome (advance_request settings o h s.arbiter)).trans requested,after⟩
        · obtain ⟨asked,current⟩ := tracked.requests k (List.mem_of_getElem? found)
          refine ⟨asked,others k current (fun commits => (alone commits).2 k ?_)⟩
          exact List.mem_eraseIdx_iff_getElem?.mpr ⟨j,other,found⟩
  | orchard map =>
    simp only [System.next]
    split
    · exact tracked
    · exact tracked.same rfl rfl rfl rfl
  | failed reason => exact tracked.same rfl rfl rfl rfl
  | succeeded node => exact tracked.same rfl rfl rfl rfl
  | completed =>
    simp only [System.next]
    split
    · exact tracked
    · exact tracked.same rfl rfl rfl rfl
  | budget answer =>
    simp only [System.next]
    split
    · exact tracked
    · exact tracked.same rfl rfl rfl rfl

theorem edits_serialised (settings : Settings) (s : System) (reached : (machine settings).Reaches Exclusive s) :
    Serialised settings s := by
  have tracked : Tracked settings s := by
    refine reached.invariant (Tracked settings) ?_ ?_
    · rintro _ rfl
      exact ⟨.start,by simp,by simp⟩
    · intro s e _ tracked enabled exclusive
      exact next_tracked settings s e tracked enabled exclusive
  refine ⟨tracked.serial,fun h member verified stage read => ?_⟩
  obtain ⟨requested,current⟩ := tracked.requests h member
  obtain ⟨r,request⟩ := Option.isSome_iff_exists.mp requested
  simp only [Handler.Current,request] at current
  exact current.2 (by rw [stage]; rfl) read

def Xml.taskIds : Xml → List Nat
  | .malformed _ => []
  | .plan d => (located noFix.fix d.tree).units.map (fun unit => unit.task.taskId)

def Entry.plan : Entry → Xml
  | .mission xml => xml
  | .commit _ _ xml => xml

/-- A log decides its plan. -/
theorem Serial.last {settings : Settings} {log : List Entry} {plan : Option Xml} (serial : Serial settings log plan) :
    plan = log.getLast?.map Entry.plan := by
  cases serial with
  | start => rfl
  | mission log plan xml before => simp [Entry.plan]
  | edit log active before r orchard edit made => simp [Entry.plan]
  | candidate log plan before basis xml compared => simp [Entry.plan]

/-- The last commit was not built on the plan before it. -/
def overtaken (log : List Entry) : Bool :=
  match log.getLast? with
  | some (.commit _ (some basis) _) => basis ≠ log.dropLast.getLast?.map Entry.plan
  | _ => false

theorem Serial.current {settings : Settings} {log : List Entry} {plan : Option Xml} (serial : Serial settings log plan) :
    overtaken log = false := by
  unfold overtaken
  cases serial with
  | start => rfl
  | mission log plan xml before => simp
  | edit log active before r orchard edit made => simp [← before.last]
  | candidate log plan before basis xml compared =>
    cases basis with
    | none => simp
    | some other => simp [← before.last,compared other rfl]

/-- Two trees are shed at once: each request edits the plan that holds both. -/
def shedBoth : List Event :=
  [.mission (.plan twoTrees),.request (shed 10),.request (shed 60)] ++ serve 0 13 10 ++ serve 1 13 20

/-- A candidate compared before a tree is shed, and accepted after it. -/
def shedUnder : List Event :=
  [.mission (.plan twoTrees),.candidate (.plan twoTrees)] ++ plan 3 10 ++ [.request (shed 10)] ++ serve 0 13 10 ++
    plan 6 20

/-- The request that shed tree 10 was accepted, and the tree is in the plan. -/
def Lingers (run : List Event) : Prop :=
  (machine noFix).Reachable ((machine noFix).runs {} run) ∧
    (((machine noFix).runs {} run).requests.all (fun h => h.stage = .answered .accepted false) = true ∧
      10 ∈ (((machine noFix).runs {} run).arbiter.activeMissionXml.map Xml.taskIds).getD []) ∧
    ¬Serialised noFix ((machine noFix).runs {} run)

theorem shed_returns : Lingers shedBoth ∧ Lingers shedUnder := by
  have follows : ∀ run ∈ [shedBoth,shedUnder], (machine noFix).Follows (fun _ _ => True) {} run := by
    decide +kernel
  have kept : ∀ run ∈ [shedBoth,shedUnder],
      ((machine noFix).runs {} run).requests.all (fun h => h.stage = .answered .accepted false) = true ∧
        10 ∈ (((machine noFix).runs {} run).arbiter.activeMissionXml.map Xml.taskIds).getD [] := by
    decide +kernel
  have late : ∀ run ∈ [shedBoth,shedUnder], overtaken ((machine noFix).runs {} run).log = true := by
    decide +kernel
  have lingers : ∀ run ∈ [shedBoth,shedUnder], Lingers run := by
    intro run member
    refine ⟨(machine noFix).reaches_runs _ {} run (.start _ rfl) (follows run member),kept run member,?_⟩
    intro serialised
    have current := serialised.1.current
    rw [late run member] at current
    cases current
  exact ⟨lingers shedBoth (by simp),lingers shedUnder (by simp)⟩

/-- The two trees shed one after the other. -/
def shedInTurn : List Event :=
  [.mission (.plan twoTrees),.request (shed 10)] ++ serve 0 13 10 ++ [.echo,.request (shed 60)] ++ serve 1 13 20

theorem shedInTurn_serialised :
    Serialised noFix ((machine noFix).runs {} shedInTurn) ∧
      ((machine noFix).runs {} shedInTurn).arbiter.activeMissionXml.map Xml.taskIds = some [] :=
  ⟨edits_serialised noFix _ ((machine noFix).reaches_runs _ {} shedInTurn (.start _ rfl) (by decide +kernel)),
    by decide +kernel⟩

end AmigaFleet.Replanning
