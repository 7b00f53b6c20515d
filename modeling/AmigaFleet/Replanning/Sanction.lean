import AmigaFleet.Replanning.Decisions

/-! What the text of the mission is graded against, and who may extend it. -/
namespace AmigaFleet.Replanning
open Lib AmigaFleet.Mission

/-- The clause that the request brings when it is carried out. -/
def Request.clause (r : Request) : String := if r.removing then "" else (r.task.map missionClause).getD ""

/-- The text with the clauses, in order. -/
def grown (d : Document) (clauses : List String) : String := clauses.foldl extend (missionText d)

/-- The request was turned down as a rewrite of the text. -/
def Handler.rewrote (h : Handler) : Prop :=
  match h.stage with
  | .answered (.refused (.rewritten _ _)) _ => True
  | _ => False

def Stage.rewrites : Stage → Bool
  | .answered (.refused (.rewritten _ _)) _ => true
  | _ => false

theorem Handler.rewrites_iff (h : Handler) : h.stage.rewrites = true ↔ h.rewrote := by
  unfold Stage.rewrites rewrote
  split <;> simp

instance (h : Handler) : Decidable h.rewrote := decidable_of_iff _ (Handler.rewrites_iff h)

/-- The text of the active plan is the first mission's, followed by the clauses of
the absorptions accepted since, and no absorption was turned down as a rewrite. -/
def Sanctioned (s : System) : Prop :=
  (∀ first, s.first = some (.plan first) →
    ∃ active, s.arbiter.activeMissionXml = some (.plan active) ∧ missionText active = grown first s.absorbed) ∧
  ∀ h ∈ s.requests, ∀ r, h.request = some r → r.removing = false → ¬h.rewrote

/-- The first mission is a plan, and no mission from elsewhere follows it. -/
def Foreign (s : System) : Event → Prop
  | .mission (.plan _) => s.first = none
  | .mission (.malformed _) => False
  | _ => True

def Handler.brings (h : Handler) : Bool := h.request.any (fun r => r.clause ≠ "")

/-- A request that brings a clause is being handled. -/
def Bringing (s : System) : Prop := ∃ h ∈ s.requests, h.live = true ∧ h.brings = true

def titled : Option Xml → Bool
  | some (.plan d) => d.mission.isSome
  | _ => true

/-- Candidates and requests come once the first mission has. One that brings a
clause is handled on its own: nothing else is in hand when it comes or comes
while it is, every plan that was published has come back, and the plan it
edits has a `Mission` to extend. -/
def Alone (s : System) : Event → Prop
  | .candidate _ => s.first.isSome = true ∧ ¬Bringing s
  | .request r =>
    s.first.isSome = true ∧ ¬Bringing s ∧ (r.clause ≠ "" →
      s.planner.isNone = true ∧ (∀ h ∈ s.requests, h.live = false) ∧ s.air = [] ∧
        titled s.arbiter.activeMissionXml = true)
  | _ => True

instance (s : System) : Decidable (Bringing s) := by unfold Bringing; infer_instance

instance (s : System) : (e : Event) → Decidable (Foreign s e)
  | .mission (.plan _) => inferInstanceAs (Decidable (s.first = none))
  | .mission (.malformed _) => inferInstanceAs (Decidable False)
  | .echo | .candidate _ | .request _ | .planner _ | .service _ _ | .orchard _ | .failed _ | .succeeded _
  | .completed | .budget _ => inferInstanceAs (Decidable True)

instance (s : System) : (e : Event) → Decidable (Alone s e)
  | .candidate _ => inferInstanceAs (Decidable (s.first.isSome = true ∧ ¬Bringing s))
  | .request r =>
    inferInstanceAs (Decidable (s.first.isSome = true ∧ ¬Bringing s ∧ (r.clause ≠ "" →
      s.planner.isNone = true ∧ (∀ h ∈ s.requests, h.live = false) ∧ s.air = [] ∧
        titled s.arbiter.activeMissionXml = true)))
  | .mission _ | .echo | .planner _ | .service _ _ | .orchard _ | .failed _ | .succeeded _ | .completed
  | .budget _ => inferInstanceAs (Decidable True)

/-- The text with the clause that the handler's request brings. -/
def carried (text clause : String) : String := if clause = "" then text else extend text clause

@[simp] theorem carried_empty (text : String) : carried text "" = text := rfl

theorem grown_append (d : Document) (clauses : List String) (clause : String) (some : clause ≠ "") :
    grown d (clauses ++ [clause]) = carried (grown d clauses) clause := by
  simp [grown,carried,some,List.foldl_append]

theorem missionClause_trimmed (task : MissionTask) : Text.Trimmed (missionClause task) := by
  unfold missionClause
  split
  · exact ⟨by simp,by simp⟩
  · split
    · exact Text.numbered_trimmed "sample leaves from tree" _ (Text.trimmed_of _ _ _ rfl rfl rfl rfl) (by decide)
    · exact Text.numbered_trimmed "visit tree" _ (Text.trimmed_of _ _ _ rfl rfl rfl rfl) (by decide)

theorem extend_trimmed (text clause : String) (start : Text.Trimmed text) (stop : Text.Trimmed clause)
    (some : clause ≠ "") : Text.Trimmed (extend text clause) := by
  unfold extend
  split
  · exact stop
  · rename_i more
    exact Text.trimmed_between text "; " clause start stop more some

/-- The two ways of extending a text come to one. -/
theorem missionText_extend (d : Document) (clause : String) (titled : d.mission.isSome = true)
    (trimmed : Text.Trimmed clause) (some : clause ≠ "") :
    missionText (extendMissionText d clause) = extend (missionText d) clause := by
  obtain ⟨text,mission⟩ := Option.isSome_iff_exists.mp titled
  have whole : missionText (extendMissionText d clause) = Text.strip (extend (Text.strip text) clause) := by
    simp [missionText,extendMissionText,mission]
  rw [whole,missionText,mission]
  exact Text.strip_of_trimmed _ (extend_trimmed _ _ (Text.strip_trimmed text) trimmed some)

/-- What an edit that goes through does to the text. -/
structure Edited (r : Request) (active : Xml) (edit : Edit) : Prop where
  clause : edit.clause = r.clause
  trimmed : Text.Trimmed edit.clause
  text : ∀ d, active = .plan d → r.clause = "" ∨ d.mission.isSome = true →
    missionText edit.candidate = carried (missionText d) edit.clause

theorem removal_edited (settings : Settings) (r : Request) (active : Xml) (edit : Edit) (removing : r.removing = true)
    (ok : removal settings r active = .ok edit) : Edited r active edit := by
  unfold removal at ok
  split at ok
  · cases ok
  split at ok
  · cases ok
  · cases ok
  · rename_i d _ tree _
    obtain rfl := Except.ok.inj ok
    refine ⟨by simp [Request.clause,removing],⟨by simp,by simp⟩,?_⟩
    rintro _ ⟨⟩ -
    rfl

theorem rebuild_clause (settings : Settings) (orchard : Option Orchard) (r : Request) (task : MissionTask)
    (result : MissionTask × List String) (ok : rebuild settings orchard r task = .ok result) :
    missionClause result.1 = missionClause task := by
  unfold rebuild at ok
  split at ok
  · obtain rfl := Except.ok.inj ok
    rfl
  split at ok
  · obtain rfl := Except.ok.inj ok
    rfl
  · cases ok

theorem absorption_edited (settings : Settings) (orchard : Option Orchard) (r : Request) (active : Xml) (edit : Edit)
    (adding : r.removing = false) (ok : absorption settings orchard r active = .ok edit) :
    Edited r active edit := by
  unfold absorption at ok
  simp only at ok
  split at ok
  · cases ok
  rename_i task named
  split at ok
  · cases ok
  · cases ok
  rename_i rebuilt dropped d built
  have clause : missionClause rebuilt = r.clause := by
    rw [rebuild_clause _ _ _ _ _ built]
    simp [Request.clause,adding,named]
  split at ok
  · cases ok
  rename_i tree grafted
  obtain rfl := Except.ok.inj ok
  refine ⟨clause,missionClause_trimmed rebuilt,?_⟩
  rintro _ ⟨⟩ titled
  by_cases none : missionClause rebuilt = ""
  · simp only [none,if_true,carried_empty]
    rfl
  · rw [if_neg none,carried,if_neg none]
    have some : d.mission.isSome = true := titled.resolve_left (clause ▸ none)
    exact missionText_extend { d with tree := tree } _ some (missionClause_trimmed rebuilt) none

theorem applyTaskEdit_edited (settings : Settings) (orchard : Option Orchard) (r : Request) (active : Xml) (edit : Edit)
    (ok : applyTaskEdit settings orchard r active = .ok edit) : Edited r active edit := by
  unfold applyTaskEdit at ok
  split at ok
  · rename_i removing
    exact removal_edited _ _ _ _ removing ok
  · rename_i adding
    exact absorption_edited _ _ _ _ _ (by simpa using adding) ok

def Xml.Says (xml : Xml) (text : String) : Prop := ∃ d, xml = .plan d ∧ missionText d = text

theorem Xml.Says.text {xml : Xml} {text : String} (spoken : xml.Says text) : xml.text = text := by
  obtain ⟨d,rfl,same⟩ := spoken
  exact same

def Reason.rewrites : Reason → Bool
  | .rewritten _ _ => true
  | _ => false

def Verdict.rewrites : Verdict → Bool
  | .accepted => false
  | .refused reason => reason.rewrites
  | .aborted reason => reason.rewrites

/-- What checks 1 to 4 turn down, they do not call a rewrite. -/
theorem structural_rewrites (settings : Settings) (schema : Option String) (s : Arbiter) (xml : Xml) (verdict : Verdict)
    (found : s.structural settings schema xml = some verdict) : verdict.rewrites = false ∧ verdict ≠ .accepted := by
  obtain ⟨reason,rfl,faithful⟩ | ⟨_,_,rfl⟩ := structural_cases settings schema s xml verdict found
  · refine ⟨?_,by simp⟩
    cases reason with
    | rewritten expected got => exact absurd rfl (faithful expected got)
    | _ => rfl
  · exact ⟨rfl,by simp⟩

theorem structural_plan (settings : Settings) (schema : Option String) (s : Arbiter) (xml : Xml)
    (passed : s.structural settings schema xml = none) : ∃ d, xml = .plan d := by
  cases xml with
  | malformed text => cases passed
  | plan d => exact ⟨d,rfl⟩

theorem judged_rewrites (outcome : Outcome) : (judged outcome).reason.rewrites = false := by
  cases outcome <;> rfl

/-- The text that the handler has the gate allow. -/
def Handler.sanction (h : Handler) : String := if h.stage.armed then h.clause else ""

/-- Where a handler stands when the text of the active plan is as given. -/
def Handler.Fits (text : String) (h : Handler) : Prop :=
  let built := h.request.isSome = true → h.candidate.Says (carried text h.clause)
  let faithful (reason : Reason) : Prop := h.request.isSome = true → reason.rewrites = false
  match h.stage with
  | .editing active =>
    active.Says text ∧ h.clause = "" ∧ ∀ r, h.request = some r → r.clause ≠ "" → titled (some active) = true
  | .arming => built ∧ Text.Trimmed h.clause
  | .justifying | .clearing | .checking => built
  | .reading => built ∧ ∃ d, h.candidate = .plan d
  | .comparing active => (built ∧ ∃ d, h.candidate = .plan d) ∧ ∃ xml, active = some xml ∧ xml.Says text
  | .judging _ | .limiting => h.candidate.Says (carried text h.clause)
  | .recording _ result =>
    (result.accepted = true → h.candidate.Says (carried text h.clause)) ∧ faithful result.reason
  | .counting reason => faithful reason
  | .returned verdict | .acting verdict _ =>
    (verdict = .accepted → h.candidate.Says (carried text h.clause)) ∧ (h.request.isSome = true → verdict.rewrites = false)
  | .publishing _ => h.candidate.Says text
  | .disarming verdict _ | .withdrawing verdict _ | .answered verdict _ =>
    h.request.isSome = true → verdict.rewrites = false

theorem fits_answered (text other : String) (h : Handler) (past : h.live = false) (fits : h.Fits text) : h.Fits other := by
  obtain ⟨request,candidate,clause,departing,basis,gate,stage⟩ := h
  cases stage with
  | answered verdict verified => exact fits
  | _ => cases past

/-- A candidate built on the text is let through where it carries what is allowed. -/
theorem textUnchanged_carried (text clause : String) (candidate active : Xml) (built : candidate.Says (carried text clause))
    (same : active.Says text) : textUnchanged candidate.text (some active) clause = none := by
  obtain ⟨d,rfl,spoken⟩ := same
  rw [built.text,textUnchanged,spoken]
  by_cases none : clause = ""
  · simp [none]
  · simp [carried,none]

/-- What is let through with nothing allowed has the text unchanged. -/
theorem textUnchanged_same (text : String) (d : Document) (active : Xml) (same : active.Says text)
    (passed : textUnchanged (missionText d) (some active) "" = none) : missionText d = text := by
  obtain ⟨e,rfl,spoken⟩ := same
  rw [textUnchanged,spoken] at passed
  by_contra other
  simp [other] at passed

theorem removal_faithful (settings : Settings) (r : Request) (active : Xml) (reason : Reason)
    (failed : removal settings r active = .error reason) : reason.rewrites = false := by
  unfold removal at failed
  simp only at failed
  split at failed
  · obtain rfl := Except.error.inj failed
    rfl
  split at failed
  · obtain rfl := Except.error.inj failed
    rfl
  · obtain rfl := Except.error.inj failed
    rfl
  · cases failed

theorem rebuild_faithful (settings : Settings) (orchard : Option Orchard) (r : Request) (task : MissionTask)
    (reason : Reason) (failed : rebuild settings orchard r task = .error reason) : reason.rewrites = false := by
  unfold rebuild at failed
  split at failed
  · cases failed
  split at failed
  · cases failed
  · obtain rfl := Except.error.inj failed
    rfl

theorem absorption_faithful (settings : Settings) (orchard : Option Orchard) (r : Request) (active : Xml)
    (reason : Reason) (failed : absorption settings orchard r active = .error reason) : reason.rewrites = false := by
  unfold absorption at failed
  simp only at failed
  split at failed
  · obtain rfl := Except.error.inj failed
    rfl
  split at failed
  · rename_i ungrafted
    obtain rfl := Except.error.inj failed
    exact rebuild_faithful _ _ _ _ _ ungrafted
  · obtain rfl := Except.error.inj failed
    rfl
  split at failed
  · obtain rfl := Except.error.inj failed
    rfl
  · cases failed

theorem applyTaskEdit_faithful (settings : Settings) (orchard : Option Orchard) (r : Request) (active : Xml)
    (reason : Reason) (failed : applyTaskEdit settings orchard r active = .error reason) :
    reason.rewrites = false := by
  unfold applyTaskEdit at failed
  split at failed
  · exact removal_faithful _ _ _ _ failed
  · exact absorption_faithful _ _ _ _ _ failed

theorem decided_fits (text : String) (h : Handler) (verdict : Verdict) (verified : Bool)
    (faithful : h.request.isSome = true → verdict.rewrites = false) :
    ({ h with stage := h.decided verdict verified } : Handler).Fits text := by
  obtain ⟨request,candidate,clause,departing,basis,gate,stage⟩ := h
  cases request <;> exact faithful

theorem decided_sanction (h : Handler) (verdict : Verdict) (verified : Bool) (armed : h.stage.armed = true)
    (alone : h.request = none → h.clause = "") :
    ({ h with stage := h.decided verdict verified } : Handler).sanction = h.sanction := by
  obtain ⟨request,candidate,clause,departing,basis,gate,stage⟩ := h
  cases request with
  | none =>
    obtain rfl : clause = "" := alone rfl
    simp only [Handler.sanction,ite_self]
  | some r => exact (if_pos (show stage.armed = true from armed)).symm

/-- What one block that commits nothing keeps. -/
structure Kept (text : String) (s after : Arbiter) (h : Handler) : Prop where
  active : after.activeMissionXml = s.activeMissionXml
  fits : h.Fits text
  allowed : after.appendix = h.sanction

theorem edit_kept (settings : Settings) (h : Handler) (s : Arbiter) (text : String) (r : Request) (active : Xml)
    (allowed : s.appendix = "") (same : active.Says text)
    (mission : r.clause ≠ "" → titled (some active) = true) : Kept text s s (h.edit settings s r active) := by
  unfold Handler.edit
  split
  · rename_i reason failed
    refine ⟨rfl,fun _ => ?_,allowed⟩
    exact applyTaskEdit_faithful _ _ _ _ _ failed
  · rename_i edit ok
    have edited := applyTaskEdit_edited _ _ _ _ _ ok
    refine ⟨rfl,⟨fun _ => ?_,edited.trimmed⟩,allowed⟩
    obtain ⟨d,rfl,spoken⟩ := same
    refine ⟨edit.candidate,rfl,?_⟩
    rw [edited.text d rfl,spoken]
    by_cases none : r.clause = ""
    · exact .inl none
    · exact .inr (mission none)

theorem advance_kept (settings : Settings) (ltl : settings.ltlVerification = true) (o : Oracle) (h : Handler)
    (s : Arbiter) (text : String) (fits : h.Fits text)
    (active : ∃ xml, s.activeMissionXml = some xml ∧ xml.Says text) (allowed : s.appendix = h.sanction)
    (alone : h.request = none → h.clause = "") (waits : h.commits = false) :
    Kept text s (h.advance settings o s).1 (h.advance settings o s).2 := by
  obtain ⟨request,candidate,clause,departing,basis,gate,stage⟩ := h
  cases stage with
  | editing active =>
    cases request with
    | none => exact ⟨rfl,fits,allowed⟩
    | some r => exact edit_kept settings _ s text r active allowed fits.1 (fits.2.2 r rfl)
  | arming =>
    rw [advance_block _ _ _ _ (by simp)]
    refine ⟨by simp [Handler.block,ltl,Arbiter.allowMissionText],fits.1,?_⟩
    simpa [Handler.block,ltl,Arbiter.allowMissionText,Handler.sanction,Stage.armed] using
      Text.strip_of_trimmed clause fits.2
  | justifying => exact ⟨rfl,fits,allowed⟩
  | clearing => exact ⟨rfl,fits,allowed⟩
  | checking =>
    rw [advance_block _ _ _ _ (by simp)]
    simp only [Handler.block]
    split
    · rename_i verdict found
      have sound := structural_rewrites _ _ _ _ _ found
      exact ⟨rfl,⟨fun accepted => absurd accepted sound.2,fun _ => sound.1⟩,allowed⟩
    · rename_i passed
      rw [if_pos ltl]
      exact ⟨rfl,⟨fits,structural_plan _ _ _ _ passed⟩,allowed⟩
  | reading => exact ⟨rfl,⟨fits,active⟩,allowed⟩
  | comparing against =>
    obtain ⟨⟨built,d,rfl⟩,xml,rfl,same⟩ := fits
    rw [advance_block _ _ _ _ (by simp)]
    simp only [Handler.block,Handler.compare]
    have passes : request.isSome = true →
        textUnchanged (Xml.plan d).text (some xml) s.appendix = none := by
      intro requested
      rw [allowed]
      exact textUnchanged_carried _ _ _ _ (built requested) same
    have carries (passed : textUnchanged (Xml.plan d).text (some xml) s.appendix = none) :
        (Xml.plan d).Says (carried text clause) := by
      cases request with
      | some r => exact built rfl
      | none =>
        obtain rfl : clause = "" := alone rfl
        rw [show s.appendix = "" from allowed] at passed
        exact ⟨d,rfl,textUnchanged_same _ _ _ same passed⟩
    split
    · rename_i reason refused
      refine ⟨rfl,⟨by simp,fun requested => ?_⟩,allowed⟩
      rw [passes requested] at refused
      cases refused
    · rename_i passed
      split
      · exact ⟨rfl,⟨fun _ => carries passed,fun _ => rfl⟩,allowed⟩
      · exact ⟨rfl,carries passed,allowed⟩
  | judging active => exact ⟨rfl,⟨fun _ => fits,fun _ => judged_rewrites _⟩,allowed⟩
  | recording active result =>
    rw [advance_block _ _ _ _ (by simp)]
    simp only [Handler.block,Handler.gated]
    split
    · exact ⟨rfl,fits.2,allowed⟩
    · rename_i accepted
      have passed := fits.1 (by simpa using accepted)
      split
      · exact ⟨rfl,⟨by simp,fun _ => rfl⟩,allowed⟩
      · exact ⟨rfl,passed,allowed⟩
  | counting reason => exact ⟨rfl,⟨by simp,fits⟩,allowed⟩
  | limiting =>
    refine ⟨rfl,⟨fun _ => fits,fun _ => ?_⟩,allowed⟩
    unfold Arbiter.rateLimit
    split <;> rfl
  | returned verdict => exact ⟨rfl,fits,allowed⟩
  | acting verdict verified =>
    cases verdict with
    | accepted => cases waits
    | refused reason =>
      exact ⟨rfl,decided_fits _ _ _ _ fits.2,allowed.trans (decided_sanction _ _ _ rfl alone).symm⟩
    | aborted reason =>
      exact ⟨rfl,decided_fits _ _ _ _ fits.2,allowed.trans (decided_sanction _ _ _ rfl alone).symm⟩
  | publishing verified =>
    exact ⟨rfl,decided_fits _ _ _ _ (fun _ => rfl),allowed.trans (decided_sanction _ _ _ rfl alone).symm⟩
  | disarming verdict verified =>
    rw [advance_block _ _ _ _ (by simp)]
    simp only [Handler.block]
    rw [if_pos ltl]
    split <;> exact ⟨rfl,fits,rfl⟩
  | withdrawing verdict verified => exact ⟨rfl,fits,allowed⟩
  | answered verdict verified => exact ⟨rfl,fits,allowed⟩

/-- The block that commits: the text becomes the candidate's. -/
theorem advance_commit (settings : Settings) (o : Oracle) (h : Handler) (s : Arbiter) (text : String)
    (fits : h.Fits text) (allowed : s.appendix = h.sanction) (commits : h.commits = true) :
    ((h.advance settings o s).1.activeMissionXml = some h.candidate ∧ h.candidate.Says (carried text h.clause)) ∧
      (h.advance settings o s).2.Fits (carried text h.clause) ∧
      (h.advance settings o s).1.appendix = (h.advance settings o s).2.sanction := by
  obtain ⟨request,candidate,clause,departing,basis,gate,stage⟩ := h
  cases stage with
  | acting verdict verified =>
    cases verdict with
    | accepted => exact ⟨⟨rfl,fits.1 rfl⟩,fits.1 rfl,allowed⟩
    | refused reason => cases commits
    | aborted reason => cases commits
  | _ => cases commits

theorem advance_clause (settings : Settings) (o : Oracle) (h : Handler) (s : Arbiter)
    (before : h.clause ≠ "" → h.brings = true) :
    (h.advance settings o s).2.clause ≠ "" → h.brings = true := by
  unfold Handler.advance
  split
  · rename_i active r _ requested
    unfold Handler.edit
    split
    · exact before
    · rename_i edit ok
      intro some
      have clause := (applyTaskEdit_edited _ _ _ _ _ ok).clause
      have brought : r.clause ≠ "" := clause ▸ some
      simpa [Handler.brings,requested] using brought
  · exact before

/-- Before the block that commits. -/
def Stage.pending : Stage → Bool
  | .publishing _ | .disarming _ _ | .withdrawing _ _ | .answered _ _ => false
  | _ => true

theorem advance_pending (settings : Settings) (o : Oracle) (h : Handler) (s : Arbiter)
    (pending : (h.advance settings o s).2.stage.pending = true) : h.stage.pending = true ∧ h.commits = false := by
  obtain ⟨request,candidate,clause,departing,basis,gate,stage⟩ := h
  cases stage with
  | acting verdict verified => cases verdict <;> cases request <;> cases pending
  | publishing verified => cases request <;> cases pending
  | disarming verdict verified =>
    rw [advance_block _ _ _ _ (by simp)] at pending
    simp only [Handler.block] at pending
    split at pending <;> cases pending
  | withdrawing verdict verified => cases pending
  | answered verdict verified => cases pending
  | _ => exact ⟨rfl,rfl⟩

/-- The arbiter when the text of the active plan is as given. -/
structure Holds (text : String) (s : System) : Prop where
  active : ∃ xml, s.arbiter.activeMissionXml = some xml ∧ xml.Says text
  air : ∀ xml ∈ s.air, xml.Says text
  planner : ∀ h, s.planner = some h → h.request = none ∧ h.clause = "" ∧ h.Fits text
  requests : ∀ h ∈ s.requests, h.request.isSome = true ∧ (h.clause ≠ "" → h.brings = true) ∧ h.Fits text
  solo : ∀ (i : Nat) (h : Handler), s.requests[i]? = some h → h.live = true → h.brings = true → s.planner = none ∧
    (∀ (j : Nat) (k : Handler), s.requests[j]? = some k → k.live = true → j = i) ∧ (h.stage.pending = true → s.air = []) ∧
      s.arbiter.appendix = h.sanction
  quiet : ¬Bringing s → s.arbiter.appendix = ""

namespace Holds
variable {text : String} {s after : System}

/-- Nothing that the invariant is about has changed. -/
theorem same (holds : Holds text s) (active : after.arbiter.activeMissionXml = s.arbiter.activeMissionXml)
    (appendix : after.arbiter.appendix = s.arbiter.appendix) (air : after.air = s.air)
    (planner : after.planner = s.planner) (requests : after.requests = s.requests) : Holds text after where
  active := active ▸ holds.active
  air := air ▸ holds.air
  planner := planner ▸ holds.planner
  requests := requests ▸ holds.requests
  solo := by
    rw [requests,planner,air,appendix]
    exact holds.solo
  quiet := by
    unfold Bringing
    rw [requests,appendix]
    exact holds.quiet

theorem echo (holds : Holds text s) (settings : Settings) (xml : Xml) (rest : List Xml) (air : s.air = xml :: rest) :
    Holds text { s.deliver settings xml with air := rest } where
  active := by
    obtain ⟨active,held,spoken⟩ := holds.active
    simp only [System.deliver,onMission_active]
    split
    · exact ⟨active,held,spoken⟩
    · exact ⟨xml,rfl,holds.air xml (by simp [air])⟩
  air := fun other member => holds.air other (by simp [air,member])
  planner := holds.planner
  requests := holds.requests
  solo := by
    intro i h found live brings
    obtain ⟨planner,others,empty,appendix⟩ := holds.solo i h found live brings
    refine ⟨planner,others,fun pending => ?_,(onMission_appendix _ _).trans appendix⟩
    rw [air] at empty
    cases empty pending
  quiet := fun quiet => (onMission_appendix _ _).trans (holds.quiet quiet)

theorem candidate (holds : Holds text s) (xml : Xml) (quiet : ¬Bringing s) :
    Holds text { s with planner := some { candidate := xml, stage := .clearing } } where
  active := holds.active
  air := holds.air
  planner := by
    rintro h ⟨⟩
    exact ⟨rfl,rfl,fun requested => by cases requested⟩
  requests := holds.requests
  solo := fun i h found live brings => absurd ⟨h,List.mem_of_getElem? found,live,brings⟩ quiet
  quiet := holds.quiet

theorem request (holds : Holds text s) (r : Request) (quiet : ¬Bringing s)
    (alone : r.clause ≠ "" → s.planner.isNone = true ∧ (∀ h ∈ s.requests, h.live = false) ∧ s.air = [] ∧
      titled s.arbiter.activeMissionXml = true) :
    Holds text { s with requests := s.requests ++ [.verifyReplan r s.arbiter] } := by
  obtain ⟨active,held,d,rfl,spoken⟩ := holds.active
  have handler : Handler.verifyReplan r s.arbiter =
      { request := some r, candidate := .plan d, basis := some (some (.plan d)), stage := .editing (.plan d) } := by
    simp [Handler.verifyReplan,held]
  rw [handler]
  have appendix := holds.quiet quiet
  refine ⟨⟨_,held,d,rfl,spoken⟩,holds.air,holds.planner,?_,?_,fun _ => appendix⟩
  · intro h member
    obtain member | rfl := List.mem_append.mp member |>.imp_right List.mem_singleton.mp
    · exact holds.requests h member
    · refine ⟨rfl,by simp,⟨d,rfl,spoken⟩,rfl,?_⟩
      rintro _ ⟨⟩ brought
      have mission := (alone brought).2.2.2
      rwa [held] at mission
  · intro i h found live brings
    have last : i = s.requests.length ∧ h = { request := some r, candidate := .plan d, basis := some (some (.plan d)), stage := .editing (.plan d) } := by
      rcases Nat.lt_or_ge i s.requests.length with early | late
      · rw [List.getElem?_append_left early] at found
        exact absurd ⟨h,List.mem_of_getElem? found,live,brings⟩ quiet
      · rw [List.getElem?_append_right late,List.getElem?_singleton] at found
        split at found
        · exact ⟨by omega,(Option.some.inj found).symm⟩
        · cases found
    obtain ⟨rfl,rfl⟩ := last
    have brought : r.clause ≠ "" := by simpa [Handler.brings] using brings
    obtain ⟨planner,others,air,-⟩ := alone brought
    refine ⟨by simpa using planner,?_,fun _ => air,appendix⟩
    intro j k place alive
    rcases Nat.lt_or_ge j s.requests.length with early | late
    · rw [List.getElem?_append_left early] at place
      rw [others k (List.mem_of_getElem? place)] at alive
      cases alive
    · have bound := (List.getElem?_eq_some_iff.mp place).1
      simp at bound
      omega

end Holds

/-- What a block of one handler does to the text, committing or not. -/
theorem run_spec (settings : Settings) (ltl : settings.ltlVerification = true) (o : Oracle) (h : Handler) (s : System)
    (d : Document) (fits : h.Fits (grown d s.absorbed))
    (active : ∃ xml, s.arbiter.activeMissionXml = some xml ∧ xml.Says (grown d s.absorbed))
    (allowed : s.arbiter.appendix = h.sanction) (alone : h.request = none → h.clause = "") :
    (h.commits = true ∨ (s.run settings o h).1.absorbed = s.absorbed) ∧
      grown d (s.run settings o h).1.absorbed =
        (if h.commits then carried (grown d s.absorbed) h.clause else grown d s.absorbed) ∧
      (∃ xml, (s.run settings o h).1.arbiter.activeMissionXml = some xml ∧
        xml.Says (grown d (s.run settings o h).1.absorbed)) ∧
      (s.run settings o h).2.Fits (grown d (s.run settings o h).1.absorbed) ∧
      (s.run settings o h).1.arbiter.appendix = (s.run settings o h).2.sanction := by
  have text : grown d (s.run settings o h).1.absorbed =
      (if h.commits then carried (grown d s.absorbed) h.clause else grown d s.absorbed) := by
    simp only [System.run]
    by_cases none : h.clause = ""
    · simp [none]
    · cases h.commits with
      | false => simp
      | true => simp [none,grown_append]
  rw [text]
  cases commits : h.commits with
  | true =>
    obtain ⟨⟨held,spoken⟩,after,allowed⟩ := advance_commit settings o h s.arbiter _ fits allowed commits
    exact ⟨.inl rfl,rfl,⟨h.candidate,held,spoken⟩,after,allowed⟩
  | false =>
    have kept := advance_kept settings ltl o h s.arbiter _ fits active allowed alone commits
    obtain ⟨xml,held,spoken⟩ := active
    refine ⟨.inr (by simp [System.run,commits]),rfl,⟨xml,kept.active.trans held,spoken⟩,kept.fits,kept.allowed⟩

theorem pending_air (settings : Settings) (o : Oracle) (h : Handler) (s : System) (pending : h.stage.pending = true) :
    (s.run settings o h).1.air = s.air := by
  obtain ⟨request,candidate,clause,departing,basis,gate,stage⟩ := h
  cases stage with
  | publishing verified => cases pending
  | _ => rfl

theorem commits_pending (h : Handler) (commits : h.commits = true) : h.stage.pending = true := by
  obtain ⟨request,candidate,clause,departing,basis,gate,stage⟩ := h
  cases stage with
  | acting verdict verified => rfl
  | _ => cases commits

theorem over_sanction (h : Handler) (past : h.live = false) : h.sanction = "" := by
  obtain ⟨request,candidate,clause,departing,basis,gate,stage⟩ := h
  cases stage with
  | answered verdict verified => rfl
  | _ => cases past

theorem run_air (settings : Settings) (o : Oracle) (h : Handler) (s : System) (text : String) (fits : h.Fits text)
    (air : ∀ xml ∈ s.air, xml.Says text) : ∀ xml ∈ (s.run settings o h).1.air, xml.Says text := by
  obtain ⟨request,candidate,clause,departing,basis,gate,stage⟩ := h
  cases stage with
  | publishing verified =>
    intro xml member
    obtain member | same := List.mem_append.mp member
    · exact air xml member
    · exact List.mem_singleton.mp same ▸ fits
  | _ => exact air

namespace Holds
variable {s : System} {d : Document} (settings : Settings) (o : Oracle)

theorem plannerBlock (ltl : settings.ltlVerification = true) (holds : Holds (grown d s.absorbed) s) (h : Handler) (mine : s.planner = some h) :
    Holds (grown d (s.run settings o h).1.absorbed)
      { (s.run settings o h).1 with
        planner := if (s.run settings o h).2.live then some (s.run settings o h).2 else none } := by
  obtain ⟨planned,clause,fits⟩ := holds.planner h mine
  have quiet : ¬Bringing s := by
    rintro ⟨k,member,live,brings⟩
    obtain ⟨i,found⟩ := List.mem_iff_getElem?.mp member
    have free := (holds.solo i k found live brings).1
    rw [mine] at free
    cases free
  have sanction (k : Handler) (bare : k.clause = "") : k.sanction = "" := by simp [Handler.sanction,bare]
  obtain ⟨-,text,active,after,allowed⟩ := run_spec settings ltl o h s d fits holds.active
    ((holds.quiet quiet).trans (sanction h clause).symm) (fun _ => clause)
  have unchanged : grown d (s.run settings o h).1.absorbed = grown d s.absorbed := by
    rw [text,clause,carried_empty,ite_self]
  have request : (s.run settings o h).2.request = none := (advance_request settings o h s.arbiter).trans planned
  have bare : (s.run settings o h).2.clause = "" := by
    by_contra some
    have brings := advance_clause settings o h s.arbiter (fun more => absurd clause more) some
    simp [Handler.brings,planned] at brings
  rw [unchanged] at active after ⊢
  refine ⟨active,run_air settings o h s _ fits holds.air,?_,holds.requests,?_,fun _ => ?_⟩
  · intro k found
    simp only at found
    split at found
    · obtain rfl := Option.some.inj found
      exact ⟨request,bare,after⟩
    · cases found
  · exact fun i k found live brings => absurd ⟨k,List.mem_of_getElem? found,live,brings⟩ quiet
  · exact allowed.trans (sanction _ bare)

theorem serviceBlock (ltl : settings.ltlVerification = true) (holds : Holds (grown d s.absorbed) s) (i : Nat)
    (h : Handler) (mine : s.requests[i]? = some h) (live : h.live = true) :
    Holds (grown d (s.run settings o h).1.absorbed)
      { (s.run settings o h).1 with requests := s.requests.set i (s.run settings o h).2 } := by
  obtain ⟨requested,clause,fits⟩ := holds.requests h (List.mem_of_getElem? mine)
  have request := advance_request settings o h s.arbiter
  have brings : (s.run settings o h).2.brings = h.brings := by
    unfold Handler.brings
    rw [show (s.run settings o h).2.request = h.request from request]
  have appendix : s.arbiter.appendix = h.sanction := by
    by_cases bringing : Bringing s
    · obtain ⟨k,member,alive,brought⟩ := bringing
      obtain ⟨j,found⟩ := List.mem_iff_getElem?.mp member
      obtain ⟨-,others,-,allowed⟩ := holds.solo j k found alive brought
      obtain rfl := others i h mine live
      rw [mine] at found
      obtain rfl := Option.some.inj found
      exact allowed
    · have bare : h.clause = "" := by
        by_contra some
        exact bringing ⟨h,List.mem_of_getElem? mine,live,clause some⟩
      simp [holds.quiet bringing,Handler.sanction,bare]
  obtain ⟨-,text,active,after,allowed⟩ := run_spec settings ltl o h s d fits holds.active appendix
    (fun none => by rw [none] at requested; cases requested)
  have mineAfter : (s.run settings o h).2.request.isSome = true ∧
      ((s.run settings o h).2.clause ≠ "" → (s.run settings o h).2.brings = true) := by
    refine ⟨(congrArg Option.isSome request).trans requested,fun some => ?_⟩
    rw [brings]
    exact advance_clause settings o h s.arbiter clause some
  by_cases bringing : h.brings = true
  · obtain ⟨planner,others,empty,-⟩ := holds.solo i h mine live bringing
    refine ⟨active,?_,?_,?_,?_,?_⟩
    · cases commits : h.commits with
      | true =>
        have pending := commits_pending h commits
        intro xml member
        rw [pending_air settings o h s pending,empty pending] at member
        cases member
      | false =>
        rw [text,if_neg (by simp [commits])]
        exact run_air settings o h s _ fits holds.air
    · intro k found
      rw [show (s.run settings o h).1.planner = s.planner from rfl,planner] at found
      cases found
    · intro k member
      obtain ⟨j,found⟩ := List.mem_iff_getElem?.mp member
      obtain ⟨-,rfl⟩ | ⟨other,found⟩ := set_placed _ _ _ j k found
      · exact ⟨mineAfter.1,mineAfter.2,after⟩
      · obtain ⟨asked,clause,fits⟩ := holds.requests k (List.mem_of_getElem? found)
        have past : k.live = false := Bool.eq_false_iff.mpr (fun alive => other (others j k found alive))
        exact ⟨asked,clause,fits_answered _ _ k past fits⟩
    · intro j k found alive brought
      obtain ⟨rfl,rfl⟩ | ⟨other,found⟩ := set_placed _ _ _ j k found
      · refine ⟨planner,?_,?_,allowed⟩
        · intro j' k' found alive
          obtain ⟨same,-⟩ | ⟨other,found⟩ := set_placed _ _ _ j' k' found
          · exact same
          · exact absurd (others j' k' found alive) other
        · intro pending
          have before := (advance_pending settings o h s.arbiter pending).1
          exact (pending_air settings o h s before).trans (empty before)
      · exact absurd (others j k found alive) other
    · intro quiet
      refine allowed.trans (over_sanction _ (Bool.eq_false_iff.mpr (fun alive => quiet ⟨_,?_,alive,brings.trans bringing⟩)))
      have bound := (List.getElem?_eq_some_iff.mp mine).1
      exact List.mem_of_getElem? (List.getElem?_set_self bound)
  · have bare : h.clause = "" := by
      by_contra some
      exact bringing (clause some)
    have unchanged : grown d (s.run settings o h).1.absorbed = grown d s.absorbed := by
      rw [text,bare,carried_empty,ite_self]
    have quiet : ¬Bringing s := by
      rintro ⟨k,member,alive,brought⟩
      obtain ⟨j,found⟩ := List.mem_iff_getElem?.mp member
      obtain rfl := (holds.solo j k found alive brought).2.1 i h mine live
      rw [mine] at found
      obtain rfl := Option.some.inj found
      exact bringing brought
    rw [unchanged] at active after ⊢
    refine ⟨active,run_air settings o h s _ fits holds.air,holds.planner,?_,?_,fun _ => ?_⟩
    · intro k member
      obtain member | rfl := List.mem_or_eq_of_mem_set member
      · exact holds.requests k member
      · exact ⟨mineAfter.1,mineAfter.2,after⟩
    · intro j k found alive brought
      obtain ⟨-,rfl⟩ | ⟨-,found⟩ := set_placed _ _ _ j k found
      · exact absurd (brings.symm.trans brought) bringing
      · exact absurd ⟨k,List.mem_of_getElem? found,alive,brought⟩ quiet
    · have clear : (s.run settings o h).2.clause = "" := by
        by_contra some
        exact bringing (brings.symm.trans (mineAfter.2 some))
      rw [show (s.run settings o h).1.arbiter.appendix = _ from allowed]
      simp [Handler.sanction,clear]

end Holds

/-- No plan yet, and nothing in hand. -/
structure Blank (s : System) : Prop where
  first : s.first = none
  published : s.arbiter.publishedXml = none
  appendix : s.arbiter.appendix = ""
  air : s.air = []
  planner : s.planner = none
  requests : s.requests = []
  absorbed : s.absorbed = []

/-- Nothing has come yet, or the first mission has and the text is as it should be. -/
def Invariant (s : System) : Prop := Blank s ∨ ∃ d, s.first = some (.plan d) ∧ Holds (grown d s.absorbed) s

/-- Before the first mission only what leaves the plans alone may happen, or the mission comes. -/
theorem next_blank (settings : Settings) (s : System) (e : Event) (blank : Blank s) (enabled : s.enabled e)
    (foreign : Foreign s e) (alone : Alone s e) : Invariant (s.next settings e) := by
  obtain ⟨first,published,appendix,air,planner,requests,absorbed⟩ := blank
  cases e with
  | mission xml =>
    cases xml with
    | malformed text => cases foreign
    | plan d =>
      have active : (s.arbiter.onMission (.plan d)).activeMissionXml = some (.plan d) := by
        rw [onMission_active,published]
        simp
      refine .inr ⟨d,by simp [System.next,first],⟨.plan d,active,d,rfl,?_⟩,?_,?_,?_,?_,?_⟩
      · rw [show (s.next settings (.mission (.plan d))).absorbed = s.absorbed from rfl,absorbed]
        rfl
      · simp [System.next,System.deliver,air]
      · simp [System.next,System.deliver,planner]
      · simp [System.next,System.deliver,requests]
      · simp [System.next,System.deliver,requests]
      · exact fun _ => (onMission_appendix _ _).trans appendix
  | echo => exact absurd air enabled.2
  | candidate xml =>
    have come : s.first.isSome = true := alone.1
    simp [first] at come
  | request r =>
    have come : s.first.isSome = true := alone.1
    simp [first] at come
  | planner o =>
    rw [System.enabled,planner] at enabled
    cases enabled
  | service i o =>
    rw [System.enabled,requests] at enabled
    cases enabled
  | orchard map =>
    simp only [System.next]
    split <;> exact .inl ⟨first,published,appendix,air,planner,requests,absorbed⟩
  | failed reason => exact .inl ⟨first,published,appendix,air,planner,requests,absorbed⟩
  | succeeded node => exact .inl ⟨first,published,appendix,air,planner,requests,absorbed⟩
  | completed =>
    simp only [System.next]
    split <;> exact .inl ⟨first,published,appendix,air,planner,requests,absorbed⟩
  | budget answer =>
    simp only [System.next]
    split <;> exact .inl ⟨first,published,appendix,air,planner,requests,absorbed⟩

theorem next_invariant (settings : Settings) (ltl : settings.ltlVerification = true) (s : System) (e : Event)
    (holds : Invariant s) (enabled : s.enabled e) (foreign : Foreign s e) (alone : Alone s e) :
    Invariant (s.next settings e) := by
  obtain blank | ⟨d,first,holds⟩ := holds
  · exact next_blank settings s e blank enabled foreign alone
  · cases e with
    | mission xml =>
      cases xml with
      | malformed text => cases foreign
      | plan other => rw [show s.first = none from foreign] at first; cases first
    | echo =>
      cases air : s.air with
      | nil => exact absurd air enabled.2
      | cons xml rest =>
        rw [next_echo settings s xml rest air]
        exact .inr ⟨d,first,holds.echo settings xml rest air⟩
    | candidate xml => exact .inr ⟨d,first,holds.candidate xml alone.2⟩
    | request r => exact .inr ⟨d,first,holds.request r alone.2.1 alone.2.2⟩
    | planner o =>
      cases mine : s.planner with
      | none => simpa [System.next,mine] using .inr ⟨d,first,holds⟩
      | some h =>
        rw [next_planner settings s o h mine]
        exact .inr ⟨d,first,holds.plannerBlock settings o ltl h mine⟩
    | service i o =>
      cases mine : s.requests[i]? with
      | none => simpa [System.next,mine] using .inr ⟨d,first,holds⟩
      | some h =>
        have live : h.live = true := by simpa [System.enabled,mine] using enabled
        rw [next_service settings s i o h mine]
        exact .inr ⟨d,first,holds.serviceBlock settings o ltl i h mine live⟩
    | orchard map =>
      simp only [System.next]
      split
      · exact .inr ⟨d,first,holds⟩
      · exact .inr ⟨d,first,holds.same rfl rfl rfl rfl rfl⟩
    | failed reason => exact .inr ⟨d,first,holds.same rfl rfl rfl rfl rfl⟩
    | succeeded node => exact .inr ⟨d,first,holds.same rfl rfl rfl rfl rfl⟩
    | completed =>
      simp only [System.next]
      split
      · exact .inr ⟨d,first,holds⟩
      · exact .inr ⟨d,first,holds.same rfl rfl rfl rfl rfl⟩
    | budget answer =>
      simp only [System.next]
      split
      · exact .inr ⟨d,first,holds⟩
      · exact .inr ⟨d,first,holds.same rfl rfl rfl rfl rfl⟩

theorem invariant_sanctioned (s : System) (holds : Invariant s) : Sanctioned s := by
  obtain blank | ⟨d,first,holds⟩ := holds
  · refine ⟨?_,by simp [blank.requests]⟩
    intro d first
    rw [blank.first] at first
    cases first
  · refine ⟨?_,?_⟩
    · intro e same
      rw [first] at same
      obtain rfl : d = e := Xml.plan.inj (Option.some.inj same)
      obtain ⟨_,held,active,rfl,spoken⟩ := holds.active
      exact ⟨active,held,spoken⟩
    · intro h member r requested adding wrote
      have fits := (holds.requests h member).2.2
      obtain ⟨request,candidate,clause,departing,basis,gate,stage⟩ := h
      cases stage with
      | answered verdict verified =>
        have faithful := fits (Option.isSome_iff_exists.mpr ⟨r,requested⟩)
        cases verdict with
        | refused reason =>
          cases reason with
          | rewritten expected got => cases faithful
          | _ => cases wrote
        | _ => cases wrote
      | _ => cases wrote

/-- In every run whose candidates and requests come one at a time where a clause is
brought, the text is the first mission's with the clauses accepted. -/
theorem text_sanctioned (settings : Settings) (ltl : settings.ltlVerification = true) (s : System)
    (reached : (machine settings).Reaches (fun s e => Foreign s e ∧ Alone s e) s) : Sanctioned s := by
  refine invariant_sanctioned s (reached.invariant Invariant ?_ ?_)
  · rintro _ rfl
    exact .inl ⟨rfl,rfl,rfl,rfl,rfl,rfl,rfl⟩
  · intro s e _ holds enabled allowed
    exact next_invariant settings ltl s e holds enabled allowed.1 allowed.2

/-- An absorption and then a candidate, each on its own. -/
def oneByOne : List Event :=
  [.mission (.plan treeTen),.request (absorb 5 35)] ++ serve 0 14 10 ++ [.echo,.request (absorb 6 7)] ++
    serve 1 14 20 ++ [.candidate (.plan treeTen)] ++ plan 8 30

theorem oneByOne_sanctioned :
    Sanctioned ((machine noFix).runs {} oneByOne) ∧
      ((machine noFix).runs {} oneByOne).absorbed = ["visit tree 35","visit tree 7"] :=
  ⟨text_sanctioned noFix rfl _ ((machine noFix).reaches_runs _ {} oneByOne (.start _ rfl) (by decide +kernel)),
    by decide +kernel⟩

/-- Two absorptions at once: the second is allowed its clause before the first is compared. -/
def overlapped : List Event :=
  [.mission (.plan treeTen),.request (absorb 5 35),.request (absorb 6 7)] ++ serve 0 2 10 ++ serve 1 2 10 ++
    serve 0 11 10

/-- A candidate that writes what an absorption is allowed to. -/
def inherited : List Event :=
  [.mission (.plan treeTen),.request (absorb 5 35)] ++ serve 0 2 10 ++
    [.candidate (.plan { treeTen with mission := some "visit tree 10; visit tree 35" })] ++ plan 9 10

/-- A candidate compared before an absorption is accepted, and accepted after it. -/
def stale : List Event :=
  [.mission (.plan treeTen),.candidate (.plan treeTen)] ++ plan 4 10 ++ [.request (absorb 5 35)] ++
    serve 0 14 10 ++ plan 6 20

/-- A plan that comes back after a later one was accepted. -/
def echoed : List Event :=
  [.mission (.plan treeTen),.candidate (.plan { treeTen with tree := [visitTree 0 10] })] ++ plan 10 10 ++
    [.request (absorb 5 35)] ++ serve 0 14 20 ++ [.echo]

theorem Sanctioned.text (s : System) (d : Document) (sanctioned : Sanctioned s) (first : s.first = some (.plan d)) :
    s.arbiter.activeMissionXml.map Xml.text = some (grown d s.absorbed) := by
  obtain ⟨active,held,spoken⟩ := sanctioned.1 d first
  rw [held]
  exact congrArg some spoken

theorem Sanctioned.faithful (s : System) (sanctioned : Sanctioned s) :
    s.requests.any (fun h => h.request.any (fun r => !r.removing) && decide h.rewrote) = false := by
  rw [List.any_eq_false]
  intro h member
  cases requested : h.request with
  | none => simp
  | some r =>
    have spec := sanctioned.2 h member r requested
    simpa using spec

/-- An absorption refused as a rewrite, a candidate that changes the text, and two ways
to lose a clause that was accepted. -/
theorem interleavings_rewrite :
    (∀ run ∈ [overlapped,inherited,stale,echoed], (machine noFix).Reaches Foreign ((machine noFix).runs {} run)) ∧
      ∀ run ∈ [overlapped,inherited,stale,echoed], ¬Sanctioned ((machine noFix).runs {} run) := by
  have follows : ∀ run ∈ [overlapped,inherited,stale,echoed], (machine noFix).Follows Foreign {} run := by
    decide +kernel
  have first : ∀ run ∈ [overlapped,inherited,stale,echoed],
      ((machine noFix).runs {} run).first = some (.plan treeTen) := by
    decide +kernel
  have wrong : ∀ run ∈ [overlapped,inherited,stale,echoed],
      ((machine noFix).runs {} run).requests.any
          (fun h => h.request.any (fun r => !r.removing) && decide h.rewrote) = true ∨
        ((machine noFix).runs {} run).arbiter.activeMissionXml.map Xml.text ≠
          some (grown treeTen ((machine noFix).runs {} run).absorbed) := by
    decide +kernel
  refine ⟨fun run member => ?_,fun run member sanctioned => ?_⟩
  · exact (machine noFix).reaches_runs _ {} run (.start _ rfl) (follows run member)
  · obtain refused | lost := wrong run member
    · rw [sanctioned.faithful] at refused
      cases refused
    · exact lost (sanctioned.text _ treeTen (first run member))

end AmigaFleet.Replanning
