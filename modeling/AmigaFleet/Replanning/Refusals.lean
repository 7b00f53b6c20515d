import AmigaFleet.Replanning.Decisions

/-! A request of the coordinator that is turned down, taken on its own, and what it
leaves behind. -/
namespace AmigaFleet.Replanning
open Lib AmigaFleet.Mission

/-- What the arbiter believes about the mission, and the text it has the gate allow. -/
structure Untouched (s after : Arbiter) : Prop where
  active : after.activeMissionXml = s.activeMissionXml
  original : after.originalObjectives = s.originalObjectives
  justified : after.justifiedDrops = s.justifiedDrops
  transferred : after.transferredObjectives = s.transferredObjectives
  completed : after.completedObjectives = s.completedObjectives
  appendix : after.appendix = s.appendix

/-- Nothing is in hand. -/
def System.quiet (s : System) : Prop := s.planner = none ∧ ∀ h ∈ s.requests, h.live = false

/-- The request, and its handler's blocks with nothing between them. -/
def alone (s : System) (r : Request) (os : List Oracle) : List Event :=
  .request r :: os.map (.service s.requests.length)

/-- Turned down: the answer is there, and it is not an acceptance. -/
def Handler.turnedDown (h : Handler) : Prop :=
  match h.stage with
  | .answered .accepted _ => False
  | .answered _ _ => True
  | _ => False

/-- The trees that the request would take out of the plan were neither dropped with
good reason nor transferred before. -/
def Fresh (settings : Settings) (s : Arbiter) (r : Request) : Prop :=
  ∀ active edit, s.activeMissionXml = some active → applyTaskEdit settings s.orchard r active = .ok edit →
    r.removing = true → Disjoint (objectivesLeaving active edit.candidate) s.justifiedDrops ∧
      Disjoint (objectivesLeaving active edit.candidate) s.transferredObjectives

/-- The fields that the request does not write to, and the two sets it does. -/
structure Beliefs (settings : Settings) (s after : Arbiter) (justified transferred : Finset String) : Prop where
  active : after.activeMissionXml = s.activeMissionXml
  original : after.originalObjectives = s.originalObjectives
  completed : after.completedObjectives = s.completedObjectives
  justified : after.justifiedDrops = justified
  transferred : after.transferredObjectives = transferred
  ungated : settings.ltlVerification = false → after.appendix = s.appendix

def Beliefs.appendix (settings : Settings) (s after : Arbiter) : Prop :=
  after.appendix = if settings.ltlVerification then "" else s.appendix

/-- The handler's candidate is the request's edit of the plan. -/
def Made (settings : Settings) (s : Arbiter) (r : Request) (departing : Finset String) : Prop :=
  ∃ active edit, s.activeMissionXml = some active ∧ applyTaskEdit settings s.orchard r active = .ok edit ∧
    departing = if r.removing then objectivesLeaving active edit.candidate else ∅

/-- Where the request's handling stands, from the state that the request came to. -/
def Trace (settings : Settings) (s : Arbiter) (r : Request) (after : Arbiter) (h : Handler) : Prop :=
  let departed (justified transferred : Finset String) : Prop :=
    Made settings s r h.departing ∧ Beliefs settings s after justified transferred
  h.request = some r ∧
  match h.stage with
  | .editing active => after = s ∧ s.activeMissionXml = some active
  | .arming => after = s ∧ Made settings s r h.departing
  | .justifying => departed s.justifiedDrops s.transferredObjectives
  | .publishing _ | .disarming .accepted _ | .withdrawing .accepted _ | .answered .accepted _ => True
  | .withdrawing _ _ =>
    departed (s.justifiedDrops ∪ h.departing) (s.transferredObjectives ∪ h.departing) ∧
      Beliefs.appendix settings s after
  | .answered _ _ =>
    (after = s ∧ ∀ active edit, s.activeMissionXml = some active →
      applyTaskEdit settings s.orchard r active ≠ .ok edit) ∨
      departed ((s.justifiedDrops ∪ h.departing) \ h.departing) ((s.transferredObjectives ∪ h.departing) \ h.departing) ∧
        Beliefs.appendix settings s after
  | _ => departed (s.justifiedDrops ∪ h.departing) (s.transferredObjectives ∪ h.departing)

theorem trace_request (settings : Settings) (s : Arbiter) (r : Request) :
    Trace settings s r s (.verifyReplan r s) := by
  unfold Handler.verifyReplan
  split
  · rename_i active held
    split
    · exact ⟨rfl,trivial⟩
    · exact ⟨rfl,rfl,held⟩
  · exact ⟨rfl,trivial⟩

theorem trace_edit (settings : Settings) (s : Arbiter) (r : Request) (active : Xml) (h : Handler)
    (requested : h.request = some r) (held : s.activeMissionXml = some active) :
    Trace settings s r s (h.edit settings s r active) := by
  unfold Handler.edit
  cases made : applyTaskEdit settings s.orchard r active with
  | error reason =>
    refine ⟨requested,.inl ⟨rfl,fun other edit same ok => ?_⟩⟩
    rw [held] at same
    obtain rfl := Option.some.inj same
    rw [made] at ok
    cases ok
  | ok edit => exact ⟨requested,rfl,active,edit,held,made,rfl⟩

theorem Beliefs.same {settings : Settings} {s now after : Arbiter} {justified transferred : Finset String}
    (beliefs : Beliefs settings s now justified transferred)
    (active : after.activeMissionXml = now.activeMissionXml) (original : after.originalObjectives = now.originalObjectives)
    (completed : after.completedObjectives = now.completedObjectives)
    (drops : after.justifiedDrops = now.justifiedDrops)
    (gone : after.transferredObjectives = now.transferredObjectives) (appendix : after.appendix = now.appendix) :
    Beliefs settings s after justified transferred :=
  ⟨active.trans beliefs.active,original.trans beliefs.original,completed.trans beliefs.completed,
    drops.trans beliefs.justified,gone.trans beliefs.transferred,fun off => appendix.trans (beliefs.ungated off)⟩

theorem trace_advance (settings : Settings) (o : Oracle) (s : Arbiter) (r : Request) (now : Arbiter) (h : Handler)
    (trace : Trace settings s r now h) :
    Trace settings s r (h.advance settings o now).1 (h.advance settings o now).2 := by
  obtain ⟨request,candidate,clause,departing,basis,gate,stage⟩ := h
  obtain ⟨rfl,trace⟩ := trace
  cases stage with
  | editing active =>
    obtain ⟨rfl,held⟩ := trace
    exact trace_edit settings now r active _ rfl held
  | arming =>
    obtain ⟨rfl,made⟩ := trace
    rw [advance_block _ _ _ _ (by simp)]
    simp only [Handler.block]
    split
    · rename_i on
      exact ⟨rfl,made,rfl,rfl,rfl,rfl,rfl,fun off => by simp [on] at off⟩
    · exact ⟨rfl,made,rfl,rfl,rfl,rfl,rfl,fun _ => rfl⟩
  | justifying =>
    obtain ⟨made,beliefs⟩ := trace
    exact ⟨rfl,made,beliefs.active,beliefs.original,beliefs.completed,
      congrArg (· ∪ departing) beliefs.justified,congrArg (· ∪ departing) beliefs.transferred,beliefs.ungated⟩
  | clearing => exact ⟨rfl,trace.1,trace.2.same rfl rfl rfl rfl rfl rfl⟩
  | checking =>
    rw [advance_block _ _ _ _ (by simp)]
    simp only [Handler.block]
    split
    · exact ⟨rfl,trace⟩
    split
    · exact ⟨rfl,trace⟩
    · exact ⟨rfl,trace.1,trace.2.same rfl rfl rfl rfl rfl rfl⟩
  | reading => exact ⟨rfl,trace⟩
  | comparing active =>
    rw [advance_block _ _ _ _ (by simp)]
    simp only [Handler.block,Handler.compare]
    split
    · exact ⟨rfl,trace⟩
    split <;> exact ⟨rfl,trace⟩
  | judging active => exact ⟨rfl,trace⟩
  | recording active result =>
    have beliefs : Beliefs _ _ (now.record result) _ _ := trace.2.same rfl rfl rfl rfl rfl rfl
    rw [advance_block _ _ _ _ (by simp)]
    simp only [Handler.block,Handler.gated]
    split
    · exact ⟨rfl,trace.1,beliefs⟩
    split <;> exact ⟨rfl,trace.1,beliefs⟩
  | counting reason => exact ⟨rfl,trace.1,trace.2.same rfl rfl rfl rfl rfl rfl⟩
  | limiting => exact ⟨rfl,trace⟩
  | returned verdict => exact ⟨rfl,trace⟩
  | acting verdict verified =>
    cases verdict with
    | accepted => exact ⟨rfl,trivial⟩
    | refused reason => exact ⟨rfl,trace.1,trace.2.same rfl rfl rfl rfl rfl rfl⟩
    | aborted reason => exact ⟨rfl,trace.1,trace.2.same rfl rfl rfl rfl rfl rfl⟩
  | publishing verified => exact ⟨rfl,trivial⟩
  | disarming verdict verified =>
    by_cases accepted : verdict = .accepted
    · subst accepted
      exact ⟨rfl,trivial⟩
    · have departed : Made settings s r departing ∧ Beliefs settings s now (s.justifiedDrops ∪ departing)
          (s.transferredObjectives ∪ departing) := by
        cases verdict with
        | accepted => exact absurd rfl accepted
        | _ => exact trace
      rw [advance_block _ _ _ _ (by simp)]
      simp only [Handler.block]
      rw [if_neg accepted]
      have given : Trace settings s r (if settings.ltlVerification then now.allowMissionText "" else now)
          { request := some r, candidate, clause, departing, basis, gate, stage := .withdrawing verdict verified } := by
        have appendix : Beliefs.appendix settings s (if settings.ltlVerification then now.allowMissionText "" else now) := by
          unfold Beliefs.appendix
          split
          · rfl
          · rename_i off
            exact departed.2.ungated (by simpa using off)
        have beliefs : Beliefs settings s (if settings.ltlVerification then now.allowMissionText "" else now)
            (s.justifiedDrops ∪ departing) (s.transferredObjectives ∪ departing) := by
          split
          · rename_i on
            obtain ⟨active,original,completed,justified,transferred,-⟩ := departed.2
            exact ⟨active,original,completed,justified,transferred,fun off => by simp [on] at off⟩
          · exact departed.2
        cases verdict with
        | accepted => exact absurd rfl accepted
        | _ => exact ⟨rfl,⟨departed.1,beliefs⟩,appendix⟩
      exact given
  | withdrawing verdict verified =>
    cases verdict with
    | accepted => exact ⟨rfl,trivial⟩
    | _ =>
      obtain ⟨⟨made,beliefs⟩,appendix⟩ := trace
      exact ⟨rfl,.inr ⟨⟨made,beliefs.active,beliefs.original,beliefs.completed,
        congrArg (· \ departing) beliefs.justified,congrArg (· \ departing) beliefs.transferred,beliefs.ungated⟩,appendix⟩⟩
  | answered verdict verified =>
    cases verdict <;> exact ⟨rfl,trace⟩

theorem alone_trace (settings : Settings) (s : Arbiter) (r : Request) (before : List Handler) (os : List Oracle)
    (now : System) (h : Handler) (requests : now.requests = before ++ [h])
    (trace : Trace settings s r now.arbiter h) :
    ∃ after, ((machine settings).runs now (os.map (.service before.length))).requests = before ++ [after] ∧
      Trace settings s r ((machine settings).runs now (os.map (.service before.length))).arbiter after := by
  induction os generalizing now h with
  | nil => exact ⟨h,requests,trace⟩
  | cons o os ih =>
    have mine : now.requests[before.length]? = some h := by simp [requests]
    have step : (machine settings).next now (.service before.length o) =
        { (now.run settings o h).1 with requests := now.requests.set before.length (now.run settings o h).2 } :=
      next_service settings now before.length o h mine
    rw [List.map_cons]
    refine ih ((machine settings).next now (.service before.length o)) (now.run settings o h).2 ?_ ?_
    · rw [step]
      simp [requests]
    · rw [step]
      exact trace_advance settings o s r now.arbiter h trace

/-- The blocks of a decision on the planner's candidate. -/
def Stage.own : Stage → Bool
  | .editing _ | .arming | .justifying | .disarming _ _ | .withdrawing _ _ | .answered _ _ => false
  | _ => true

theorem advance_appendix (settings : Settings) (o : Oracle) (h : Handler) (s : Arbiter)
    (arming : h.stage ≠ .arming) (disarming : ∀ verdict verified, h.stage ≠ .disarming verdict verified) :
    (h.advance settings o s).1.appendix = s.appendix := by
  obtain ⟨request,candidate,clause,departing,basis,gate,stage⟩ := h
  cases stage with
  | editing active => cases request <;> rfl
  | arming => exact absurd rfl arming
  | checking =>
    rw [advance_block _ _ _ _ (by simp)]
    simp only [Handler.block]
    split
    · rfl
    · split <;> rfl
  | acting verdict verified => cases verdict <;> rfl
  | disarming verdict verified => exact absurd rfl (disarming verdict verified)
  | _ => rfl

theorem advance_own (settings : Settings) (o : Oracle) (h : Handler) (s : Arbiter) (planned : h.request = none)
    (own : h.stage.own = true) (live : (h.advance settings o s).2.live = true) :
    (h.advance settings o s).2.stage.own = true := by
  obtain ⟨request,candidate,clause,departing,basis,gate,stage⟩ := h
  obtain rfl : request = none := planned
  cases stage with
  | checking =>
    rw [advance_block _ _ _ _ (by simp)]
    simp only [Handler.block]
    split
    · rfl
    · split <;> rfl
  | comparing active =>
    rw [advance_block _ _ _ _ (by simp)]
    simp only [Handler.block,Handler.compare]
    split
    · rfl
    · split <;> rfl
  | recording active result =>
    rw [advance_block _ _ _ _ (by simp)]
    simp only [Handler.block,Handler.gated]
    split
    · rfl
    · split <;> rfl
  | acting verdict verified =>
    cases verdict with
    | accepted => rfl
    | _ => cases live
  | publishing verified => cases live
  | clearing => rfl
  | reading => rfl
  | judging active => rfl
  | counting reason => rfl
  | limiting => rfl
  | returned verdict => rfl
  | _ => cases own

theorem advance_armed (settings : Settings) (o : Oracle) (h : Handler) (s : Arbiter)
    (requested : h.request.isSome = true) (armed : h.stage.armed = true)
    (disarming : ∀ verdict verified, h.stage ≠ .disarming verdict verified) :
    (h.advance settings o s).2.stage.armed = true := by
  obtain ⟨request,candidate,clause,departing,basis,gate,stage⟩ := h
  obtain ⟨r,rfl⟩ := Option.isSome_iff_exists.mp requested
  cases stage with
  | checking =>
    rw [advance_block _ _ _ _ (by simp)]
    simp only [Handler.block]
    split
    · rfl
    · split <;> rfl
  | comparing active =>
    rw [advance_block _ _ _ _ (by simp)]
    simp only [Handler.block,Handler.compare]
    split
    · rfl
    · split <;> rfl
  | recording active result =>
    rw [advance_block _ _ _ _ (by simp)]
    simp only [Handler.block,Handler.gated]
    split
    · rfl
    · split <;> rfl
  | acting verdict verified => cases verdict <;> rfl
  | disarming verdict verified => exact absurd rfl (disarming verdict verified)
  | editing active => cases armed
  | arming => cases armed
  | withdrawing verdict verified => cases armed
  | answered verdict verified => cases armed
  | _ => rfl

/-- The gate allows a text only while a request that had it allowed is being handled. -/
structure Guarded (s : System) : Prop where
  planner : ∀ h, s.planner = some h → h.request = none ∧ h.stage.own = true
  requests : ∀ h ∈ s.requests, h.request.isSome = true
  allowed : s.arbiter.appendix = "" ∨ ∃ h ∈ s.requests, h.stage.armed = true

namespace Guarded
variable {s after : System}

theorem same (guarded : Guarded s) (appendix : after.arbiter.appendix = s.arbiter.appendix)
    (planner : after.planner = s.planner) (requests : after.requests = s.requests) : Guarded after where
  planner := planner ▸ guarded.planner
  requests := requests ▸ guarded.requests
  allowed := by
    rw [appendix,requests]
    exact guarded.allowed

theorem plannerBlock (guarded : Guarded s) (settings : Settings) (o : Oracle) (h : Handler)
    (mine : s.planner = some h) :
    Guarded { (s.run settings o h).1 with
      planner := if (s.run settings o h).2.live then some (s.run settings o h).2 else none } := by
  obtain ⟨planned,own⟩ := guarded.planner h mine
  have appendix : (s.run settings o h).1.arbiter.appendix = s.arbiter.appendix := by
    refine advance_appendix settings o h s.arbiter ?_ ?_
    · intro stage
      rw [stage] at own
      cases own
    · intro verdict verified stage
      rw [stage] at own
      cases own
  refine ⟨?_,guarded.requests,?_⟩
  · intro k found
    simp only at found
    split at found
    · rename_i live
      obtain rfl := Option.some.inj found
      exact ⟨(advance_request settings o h s.arbiter).trans planned,advance_own settings o h s.arbiter planned own live⟩
    · cases found
  · rw [appendix]
    exact guarded.allowed

theorem serviceBlock (guarded : Guarded s) (settings : Settings) (on : settings.ltlVerification = true) (o : Oracle)
    (i : Nat) (h : Handler) (mine : s.requests[i]? = some h) :
    Guarded { (s.run settings o h).1 with requests := s.requests.set i (s.run settings o h).2 } := by
  have requested := guarded.requests h (List.mem_of_getElem? mine)
  have placed : (s.run settings o h).2 ∈ s.requests.set i (s.run settings o h).2 :=
    List.mem_of_getElem? (List.getElem?_set_self (List.getElem?_eq_some_iff.mp mine).1)
  refine ⟨guarded.planner,?_,?_⟩
  · intro k member
    obtain member | rfl := List.mem_or_eq_of_mem_set member
    · exact guarded.requests k member
    · exact (congrArg Option.isSome (advance_request settings o h s.arbiter)).trans requested
  · by_cases disarming : ∃ verdict verified, h.stage = .disarming verdict verified
    · obtain ⟨verdict,verified,stage⟩ := disarming
      refine .inl ?_
      change (h.advance settings o s.arbiter).1.appendix = ""
      rw [advance_block _ _ _ _ (by simp [stage])]
      simp only [Handler.block,stage,on]
      rfl
    · have stays : ∀ verdict verified, h.stage ≠ .disarming verdict verified :=
        fun verdict verified stage => disarming ⟨verdict,verified,stage⟩
      by_cases arming : h.stage = .arming
      · refine .inr ⟨_,placed,?_⟩
        change (h.advance settings o s.arbiter).2.stage.armed = true
        rw [advance_block _ _ _ _ (by simp [arming])]
        simp only [Handler.block,arming]
        rfl
      · obtain empty | ⟨k,member,armed⟩ := guarded.allowed
        · exact .inl ((advance_appendix settings o h s.arbiter arming stays).trans empty)
        · obtain ⟨j,found⟩ := List.mem_iff_getElem?.mp member
          by_cases here : j = i
          · subst here
            rw [mine] at found
            obtain rfl := Option.some.inj found
            exact .inr ⟨_,placed,advance_armed settings o h s.arbiter requested armed stays⟩
          · refine .inr ⟨k,List.mem_of_getElem? (i := j) ?_,armed⟩
            rw [List.getElem?_set_ne (fun same => here same.symm)]
            exact found

end Guarded

theorem next_guarded (settings : Settings) (on : settings.ltlVerification = true) (s : System) (e : Event)
    (guarded : Guarded s) : Guarded (s.next settings e) := by
  cases e with
  | mission xml => exact guarded.same (onMission_appendix _ _) rfl rfl
  | echo =>
    cases air : s.air with
    | nil => simpa [System.next,air] using guarded
    | cons xml rest =>
      rw [next_echo settings s xml rest air]
      exact guarded.same (onMission_appendix _ _) rfl rfl
  | candidate xml =>
    refine ⟨?_,guarded.requests,guarded.allowed⟩
    rintro h ⟨⟩
    exact ⟨rfl,rfl⟩
  | request r =>
    refine ⟨guarded.planner,?_,guarded.allowed.imp_right ?_⟩
    · intro h member
      obtain member | rfl := List.mem_append.mp member |>.imp_right List.mem_singleton.mp
      · exact guarded.requests h member
      · unfold Handler.verifyReplan
        split
        · split <;> rfl
        · rfl
    · rintro ⟨h,member,armed⟩
      exact ⟨h,List.mem_append_left _ member,armed⟩
  | planner o =>
    cases mine : s.planner with
    | none => simpa [System.next,mine] using guarded
    | some h =>
      rw [next_planner settings s o h mine]
      exact guarded.plannerBlock settings o h mine
  | service i o =>
    cases mine : s.requests[i]? with
    | none => simpa [System.next,mine] using guarded
    | some h =>
      rw [next_service settings s i o h mine]
      exact guarded.serviceBlock settings on o i h mine
  | orchard map =>
    simp only [System.next]
    split
    · exact guarded
    · exact guarded.same rfl rfl rfl
  | failed reason => exact guarded.same rfl rfl rfl
  | succeeded node => exact guarded.same rfl rfl rfl
  | completed =>
    simp only [System.next]
    split
    · exact guarded
    · exact guarded.same rfl rfl rfl
  | budget answer =>
    simp only [System.next]
    split
    · exact guarded
    · exact guarded.same rfl rfl rfl

theorem quiet_appendix (settings : Settings) (on : settings.ltlVerification = true) (s : System)
    (reached : (machine settings).Reachable s) (free : s.quiet) : s.arbiter.appendix = "" := by
  have guarded : Guarded s := by
    refine reached.invariant Guarded ?_ ?_
    · rintro _ rfl
      exact ⟨by simp,by simp,.inl rfl⟩
    · exact fun s e _ guarded _ _ => next_guarded settings on s e guarded
  obtain empty | ⟨h,member,armed⟩ := guarded.allowed
  · exact empty
  · have past := free.2 h member
    obtain ⟨request,candidate,clause,departing,basis,gate,stage⟩ := h
    cases stage with
    | answered verdict verified => cases armed
    | _ => cases past

theorem withdrawn (set departing : Finset String) : (set ∪ departing) \ departing = set ↔ Disjoint departing set := by
  rw [Finset.union_sdiff_right,Finset.sdiff_eq_self_iff_disjoint,disjoint_comm]

theorem made_fresh (settings : Settings) (s : Arbiter) (r : Request) (departing : Finset String)
    (made : Made settings s r departing) :
    Fresh settings s r ↔ Disjoint departing s.justifiedDrops ∧ Disjoint departing s.transferredObjectives := by
  obtain ⟨active,edit,held,ok,rfl⟩ := made
  constructor
  · intro fresh
    by_cases removing : r.removing = true
    · rw [if_pos removing]
      exact fresh active edit held ok removing
    · rw [if_neg removing]
      exact ⟨Finset.disjoint_empty_left _,Finset.disjoint_empty_left _⟩
  · intro apart other edit' held' ok' removing
    rw [if_pos removing] at apart
    rw [held] at held'
    obtain rfl := Option.some.inj held'
    rw [ok] at ok'
    obtain rfl := Except.ok.inj ok'
    exact apart

/-- A request that is turned down leaves everything as it was exactly where the trees
it would take out were in neither set before. -/
theorem refusal_untouched (settings : Settings) (s : System) (reached : (machine settings).Reachable s)
    (free : s.quiet) (r : Request) (os : List Oracle) (h : Handler)
    (mine : ((machine settings).runs s (alone s r os)).requests[s.requests.length]? = some h)
    (refused : h.turnedDown) :
    Untouched s.arbiter ((machine settings).runs s (alone s r os)).arbiter ↔ Fresh settings s.arbiter r := by
  obtain ⟨after,requests,trace⟩ := alone_trace settings s.arbiter r s.requests os
    (s.next settings (.request r)) (.verifyReplan r s.arbiter) rfl (trace_request settings s.arbiter r)
  obtain rfl : after = h := by
    have found : ((machine settings).runs s (alone s r os)).requests = s.requests ++ [after] := requests
    rw [found] at mine
    simpa using mine
  have ended : ((machine settings).runs s (alone s r os)).arbiter =
      ((machine settings).runs (s.next settings (.request r)) (os.map (.service s.requests.length))).arbiter := rfl
  rw [ended]
  generalize ((machine settings).runs (s.next settings (.request r))
    (os.map (.service s.requests.length))).arbiter = now at trace ⊢
  obtain ⟨request,candidate,clause,departing,basis,gate,stage⟩ := after
  obtain ⟨rfl,trace⟩ := trace
  have spec : (now = s.arbiter ∧ ∀ active edit, s.arbiter.activeMissionXml = some active →
      applyTaskEdit settings s.arbiter.orchard r active ≠ .ok edit) ∨
      (Made settings s.arbiter r departing ∧
        Beliefs settings s.arbiter now ((s.arbiter.justifiedDrops ∪ departing) \ departing)
          ((s.arbiter.transferredObjectives ∪ departing) \ departing)) ∧
        Beliefs.appendix settings s.arbiter now := by
    cases stage with
    | answered verdict verified =>
      cases verdict with
      | accepted => cases refused
      | _ => exact trace
    | _ => cases refused
  obtain ⟨rfl,unmade⟩ | ⟨⟨made,beliefs⟩,appendix⟩ := spec
  · exact ⟨fun _ active edit held ok => absurd ok (unmade active edit held),fun _ => ⟨rfl,rfl,rfl,rfl,rfl,rfl⟩⟩
  · rw [made_fresh settings s.arbiter r departing made]
    constructor
    · intro same
      exact ⟨(withdrawn _ _).mp (beliefs.justified.symm.trans same.justified),
        (withdrawn _ _).mp (beliefs.transferred.symm.trans same.transferred)⟩
    · rintro ⟨justified,transferred⟩
      refine ⟨beliefs.active,beliefs.original,beliefs.justified.trans ((withdrawn _ _).mpr justified),
        beliefs.transferred.trans ((withdrawn _ _).mpr transferred),beliefs.completed,?_⟩
      rw [appendix]
      split
      · rename_i on
        exact (quiet_appendix settings on s reached free).symm
      · rfl

instance (s after : Arbiter) : Decidable (Untouched s after) :=
  decidable_of_iff (after.activeMissionXml = s.activeMissionXml ∧ after.originalObjectives = s.originalObjectives ∧
      after.justifiedDrops = s.justifiedDrops ∧ after.transferredObjectives = s.transferredObjectives ∧
      after.completedObjectives = s.completedObjectives ∧ after.appendix = s.appendix)
    ⟨fun ⟨a,b,c,d,e,f⟩ => ⟨a,b,c,d,e,f⟩,fun ⟨a,b,c,d,e,f⟩ => ⟨a,b,c,d,e,f⟩⟩

instance (h : Handler) : Decidable h.turnedDown := by
  unfold Handler.turnedDown
  split <;> infer_instance

instance (s : System) : Decidable s.quiet := inferInstanceAs (Decidable (_ ∧ _))

/-- Blocks of a request that comes within five seconds of the last acceptance. -/
def tooSoon (now : ℚ) : List Oracle := List.replicate 14 { now := now }

/-- A candidate is accepted, and a tree is to be shed a second later. -/
def soonAfter : System :=
  (machine noFix).runs {} ([.mission (.plan twoTrees),.candidate (.plan twoTrees)] ++ plan 9 10 ++ [.echo])

theorem soonAfter_untouched :
    Untouched soonAfter.arbiter ((machine noFix).runs soonAfter (alone soonAfter (shed 10) (tooSoon 11))).arbiter ∧
      Fresh noFix soonAfter.arbiter (shed 10) := by
  have same : Untouched soonAfter.arbiter
      ((machine noFix).runs soonAfter (alone soonAfter (shed 10) (tooSoon 11))).arbiter := by
    decide +kernel
  have answered : ((machine noFix).runs soonAfter (alone soonAfter (shed 10) (tooSoon 11))).requests[
      soonAfter.requests.length]?.any (fun h => decide h.turnedDown) = true := by
    decide +kernel
  obtain ⟨h,mine,refused⟩ := (Option.any_eq_true _ _).mp answered
  have reached : (machine noFix).Reachable soonAfter :=
    (machine noFix).reaches_runs _ {} _ (.start _ rfl) (by decide +kernel)
  exact ⟨same,(refusal_untouched noFix soonAfter reached (by decide +kernel) (shed 10) (tooSoon 11) h mine
    (of_decide_eq_true refused)).mp same⟩

/-- Tree 10 was dropped for a permanent failure, and is back in the plan. -/
def droppedBefore : List Event :=
  [.mission (.plan twoTrees),.failed "permanently blocked",
    .candidate (.plan { twoTrees with tree := [.node 0 ⟨.sequence,[]⟩ [visitTree 3 60]] })] ++ plan 9 10 ++
    [.echo,.candidate (.plan twoTrees)] ++ plan 9 20 ++ [.echo]

/-- Tree 10 went to a peer, and was taken back on. -/
def transferredBefore : List Event :=
  [.mission (.plan twoTrees),.request (shed 10)] ++ serve 0 13 10 ++ [.echo,.request (absorb 10 10)] ++
    serve 1 14 20 ++ [.echo]

/-- After the run a request is refused on its own, and the arbiter is not as it was. -/
def Forgets (run : List Event) : Prop :=
  (machine noFix).Reachable ((machine noFix).runs {} run) ∧
    ((machine noFix).runs {} run).quiet ∧
      ((machine noFix).runs {} (run ++ alone ((machine noFix).runs {} run) (shed 10) (tooSoon 21))).requests.any
        (fun h => h.turnedDown) = true ∧
      ¬Untouched ((machine noFix).runs {} run).arbiter
        ((machine noFix).runs ((machine noFix).runs {} run)
          (alone ((machine noFix).runs {} run) (shed 10) (tooSoon 21))).arbiter

theorem refusal_forgets : Forgets droppedBefore ∧ Forgets transferredBefore := by
  have follows : ∀ run ∈ [droppedBefore,transferredBefore], (machine noFix).Follows (fun _ _ => True) {} run := by
    decide +kernel
  have differs : ∀ run ∈ [droppedBefore,transferredBefore], ((machine noFix).runs {} run).quiet ∧
        ((machine noFix).runs {} (run ++ alone ((machine noFix).runs {} run) (shed 10) (tooSoon 21))).requests.any
          (fun h => h.turnedDown) = true ∧
        ¬Untouched ((machine noFix).runs {} run).arbiter
          ((machine noFix).runs ((machine noFix).runs {} run)
            (alone ((machine noFix).runs {} run) (shed 10) (tooSoon 21))).arbiter := by
    decide +kernel
  have forgets : ∀ run ∈ [droppedBefore,transferredBefore], Forgets run := fun run member =>
    ⟨(machine noFix).reaches_runs _ {} run (.start _ rfl) (follows run member),differs run member⟩
  exact ⟨forgets droppedBefore (by simp),forgets transferredBefore (by simp)⟩

end AmigaFleet.Replanning
