import AmigaFleet.Replanning.Decisions

/-! The gate's answer to a candidate, and what the arbiter says of it afterwards. The
two are joined by one field that every decision writes to. -/
namespace AmigaFleet.Replanning
open Lib

/-- The gate checked this very candidate and reached a conclusion, a favourable one
where the candidate was accepted. -/
def Handler.Checked (h : Handler) (verdict : Verdict) : Prop :=
  ∃ result, h.gate = some result ∧ result.verified = true ∧ (verdict = .accepted → result.accepted = true)

/-- At the gate, its answer not yet recorded. -/
def Handler.atGate (h : Handler) : Bool :=
  match h.stage with
  | .reading | .comparing _ | .judging _ | .recording _ _ => true
  | _ => false

def System.atGate (s : System) : Nat := s.requests.countP Handler.atGate + s.planner.toList.countP Handler.atGate

/-- Every answer that says verified was checked, and every candidate that came to the
gate is counted once or still there. -/
def Vouched (s : System) : Prop :=
  (∀ h ∈ s.requests, ∀ verdict, h.stage = .answered verdict true → h.Checked verdict) ∧
    s.arbiter.lastStatus.ltlChecked + s.arbiter.lastStatus.ltlUnverified + s.atGate = s.arrived

/-- The block records that the gate came to a conclusion. -/
def Handler.concludes (h : Handler) : Bool :=
  match h.stage with
  | .recording _ result => result.verified
  | _ => false

/-- The handler has cleared the field, or recorded its own answer, and has yet to read it. -/
def Handler.waits (h : Handler) : Bool :=
  match h.stage with
  | .checking | .counting _ | .limiting | .returned _ => true
  | _ => false

/-- No conclusion is recorded while another request waits to read its own. -/
def Undisturbed (s : System) : Event → Prop
  | .planner _ => s.planner.any Handler.concludes = true → ∀ h ∈ s.requests, h.waits = false
  | .service i _ => s.requests[i]?.any Handler.concludes = true → ∀ h ∈ s.requests.eraseIdx i, h.waits = false
  | _ => True

instance (s : System) : (e : Event) → Decidable (Undisturbed s e)
  | .planner _ =>
    inferInstanceAs (Decidable (s.planner.any Handler.concludes = true → ∀ h ∈ s.requests, h.waits = false))
  | .service i _ =>
    inferInstanceAs (Decidable (s.requests[i]?.any Handler.concludes = true →
      ∀ h ∈ s.requests.eraseIdx i, h.waits = false))
  | .mission _ | .echo | .candidate _ | .request _ | .orchard _ | .failed _ | .succeeded _ | .completed
  | .budget _ => inferInstanceAs (Decidable True)

/-- What the field, where it is set, says of the handler that will read it. -/
def Handler.Owns (set : Bool) (h : Handler) : Prop :=
  match h.stage with
  | .checking => set = false
  | .counting reason => set = true → h.Checked (.refused reason)
  | .limiting => set = true → h.Checked .accepted
  | .returned verdict => set = true → h.Checked verdict
  | .acting verdict verified | .disarming verdict verified | .withdrawing verdict verified
  | .answered verdict verified => verified = true → h.Checked verdict
  | .publishing verified => verified = true → h.Checked .accepted
  | _ => True

theorem owns_less (h : Handler) (set less : Bool) (owns : h.Owns set) (fewer : less = true → set = true) :
    h.Owns less := by
  obtain ⟨request,candidate,clause,departing,basis,gate,stage⟩ := h
  cases stage with
  | checking =>
    have clear : set = false := owns
    exact Bool.eq_false_iff.mpr (fun more => by simp [fewer more] at clear)
  | counting reason => exact fun more => owns (fewer more)
  | limiting => exact fun more => owns (fewer more)
  | returned verdict => exact fun more => owns (fewer more)
  | _ => exact owns

theorem owns_any (h : Handler) (set other : Bool) (owns : h.Owns set) (free : h.waits = false) : h.Owns other := by
  obtain ⟨request,candidate,clause,departing,basis,gate,stage⟩ := h
  cases stage with
  | checking => cases free
  | counting reason => cases free
  | limiting => cases free
  | returned verdict => cases free
  | _ => exact owns

/-- The field after a block of one handler: only a conclusion sets it. -/
theorem advance_field (settings : Settings) (o : Oracle) (h : Handler) (s : Arbiter) (quiet : h.concludes = false) :
    (h.advance settings o s).1.lastGateVerified = true → s.lastGateVerified = true := by
  obtain ⟨request,candidate,clause,departing,basis,gate,stage⟩ := h
  cases stage with
  | editing active => cases request <;> exact id
  | arming =>
    rw [advance_block _ _ _ _ (by simp)]
    simp only [Handler.block]
    split <;> exact id
  | clearing => nofun
  | checking =>
    rw [advance_block _ _ _ _ (by simp)]
    simp only [Handler.block]
    split
    · exact id
    · split <;> exact id
  | recording active result =>
    intro set
    have verified : result.verified = true := set
    have unverified : result.verified = false := quiet
    rw [verified] at unverified
    cases unverified
  | acting verdict verified => cases verdict <;> exact id
  | disarming verdict verified =>
    rw [advance_block _ _ _ _ (by simp)]
    simp only [Handler.block]
    split <;> exact id
  | _ => exact id

/-- One block of the handler itself. -/
theorem advance_owns (settings : Settings) (o : Oracle) (h : Handler) (s : Arbiter) (owns : h.Owns s.lastGateVerified) :
    (h.advance settings o s).2.Owns (h.advance settings o s).1.lastGateVerified := by
  obtain ⟨request,candidate,clause,departing,basis,gate,stage⟩ := h
  cases stage with
  | editing active =>
    cases request with
    | none => exact trivial
    | some r =>
      simp only [Handler.advance,Handler.edit]
      split
      · exact nofun
      · exact trivial
  | clearing => exact rfl
  | checking =>
    have clear : s.lastGateVerified = false := owns
    rw [advance_block _ _ _ _ (by simp)]
    simp only [Handler.block]
    split
    · exact fun set => by simp [clear] at set
    · split
      · exact trivial
      · exact fun set => by simp [Arbiter.count,clear] at set
  | comparing active =>
    rw [advance_block _ _ _ _ (by simp)]
    simp only [Handler.block,Handler.compare]
    split
    · exact trivial
    · split <;> exact trivial
  | recording active result =>
    rw [advance_block _ _ _ _ (by simp)]
    simp only [Handler.block,Handler.gated]
    split
    · exact fun set => ⟨result,rfl,set,nofun⟩
    · rename_i accepted
      have passed : result.accepted = true := by simpa using accepted
      split
      · exact fun set => ⟨result,rfl,set,nofun⟩
      · exact fun set => ⟨result,rfl,set,fun _ => passed⟩
  | counting reason => exact owns
  | limiting =>
    rw [advance_block _ _ _ _ (by simp)]
    simp only [Handler.block,Arbiter.rateLimit]
    split
    · intro set
      obtain ⟨result,gate,verified,-⟩ := owns set
      exact ⟨result,gate,verified,nofun⟩
    · exact owns
  | returned verdict => exact owns
  | acting verdict verified =>
    cases verdict with
    | accepted => exact owns
    | _ => cases request <;> exact owns
  | publishing verified => cases request <;> exact owns
  | disarming verdict verified =>
    rw [advance_block _ _ _ _ (by simp)]
    simp only [Handler.block]
    split <;> (split <;> exact owns)
  | withdrawing verdict verified => exact owns
  | answered verdict verified => exact owns
  | _ => exact trivial

def Arbiter.graded (s : Arbiter) : Nat := s.lastStatus.ltlChecked + s.lastStatus.ltlUnverified

theorem edit_stage (settings : Settings) (s : Arbiter) (r : Request) (active : Xml) (h : Handler) :
    (h.edit settings s r active).stage = .arming ∨
      ∃ reason, (h.edit settings s r active).stage = .answered (.refused reason) false := by
  unfold Handler.edit
  cases applyTaskEdit settings s.orchard r active with
  | error reason => exact .inr ⟨reason,rfl⟩
  | ok edit => exact .inl rfl

theorem compare_stage (h : Handler) (active : Option Xml) (s : Arbiter) :
    (∃ result, h.compare active s = .recording active result) ∨ h.compare active s = .judging active := by
  unfold Handler.compare
  cases textUnchanged h.candidate.text active s.appendix with
  | some reason => exact .inl ⟨_,rfl⟩
  | none =>
    by_cases empty : h.candidate.text = ""
    · exact .inl ⟨_,if_pos empty⟩
    · exact .inr (if_neg empty)

/-- A block counts what leaves the gate, or what came to it with nothing to do there. -/
theorem advance_graded (settings : Settings) (o : Oracle) (h : Handler) (s : Arbiter) :
    (h.advance settings o s).1.graded + (if (h.advance settings o s).2.atGate then 1 else 0) =
      s.graded + (if h.atGate then 1 else 0) + if h.arrives (h.advance settings o s).2 then 1 else 0 := by
  obtain ⟨request,candidate,clause,departing,basis,gate,stage⟩ := h
  cases stage with
  | editing active =>
    cases request with
    | none => rfl
    | some r =>
      have advanced := edit_stage settings s r active
        { request := some r, candidate, clause, departing, basis, gate, stage := .editing active }
      change s.graded + (if (Handler.edit settings s r active _).atGate then 1 else 0) = _
      obtain arming | ⟨reason,refused⟩ := advanced
      · simp only [Handler.atGate,Handler.arrives,arming]
        rfl
      · simp only [Handler.atGate,Handler.arrives,refused]
        rfl
  | arming =>
    rw [advance_block _ _ _ _ (by simp)]
    simp only [Handler.block]
    split <;> rfl
  | checking =>
    rw [advance_block _ _ _ _ (by simp)]
    cases found : s.structural settings o.schema candidate with
    | some verdict =>
      have block : Handler.block settings o ⟨request,candidate,clause,departing,basis,gate,.checking⟩ s =
          (s,.returned verdict) := by
        simp only [Handler.block,found]
      rw [block]
      cases verdict with
      | accepted => exact absurd rfl (structural_ne _ _ _ _ _ found)
      | _ => rfl
    | none =>
      simp only [Handler.block,found]
      split
      · rfl
      · exact (Nat.add_assoc _ _ 1).symm
  | comparing active =>
    obtain ⟨result,recording⟩ | judging := compare_stage
      { request, candidate, clause, departing, basis, gate, stage := .comparing active } active s
    · rw [advance_block _ _ _ _ (by simp)]
      simp only [Handler.block,recording]
      rfl
    · rw [advance_block _ _ _ _ (by simp)]
      simp only [Handler.block,judging]
      rfl
  | recording active result =>
    rw [advance_block _ _ _ _ (by simp)]
    have counted : (s.record result).graded = s.graded + 1 := by
      simp only [Arbiter.graded,Arbiter.record]
      split <;> omega
    simp only [Handler.block,Handler.gated,counted]
    split
    · rfl
    · split <;> rfl
  | acting verdict verified => cases verdict <;> cases request <;> rfl
  | publishing verified => cases request <;> rfl
  | disarming verdict verified =>
    rw [advance_block _ _ _ _ (by simp)]
    simp only [Handler.block]
    split <;> (split <;> rfl)
  | _ => rfl

/-- Nobody reads as its own a conclusion that was reached on another's candidate. -/
structure Sound (s : System) : Prop where
  owns : ∀ h ∈ s.requests, h.Owns s.arbiter.lastGateVerified
  graded : s.arbiter.graded + s.atGate = s.arrived

namespace Sound
variable {s after : System}

theorem same (sound : Sound s) (field : after.arbiter.lastGateVerified = s.arbiter.lastGateVerified)
    (graded : after.arbiter.graded = s.arbiter.graded) (planner : after.planner = s.planner)
    (requests : after.requests = s.requests) (arrived : after.arrived = s.arrived) : Sound after where
  owns := by
    rw [field,requests]
    exact sound.owns
  graded := by
    unfold System.atGate
    rw [graded,planner,requests,arrived]
    exact sound.graded

/-- The others still own what they will read, unless they wait while a conclusion is recorded. -/
theorem others (settings : Settings) (o : Oracle) (h k : Handler) (s : Arbiter) (owns : k.Owns s.lastGateVerified)
    (free : h.concludes = true → k.waits = false) : k.Owns (h.advance settings o s).1.lastGateVerified := by
  cases concludes : h.concludes with
  | true => exact owns_any k _ _ owns (free concludes)
  | false => exact owns_less k _ _ owns (advance_field settings o h s concludes)

theorem plannerBlock (sound : Sound s) (settings : Settings) (o : Oracle) (h : Handler) (mine : s.planner = some h)
    (free : h.concludes = true → ∀ k ∈ s.requests, k.waits = false) :
    Sound { (s.run settings o h).1 with
      planner := if (s.run settings o h).2.live then some (s.run settings o h).2 else none } := by
  refine ⟨fun k member => others settings o h k s.arbiter (sound.owns k member) (fun more => free more k member),?_⟩
  have step := advance_graded settings o h s.arbiter
  have before := sound.graded
  have gone : (if (s.run settings o h).2.live then some (s.run settings o h).2 else none).toList.countP Handler.atGate =
      if (s.run settings o h).2.atGate then 1 else 0 := by
    generalize (s.run settings o h).2 = k
    obtain ⟨request,candidate,clause,departing,basis,gate,stage⟩ := k
    cases stage <;> rfl
  simp only [System.atGate] at before ⊢
  rw [gone]
  simp only [mine,Option.toList_some,List.countP_singleton] at before
  change (h.advance settings o s.arbiter).1.graded + (s.requests.countP Handler.atGate +
    if (h.advance settings o s.arbiter).2.atGate then 1 else 0) =
      s.arrived + if h.arrives (h.advance settings o s.arbiter).2 then 1 else 0
  change s.arbiter.graded + _ = _ at before
  omega

theorem serviceBlock (sound : Sound s) (settings : Settings) (o : Oracle) (i : Nat) (h : Handler)
    (mine : s.requests[i]? = some h) (free : h.concludes = true → ∀ k ∈ s.requests.eraseIdx i, k.waits = false) :
    Sound { (s.run settings o h).1 with requests := s.requests.set i (s.run settings o h).2 } := by
  refine ⟨?_,?_⟩
  · intro k member
    obtain ⟨j,found⟩ := List.mem_iff_getElem?.mp member
    obtain ⟨-,rfl⟩ | ⟨other,found⟩ := set_placed _ _ _ j k found
    · exact advance_owns settings o h s.arbiter (sound.owns h (List.mem_of_getElem? mine))
    · refine others settings o h k s.arbiter (sound.owns k (List.mem_of_getElem? found)) (fun more => free more k ?_)
      exact List.mem_eraseIdx_iff_getElem?.mpr ⟨j,other,found⟩
  · obtain ⟨bound,same⟩ := List.getElem?_eq_some_iff.mp mine
    have step := advance_graded settings o h s.arbiter
    have before := sound.graded
    have here : (if h.atGate then 1 else 0) ≤ s.requests.countP Handler.atGate := by
      rw [← same]
      exact List.boole_getElem_le_countP bound
    simp only [System.atGate] at before ⊢
    rw [List.countP_set bound,same]
    change (h.advance settings o s.arbiter).1.graded +
      (s.requests.countP Handler.atGate - (if h.atGate then 1 else 0) +
        (if (h.advance settings o s.arbiter).2.atGate then 1 else 0) + s.planner.toList.countP Handler.atGate) =
      s.arrived + if h.arrives (h.advance settings o s.arbiter).2 then 1 else 0
    omega

end Sound

theorem next_sound (settings : Settings) (s : System) (e : Event) (sound : Sound s) (enabled : s.enabled e)
    (undisturbed : Undisturbed s e) : Sound (s.next settings e) := by
  have delivered (xml : Xml) : (s.arbiter.onMission xml).lastGateVerified = s.arbiter.lastGateVerified ∧
      (s.arbiter.onMission xml).graded = s.arbiter.graded := by
    unfold Arbiter.onMission
    split
    · exact ⟨rfl,rfl⟩
    · split <;> exact ⟨rfl,rfl⟩
  cases e with
  | mission xml => exact sound.same (delivered xml).1 (delivered xml).2 rfl rfl rfl
  | echo =>
    cases air : s.air with
    | nil => simpa [System.next,air] using sound
    | cons xml rest =>
      rw [next_echo settings s xml rest air]
      exact sound.same (delivered xml).1 (delivered xml).2 rfl rfl rfl
  | candidate xml =>
    have free : s.planner = none := by
      have idle : s.idle = true := enabled
      simp only [System.idle,Bool.and_eq_true,Option.isNone_iff_eq_none] at idle
      exact idle.1
    refine ⟨sound.owns,?_⟩
    have before := sound.graded
    simp only [System.atGate,free] at before
    exact before
  | request r =>
    have fresh : (Handler.verifyReplan r s.arbiter).Owns s.arbiter.lastGateVerified ∧
        (Handler.verifyReplan r s.arbiter).atGate = false := by
      unfold Handler.verifyReplan
      split
      · split
        · exact ⟨by simp [Handler.Owns],rfl⟩
        · exact ⟨trivial,rfl⟩
      · exact ⟨by simp [Handler.Owns],rfl⟩
    constructor
    · intro h member
      obtain member | last := List.mem_append.mp member
      · exact sound.owns h member
      · obtain rfl := List.mem_singleton.mp last
        exact fresh.1
    · have before := sound.graded
      simp only [System.atGate] at before
      simpa [System.next,System.atGate,List.countP_append,fresh.2] using before
  | planner o =>
    cases mine : s.planner with
    | none => simpa [System.next,mine] using sound
    | some h =>
      rw [next_planner settings s o h mine]
      exact sound.plannerBlock settings o h mine (fun concludes => undisturbed (by simp [mine,concludes]))
  | service i o =>
    cases mine : s.requests[i]? with
    | none => simpa [System.next,mine] using sound
    | some h =>
      rw [next_service settings s i o h mine]
      exact sound.serviceBlock settings o i h mine (fun concludes => undisturbed (by simp [mine,concludes]))
  | orchard map =>
    simp only [System.next]
    split
    · exact sound
    · exact sound.same rfl rfl rfl rfl rfl
  | failed reason => exact sound.same rfl rfl rfl rfl rfl
  | succeeded node => exact sound.same rfl rfl rfl rfl rfl
  | completed =>
    simp only [System.next]
    split
    · exact sound
    · exact sound.same rfl rfl rfl rfl rfl
  | budget answer =>
    simp only [System.next]
    split
    · exact sound
    · exact sound.same rfl rfl rfl rfl rfl

/-- Every answer is vouched for where no conclusion is recorded between another
request's check and its answer. -/
theorem answers_vouched (settings : Settings) (s : System) (reached : (machine settings).Reaches Undisturbed s) :
    Vouched s := by
  have sound : Sound s := by
    refine reached.invariant Sound ?_ ?_
    · rintro _ rfl
      exact ⟨by simp,rfl⟩
    · intro s e _ sound enabled undisturbed
      exact next_sound settings s e sound enabled undisturbed
  refine ⟨fun h member verdict stage => ?_,sound.graded⟩
  have owns := sound.owns h member
  unfold Handler.Owns at owns
  rw [stage] at owns
  exact owns rfl

def spokenTrees : Document := { twoTrees with mission := some "visit trees 10 and 60" }

/-- The blocks of one request up to where its gate's answer is recorded. -/
def upToRecord (i : Nat) (outcome : Outcome) : List Event := List.replicate 9 (.service i { outcome := outcome, now := 10 })

/-- Verified, it says, where SPIN was missing. -/
def Handler.unfounded (h : Handler) : Bool :=
  decide (h.stage = .answered .accepted true ∧ h.gate = some ⟨true,.said "unverified: spin not installed",false⟩)

/-- Nothing checked the first request's plan; the second's was checked while the first
had its answer still to give. -/
def borrowed : List Event :=
  [.mission (.plan spokenTrees),.request (shed 10),.request (shed 60)] ++ upToRecord 0 .noSpin ++
    upToRecord 1 (.holds "F (tree 60)") ++ serve 0 5 10

theorem borrowed_unvouched :
    (machine noFix).Reachable ((machine noFix).runs {} borrowed) ∧ ¬Vouched ((machine noFix).runs {} borrowed) := by
  have answered : ((machine noFix).runs {} borrowed).requests[0]?.any Handler.unfounded = true := by
    decide +kernel
  refine ⟨(machine noFix).reaches_runs _ {} borrowed (.start _ rfl) (by decide +kernel),fun vouched => ?_⟩
  obtain ⟨h,found,holds⟩ := (Option.any_eq_true _ _).mp answered
  obtain ⟨stage,gate⟩ : h.stage = .answered .accepted true ∧
      h.gate = some ⟨true,.said "unverified: spin not installed",false⟩ := of_decide_eq_true holds
  obtain ⟨result,heard,verified,-⟩ := vouched.1 h (List.mem_of_getElem? found) .accepted stage
  rw [gate] at heard
  obtain rfl := Option.some.inj heard
  cases verified

/-- The same two, one after the other. -/
def inTurn : List Event :=
  [.mission (.plan spokenTrees),.request (shed 10)] ++ upToRecord 0 (.holds "F (tree 60)") ++ serve 0 5 10 ++
    [.request (shed 60)] ++ upToRecord 1 .noSpin ++ serve 1 5 20

theorem inTurn_vouched :
    Vouched ((machine noFix).runs {} inTurn) ∧
      ((machine noFix).runs {} inTurn).requests.map Handler.stage =
        [.answered .accepted true,.answered .accepted false] :=
  ⟨answers_vouched noFix _ ((machine noFix).reaches_runs _ {} inTurn (.start _ rfl) (by decide +kernel)),
    by decide +kernel⟩

end AmigaFleet.Replanning
