import AmigaFleet.Coordinator.Delegation

/-! The auction cap. Delegation checks it; a GRANT that fails after `_grant` has
returned does not, and brings a record back that no longer counts. -/
namespace AmigaFleet.Coordinator
open Lib AmigaFleet.Codec AmigaFleet.Reliability

namespace Desk
variable (params : CoordinatorParams) (world : World) (peers : Registry)

/-- The ways a record under auction stays there: its auction is still open, a
cycle is left once every bid has failed, or so after the next bid has failed. -/
inductive Relapses : ℚ → Desk → Prop
  | waits (now : ℚ) (d : Desk) (auction : Auction) (present : d.record.auction = some auction)
      (quiet : auction.shouldClose now = false) : Relapses now d
  | cycles (now later : ℚ) (d : Desk) (auction : Auction) (winner : ReceivedBid)
      (shown : Flow Desk → Flow Desk) (present : d.record.auction = some auction)
      (closes : auction.shouldClose now = true) (best : auction.winner = some winner)
      (fails : Fails world (d.award world winner.bidderId) now (world.sendReliable d.log) later shown)
      (nobody : (auction.forget winner.bidderId).winner = none)
      (room : d.record.delegationAttempts < params.maxDelegationAttempts) : Relapses now d
  | next (now later : ℚ) (d : Desk) (auction : Auction) (winner : ReceivedBid)
      (shown : Flow Desk → Flow Desk) (present : d.record.auction = some auction)
      (closes : auction.shouldClose now = true) (best : auction.winner = some winner)
      (fails : Fails world (d.award world winner.bidderId) now (world.sendReliable d.log) later shown)
      (runnerUp : ((auction.forget winner.bidderId).winner).isSome = true)
      (rest : Relapses later ((d.award world winner.bidderId).lose winner.bidderId).reopen) :
      Relapses now d

def Returns (winnerId : Int) (d : Desk) : Prop :=
  ((d.lose winnerId).runnerUp = none ∧ d.record.delegationAttempts < params.maxDelegationAttempts) ∨
    ((d.lose winnerId).runnerUp.isSome = true ∧
      Relapses params world (world.clock d.log) (d.lose winnerId).reopen)

theorem fails_later (d : Desk) (now later other : ℚ) (reply : Reply) (shown also : Flow Desk → Flow Desk)
    (fails : Fails world d now reply later shown) (again : Fails world d now reply other also) :
    later = other := by
  cases fails <;> cases again <;> rfl

theorem dispose_announced (disposition : LocalDisposition) (now : ℚ) (d : Desk) :
    (d.disposeLocally disposition now).record.state ≠ .announced := by
  rw [dispose_record]
  split <;> simp

theorem grantDelivered_announced (winnerId : Int) (now : ℚ) (d : Desk) :
    (d.grantDelivered winnerId now).record.state ≠ .announced := by
  rw [grantDelivered_record]
  simp

theorem announce_announced (now : ℚ) (d : Desk) :
    (d.announce params world peers now).state.record.state = .announced := by
  obtain ⟨_,_,_,shape⟩ := announce_record params world peers now d
  rw [shape]

theorem fallBack_announced (now : ℚ) (d : Desk) :
    (d.fallBack params world peers now).state.record.state = .announced ↔
      d.record.delegationAttempts < params.maxDelegationAttempts := by
  obtain ⟨room,again⟩ | ⟨spent,ended⟩ := fallBack_cases params world peers now d
  · rw [again]
    exact ⟨fun _ => room,fun _ => announce_announced params world peers now _⟩
  · rw [ended]
    constructor
    · intro announced
      exact absurd announced (dispose_announced _ now _)
    · intro room
      exact absurd room (not_lt.mpr spent)

theorem runnerUp_auction (d : Desk) (runnerUp : d.runnerUp.isSome = true) :
    d.record.auction.isSome = true := by
  cases auction : d.record.auction with
  | none => simp [Desk.runnerUp,auction] at runnerUp
  | some _ => rfl

theorem relapses_inv (now : ℚ) (d : Desk) (auction : Auction) (present : d.record.auction = some auction)
    (closes : auction.shouldClose now = true) (relapses : Relapses params world now d) :
    ∃ winner later shown, auction.winner = some winner ∧
      Fails world (d.award world winner.bidderId) now (world.sendReliable d.log) later shown ∧
      (((auction.forget winner.bidderId).winner = none ∧
        d.record.delegationAttempts < params.maxDelegationAttempts) ∨
      (((auction.forget winner.bidderId).winner).isSome = true ∧
        Relapses params world later ((d.award world winner.bidderId).lose winner.bidderId).reopen)) := by
  match relapses with
  | .waits _ _ other found quiet =>
    rw [present] at found
    cases found
    rw [closes] at quiet
    cases quiet
  | .cycles _ later _ other winner shown found _ best fails nobody room =>
    rw [present] at found
    cases found
    exact ⟨winner,later,shown,best,fails,.inl ⟨nobody,room⟩⟩
  | .next _ later _ other winner shown found _ best fails runnerUp rest =>
    rw [present] at found
    cases found
    exact ⟨winner,later,shown,best,fails,.inr ⟨runnerUp,rest⟩⟩

/-- A GRANT that does not fail inside the cascade ends it. -/
theorem not_relapses (now : ℚ) (d : Desk) (auction : Auction) (present : d.record.auction = some auction)
    (closes : auction.shouldClose now = true)
    (accepted : ¬ (world.sendReliable d.log = .refused ∨ world.sendReliable d.log = .resolved .failed)) :
    ¬ Relapses params world now d := by
  intro relapses
  obtain ⟨_,_,_,_,fails,_⟩ := relapses_inv params world now d auction present closes relapses
  exact accepted (reply_of_fails world _ _ _ _ _ fails)

/-- Induction over the cascade: it ends ANNOUNCED exactly if it relapses. -/
theorem closing_announced (now : ℚ) (d : Desk) (after : Flow Desk)
    (closing : Closing params world peers now d after) (announced : d.record.state = .announced)
    (open_ : d.record.auction.isSome = true) :
    after.state.record.state = .announced ↔ Relapses params world now d := by
  induction closing with
  | still now d quiet =>
    obtain ⟨auction,present⟩ := Option.isSome_iff_exists.mp open_
    exact ⟨fun _ => .waits now d auction present (quiet auction present),fun _ => announced⟩
  | noBid now d auction present closes nobody =>
    constructor
    · intro ended
      exact absurd ended (dispose_announced _ now _)
    · intro relapses
      obtain ⟨_,_,_,best,_⟩ := relapses_inv params world now d auction present closes relapses
      rw [nobody] at best
      cases best
  | pending now d auction winner present closes best reply =>
    constructor
    · intro ended
      cases ended
    · intro relapses
      exact absurd relapses (not_relapses params world now d auction present closes (by simp [reply]))
  | delivered now d auction winner present closes best reply =>
    constructor
    · intro ended
      exact absurd ended (grantDelivered_announced _ _ _)
    · intro relapses
      exact absurd relapses (not_relapses params world now d auction present closes (by simp [reply]))
  | exhausted now later d auction winner shown present closes best fails nobody =>
    rw [fails_state world _ _ _ _ _ fails,fallBack_announced]
    constructor
    · intro room
      exact .cycles now later d auction winner shown present closes best fails nobody room
    · intro relapses
      obtain ⟨_,_,_,same,_,⟨_,room⟩ | ⟨runnerUp,_⟩⟩ :=
        relapses_inv params world now d auction present closes relapses
      · exact room
      · rw [best] at same
        cases same
        rw [nobody] at runnerUp
        cases runnerUp
  | again now later d auction winner shown after present closes best fails runnerUp rest ih =>
    rw [fails_state world _ _ _ _ _ fails]
    have reopened : ((d.award world winner.bidderId).lose winner.bidderId).reopen.record.auction.isSome =
        true := by
      simp [reopen_record,lose_record,award_auction,present]
    rw [ih rfl reopened]
    constructor
    · intro relapses
      exact .next now later d auction winner shown present closes best fails runnerUp relapses
    · intro relapses
      obtain ⟨_,_,_,same,again,⟨nobody,_⟩ | ⟨_,rest⟩⟩ :=
        relapses_inv params world now d auction present closes relapses
      · rw [best] at same
        cases same
        rw [nobody] at runnerUp
        cases runnerUp
      · rw [best] at same
        cases same
        rw [fails_later world _ _ _ _ _ _ _ fails again]
        exact rest

theorem settle_announced (winnerId : Int) (outcome : Outcome) (d : Desk) :
    (d.settle params world peers winnerId outcome).state.record.state = .announced ↔
      (d.record.state ≠ .granted ∧ d.record.state = .announced) ∨
      (d.record.state = .granted ∧ outcome = .failed ∧ Returns params world winnerId d) := by
  obtain ⟨stale,same⟩ | ⟨granted,good,same⟩ | ⟨granted,bad,⟨nobody,same⟩ | ⟨runnerUp,closing⟩⟩ :=
    settle_cases params world peers winnerId outcome d
  · rw [same]
    simp [stale]
  · rw [same]
    constructor
    · intro ended
      exact absurd ended (grantDelivered_announced _ _ _)
    · rintro (⟨other,_⟩ | ⟨_,failed,_⟩)
      · exact absurd granted other
      · rw [good] at failed
        cases failed
  · rw [same,fallBack_announced]
    simp [granted,bad,Returns,nobody,lose_record]
  · have open_ : (d.lose winnerId).reopen.record.auction.isSome = true :=
      runnerUp_auction (d.lose winnerId) runnerUp
    have some : (d.lose winnerId).runnerUp ≠ none := by
      intro nobody
      rw [nobody] at runnerUp
      cases runnerUp
    rw [closing_announced params world peers _ _ _ closing rfl open_]
    simp [granted,bad,Returns,runnerUp,some]

end Desk

namespace Session
variable (cfg : Config) (world : World)

def Capped (s : Session) : Prop := (s.openAuctions : Int) ≤ cfg.params.maxOpenAuctions

instance (s : Session) : Decidable (s.Capped cfg) := inferInstanceAs (Decidable (_ ≤ _))

theorem openAuctions_enroll (task : Task) (s : Session) : (s.enroll task).openAuctions ≤ s.openAuctions := by
  have count := Dict.countValues_set s.tasks (fun r => r.state = .announced) task.taskId
    { serial := s.nextSerial, task := task }
  have fresh : Dict.indicator (fun r : OwnedTask => decide (r.state = .announced))
      (some { serial := s.nextSerial, task := task }) = 0 := rfl
  rw [fresh] at count
  show (s.tasks.set task.taskId _).countValues _ ≤ s.tasks.countValues _
  omega

theorem deal_capped (taskId : Int) (work : Desk → Flow Desk) (s : Session) (before : s.Capped cfg) :
    (s.deal taskId work).state.Capped cfg ↔ ∀ r, s.tasks.get? taskId = some r →
      (work ⟨r,s.log,s.futures⟩).state.record.state = .announced → r.state ≠ .announced →
      (s.openAuctions : Int) < cfg.params.maxOpenAuctions := by
  cases found : s.tasks.get? taskId with
  | none =>
    rw [state_deal_none taskId work s found]
    simp [before]
  | some record =>
    rw [state_deal taskId work s record found]
    generalize after : (work ⟨record,s.log,s.futures⟩).state = d
    have count := Dict.countValues_set s.tasks (fun r => r.state = .announced) taskId d.record
    rw [found] at count
    simp only [Dict.indicator,decide_eq_true_eq] at count
    unfold Capped at before ⊢
    simp only [openAuctions,store] at before ⊢
    constructor
    · intro capped r same ended other
      cases same
      rw [after] at ended
      rw [if_neg other,if_pos ended] at count
      omega
    · intro room
      by_cases ended : d.record.state = .announced
      · rw [if_pos ended] at count
        by_cases other : record.state = .announced
        · rw [if_pos other] at count
          omega
        · rw [if_neg other] at count
          have room := room record rfl (after ▸ ended) other
          omega
      · rw [if_neg ended] at count
        omega

theorem move_capped (s t : Session) (move : Move cfg world s t) (before : s.Capped cfg) : t.Capped cfg := by
  have enrolled : ∀ (task : Task) (u : Session), u.Capped cfg → (u.enroll task).Capped cfg := by
    intro task u capped
    have fewer := openAuctions_enroll task u
    unfold Capped at capped ⊢
    omega
  cases move with
  | aside t tasks log futures serial =>
    unfold Capped openAuctions at before ⊢
    rw [tasks]
    exact before
  | told call plain => exact before
  | enrolled task free => exact enrolled task s before
  | absorbed task cause note free => exact enrolled task s before
  | unabsorbed task cause note free =>
    have capped := enrolled task s before
    have fewer := Dict.countValues_retain (s.enroll task).tasks (fun r => r.state = .announced)
      (fun id _ => id ≠ task.taskId)
    unfold Capped openAuctions at capped ⊢
    exact (Int.ofNat_le.mpr fewer).trans capped
  | delegated task reasonCode fallback note now =>
    have entered : ((s.say (.apply (.reDelegate task reasonCode fallback note) now
        s.tasks s.futures)).enrollMissing task).Capped cfg := by
      unfold Capped
      rw [openAuctions_enrollMissing]
      exact before
    refine (deal_capped cfg task.taskId _ _ entered).mpr ?_
    intro r found ended other
    obtain ⟨_,same⟩ | ⟨_,_,same⟩ | ⟨_,room,_⟩ := delegate_cases cfg world _ _ reasonCode fallback note now
      ⟨r,_,_⟩
    · rw [same] at ended
      exact absurd ended other
    · rw [same] at ended
      exact absurd ended (Desk.dispose_announced _ _ _)
    · simp only [Refuses,not_or,not_le] at room
      exact room.2.2
  | dropped task disposition reasonCode now =>
    have entered : ((s.say (.apply (.dropTask task disposition reasonCode) now
        s.tasks s.futures)).enrollMissing task).Capped cfg := by
      unfold Capped
      rw [openAuctions_enrollMissing]
      exact before
    refine (deal_capped cfg task.taskId _ _ entered).mpr ?_
    intro r found ended
    exact absurd ended (Desk.dispose_announced _ _ _)
  | filed bid now record auction after found collects welcome taken heard =>
    refine (deal_capped cfg bid.taskId _ s before).mpr ?_
    intro r same _ other
    rw [found] at same
    cases same
    exact absurd ((collecting_eq_some _ _).mp collects).1 other
  | ran taskId now =>
    refine (deal_capped cfg taskId _ s before).mpr ?_
    intro r found ended other
    have quiet : runAuction cfg world s.peers now ⟨r,s.log,s.futures⟩ = .returned ⟨r,s.log,s.futures⟩ := by
      simp [runAuction,collecting,other]
    rw [quiet] at ended
    exact absurd ended other
  | forgot gone =>
    unfold Capped openAuctions at before ⊢
    rw [Dict.countValues_mapValues _ _ (forgetGone gone) (fun _ => rfl)]
    exact before
  | pruned now =>
    have fewer := Dict.countValues_retain s.tasks (fun r => r.state = .announced)
      (fun _ r => retained cfg.params now r)
    unfold Capped openAuctions at before ⊢
    exact (Int.ofNat_le.mpr fewer).trans before

/-- A GRANT known lost after `_grant` has returned finds room for its record, or
does not put it back under auction. -/
def Room (s : Session) (id : Nat) : Prop :=
  ∀ future, s.futures.find? (fun f => f.id = id) = some future → ∀ r, s.tasks.get? future.taskId = some r →
    r.state = .granted → Desk.Returns cfg.params world future.winnerId
      ⟨r,s.log,s.futures.filter (fun f => f.id ≠ id)⟩ →
    (s.openAuctions : Int) < cfg.params.maxOpenAuctions

theorem resolve_capped (id : Nat) (outcome : Outcome) (s : Session) (before : s.Capped cfg) :
    (s.resolve cfg world id outcome).state.Capped cfg ↔ (outcome = .failed → s.Room cfg world id) := by
  unfold resolve Room
  cases found : s.futures.find? (fun f => f.id = id) with
  | none => simp [before]
  | some future =>
    simp only [Flow.state_handled]
    rw [deal_capped cfg future.taskId _ (s.without id) before]
    constructor
    · rintro room rfl other same r there granted returns
      cases same
      refine room r there ?_ (by simp [granted])
      exact (Desk.settle_announced _ _ _ _ _ _).mpr (.inr ⟨granted,rfl,returns⟩)
    · intro room r there ended other
      obtain ⟨_,announced⟩ | ⟨granted,failed,returns⟩ := (Desk.settle_announced _ _ _ _ _ _).mp ended
      · exact absurd announced other
      · exact room failed future rfl r there granted returns

def KeepsRoom (s : Session) (label : Label) : Prop :=
  match label.op with
  | .outcome id .failed => s.Room cfg label.world id
  | _ => True

/-- Under a cap that is not negative, the number of ANNOUNCED records stays within
it in every run whose late failures find room, and a step breaks it only so. -/
theorem auctions_capped (nonneg : 0 ≤ cfg.params.maxOpenAuctions) (s : Session)
    (reached : (machine cfg).Reaches (KeepsRoom cfg) s) :
    s.Capped cfg ∧ ∀ label, ((machine cfg).next s label).Capped cfg ↔ s.KeepsRoom cfg label := by
  have step : ∀ t label, Capped cfg t →
      (((machine cfg).next t label).Capped cfg ↔ t.KeepsRoom cfg label) := by
    rintro t ⟨world,op⟩ before
    by_cases isOutcome : ∃ id outcome, op = .outcome id outcome
    · obtain ⟨id,outcome,rfl⟩ := isOutcome
      refine (resolve_capped cfg world id outcome t before).trans ?_
      cases outcome with
      | delivered => exact ⟨fun _ => trivial,nofun⟩
      | failed => exact ⟨fun room => room rfl,fun room _ => room⟩
    · push Not at isOutcome
      have capped := Moves.keeps cfg world (Capped cfg) (move_capped cfg world) t _
        (perform_moves cfg world op isOutcome t) before
      refine ⟨fun _ => ?_,fun _ => capped⟩
      cases op with
      | outcome id outcome => exact absurd rfl (isOutcome id outcome)
      | _ => trivial
  have capped : s.Capped cfg := by
    refine reached.invariant (Capped cfg) ?_ ?_ s
    · intro t initial
      rw [show t = {} from initial]
      exact nonneg
    · intro t label _ before _ room
      exact (step t label before).mpr room
  exact ⟨capped,fun label => step s label capped⟩

/-- Granted on the one bid, and the GRANT still in flight. -/
def grantedRun : List Label :=
  [⟨clockAt 0,.own field⟩,given 1 (.reDelegate field 0 .hold ""),heard 2 (.bid ⟨2,0,7,4,true,10⟩),
    ⟨clockAt 7,.tick⟩]

def failedRun : List Label := grantedRun ++ [⟨clockAt 20,.outcome 8 .failed⟩]

theorem auctions_capped_failed : ((machine robot).runs {} failedRun).openAuctions = 1 ∧
    ((machine robot).runs {} failedRun).Capped robot := by
  have reached := (machine robot).reaches_runs (KeepsRoom robot) {} failedRun (.start _ rfl)
    ⟨trivial,trivial,trivial,trivial,trivial,trivial,trivial,trivial,by decide +kernel,
      fun _ _ _ _ _ _ => by decide +kernel,trivial⟩
  exact ⟨by decide +kernel,(auctions_capped robot (by decide) _ reached).1⟩

def narrow : Config := { robot with params := { robot.params with maxOpenAuctions := 1 } }

theorem orchard_id : taskNone < 8 ∧ (8 : Int) ≤ taskIdMax := by decide

def orchard : Task := { field with taskId := 8, location := .row, idRange := orchard_id }

/-- Another task takes the place the granted one left, and then the GRANT fails. -/
def crowdedRun : List Label :=
  grantedRun ++ [⟨clockAt 8,.report (some orchard) "blocked" 0 (.given (some (.reDelegate orchard 0 .hold "")))⟩,
    ⟨clockAt 20,.outcome 8 .failed⟩]

theorem auctions_exceed_cap : ∃ s, (machine narrow).Reachable s ∧ ¬ s.Capped narrow := by
  refine ⟨(machine narrow).runs {} crowdedRun,?_,by decide +kernel⟩
  exact (machine narrow).reaches_runs _ {} crowdedRun (.start _ rfl) (by decide +kernel)

end Session
end AmigaFleet.Coordinator
