import AmigaFleet.Coordinator.Cascade

/-! How the cascade can go, as one derivation: each constructor is one way
`_maybe_close` ends or goes round. The bounded function is total and follows it. -/
namespace AmigaFleet.Coordinator.Desk
open Lib AmigaFleet.Codec AmigaFleet.Reliability

variable (params : CoordinatorParams) (world : World) (peers : Registry)

/-- The replies that end in `_grant_failed` before `_grant` returns: when it
runs, and what the caller sees of an exception. -/
inductive Fails (d : Desk) (now : ℚ) : Reply → ℚ → (Flow Desk → Flow Desk) → Prop
  | refused : Fails d now .refused now id
  | resolved : Fails d now (.resolved .failed) (world.clock d.log) Flow.handled

inductive Closing : ℚ → Desk → Flow Desk → Prop
  | still (now : ℚ) (d : Desk)
      (quiet : ∀ auction, d.record.auction = some auction → auction.shouldClose now = false) :
      Closing now d (.returned d)
  | noBid (now : ℚ) (d : Desk) (auction : Auction) (present : d.record.auction = some auction)
      (closes : auction.shouldClose now = true) (nobody : auction.winner = none) :
      Closing now d (.returned (d.noViableBid now))
  | pending (now : ℚ) (d : Desk) (auction : Auction) (winner : ReceivedBid)
      (present : d.record.auction = some auction) (closes : auction.shouldClose now = true)
      (best : auction.winner = some winner) (reply : world.sendReliable d.log = .pending) :
      Closing now d (.returned ((d.award world winner.bidderId).await winner.bidderId))
  | delivered (now : ℚ) (d : Desk) (auction : Auction) (winner : ReceivedBid)
      (present : d.record.auction = some auction) (closes : auction.shouldClose now = true)
      (best : auction.winner = some winner)
      (reply : world.sendReliable d.log = .resolved .delivered) :
      Closing now d (.returned ((d.award world winner.bidderId).grantDelivered winner.bidderId
        (world.clock (d.award world winner.bidderId).log)))
  | exhausted (now later : ℚ) (d : Desk) (auction : Auction) (winner : ReceivedBid)
      (shown : Flow Desk → Flow Desk) (present : d.record.auction = some auction)
      (closes : auction.shouldClose now = true) (best : auction.winner = some winner)
      (fails : Fails world (d.award world winner.bidderId) now (world.sendReliable d.log) later shown)
      (nobody : (auction.forget winner.bidderId).winner = none) :
      Closing now d (shown (((d.award world winner.bidderId).lose winner.bidderId).fallBack params
        world peers later))
  | again (now later : ℚ) (d : Desk) (auction : Auction) (winner : ReceivedBid)
      (shown : Flow Desk → Flow Desk) (after : Flow Desk)
      (present : d.record.auction = some auction)
      (closes : auction.shouldClose now = true) (best : auction.winner = some winner)
      (fails : Fails world (d.award world winner.bidderId) now (world.sendReliable d.log) later shown)
      (runnerUp : ((auction.forget winner.bidderId).winner).isSome = true)
      (rest : Closing later ((d.award world winner.bidderId).lose winner.bidderId).reopen after) :
      Closing now d (shown after)

theorem award_auction (d : Desk) (winnerId : Int) :
    (d.award world winnerId).record.auction = d.record.auction := rfl

theorem runnerUp_lose (d : Desk) (winnerId : Int) (auction : Auction)
    (present : d.record.auction = some auction) :
    (d.lose winnerId).runnerUp = (auction.forget winnerId).winner := by
  simp [runnerUp,lose,put,present]

theorem closing_of_within (rounds : Nat) (now : ℚ) (d : Desk) (after : Flow Desk)
    (ran : closeWithin params world peers rounds now d = some after) :
    Closing params world peers now d after := by
  induction rounds generalizing now d after with
  | zero => cases ran
  | succ rounds ih =>
    unfold closeWithin at ran
    cases present : d.record.auction with
    | none =>
      simp only [present,Option.some.injEq] at ran
      exact ran ▸ .still now d (by simp [present])
    | some auction =>
      simp only [present] at ran
      split at ran
      · rename_i closes
        cases best : auction.winner with
        | none =>
          simp only [best,Option.some.injEq] at ran
          exact ran ▸ .noBid now d auction present closes best
        | some winner =>
          simp only [best,grant] at ran
          have auctionLeft := (award_auction world d winner.bidderId).trans present
          have failing : ∀ later shown loop,
              Fails world (d.award world winner.bidderId) now (world.sendReliable d.log) later shown →
              (d.award world winner.bidderId).grantFailed params world peers
                (closeWithin params world peers rounds) winner.bidderId later = some loop →
              Closing params world peers now d (shown loop) := by
            intro later shown loop fails failed
            simp only [grantFailed,runnerUp_lose _ _ _ auctionLeft] at failed
            split at failed
            · rename_i next found
              exact .again now later d auction winner shown loop present closes best fails (by simp [found])
                (ih _ _ _ failed)
            · rename_i nobody
              injection failed with failed
              exact failed ▸ .exhausted now later d auction winner shown present closes best fails nobody
          cases reply : world.sendReliable d.log with
          | refused =>
            simp only [reply] at ran
            exact failing now id after (reply ▸ .refused) ran
          | pending =>
            simp only [reply,Option.some.injEq] at ran
            exact ran ▸ .pending now d auction winner present closes best reply
          | resolved outcome =>
            simp only [reply,onGrantOutcome] at ran
            cases outcome with
            | delivered =>
              have shape : some (Flow.returned ((d.award world winner.bidderId).grantDelivered
                winner.bidderId (world.clock (d.award world winner.bidderId).log))) = some after := ran
              injection shape with shape
              exact shape ▸ .delivered now d auction winner present closes best reply
            | failed =>
              have shape : ((d.award world winner.bidderId).grantFailed params world peers
                (closeWithin params world peers rounds) winner.bidderId
                (world.clock (d.award world winner.bidderId).log)).map Flow.handled = some after := ran
              obtain ⟨loop,failed,rfl⟩ := Option.map_eq_some_iff.mp shape
              exact failing _ _ loop (reply ▸ .resolved) failed
      · rename_i quiet
        simp only [Option.some.injEq] at ran
        refine ran ▸ .still now d ?_
        intro other same
        rw [present] at same
        cases same
        simpa using quiet

theorem viableBids_reopen (d : Desk) (winner : ReceivedBid) (auction : Auction)
    (present : d.record.auction = some auction) (best : auction.winner = some winner) :
    ((d.award world winner.bidderId).lose winner.bidderId).reopen.viableBids < d.viableBids := by
  have fewer := auction.forget_viable winner (auction.winner_viable winner best)
  simpa [viableBids,award,lose,reopen,put,say,present] using fewer

/-- The cascade ends: one round for each viable bid, and one more. -/
theorem closing_total (rounds : Nat) (now : ℚ) (d : Desk) (enough : d.viableBids < rounds) :
    ∃ after, closeWithin params world peers rounds now d = some after := by
  induction rounds generalizing now d with
  | zero => omega
  | succ rounds ih =>
    unfold closeWithin
    cases present : d.record.auction with
    | none => exact ⟨_,rfl⟩
    | some auction =>
      simp only
      split
      · cases best : auction.winner with
        | none => exact ⟨_,rfl⟩
        | some winner =>
          have fewer := viableBids_reopen world d winner auction present best
          have failing : ∀ later, ∃ loop, (d.award world winner.bidderId).grantFailed params world peers
              (closeWithin params world peers rounds) winner.bidderId later = some loop := by
            intro later
            unfold grantFailed
            simp only
            split
            · exact ih later _ (by omega)
            · exact ⟨_,rfl⟩
          simp only [grant]
          cases world.sendReliable d.log with
          | refused => exact failing now
          | pending => exact ⟨_,rfl⟩
          | resolved outcome =>
            cases outcome with
            | delivered => exact ⟨_,rfl⟩
            | failed =>
              obtain ⟨loop,failed⟩ := failing (world.clock (d.award world winner.bidderId).log)
              exact ⟨loop.handled,Option.map_eq_some_iff.mpr ⟨loop,failed,rfl⟩⟩
      · exact ⟨_,rfl⟩

theorem maybeClose_closing (now : ℚ) (d : Desk) :
    Closing params world peers now d (d.maybeClose params world peers now) := by
  obtain ⟨after,ran⟩ := closing_total params world peers (d.viableBids + 1) now d (by omega)
  rw [maybeClose,ran]
  exact closing_of_within params world peers _ now d after ran

theorem settle_cases (winnerId : Int) (outcome : Outcome) (d : Desk) :
    (d.record.state ≠ .granted ∧ d.settle params world peers winnerId outcome = .returned d) ∨
    (d.record.state = .granted ∧ outcome = .delivered ∧ d.settle params world peers winnerId outcome =
      .returned (d.grantDelivered winnerId (world.clock d.log))) ∨
    (d.record.state = .granted ∧ outcome = .failed ∧
      ((((d.lose winnerId).runnerUp = none) ∧ d.settle params world peers winnerId outcome =
        (d.lose winnerId).fallBack params world peers (world.clock d.log)) ∨
      (((d.lose winnerId).runnerUp.isSome = true) ∧ Closing params world peers (world.clock d.log)
        (d.lose winnerId).reopen (d.settle params world peers winnerId outcome)))) := by
  by_cases granted : d.record.state = .granted
  · cases outcome with
    | delivered => exact .inr (.inl ⟨granted,rfl,by simp [settle,onGrantOutcome,granted]⟩)
    | failed =>
      refine .inr (.inr ⟨granted,rfl,?_⟩)
      cases next : (d.lose winnerId).runnerUp with
      | none => exact .inl ⟨rfl,by simp [settle,onGrantOutcome,granted,grantFailed,next]⟩
      | some winner =>
        have shape : d.settle params world peers winnerId .failed =
            (d.lose winnerId).reopen.maybeClose params world peers (world.clock d.log) := by
          simp [settle,onGrantOutcome,granted,grantFailed,next]
        rw [shape]
        exact .inr ⟨rfl,maybeClose_closing params world peers _ _⟩
  · exact .inl ⟨granted,by simp [settle,onGrantOutcome,granted]⟩

end AmigaFleet.Coordinator.Desk
