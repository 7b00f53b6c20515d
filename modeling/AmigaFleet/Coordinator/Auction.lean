import AmigaFleet.Coordinator.Model
import Mathlib.Data.List.MinMax
import Mathlib.Data.Prod.Lex
import Mathlib.Data.Finset.Basic

/-! The owner's side of one auction: the answers so far, when it has heard
enough, and whom it picks. -/
namespace AmigaFleet.Coordinator
open Lib AmigaFleet.Codec

abbrev Rank : Type := ℤ ×ₗ ℤ ×ₗ ℤ

/-- The order that computes, whatever other orders of the integers are known. -/
instance : Preorder Rank := (inferInstance : LinearOrder Rank).toPreorder

def rankOf (cost etaS bidderId : Int) : Rank := toLex (cost,toLex (etaS,bidderId))

structure ReceivedBid where
  bidderId : Int
  taskId : Int
  cost : Int
  etaS : Int
  feasible : Bool
  at_ : ℚ
  deriving DecidableEq

/-- Cost, then ETA, then robot id. Lower is better. -/
def ReceivedBid.rank (bid : ReceivedBid) : Rank := rankOf bid.cost bid.etaS bid.bidderId

def ReceivedBid.ofBid (bid : Bid) (now : ℚ) : ReceivedBid :=
  ⟨bid.src,bid.taskId,bid.cost,bid.etaS,bid.feasible,now⟩

/-- One task offered to the fleet. Every answer is filed under its bidder. -/
structure Auction where
  task : Task
  expectedBidders : Finset Int
  openedAt : ℚ
  closesAt : ℚ
  announcements : Nat := 0
  /-- `none` is `inf`. -/
  nextAnnounceAt : Option ℚ
  bids : Dict Int ReceivedBid := .empty
  filed : ∀ robot bid, bids.get? robot = some bid → bid.bidderId = robot := by simp

namespace Auction

theorem filed_empty (robot : Int) (bid : ReceivedBid)
    (found : (Dict.empty : Dict Int ReceivedBid).get? robot = some bid) : bid.bidderId = robot := by
  simp at found

theorem filed_set (bids : Dict Int ReceivedBid) (bid : ReceivedBid)
    (filed : ∀ robot bid, bids.get? robot = some bid → bid.bidderId = robot) (robot : Int)
    (answer : ReceivedBid) (found : (bids.set bid.bidderId bid).get? robot = some answer) :
    answer.bidderId = robot := by
  obtain ⟨rfl,rfl⟩ | ⟨_,found⟩ := Dict.get?_set_cases found
  · rfl
  · exact filed robot answer found

theorem filed_pop (bids : Dict Int ReceivedBid) (robotId : Int)
    (filed : ∀ robot bid, bids.get? robot = some bid → bid.bidderId = robot) (robot : Int)
    (answer : ReceivedBid) (found : (bids.pop robotId).get? robot = some answer) :
    answer.bidderId = robot :=
  filed robot answer (Dict.get?_pop_cases found).2

def record (a : Auction) (bid : Bid) (now : ℚ) : Option Auction :=
  if bid.taskId ≠ a.task.taskId then none
  else if (a.bids.get? bid.src).any (fun previous => previous.at_ > now) then none
  else some { a with
    bids := a.bids.set bid.src (ReceivedBid.ofBid bid now)
    filed := filed_set a.bids (ReceivedBid.ofBid bid now) a.filed }

def forget (a : Auction) (robotId : Int) : Auction :=
  { a with
    bids := a.bids.pop robotId
    filed := filed_pop a.bids robotId a.filed
    expectedBidders := a.expectedBidders.erase robotId }

def heardFromEveryone (a : Auction) : Bool :=
  a.expectedBidders ≠ ∅ && decide (∀ robot ∈ a.expectedBidders, a.bids.contains robot = true)

def shouldClose (a : Auction) (now : ℚ) : Bool := decide (a.closesAt ≤ now) || a.heardFromEveryone

def viable (a : Auction) : List ReceivedBid := a.bids.values.filter ReceivedBid.feasible

def winner (a : Auction) : Option ReceivedBid := a.viable.argmin ReceivedBid.rank

theorem winner_viable (a : Auction) (bid : ReceivedBid) (best : a.winner = some bid) :
    bid ∈ a.viable := List.argmin_mem best

theorem winner_least (a : Auction) (bid other : ReceivedBid) (best : a.winner = some bid)
    (member : other ∈ a.viable) : bid.rank ≤ other.rank := List.le_of_mem_argmin member best

theorem winner_none (a : Auction) : a.winner = none ↔ a.viable = [] := List.argmin_eq_none

/-- Two auctions each answered at least as well as the other have equally good winners. -/
theorem winner_rank_eq (a b : Auction)
    (left : ∀ bid ∈ a.viable, ∃ other ∈ b.viable, other.rank ≤ bid.rank)
    (right : ∀ bid ∈ b.viable, ∃ other ∈ a.viable, other.rank ≤ bid.rank) :
    a.winner.map ReceivedBid.rank = b.winner.map ReceivedBid.rank := by
  cases first : a.winner with
  | none =>
    cases second : b.winner with
    | none => rfl
    | some bid =>
      obtain ⟨other,member,_⟩ := right bid (b.winner_viable bid second)
      rw [a.winner_none.mp first] at member
      cases member
  | some bid =>
    obtain ⟨other,member,lower⟩ := left bid (a.winner_viable bid first)
    cases second : b.winner with
    | none =>
      rw [b.winner_none.mp second] at member
      cases member
    | some best =>
      obtain ⟨another,also,below⟩ := right best (b.winner_viable best second)
      refine congrArg some (le_antisymm ?_ ?_)
      · exact (a.winner_least bid another first also).trans below
      · exact (b.winner_least best other second member).trans lower

theorem mem_viable (a : Auction) (bid : ReceivedBid) :
    bid ∈ a.viable ↔ (∃ robot, a.bids.get? robot = some bid) ∧ bid.feasible = true := by
  rw [viable,List.mem_filter,Dict.mem_values]

theorem record_cases (a after : Auction) (bid : Bid) (now : ℚ) (taken : a.record bid now = some after) :
    bid.taskId = a.task.taskId ∧ after.task = a.task ∧ after.expectedBidders = a.expectedBidders ∧
      after.bids = a.bids.set bid.src (ReceivedBid.ofBid bid now) := by
  unfold record at taken
  split at taken
  · cases taken
  · rename_i same
    split at taken
    · cases taken
    · injection taken with taken
      exact ⟨by simpa using same,by rw [← taken],by rw [← taken],by rw [← taken]⟩

theorem forget_viable (a : Auction) (bid : ReceivedBid) (member : bid ∈ a.viable) :
    (a.forget bid.bidderId).viable.length < a.viable.length := by
  obtain ⟨⟨robot,found⟩,feasible⟩ := (mem_viable a bid).mp member
  have entry := (Dict.get?_eq_some _ _ _).mp found
  have holder := a.filed robot bid found
  rw [holder]
  have popped : (a.forget robot).viable.Sublist a.viable :=
    (List.Sublist.map Prod.snd List.filter_sublist).filter _
  refine lt_of_le_of_ne popped.length_le ?_
  intro same
  have equal := popped.eq_of_length same
  rw [← equal] at member
  obtain ⟨⟨other,left⟩,_⟩ := (mem_viable _ bid).mp member
  obtain ⟨different,left⟩ := Dict.get?_pop_cases left
  exact different ((a.filed other bid left).symm.trans holder)

end Auction
end AmigaFleet.Coordinator
