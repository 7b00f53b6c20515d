import AmigaFleet.Coordinator.Auction
import Mathlib.Data.Rat.Floor

/-! The bidder's side of one auction: backoff, the ETA on the wire, and when an
overheard bid silences ours. -/
namespace AmigaFleet.Coordinator
open Lib AmigaFleet.Codec

/-- `int(x)`: truncation toward zero. -/
def truncate (x : ℚ) : Int := x.num.tdiv x.den

/-- `round(x)`: to the nearest integer, ties to the even one. -/
def roundHalfEven (x : ℚ) : Int :=
  let below := ⌊x⌋
  if x - below < 1/2 then below
  else if 1/2 < x - below then below + 1
  else if below % 2 = 0 then below else below + 1

def quantizedEta (etaSec : ℚ) : Int :=
  min (roundHalfEven (max 0 etaSec / etaResolutionS) * etaResolutionS) etaMaxS

/-- Seconds to wait before transmitting a bid of this cost. `jitter` is the
draw from the unit interval. -/
def backoffFor (maxBackoffSec jitterFraction jitter : ℚ) (cost : Int) : ℚ :=
  let fraction : ℚ := (min (max cost 0) costMax : Int) / (costMax : ℚ)
  let delay := maxBackoffSec * fraction
  if jitterFraction ≠ 0 then delay + maxBackoffSec * jitterFraction * jitter else delay

structure PendingBid where
  taskId : Int
  task : Task
  announcerId : Int
  fitness : Fitness
  sendAt : ℚ
  createdAt : ℚ
  sentAt : Option ℚ := none
  deliberative : Bool := false
  note : String := ""
  deriving DecidableEq

namespace PendingBid

def outrankedBy (p : PendingBid) (cost etaS bidderId ourId : Int) : Bool :=
  rankOf cost etaS bidderId < rankOf p.fitness.cost (truncate p.fitness.etaS) ourId

def wire (p : PendingBid) : Bid where
  src := 0
  seq := 0
  taskId := p.taskId
  etaS := quantizedEta p.fitness.etaS
  feasible := p.fitness.feasible
  cost := if p.fitness.feasible then min p.fitness.cost costMax else costMax

def suppressedBy (p : PendingBid) (rival : Bid) (nodeId : Int) : Bool :=
  p.fitness.feasible && rival.feasible && p.outrankedBy rival.cost rival.etaS rival.src nodeId

end PendingBid
end AmigaFleet.Coordinator
