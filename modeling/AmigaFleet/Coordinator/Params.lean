import AmigaFleet.Codec.Definitions
import Mathlib.Data.Rat.Defs
import Mathlib.Algebra.Order.Field.Rat
import Mathlib.Tactic.NormNum

/-! The coordinator's settings. The checks of the constructor are fields, so a
combination it refuses cannot be built. -/
namespace AmigaFleet.Coordinator

structure CoordinatorParams where
  announceWindowSec : ℚ := 5
  announceRepeatSec : ℚ := 2
  bidMaxBackoffSec : ℚ := 2
  bidJitterFraction : ℚ := 1/20
  noteWindowMultiplier : ℚ := 9
  noteBackoffMultiplier : ℚ := 10
  bidMemorySec : ℚ := 60
  maxDelegationAttempts : Int := 2
  redelegationCooldownSec : ℚ := 30
  peerTimeoutSec : ℚ := 30
  heartbeatPeriodSec : ℚ := 10
  settledRetentionSec : ℚ := 300
  maxOpenAuctions : Int := 8
  windowPositive : 0 < announceWindowSec := by norm_num
  backoffNonneg : 0 ≤ bidMaxBackoffSec := by norm_num
  jitterRange : 0 ≤ bidJitterFraction ∧ bidJitterFraction < 1 := by norm_num
  backoffShorter : bidMaxBackoffSec * (1 + bidJitterFraction) < announceWindowSec := by norm_num
  noteWindowGrows : 1 ≤ noteWindowMultiplier := by norm_num
  noteBackoffGrows : 1 ≤ noteBackoffMultiplier := by norm_num
  noteBackoffShorter : bidMaxBackoffSec * noteBackoffMultiplier * (1 + bidJitterFraction) <
    announceWindowSec * noteWindowMultiplier := by norm_num
  someAttempt : 1 ≤ maxDelegationAttempts := by decide
  memoryOutlasts : announceWindowSec < bidMemorySec := by norm_num
  -- Refused by the peer registry, which the session constructs.
  timeoutPositive : 0 < peerTimeoutSec := by norm_num

namespace CoordinatorParams

def standard : CoordinatorParams := {}

def noteAnnounceWindowSec (params : CoordinatorParams) : ℚ :=
  params.announceWindowSec * params.noteWindowMultiplier

def noteBidMaxBackoffSec (params : CoordinatorParams) : ℚ :=
  params.bidMaxBackoffSec * params.noteBackoffMultiplier

end CoordinatorParams
end AmigaFleet.Coordinator
