import AmigaFleet.Coordinator.Turns

/-! The two clocks of an auction: the window an announcer keeps open, the
longest a bidder waits, and that the wait is shorter on the same clock. -/
namespace AmigaFleet.Coordinator
open Lib AmigaFleet.Codec AmigaFleet.Reliability

theorem backoffFor_le (maxBackoffSec jitterFraction jitter : ℚ) (cost : Int) (long : 0 ≤ maxBackoffSec)
    (spread : 0 ≤ jitterFraction) (unit : 0 ≤ jitter ∧ jitter ≤ 1) :
    backoffFor maxBackoffSec jitterFraction jitter cost ≤ maxBackoffSec * (1 + jitterFraction) := by
  have scaled : ((min (max cost 0) costMax : Int) : ℚ) / (costMax : ℚ) ≤ 1 := by
    rw [div_le_one (by norm_num [costMax])]
    exact_mod_cast min_le_right _ _
  have waited := mul_le_mul_of_nonneg_left scaled long
  have drawn := mul_le_mul_of_nonneg_left unit.2 (mul_nonneg long spread)
  unfold backoffFor
  simp only
  split
  · linarith
  · have more := mul_nonneg long spread
    linarith

namespace CoordinatorParams

/-- The window an announcement is collected on, with a note on the air or without. -/
def windowSec (params : CoordinatorParams) (noted : Bool) : ℚ :=
  if noted then params.noteAnnounceWindowSec else params.announceWindowSec

def maxBackoffSec (params : CoordinatorParams) (deliberative : Bool) : ℚ :=
  if deliberative then params.noteBidMaxBackoffSec else params.bidMaxBackoffSec

def largestBackoffSec (params : CoordinatorParams) (deliberative : Bool) : ℚ :=
  params.maxBackoffSec deliberative * (1 + params.bidJitterFraction)

theorem maxBackoff_nonneg (params : CoordinatorParams) (deliberative : Bool) :
    0 ≤ params.maxBackoffSec deliberative := by
  have grows : 0 ≤ params.noteBackoffMultiplier := zero_le_one.trans params.noteBackoffGrows
  cases deliberative with
  | false => exact params.backoffNonneg
  | true => exact mul_nonneg params.backoffNonneg grows

theorem largest_lt_window (params : CoordinatorParams) (clock : Bool) :
    params.largestBackoffSec clock < params.windowSec clock := by
  cases clock with
  | false => exact params.backoffShorter
  | true => exact params.noteBackoffShorter

theorem window_le (params : CoordinatorParams) (noted : Bool) :
    params.announceWindowSec ≤ params.windowSec noted := by
  cases noted with
  | false => exact le_refl _
  | true => exact le_mul_of_one_le_right params.windowPositive.le params.noteWindowGrows

end CoordinatorParams

namespace Session

theorem backoff_le (params : CoordinatorParams) (world : World) (log : Log) (deliberative : Bool) (cost : Int) :
    backoff params world log deliberative cost ≤ params.largestBackoffSec deliberative :=
  backoffFor_le _ _ _ cost (params.maxBackoff_nonneg deliberative) params.jitterRange.1 (world.unit log)

end Session

end AmigaFleet.Coordinator
