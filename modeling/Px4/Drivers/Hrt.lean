import Mathlib.Data.Nat.Notation

/-!
# The high-resolution timer

`src/drivers/drv_hrt.h`: times in microseconds, as unsigned numbers of 64 bits.
-/

namespace Px4.Drivers

/-- `hrt_elapsed_time`, at the time `now`. A time that is ahead counts as now. -/
def hrtElapsedTime (now since : UInt64) : UInt64 := if since > now then 0 else now - since

end Px4.Drivers
