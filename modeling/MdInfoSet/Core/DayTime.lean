import Mathlib.Data.Nat.Notation
import Mathlib.Data.UInt

/-!
# A time of day as a decimal number

Exchanges send a time of day as the number one reads off it, `hhmmssmmm` (`stamp`). The
lemmas take the number apart again: what division and remainder by powers of ten give.
-/
namespace MdInfoSet

/-- A time of day to the millisecond. -/
structure DayTime where
  hour : Nat
  minute : Nat
  second : Nat
  milli : Nat
  hour_lt : hour < 24
  minute_lt : minute < 60
  second_lt : second < 60
  milli_lt : milli < 1000

namespace DayTime

/-- `hhmmss` -/
def hhmmss (t : DayTime) : Nat := (t.hour * 100 + t.minute) * 100 + t.second

/-- `hhmmssmmm` -/
def stamp (t : DayTime) : Nat := t.hhmmss * 1000 + t.milli

/-- The seconds and the milliseconds since midnight. -/
def seconds (t : DayTime) : Nat := (t.hour * 60 + t.minute) * 60 + t.second

def millis (t : DayTime) : Nat := t.seconds * 1000 + t.milli

variable (t : DayTime)

theorem hhmmss_lt : t.hhmmss < 240000 := by
  have := t.hour_lt
  have := t.minute_lt
  have := t.second_lt
  unfold hhmmss
  omega

theorem stamp_lt : t.stamp < 240000000 := by
  have := t.hhmmss_lt
  have := t.milli_lt
  unfold stamp
  omega

theorem seconds_lt : t.seconds < 86400 := by
  have := t.hour_lt
  have := t.minute_lt
  have := t.second_lt
  unfold seconds
  omega

theorem millis_lt : t.millis < 86400000 := by
  have := t.seconds_lt
  have := t.milli_lt
  unfold millis
  omega

/-- The parts of `hhmmss`. -/
theorem hhmmss_parts : t.hhmmss / 10000 = t.hour ∧ t.hhmmss / 100 % 100 = t.minute ∧ t.hhmmss % 100 = t.second := by
  have := t.minute_lt
  have := t.second_lt
  unfold hhmmss
  omega

theorem stamp_div : t.stamp / 1000 = t.hhmmss := by
  have := t.milli_lt
  unfold stamp
  omega

theorem stamp_mod : t.stamp % 1000 = t.milli := by
  have := t.milli_lt
  unfold stamp
  omega

theorem millis_div : t.millis / 1000 = t.seconds := by
  have := t.milli_lt
  unfold millis
  omega

theorem millis_mod : t.millis % 1000 = t.milli := by
  have := t.milli_lt
  unfold millis
  omega

end DayTime

end MdInfoSet
