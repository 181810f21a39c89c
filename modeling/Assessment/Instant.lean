/-!
# Points in time

An instant is a whole number of microseconds before or after the epoch.  Storage keeps milliseconds,
so an instant is cut to milliseconds, towards the past, before it is recorded.
-/

namespace Assessment

/-- Microseconds since the epoch. -/
structure Instant where
  micros : Int
  deriving Repr, DecidableEq, Inhabited

namespace Instant

/-- Whole milliseconds since the epoch, rounded towards the past. -/
def millis (t : Instant) : Int := t.micros.fdiv 1000

/-- The instant of a number of milliseconds. -/
def ofMillis (n : Int) : Instant := ⟨n * 1000⟩

/-- The instant cut to milliseconds. -/
def cut (t : Instant) : Instant := ofMillis t.millis

/-- The first millisecond of the calendar, in the year -262143. -/
def firstMilli : Int := -8334601228800000

/-- The last millisecond of the calendar, in the year 262142. -/
def lastMilli : Int := 8210266876799999

/-- The instant of a stored number of milliseconds, when the calendar reaches that far. -/
def ofStoredMillis? (n : Int) : Option Instant :=
  if firstMilli ≤ n ∧ n ≤ lastMilli then some (ofMillis n) else none

@[simp] theorem millis_ofMillis (n : Int) : (ofMillis n).millis = n := by
  simp [millis, ofMillis]

@[simp] theorem cut_cut (t : Instant) : t.cut.cut = t.cut := by
  simp [cut]

end Instant
end Assessment
