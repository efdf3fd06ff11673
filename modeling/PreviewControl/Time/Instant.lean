import PreviewControl.Time.Civil

/-!
# Instants

Instants in coordinated universal time, to the nanosecond, from the start of the year -262143 to the
end of the year 262142. A leap second, the second after the last one of a minute, is an instant too:
it carries a full second of extra nanoseconds.
-/
namespace PreviewControl

namespace Instant

/-- The first second of the year -262143. -/
def firstSecond : Int := (Time.Date.mk (-262143) 1 1).toDays * 86400

/-- The last second of the year 262142. -/
def lastSecond : Int := (Time.Date.mk 262142 12 31).toDays * 86400 + 86399

/-- A second in the range of representable years, and nanoseconds that only at the end of a minute
reach beyond one second. -/
def InRange (seconds : Int) (nanos : Nat) : Prop :=
  firstSecond ≤ seconds ∧ seconds ≤ lastSecond ∧ nanos < 2000000000 ∧
    (1000000000 ≤ nanos → seconds % 60 = 59)

instance (s : Int) (n : Nat) : Decidable (InRange s n) := inferInstanceAs (Decidable (_ ∧ _))

end Instant

/-- An instant: seconds since 1970-01-01T00:00:00Z and nanoseconds after them. -/
structure Instant where
  seconds : Int
  nanos : Nat
  inRange : Instant.InRange seconds nanos
deriving DecidableEq, Repr

namespace Instant

instance : Inhabited Instant := ⟨0, 0, by decide⟩

/-- The instant of the given seconds and nanoseconds, if it is representable. -/
def of? (seconds : Int) (nanos : Nat) : Option Instant :=
  if h : InRange seconds nanos then some ⟨seconds, nanos, h⟩ else none

/-- Strictly earlier. -/
def before (a b : Instant) : Bool :=
  a.seconds < b.seconds || (a.seconds == b.seconds && a.nanos < b.nanos)

/-- The instant so many seconds later, or earlier. A leap second that is left behind no longer
counts, and a result beyond the representable years does not exist. -/
def add? (t : Instant) (span : Int) : Option Instant :=
  if t.nanos < 1000000000 || span == 0 then of? (t.seconds + span) t.nanos
  -- Going forward, a leap second counts as the second before it.
  else if 0 < span then of? (t.seconds + span) (t.nanos - 1000000000)
  -- Going back, it counts as the second after it.
  else of? (t.seconds + span + 1) (t.nanos - 1000000000)

theorem of?_self (t : Instant) : of? t.seconds t.nanos = some t := by simp [of?, t.inRange]

end Instant
end PreviewControl
