import PushDispatch.Calendar.Date

/-!
Instants, as seconds since 1970-01-01 00:00:00 UTC with nanoseconds, and the clock time at an instant.
-/

namespace PushDispatch.Calendar

/-- A second and a part of it. A leap second is the part from 10^9 nanoseconds on of the second before it. -/
structure Instant where
  seconds : Int
  nanos : Nat
deriving DecidableEq

namespace Instant

/-- The first second of the year -262143. -/
def firstSecond : Int := -8334601228800

/-- The last second of the year 262142. -/
def lastSecond : Int := 8210266876799

/-- Whether the second is in the years that are counted, and the nanoseconds are fewer than in a second, or
than in two at the end of a minute. -/
def isValid (i : Instant) : Bool :=
  firstSecond ≤ i.seconds && i.seconds ≤ lastSecond &&
    (i.nanos < 1000000000 || (i.nanos < 2000000000 && i.seconds % 60 == 59))

/-- The instant so many seconds later, if it is still counted. A leap second is not added to: it falls
together with the second before it. -/
def later? (i : Instant) (seconds : Nat) : Option Instant :=
  if i.seconds + seconds ≤ lastSecond then some ⟨i.seconds + seconds, i.nanos % 1000000000⟩ else none

end Instant

/-- A date and a time of day. The second is 60 in a leap second. -/
structure ClockTime where
  date : Date
  hour : Nat
  minute : Nat
  second : Nat
deriving DecidableEq

/-- The clock time at an instant, in UTC. -/
def ClockTime.ofInstant (i : Instant) : ClockTime :=
  let inDay := (i.seconds % 86400).toNat
  ⟨.ofDay (i.seconds / 86400), inDay / 3600, inDay / 60 % 60, inDay % 60 + i.nanos / 1000000000⟩

end PushDispatch.Calendar
