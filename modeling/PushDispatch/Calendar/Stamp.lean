import PushDispatch.Calendar.Pattern

/-!
The time stamp of log lines: the wall clock of Korea, nine hours ahead of UTC all year, to the second and
without a zone.
-/

namespace PushDispatch.Calendar

/-- How far the clocks of Korea are ahead of UTC. -/
def koreaOffsetSeconds : Nat := 9 * 60 * 60

def koreaOffsetMillis : Nat := koreaOffsetSeconds * 1000

/-- Year, month and day, a blank, and the time of day. -/
def stampPattern : Pattern :=
  [.year, .literal '-', .month, .literal '-', .day, .literal ' ', .hour, .literal ':', .minute, .literal ':', .second]

/-- The stamp of an instant; `none` if it is less than nine hours before the end of the calendar. -/
def stamp? (i : Instant) : Option String :=
  (i.later? koreaOffsetSeconds).map fun i => stampPattern.render (.ofInstant i)

/-- A way to write the time of a log line. -/
structure Timer where
  format : Instant → Option String

namespace Timer

/-- The timer of all log lines. -/
def standard : Timer := ⟨stamp?⟩

/-- The timer that writes the UTC time by a pattern. -/
def ofPattern (p : Pattern) : Timer := ⟨fun i => some (p.render (.ofInstant i))⟩

/-- How a timer shows in a listing of values: it hides what it holds. -/
def description : String := "KstTimer \x7b .. \x7d"

end Timer

end PushDispatch.Calendar
