import PushDispatch.Calendar.Instant
import PushDispatch.Text.Decimal

/-!
Patterns for clock times: literal characters and the parts of a clock time that stand in between.
-/

namespace PushDispatch.Calendar

inductive Piece where
  | literal (c : Char)
  | year
  | yearOfCentury
  | month
  | day
  | hour
  | minute
  | second
deriving DecidableEq

/-- A year has four digits at least, and a sign outside the years 0 to 9999. -/
def yearText (year : Int) : List Char :=
  if 0 ≤ year && year ≤ 9999 then Text.Decimal.writePadded 4 year.toNat
  else (if year < 0 then '-' else '+') :: Text.Decimal.writePadded 4 year.natAbs

def Piece.render (t : ClockTime) : Piece → List Char
  | literal c => [c]
  | year => yearText t.date.year
  | yearOfCentury => Text.Decimal.writePadded 2 (t.date.year % 100).toNat
  | month => Text.Decimal.writePadded 2 t.date.month
  | day => Text.Decimal.writePadded 2 t.date.dayOfMonth
  | hour => Text.Decimal.writePadded 2 t.hour
  | minute => Text.Decimal.writePadded 2 t.minute
  | second => Text.Decimal.writePadded 2 t.second

/-- A pattern is its pieces in order. -/
abbrev Pattern := List Piece

namespace Pattern

def render (p : Pattern) (t : ClockTime) : String := String.ofList (p.flatMap (Piece.render t))

/-- The piece that a letter after a percent sign stands for. -/
def piece? : Char → Option Piece
  | 'Y' => some .year
  | 'y' => some .yearOfCentury
  | 'm' => some .month
  | 'd' => some .day
  | 'H' => some .hour
  | 'M' => some .minute
  | 'S' => some .second
  | '%' => some (.literal '%')
  | _ => none

/-- Reads a pattern in which parts are written as a percent sign and a letter. -/
def read? : List Char → Option Pattern
  | [] => some []
  | '%' :: c :: cs => do pure ((← piece? c) :: (← read? cs))
  | ['%'] => none
  | c :: cs => (read? cs).map (.literal c :: ·)

end Pattern

end PushDispatch.Calendar
