import PushDispatch.Calendar.Date
import PushDispatch.Text.Blank
import PushDispatch.Text.Decimal
import PushDispatch.Text.Hex
import PushDispatch.Toml.Basic

/-!
TOML values that are written without quotes or brackets: booleans, numbers, dates and times.
-/

namespace PushDispatch.Toml

/-! ### Integers -/

/-- The value of a digit in a base up to sixteen. -/
def digit? (base : Nat) (c : Char) : Option Nat :=
  match Text.Hex.value? c with
  | some value => if value < base then some value else none
  | none => none

/-- The digits of a number in which single underscores may stand between digits. -/
def digits? (base : Nat) (cs : List Char) : Option (List Nat) :=
  let groups := Text.splitAll '_' cs
  if groups.any (·.isEmpty) then none else groups.flatten.mapM (digit? base)

def valueOf (base : Nat) (digits : List Nat) : Nat := digits.foldl (fun value d => value * base + d) 0

/-- Decimal digits without leading zeros. -/
def wholeDigits? (cs : List Char) : Option (List Nat) :=
  match digits? 10 cs with
  | some (0 :: _ :: _) => none
  | digits => digits

/-- A sign, if there is one, and the rest. -/
def splitSign : List Char → Bool × List Char
  | '+' :: rest => (false, rest)
  | '-' :: rest => (true, rest)
  | rest => (false, rest)

/-- An integer: decimal with or without a sign, or in another base after its mark. -/
def integer? (cs : List Char) : Option Int :=
  match cs with
  | '0' :: 'x' :: digits => (digits? 16 digits).map fun ds => (valueOf 16 ds : Int)
  | '0' :: 'o' :: digits => (digits? 8 digits).map fun ds => (valueOf 8 ds : Int)
  | '0' :: 'b' :: digits => (digits? 2 digits).map fun ds => (valueOf 2 ds : Int)
  | _ =>
    let (negative, digits) := splitSign cs
    (wholeDigits? digits).map fun ds => if negative then -(valueOf 10 ds : Int) else valueOf 10 ds

/-- The integers that have a value are those of 128 bits, with or without a sign. -/
def isRepresentable (i : Int) : Bool := -(Nat.pow 2 127 : Int) ≤ i && i < (Nat.pow 2 128 : Int)

/-! ### Floats -/

/-- Whether a decimal number rounds to one of the finite floats of 64 bits: it is below the middle between the
largest of them and the next power of two. -/
def isFinite (digits : List Nat) (exponent : Int) : Bool :=
  let significant := digits.dropWhile (· == 0)
  let size := significant.length + exponent
  if significant.isEmpty || size < 300 then true
  else if 310 < size then false
  else
    let bound := Nat.pow 2 1024 - Nat.pow 2 970
    if exponent < 0 then decide (valueOf 10 significant < bound * Nat.pow 10 exponent.natAbs)
    else decide (valueOf 10 significant * Nat.pow 10 exponent.natAbs < bound)

/-- Whether the text is a float with a fraction, an exponent or both. -/
def isDecimalFloat (cs : List Char) : Bool :=
  let cs := cs.map Char.toLower
  let (mantissa, exponent) := match Text.splitFirst 'e' cs with
    | some (before, after) => (before, some after)
    | none => (cs, none)
  let (whole, fraction) := match Text.splitFirst '.' mantissa with
    | some (before, after) => (before, some after)
    | none => (mantissa, none)
  let fractionDigits := match fraction with
    | some cs => digits? 10 cs
    | none => some []
  let exponentValue : Option Int := match exponent with
    | some cs =>
      let (negative, digits) := splitSign cs
      (digits? 10 digits).map fun ds => if negative then -(valueOf 10 ds : Int) else valueOf 10 ds
    | none => some 0
  (fraction.isSome || exponent.isSome) &&
    match wholeDigits? whole, fractionDigits, exponentValue with
    | some whole, some fraction, some e => isFinite (whole ++ fraction) (e - fraction.length)
    | _, _, _ => false

def isFloat (cs : List Char) : Bool :=
  let unsigned := (splitSign cs).2
  unsigned == ['i', 'n', 'f'] || unsigned == ['n', 'a', 'n'] || isDecimalFloat unsigned

/-! ### Dates and times -/

/-- The number that so many digits at the front write, and the rest. -/
def takeDigits? (count : Nat) (cs : List Char) : Option (Nat × List Char) :=
  if cs.length < count then none else (Text.Decimal.read? (cs.take count)).map fun n => (n, cs.drop count)

/-- What follows a given character at the front. -/
def after? (c : Char) : List Char → Option (List Char)
  | d :: rest => if d = c then some rest else none
  | [] => none

/-- What follows a date at the front. -/
def afterDate? (cs : List Char) : Option (List Char) := do
  let (year, cs) ← takeDigits? 4 cs
  let (month, cs) ← takeDigits? 2 (← after? '-' cs)
  let (day, cs) ← takeDigits? 2 (← after? '-' cs)
  let date : Calendar.Date := ⟨year, month, day⟩
  if date.isValid then some cs else none

/-- What follows the seconds and their fraction; both may be missing. -/
def afterSeconds? (cs : List Char) : Option (List Char) :=
  match cs with
  | ':' :: rest => do
    let (second, rest) ← takeDigits? 2 rest
    if 60 < second then none
    else match rest with
      | '.' :: fraction =>
        if fraction.head?.any Text.Decimal.isDigit then some (fraction.dropWhile Text.Decimal.isDigit) else none
      | rest => some rest
  | rest => some rest

/-- What follows a time of day at the front. -/
def afterTime? (cs : List Char) : Option (List Char) := do
  let (hour, cs) ← takeDigits? 2 cs
  let (minute, cs) ← takeDigits? 2 (← after? ':' cs)
  if hour ≤ 23 && minute ≤ 59 then afterSeconds? cs else none

/-- Whether the text is the distance from UTC, or nothing. -/
def isOffset : List Char → Bool
  | [] => true
  | ['Z'] => true
  | ['z'] => true
  | sign :: cs =>
    (sign == '+' || sign == '-') &&
      match takeDigits? 2 cs with
      | some (hour, ':' :: cs) => match takeDigits? 2 cs with
        | some (minute, []) => hour ≤ 23 && minute ≤ 59
        | _ => false
      | _ => false

/-- Whether the text is a date, a time of day, or both with or without the distance from UTC. -/
def isDateTime (cs : List Char) : Bool :=
  match afterDate? cs with
  | some [] => true
  | some (c :: rest) =>
    (c == 'T' || c == 't' || c == ' ') &&
      match afterTime? rest with
      | some offset => isOffset offset
      | none => false
  | none => afterTime? cs == some []

/-! ### All together -/

/-- The value that the text writes. -/
def ofScalar? (cs : List Char) : Option Toml :=
  if cs = ['t', 'r', 'u', 'e'] then some (boolean true)
  else if cs = ['f', 'a', 'l', 's', 'e'] then some (boolean false)
  else match integer? cs with
    | some i => if isRepresentable i then some (integer i) else none
    | none =>
      if isFloat cs then some (float cs)
      else if isDateTime cs then some (dateTime cs)
      else none

end PushDispatch.Toml
