import PushDispatch.Text.Decimal

/-!
Lengths of time: whole nanoseconds up to a largest one of 2^64 - 1 seconds and 999999999 nanoseconds.
Arithmetic stops at the largest length instead of failing.
-/

namespace PushDispatch

/-- The number of nanoseconds in the longest length of time. -/
def Duration.maxNanos : Nat := (Nat.pow 2 64 - 1) * 1000000000 + 999999999

/-- A length of time in nanoseconds. -/
structure Duration where
  nanos : Nat
  nanos_le : nanos ≤ Duration.maxNanos
deriving DecidableEq

namespace Duration

/-- The length of the given number of nanoseconds, or the longest one if they are more. -/
def ofNanos (n : Nat) : Duration := ⟨min n maxNanos, Nat.min_le_right ..⟩

def ofMillis (n : Nat) : Duration := ofNanos (n * 1000000)

def ofSeconds (n : Nat) : Duration := ofNanos (n * 1000000000)

def zero : Duration := ⟨0, Nat.zero_le _⟩

instance : Inhabited Duration := ⟨zero⟩

/-- `k` times a length, or the longest length if that is more. -/
def scale (d : Duration) (k : Nat) : Duration := ofNanos (d.nanos * k)

/-- The shorter of two lengths. -/
def shorter (a b : Duration) : Duration := if a.nanos ≤ b.nanos then a else b

/-- The longer of two lengths. -/
def longer (a b : Duration) : Duration := if a.nanos ≤ b.nanos then b else a

/-- Whole milliseconds, rounded down. -/
def millis (d : Duration) : Nat := d.nanos / 1000000

/-- `n` units and a decimal fraction of a unit that has `places` places, without zeros at its end. -/
def decimalText (places n fraction : Nat) : List Char :=
  let digits := ((Text.Decimal.writePadded places fraction).reverse.dropWhile (· == '0')).reverse
  Text.Decimal.write n ++ (if digits.isEmpty then [] else '.' :: digits)

/-- A length in the largest of the units s, ms, µs and ns that it fills, exactly. -/
def text (d : Duration) : String :=
  let n := d.nanos
  if 1000000000 ≤ n then String.ofList (decimalText 9 (n / 1000000000) (n % 1000000000)) ++ "s"
  else if 1000000 ≤ n then String.ofList (decimalText 6 (n / 1000000) (n % 1000000)) ++ "ms"
  else if 1000 ≤ n then String.ofList (decimalText 3 (n / 1000) (n % 1000)) ++ "µs"
  else Text.Decimal.text n ++ "ns"

@[simp] theorem nanos_ofNanos (n : Nat) : (ofNanos n).nanos = min n maxNanos := rfl

@[simp] theorem nanos_scale (d : Duration) (k : Nat) : (d.scale k).nanos = min (d.nanos * k) maxNanos := rfl

@[simp] theorem nanos_shorter (a b : Duration) : (shorter a b).nanos = min a.nanos b.nanos := by
  unfold shorter; split <;> omega

@[simp] theorem nanos_longer (a b : Duration) : (longer a b).nanos = max a.nanos b.nanos := by
  unfold longer; split <;> omega

end Duration

end PushDispatch
