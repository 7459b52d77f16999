/-!
Decimal text of natural numbers. `read?` takes digits only, and reads back what `write` gives.
-/

namespace PushDispatch.Text.Decimal

/-- The character of a digit below ten. -/
def digit (n : Nat) : Char := Char.ofNat (48 + n)

/-- The decimal digits of a number, without leading zeros. -/
def write (n : Nat) : List Char :=
  if n < 10 then [digit n] else write (n / 10) ++ [digit (n % 10)]

/-- The digits filled up with zeros on the left to the given width. -/
def writePadded (width n : Nat) : List Char :=
  let digits := write n
  List.replicate (width - digits.length) '0' ++ digits

def isDigit (c : Char) : Bool := 48 ≤ c.toNat && c.toNat ≤ 57

/-- The number that digits write after `value` has been read. -/
def valueFrom (value : Nat) : List Char → Nat
  | [] => value
  | c :: cs => valueFrom (10 * value + (c.toNat - 48)) cs

/-- Reads one or more digits, leading zeros included. -/
def read? (cs : List Char) : Option Nat :=
  if !cs.isEmpty && cs.all isDigit then some (valueFrom 0 cs) else none

/-- The text of a number. -/
def text (n : Nat) : String := String.ofList (write n)

/-- The text of an integer, with a sign in front of a negative one. -/
def intText (i : Int) : String := if i < 0 then "-" ++ text i.natAbs else text i.natAbs

theorem isDigit_digit {n : Nat} (h : n < 10) : isDigit (digit n) = true := by
  have : ∀ m : Fin 10, isDigit (digit m) = true := by decide
  exact this ⟨n, h⟩

theorem toNat_digit {n : Nat} (h : n < 10) : (digit n).toNat - 48 = n := by
  have : ∀ m : Fin 10, (digit m).toNat - 48 = m := by decide
  exact this ⟨n, h⟩

theorem write_ne_nil (n : Nat) : write n ≠ [] := by
  rw [write]; split <;> simp

theorem all_isDigit_write (n : Nat) : (write n).all isDigit = true := by
  induction n using Nat.strongRecOn with
  | ind n ih =>
    rw [write]
    split
    · next h => simp [isDigit_digit h]
    · next h =>
      rw [List.all_append, ih (n / 10) (by omega)]
      simp [isDigit_digit (Nat.mod_lt n (by decide : 0 < 10))]

theorem valueFrom_append (v : Nat) (xs ys : List Char) :
    valueFrom v (xs ++ ys) = valueFrom (valueFrom v xs) ys := by
  induction xs generalizing v with
  | nil => rfl
  | cons x xs ih => exact ih _

theorem valueFrom_digit (v : Nat) {n : Nat} (h : n < 10) : valueFrom v [digit n] = 10 * v + n := by
  change 10 * v + ((digit n).toNat - 48) = 10 * v + n
  rw [toNat_digit h]

theorem valueFrom_write (n : Nat) : valueFrom 0 (write n) = n := by
  induction n using Nat.strongRecOn with
  | ind n ih =>
    rw [write]
    split
    · next h =>
      rw [valueFrom_digit 0 h]
      omega
    · next h =>
      rw [valueFrom_append, ih (n / 10) (by omega), valueFrom_digit _ (Nat.mod_lt n (by decide))]
      omega

theorem read?_write (n : Nat) : read? (write n) = some n := by
  rw [read?, all_isDigit_write, valueFrom_write]
  simp [write_ne_nil]

end PushDispatch.Text.Decimal
