/-!
Punycode: writes a label of any characters with letters, digits and hyphens. The characters below U+0080 come
first, then a series of numbers that say where the others go; numbers are written with 36 digits, the least
first, in a notation whose thresholds adapt.
-/

namespace PushDispatch.Url.Punycode

/-- The digit with a value below 36: a letter, then the decimal digits. -/
def digit (n : Nat) : Char := if n < 26 then Char.ofNat (97 + n) else Char.ofNat (22 + n)

def digitValue? (c : Char) : Option Nat :=
  let n := c.toNat
  if 97 ≤ n && n ≤ 122 then some (n - 97)
  else if 65 ≤ n && n ≤ 90 then some (n - 65)
  else if 48 ≤ n && n ≤ 57 then some (n - 22)
  else none

/-- The threshold of the digit at the place `36, 72, 108, …` for the given bias. -/
def threshold (place bias : Nat) : Nat := min (max (place - bias) 1) 26

/-- Brings a difference down below 456 and counts the divisions. -/
def reduceDelta (delta count : Nat) : Nat × Nat :=
  if delta > 455 then reduceDelta (delta / 35) (count + 1) else (delta, count)
termination_by delta

/-- The bias after a difference, for `points` characters written so far. -/
def adapt (delta points : Nat) (isFirst : Bool) : Nat :=
  let delta := if isFirst then delta / 700 else delta / 2
  let (delta, count) := reduceDelta (delta + delta / points) 0
  36 * count + 36 * delta / (delta + 38)

/-- The digits of a number. -/
def writeNumber (place bias n : Nat) : List Char :=
  let t := threshold place bias
  if h : n < t then [digit n]
  else digit (t + (n - t) % (36 - t)) :: writeNumber (place + 36) bias ((n - t) / (36 - t))
termination_by n
decreasing_by
  have h1 : 1 ≤ threshold place bias := by unfold threshold; omega
  have h2 : n - threshold place bias < n := by omega
  exact Nat.lt_of_le_of_lt (Nat.div_le_self _ _) h2

/-- The state of the writer: the difference, the bias, the characters so far and the output, last first. -/
structure Writer where
  delta : Nat
  bias : Nat
  points : Nat
  output : List Char

/-- Writes the places of the character with number `m`, in one walk over the label. -/
def writePlaces (basic m : Nat) (w : Writer) : List Char → Writer
  | [] => w
  | c :: cs =>
    if c.toNat < m then writePlaces basic m { w with delta := w.delta + 1 } cs
    else if c.toNat = m then
      writePlaces basic m ⟨0, adapt w.delta (w.points + 1) (w.points == basic), w.points + 1,
        (writeNumber 36 w.bias w.delta).reverse ++ w.output⟩ cs
    else writePlaces basic m w cs

/-- Writes the characters above U+007F in the order of their numbers, from `n` on. -/
def writeAll (label : List Char) (basic n : Nat) (w : Writer) : List Nat → Writer
  | [] => w
  | m :: ms =>
    let w := writePlaces basic m { w with delta := w.delta + (m - n) * (w.points + 1) } label
    writeAll label basic (m + 1) { w with delta := w.delta + 1 } ms

def encode (label : List Char) : List Char :=
  let basic := label.filter (·.toNat < 128)
  let others := ((label.filter (128 ≤ ·.toNat)).map (·.toNat)).eraseDups.mergeSort (· ≤ ·)
  let start := if basic.isEmpty then [] else '-' :: basic.reverse
  (writeAll label basic.length 128 ⟨0, 72, basic.length, start⟩ others).output.reverse

/-- The state of the reader: the label so far, the number of the last character inserted, the bias, and the
number that is being read, with the number before it, the weight of the next digit and its place. -/
structure Reader where
  label : List Char
  point : Nat
  bias : Nat
  before : Nat
  index : Nat
  weight : Nat
  place : Nat

/-- Takes one digit; the last digit of a number inserts a character. -/
def Reader.step (r : Reader) (c : Char) : Option Reader := do
  let d ← digitValue? c
  let index := r.index + d * r.weight
  let t := threshold r.place r.bias
  if d < t then
    let size := r.label.length + 1
    let point := r.point + index / size
    if 0x10FFFF < point || (0xD800 ≤ point && point ≤ 0xDFFF) then none
    else
      let position := index % size
      let label := r.label.take position ++ Char.ofNat point :: r.label.drop position
      some ⟨label, point, adapt (index - r.before) size (r.before == 0), position + 1, position + 1, 1, 36⟩
  else some { r with index := index, weight := r.weight * (36 - t), place := r.place + 36 }

def Reader.run (r : Reader) : List Char → Option (List Char)
  | [] => if r.place = 36 then some r.label else none
  | c :: cs => match r.step c with
    | some r => r.run cs
    | none => none

/-- Splits at the last hyphen; without one all is behind it. -/
def splitLast (cs : List Char) : List Char × List Char :=
  let behind := (cs.reverse.takeWhile (· != '-')).reverse
  (cs.take (cs.length - behind.length - 1), behind)

def decode? (cs : List Char) : Option (List Char) :=
  let (basic, digits) := splitLast cs
  if basic.all (·.toNat < 128) then Reader.run ⟨basic, 128, 72, 0, 0, 1, 36⟩ digits else none

end PushDispatch.Url.Punycode
