/-!
UTF-8. A text is written as the bytes of its characters; bytes are read back character by character, where a
part that is no character (as long as it can still be the start of one) is read as `none`.
-/

namespace PushDispatch.Text.Utf8

/-- The bytes of a character. -/
def encodeChar (c : Char) : List UInt8 := String.utf8EncodeChar c

def encode (cs : List Char) : List UInt8 := cs.flatMap encodeChar

/-- For a first byte: the bits that it gives to the character, and the range of each byte that must follow.
The ranges leave out overlong forms, surrogates and numbers that are no characters. -/
def lead? (b : UInt8) : Option (Nat × List (Nat × Nat)) :=
  let n := b.toNat
  let rest := (0x80, 0xBF)
  if n < 0x80 then some (n, [])
  else if 0xC2 ≤ n && n ≤ 0xDF then some (n - 0xC0, [rest])
  else if n == 0xE0 then some (0, [(0xA0, 0xBF), rest])
  else if n == 0xED then some (13, [(0x80, 0x9F), rest])
  else if 0xE1 ≤ n && n ≤ 0xEF then some (n - 0xE0, [rest, rest])
  else if n == 0xF0 then some (0, [(0x90, 0xBF), rest, rest])
  else if 0xF1 ≤ n && n ≤ 0xF3 then some (n - 0xF0, [rest, rest, rest])
  else if n == 0xF4 then some (4, [(0x80, 0x8F), rest, rest])
  else none

/-- Takes the bytes that must follow, as long as they are in their ranges: the character, if all are, and the
bytes after them. -/
def follow (value : Nat) : List (Nat × Nat) → List UInt8 → Option Char × List UInt8
  | [], bytes => (some (Char.ofNat value), bytes)
  | _ :: _, [] => (none, [])
  | (low, high) :: ranges, b :: bytes =>
    if low ≤ b.toNat && b.toNat ≤ high then follow (value * 64 + (b.toNat - 0x80)) ranges bytes
    else (none, b :: bytes)

theorem length_follow_le (value : Nat) (ranges : List (Nat × Nat)) (bytes : List UInt8) :
    (follow value ranges bytes).2.length ≤ bytes.length := by
  induction ranges generalizing value bytes with
  | nil => simp [follow]
  | cons range ranges ih =>
    cases bytes with
    | nil => simp [follow]
    | cons b bytes =>
      unfold follow
      split
      · exact Nat.le_succ_of_le (ih _ _)
      · exact Nat.le_refl _

/-- Reads one character: the character, or `none` for a part that is none, and the bytes after it. -/
def decodeOne (b : UInt8) (bytes : List UInt8) : Option Char × List UInt8 :=
  match lead? b with
  | some (value, ranges) => follow value ranges bytes
  | none => (none, bytes)

theorem length_decodeOne_le (b : UInt8) (bytes : List UInt8) :
    (decodeOne b bytes).2.length ≤ bytes.length := by
  unfold decodeOne
  split
  · exact length_follow_le ..
  · exact Nat.le_refl _

/-- Reads all bytes. -/
def decodeParts : List UInt8 → List (Option Char)
  | [] => []
  | b :: bytes => (decodeOne b bytes).1 :: decodeParts (decodeOne b bytes).2
termination_by bytes => bytes.length
decreasing_by exact Nat.lt_succ_of_le (length_decodeOne_le b bytes)

/-- The character that stands for a part that is none. -/
def replacement : Char := Char.ofNat 0xFFFD

/-- The text of the bytes, with the replacement character for each part that is no character. -/
def decodeLossy (bytes : List UInt8) : List Char := (decodeParts bytes).map (·.getD replacement)

/-- The text of the bytes, if they are a text. -/
def decode? (bytes : List UInt8) : Option (List Char) := (decodeParts bytes).mapM id

end PushDispatch.Text.Utf8
