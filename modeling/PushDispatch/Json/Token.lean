import PushDispatch.Text.Decimal
import PushDispatch.Text.Hex

/-!
The tokens of JSON text. `Token.write` gives the text of a token; `Token.scan` reads a text into tokens
one character at a time, the state between two characters being a `Scan`.
-/

namespace PushDispatch.Json

inductive Token where
  | openSquare
  | closeSquare
  | openCurly
  | closeCurly
  | comma
  | colon
  | null
  | bool (value : Bool)
  | number (literal : List Char)
  | string (value : Option String)
deriving DecidableEq

/-! ### Writing -/

/-- A character inside a string literal: the quote, the backslash and the characters below U+0020 are
escaped, by a letter where JSON has one, and all others stand for themselves. -/
def escape (c : Char) : List Char :=
  if c = '"' then ['\\', '"']
  else if c = '\\' then ['\\', '\\']
  else if c = '\n' then ['\\', 'n']
  else if c = '\r' then ['\\', 'r']
  else if c = '\t' then ['\\', 't']
  else if c.toNat = 8 then ['\\', 'b']
  else if c.toNat = 12 then ['\\', 'f']
  else if c.toNat < 32 then ['\\', 'u', '0', '0', Text.Hex.digit (c.toNat / 16), Text.Hex.digit (c.toNat % 16)]
  else [c]

/-- The string literal of a text; where there is no text it is half of a surrogate pair. -/
def quote : Option String → List Char
  | some s => '"' :: s.toList.flatMap escape ++ ['"']
  | none => ['"', '\\', 'u', 'd', '8', '0', '0', '"']

def Token.write : Token → List Char
  | .openSquare => ['[']
  | .closeSquare => [']']
  | .openCurly => [Char.ofNat 123]
  | .closeCurly => [Char.ofNat 125]
  | .comma => [',']
  | .colon => [':']
  | .null => ['n', 'u', 'l', 'l']
  | .bool true => ['t', 'r', 'u', 'e']
  | .bool false => ['f', 'a', 'l', 's', 'e']
  | .number literal => literal
  | .string value => quote value

/-! ### Numbers -/

/-- What follows one or more digits, or `none` if the first character is no digit. -/
def afterDigits? : List Char → Option (List Char)
  | c :: cs => if Text.Decimal.isDigit c then some (cs.dropWhile Text.Decimal.isDigit) else none
  | [] => none

/-- The exponent of a number, or nothing, up to the end of the literal. -/
def isExponent : List Char → Bool
  | [] => true
  | c :: cs =>
    (c == 'e' || c == 'E') &&
      match cs with
      | '+' :: digits => afterDigits? digits == some []
      | '-' :: digits => afterDigits? digits == some []
      | digits => afterDigits? digits == some []

/-- The fraction of a number, or nothing, and then its exponent. -/
def isFraction : List Char → Bool
  | '.' :: digits => match afterDigits? digits with
    | some rest => isExponent rest
    | none => false
  | cs => isExponent cs

/-- A number without its sign: no digit follows a leading zero. -/
def isUnsigned : List Char → Bool
  | '0' :: rest => isFraction rest
  | digits => match afterDigits? digits with
    | some rest => isFraction rest
    | none => false

/-- Whether a literal is a JSON number. -/
def isNumber : List Char → Bool
  | '-' :: rest => isUnsigned rest
  | rest => isUnsigned rest

/-- The characters that a number can hold. -/
def isNumberChar (c : Char) : Bool :=
  Text.Decimal.isDigit c || c == '-' || c == '+' || c == '.' || c == 'e' || c == 'E'

/-! ### String literals -/

/-- The part of a string literal that has been read: its characters, the last one first, whether all of them
are characters, and a first half of a surrogate pair that waits for its second half. -/
structure Literal where
  chars : List Char
  isText : Bool
  high : Option Nat

namespace Literal

def empty : Literal := ⟨[], true, none⟩

/-- Gives up on a waiting half of a pair. -/
def settle (l : Literal) : Literal :=
  if l.high.isSome then ⟨l.chars, false, none⟩ else l

def push (l : Literal) (c : Char) : Literal :=
  let l := l.settle
  ⟨c :: l.chars, l.isText, none⟩

/-- Takes the code unit of an escape: a character, or half of a pair. -/
def pushUnit (l : Literal) (unit : Nat) : Literal :=
  let isLow := 0xDC00 ≤ unit && unit ≤ 0xDFFF
  match l.high, isLow with
  | some high, true =>
    ⟨Char.ofNat (0x10000 + (high - 0xD800) * 0x400 + (unit - 0xDC00)) :: l.chars, l.isText, none⟩
  | none, true => ⟨l.chars, false, none⟩
  | _, false =>
    if 0xD800 ≤ unit && unit ≤ 0xDBFF then ⟨l.settle.chars, l.settle.isText, some unit⟩
    else l.push (Char.ofNat unit)

/-- The text of a finished literal. -/
def value (l : Literal) : Option String :=
  let l := l.settle
  if l.isText then some (String.ofList l.chars.reverse) else none

end Literal

/-- The character of an escape that is one letter after the backslash. -/
def shortEscape? : Char → Option Char
  | '"' => some '"'
  | '\\' => some '\\'
  | '/' => some '/'
  | 'b' => some (Char.ofNat 8)
  | 'f' => some (Char.ofNat 12)
  | 'n' => some '\n'
  | 'r' => some '\r'
  | 't' => some '\t'
  | _ => none

/-! ### Reading -/

/-- Where the reader stands between two characters. -/
inductive Scan where
  | between
  | word (chars : List Char)
  | number (chars : List Char)
  | inString (literal : Literal)
  | afterBackslash (literal : Literal)
  | inUnit (literal : Literal) (digitsLeft unit : Nat)

namespace Scan

/-- Takes a character that belongs to no token yet. -/
def start (c : Char) : Option (List Token × Scan) :=
  if c = '"' then some ([], inString .empty)
  else if c = ' ' || c = '\t' || c = '\n' || c = '\r' then some ([], between)
  else if c = '[' then some ([.openSquare], between)
  else if c = ']' then some ([.closeSquare], between)
  else if c.toNat = 123 then some ([.openCurly], between)
  else if c.toNat = 125 then some ([.closeCurly], between)
  else if c = ',' then some ([.comma], between)
  else if c = ':' then some ([.colon], between)
  else if Text.Decimal.isDigit c || c = '-' then some ([], number [c])
  else if 'a' ≤ c && c ≤ 'z' then some ([], word [c])
  else none

/-- The token of a finished word. -/
def wordToken? (chars : List Char) : Option Token :=
  match chars.reverse with
  | ['n', 'u', 'l', 'l'] => some .null
  | ['t', 'r', 'u', 'e'] => some (.bool true)
  | ['f', 'a', 'l', 's', 'e'] => some (.bool false)
  | _ => none

/-- The token of a finished number. -/
def numberToken? (chars : List Char) : Option Token :=
  if isNumber chars.reverse then some (.number chars.reverse) else none

/-- Finishes a token before the character that shows its end. -/
def closeBefore (token? : Option Token) (c : Char) : Option (List Token × Scan) :=
  match token?, start c with
  | some token, some (tokens, scan) => some (token :: tokens, scan)
  | _, _ => none

/-- Takes one character: the tokens that it completes and the state after it. -/
def step (scan : Scan) (c : Char) : Option (List Token × Scan) :=
  match scan with
  | between => start c
  | word chars => if 'a' ≤ c && c ≤ 'z' then some ([], word (c :: chars)) else closeBefore (wordToken? chars) c
  | number chars => if isNumberChar c then some ([], number (c :: chars)) else closeBefore (numberToken? chars) c
  | inString l =>
    if c = '"' then some ([.string l.value], between)
    else if c = '\\' then some ([], afterBackslash l)
    else if c.toNat < 32 then none
    else some ([], inString (l.push c))
  | afterBackslash l =>
    if c = 'u' then some ([], inUnit l 4 0)
    else (shortEscape? c).map fun c => ([], inString (l.push c))
  | inUnit l digitsLeft unit =>
    (Text.Hex.value? c).map fun d =>
      if digitsLeft = 1 then ([], inString (l.pushUnit (16 * unit + d)))
      else ([], inUnit l (digitsLeft - 1) (16 * unit + d))

/-- The token that the end of the text completes; `none` inside a string. -/
def finish : Scan → Option (List Token)
  | between => some []
  | word chars => (wordToken? chars).map fun t => [t]
  | number chars => (numberToken? chars).map fun t => [t]
  | _ => none

end Scan

/-- The tokens of the rest of a text; `none` if it has a part that is no token. -/
def Token.scanFrom (scan : Scan) : List Char → Option (List Token)
  | [] => scan.finish
  | c :: cs => match scan.step c with
    | some (tokens, scan) => (scanFrom scan cs).map (tokens ++ ·)
    | none => none

/-- The tokens of a text. -/
def Token.scan (cs : List Char) : Option (List Token) := scanFrom .between cs

/-- Takes a part of a text that is no character. Inside a string it makes the string one without a text. -/
def Scan.skip : Scan → Option Scan
  | .inString l => some (.inString ⟨l.settle.chars, false, none⟩)
  | _ => none

/-- The tokens of a text that may hold parts that are no characters. -/
def Token.scanParts (scan : Scan) : List (Option Char) → Option (List Token)
  | [] => scan.finish
  | none :: parts => match scan.skip with
    | some scan => scanParts scan parts
    | none => none
  | some c :: parts => match scan.step c with
    | some (tokens, scan) => (scanParts scan parts).map (tokens ++ ·)
    | none => none

end PushDispatch.Json
