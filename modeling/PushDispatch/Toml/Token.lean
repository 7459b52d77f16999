import PushDispatch.Text.Blank
import PushDispatch.Text.Hex

/-!
The tokens of TOML text, read one character at a time. Comments are no tokens; blanks are, because some
brackets must stand together and a blank may separate a date from a time.
-/

namespace PushDispatch.Toml

inductive Token where
  | openSquare
  | closeSquare
  | openCurly
  | closeCurly
  | comma
  | dot
  | equals
  | blank (c : Char)
  | newline
  /-- A run of other characters. -/
  | word (chars : List Char)
  | string (value : String) (isMultiline : Bool)
deriving DecidableEq

/-- A string that is being read: its quote, whether it may hold line ends, the characters read so far with
the last one first, and how many quotes stand at the end that may close it. -/
structure Literal where
  quote : Char
  isMultiline : Bool
  chars : List Char
  quotes : Nat

namespace Literal

/-- Whether backslashes have a meaning. -/
def hasEscapes (l : Literal) : Bool := l.quote == '"'

/-- The string without the last quotes that close it. -/
def value (l : Literal) : String :=
  String.ofList (List.replicate (l.quotes - 3) l.quote ++ l.chars).reverse

def token (l : Literal) : Token := .string l.value l.isMultiline

/-- Takes a character that closes nothing. -/
def push (l : Literal) (c : Char) : Literal :=
  { l with chars := c :: (List.replicate l.quotes l.quote ++ l.chars), quotes := 0 }

/-- Takes the quotes at the end as part of the string. -/
def settle (l : Literal) : Literal :=
  { l with chars := List.replicate l.quotes l.quote ++ l.chars, quotes := 0 }

end Literal

/-- The character of an escape that is one letter after the backslash. -/
def shortEscape? : Char → Option Char
  | 'b' => some (Char.ofNat 8)
  | 't' => some '\t'
  | 'n' => some '\n'
  | 'f' => some (Char.ofNat 12)
  | 'r' => some '\r'
  | 'e' => some (Char.ofNat 27)
  | '"' => some '"'
  | '\\' => some '\\'
  | _ => none

/-- How many hexadecimal digits follow the letter after a backslash. -/
def codeLength? : Char → Option Nat
  | 'x' => some 2
  | 'u' => some 4
  | 'U' => some 8
  | _ => none

/-- The character with the given number. -/
def charOf? (n : Nat) : Option Char :=
  if n < 0xD800 || (0xE000 ≤ n && n < 0x110000) then some (Char.ofNat n) else none

/-- The control characters, which stand neither in strings nor in comments; the tab is none of them. -/
def isControl (c : Char) : Bool := (c.toNat < 32 && c ≠ '\t') || c.toNat = 127

/-- Where the reader stands between two characters. -/
inductive Scan where
  | between
  | word (chars : List Char)
  | comment
  /-- After one quote, or two. -/
  | opening (quote : Char) (isSecond : Bool)
  /-- After three quotes; a line end here does not count. -/
  | opened (literal : Literal)
  | inString (literal : Literal)
  | afterBackslash (literal : Literal)
  | inCode (literal : Literal) (digitsLeft value : Nat)
  /-- After a backslash at the end of a line, where blanks and line ends do not count. -/
  | lineEnd (literal : Literal) (isPast : Bool)

namespace Scan

/-- Takes a character that belongs to no token yet. -/
def start (c : Char) : List Token × Scan :=
  if c = '[' then ([.openSquare], between)
  else if c = ']' then ([.closeSquare], between)
  else if c.toNat = 123 then ([.openCurly], between)
  else if c.toNat = 125 then ([.closeCurly], between)
  else if c = ',' then ([.comma], between)
  else if c = '.' then ([.dot], between)
  else if c = '=' then ([.equals], between)
  else if c = ' ' || c = '\t' then ([.blank c], between)
  else if c = '\n' then ([.newline], between)
  else if c = '\r' then ([], between)
  else if c = '#' then ([], comment)
  else if c = '"' || c.toNat = 39 then ([], opening c false)
  else ([], word [c])

/-- Whether a character ends a word. -/
def endsWord (c : Char) : Bool :=
  match start c with
  | ([], word _) => false
  | _ => true

/-- Adds a finished token to what comes after it. -/
def closeBefore (token : Token) (c : Char) : List Token × Scan :=
  let (tokens, scan) := start c
  (token :: tokens, scan)

/-- Takes a character inside a string. -/
def stepString (l : Literal) (c : Char) : Option (List Token × Scan) :=
  if c = l.quote then
    if !l.isMultiline then some ([l.token], between)
    else if l.quotes = 4 then some ([{ l with quotes := 5 }.token], between)
    else some ([], inString { l with quotes := l.quotes + 1 })
  else if 3 ≤ l.quotes then some (closeBefore l.token c)
  else if c = '\\' && l.hasEscapes then some ([], afterBackslash l.settle)
  else if (c = '\n' || c = '\r') && l.isMultiline then some ([], inString (l.push c))
  else if isControl c then none
  else some ([], inString (l.push c))

/-- Takes the character after a backslash. -/
def stepEscape (l : Literal) (c : Char) : Option (List Token × Scan) :=
  match shortEscape? c, codeLength? c with
  | some c, _ => some ([], inString (l.push c))
  | none, some length => some ([], inCode l length 0)
  | none, none =>
    if !l.isMultiline then none
    else if c = '\n' then some ([], lineEnd l true)
    else if c = ' ' || c = '\t' || c = '\r' then some ([], lineEnd l false)
    else none

/-- Takes one character: the tokens that it completes and the state after it. -/
def step (scan : Scan) (c : Char) : Option (List Token × Scan) :=
  match scan with
  | between => some (start c)
  | word chars => if endsWord c then some (closeBefore (.word chars.reverse) c) else some ([], word (c :: chars))
  | comment =>
    if c = '\n' then some (start c)
    else if isControl c && c ≠ '\r' then none
    else some ([], comment)
  | opening quote false =>
    if c = quote then some ([], opening quote true) else stepString ⟨quote, false, [], 0⟩ c
  | opening quote true =>
    if c = quote then some ([], opened ⟨quote, true, [], 0⟩) else some (closeBefore (.string "" false) c)
  | opened l =>
    if c = '\r' then some ([], opened l)
    else if c = '\n' then some ([], inString l)
    else stepString l c
  | inString l => stepString l c
  | afterBackslash l => stepEscape l c
  | inCode l digitsLeft value => do
    let value := 16 * value + (← Text.Hex.value? c)
    if digitsLeft = 1 then pure ([], inString (l.push (← charOf? value)))
    else pure ([], inCode l (digitsLeft - 1) value)
  | lineEnd l isPast =>
    if c = '\n' then some ([], lineEnd l true)
    else if c = ' ' || c = '\t' || c = '\r' then some ([], lineEnd l isPast)
    else if isPast then stepString l c
    else none

/-- The token that the end of the text completes. -/
def finish : Scan → Option (List Token)
  | between => some []
  | comment => some []
  | word chars => some [.word chars.reverse]
  | opening _ true => some [.string "" false]
  | inString l => if 3 ≤ l.quotes then some [l.token] else none
  | _ => none

end Scan

/-- The tokens of the rest of a text; `none` if it has a part that is no token. -/
def Token.scanFrom (scan : Scan) : List Char → Option (List Token)
  | [] => scan.finish
  | c :: cs => match scan.step c with
    | some (tokens, scan) => (scanFrom scan cs).map (tokens ++ ·)
    | none => none

/-- Whether each carriage return is followed by a line feed. -/
def hasWholeLineEnds : List Char → Bool
  | [] => true
  | c :: cs => (c ≠ '\r' || cs.head? == some '\n') && hasWholeLineEnds cs

/-- The tokens of a text. A mark of byte order at its beginning does not count. -/
def Token.scan (cs : List Char) : Option (List Token) :=
  let cs := match cs with
    | c :: rest => if c.toNat = 0xFEFF then rest else cs
    | [] => []
  if hasWholeLineEnds cs then scanFrom .between cs else none

end PushDispatch.Toml
