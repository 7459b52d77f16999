import PushDispatch.Text.Hex
import PushDispatch.Text.Printable

/-!
Quoted texts in listings of values: what would not show on paper is written as an escape.
-/

namespace PushDispatch.Text.Quoted

/-- The escape of a character by its number. -/
def byNumber (c : Char) : List Char := ['\\', 'u', Char.ofNat 123] ++ Hex.write c.toNat ++ [Char.ofNat 125]

/-- A character between quotes. -/
def escape (c : Char) : List Char :=
  if c = '"' || c = '\\' then ['\\', c]
  else if c = '\n' then ['\\', 'n']
  else if c = '\r' then ['\\', 'r']
  else if c = '\t' then ['\\', 't']
  else if c.toNat = 0 then ['\\', '0']
  else if isExtending c || !isPrintable c then byNumber c
  else [c]

/-- A character of a path between quotes, where the single quote is escaped too. -/
def escapeInPath (c : Char) : List Char := if c.toNat = 39 then ['\\', c] else escape c

/-- A text between quotes. -/
def write (s : String) : String := String.ofList ('"' :: s.toList.flatMap escape ++ ['"'])

/-- A path between quotes. -/
def writePath (s : String) : String := String.ofList ('"' :: s.toList.flatMap escapeInPath ++ ['"'])

end PushDispatch.Text.Quoted
