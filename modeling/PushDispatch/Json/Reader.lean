import PushDispatch.Json.Basic
import PushDispatch.Json.Token
import PushDispatch.Text.Utf8

/-!
Reading JSON. A list of tokens is read by a machine that takes one token at a time and keeps the
containers that are still open on a stack, so no depth of nesting is too deep for it.
-/

namespace PushDispatch.Json

/-- An open container, without the value that is being read. -/
inductive Open where
  | array (items : List Json)
  | object (members : List (Option String × Json)) (name : Option String)

/-- What may come next. Items and members that have been read stand last first. -/
inductive Expect where
  | value
  | firstItem
  | firstName
  | name (members : List (Option String × Json))
  | colon (members : List (Option String × Json)) (name : Option String)
  | afterItem (items : List Json)
  | afterMember (members : List (Option String × Json))
  | nothing (value : Json)

structure Reading where
  expect : Expect
  stack : List Open

namespace Reading

def start : Reading := ⟨.value, []⟩

/-- Gives a complete value to the innermost open container. -/
def put (value : Json) : List Open → Reading
  | [] => ⟨.nothing value, []⟩
  | .array items :: stack => ⟨.afterItem (value :: items), stack⟩
  | .object members name :: stack => ⟨.afterMember ((name, value) :: members), stack⟩

/-- Takes the first token of a value. -/
def startValue (stack : List Open) : Token → Option Reading
  | .null => some (put .null stack)
  | .bool value => some (put (.bool value) stack)
  | .number literal => some (put (.number literal) stack)
  | .string value => some (put (.string value) stack)
  | .openSquare => some ⟨.firstItem, .array [] :: stack⟩
  | .openCurly => some ⟨.firstName, stack⟩
  | _ => none

/-- Takes one token. -/
def step (r : Reading) (token : Token) : Option Reading :=
  match r.expect, token with
  | .firstItem, .closeSquare => some (put (.array []) r.stack.tail)
  | .firstItem, token => startValue r.stack token
  | .value, token => startValue r.stack token
  | .firstName, .closeCurly => some (put (.object []) r.stack)
  | .firstName, .string name => some ⟨.colon [] name, r.stack⟩
  | .name members, .string name => some ⟨.colon members name, r.stack⟩
  | .colon members name, .colon => some ⟨.value, .object members name :: r.stack⟩
  | .afterItem items, .comma => some ⟨.value, .array items :: r.stack⟩
  | .afterItem items, .closeSquare => some (put (.array items.reverse) r.stack)
  | .afterMember members, .comma => some ⟨.name members, r.stack⟩
  | .afterMember members, .closeCurly => some (put (.object members.reverse) r.stack)
  | _, _ => none

/-- The value, when it is complete. -/
def value? (r : Reading) : Option Json :=
  match r.expect with
  | .nothing value => some value
  | _ => none

/-- Takes the rest of the tokens. -/
def run (r : Reading) : List Token → Option Json
  | [] => r.value?
  | token :: tokens => match r.step token with
    | some r => r.run tokens
    | none => none

end Reading

/-- The value that a list of tokens writes. -/
def ofTokens? (tokens : List Token) : Option Json := Reading.start.run tokens

/-- Reads a text that is one JSON value between blanks. -/
def readChars? (cs : List Char) : Option Json := (Token.scan cs).bind ofTokens?

def read? (s : String) : Option Json := readChars? s.toList

/-- Reads bytes that are to be JSON in UTF-8. A string with other bytes denotes no text. -/
def readBytes? (bytes : List UInt8) : Option Json :=
  (Token.scanParts .between (Text.Utf8.decodeParts bytes)).bind ofTokens?

end PushDispatch.Json
