import PushDispatch.Toml.Scalar
import PushDispatch.Toml.Table
import PushDispatch.Toml.Token

/-!
Reading TOML. The document is read by a machine that takes one token at a time, keeps what is open on a stack,
and adds each entry and each table to the document when it is complete.
-/

namespace PushDispatch.Toml

/-- An entry or a container whose value is being read. Paths have their last key first, items stand last first. -/
inductive Open where
  /-- An entry of the document. -/
  | entry (path : List String)
  | array (items : List Toml)
  /-- A table between braces, and the path of its entry that is being read. -/
  | table (entries : Entries) (path : List String)

/-- What a path of keys is for. -/
inductive Target where
  | table
  | tables
  | entry
deriving DecidableEq

/-- What may come next. -/
inductive Expect where
  | line
  | endOfLine
  /-- After the first square bracket of a line. -/
  | header
  | key (target : Target) (path : List String)
  | afterKey (target : Target) (path : List String)
  /-- The second closing bracket of a header. -/
  | headerEnd (path : List String)
  | value
  | scalar (chars : List Char)
  /-- After a blank that may separate a date from a time. -/
  | afterDate (chars : List Char)
  /-- An item of an array, or its end. -/
  | item
  | afterItem
  /-- An entry of a table between braces, or its end. -/
  | member
  | afterMember

/-- The document so far, the path of the table that entries belong to, what is open, and what may come next. -/
structure Reading where
  document : Entries
  table : List String
  stack : List Open
  expect : Expect

/-- How deep arrays and tables between braces may be nested. -/
def maxNesting : Nat := 80

def isBareKeyChar (c : Char) : Bool :=
  ('a' ≤ c && c ≤ 'z') || ('A' ≤ c && c ≤ 'Z') || Text.Decimal.isDigit c || c == '_' || c == '-'

/-- The key that a token writes. -/
def key? : Token → Option String
  | .word chars => if chars.all isBareKeyChar then some (String.ofList chars) else none
  | .string value false => some value
  | _ => none

namespace Reading

def start : Reading := ⟨[], [], [], .line⟩

/-- Adds a complete value to what was open for it. -/
def put (r : Reading) (value : Toml) : Option Reading :=
  match r.stack with
  | .entry (key :: path) :: stack => do
    let (_, document) ← changeAt false (addEntry path.reverse key value) r.table .headed r.document
    pure { r with document := document, stack := stack, expect := .endOfLine }
  | .array items :: stack => some { r with stack := .array (value :: items) :: stack, expect := .afterItem }
  | .table entries (key :: path) :: stack => do
    let (_, entries) ← addEntry path.reverse key value .inline entries
    pure { r with stack := .table entries [] :: stack, expect := .afterMember }
  | _ => none

/-- Opens a container, unless it is nested too deep. -/
def push (r : Reading) (container : Open) (expect : Expect) : Option Reading :=
  if r.stack.length ≤ maxNesting then some { r with stack := container :: r.stack, expect := expect } else none

/-- Closes the innermost container. -/
def pop (r : Reading) : Option Reading :=
  match r.stack with
  | .array items :: stack => { r with stack := stack }.put (.array items.reverse)
  | .table entries [] :: stack => { r with stack := stack }.put (.table .inline entries)
  | _ => none

/-- Takes the first token of a value. -/
def stepValue (r : Reading) : Token → Option Reading
  | .blank _ => some r
  | .openSquare => r.push (.array []) .item
  | .openCurly => r.push (.table [] []) .member
  | .string value _ => r.put (.string value)
  | .word chars => some { r with expect := .scalar chars }
  | _ => none

/-- Takes a token where a key begins or goes on. -/
def stepKey (r : Reading) (target : Target) (path : List String) : Token → Option Reading
  | .blank _ => some { r with expect := .key target path }
  | token => (key? token).map fun key => { r with expect := .afterKey target (key :: path) }

/-- Introduces a table by its header. -/
def openTable (r : Reading) (add : String → TableKind → Entries → Option (TableKind × Entries)) :
    List String → Option Reading
  | key :: path => do
    let (_, document) ← changeAt false (add key) path.reverse .headed r.document
    pure { r with document := document, table := (key :: path).reverse, expect := .endOfLine }
  | [] => none

/-- Takes a token after a key. -/
def stepAfterKey (r : Reading) (target : Target) (path : List String) (token : Token) : Option Reading :=
  match token, target with
  | .blank _, _ => some r
  | .dot, _ => some { r with expect := .key target path }
  | .closeSquare, .table => r.openTable addTable path
  | .closeSquare, .tables => some { r with expect := .headerEnd path }
  | .equals, .entry => match r.stack with
    | .table entries _ :: stack => some { r with stack := .table entries path :: stack, expect := .value }
    | stack => some { r with stack := .entry path :: stack, expect := .value }
  | _, _ => none

/-- Takes a token after a complete entry, item or header. -/
def stepAfter (r : Reading) (token : Token) : Option Reading :=
  match r.expect, token with
  | _, .blank _ => some r
  | .endOfLine, .newline => some { r with expect := .line }
  | .afterItem, .newline => some r
  | .afterItem, .comma => some { r with expect := .item }
  | .afterItem, .closeSquare => r.pop
  | .afterMember, .newline => some r
  | .afterMember, .comma => some { r with expect := .member }
  | .afterMember, .closeCurly => r.pop
  | _, _ => none

/-- Adds the value that ends before this token. -/
def putScalar (r : Reading) (chars : List Char) : Option Reading := do r.put (← ofScalar? chars)

/-- Takes one token. -/
def step (r : Reading) (token : Token) : Option Reading :=
  match r.expect, token with
  | .line, .newline => some r
  | .line, .blank _ => some r
  | .line, .openSquare => some { r with expect := .header }
  | .line, token => r.stepKey .entry [] token
  | .header, .openSquare => some { r with expect := .key .tables [] }
  | .header, token => r.stepKey .table [] token
  | .key target path, token => r.stepKey target path token
  | .afterKey target path, token => r.stepAfterKey target path token
  | .headerEnd path, .closeSquare => r.openTable addToTables path
  | .value, token => r.stepValue token
  | .scalar chars, .word more => some { r with expect := .scalar (chars ++ more) }
  | .scalar chars, .dot => some { r with expect := .scalar (chars ++ ['.']) }
  | .scalar chars, .blank c =>
    if c == ' ' && afterDate? chars == some [] then some { r with expect := .afterDate chars } else r.putScalar chars
  | .scalar chars, token => do (← r.putScalar chars).stepAfter token
  | .afterDate chars, .word more => some { r with expect := .scalar (chars ++ ' ' :: more) }
  | .afterDate chars, token => do (← r.putScalar chars).stepAfter token
  | .item, .newline => some r
  | .item, .closeSquare => r.pop
  | .item, token => r.stepValue token
  | .member, .newline => some r
  | .member, .blank _ => some r
  | .member, .closeCurly => r.pop
  | .member, token => r.stepKey .entry [] token
  | .endOfLine, token => r.stepAfter token
  | .afterItem, token => r.stepAfter token
  | .afterMember, token => r.stepAfter token
  | _, _ => none

/-- The entries of the document at the end of the text. -/
def finish (r : Reading) : Option Entries :=
  match r.expect with
  | .line => some r.document
  | .endOfLine => some r.document
  | .scalar chars => endsWith chars
  | .afterDate chars => endsWith chars
  | _ => none
where
  /-- The entries when the text ends in the given value. -/
  endsWith (chars : List Char) : Option Entries := do
    let r ← r.putScalar chars
    match r.expect with
    | .endOfLine => some r.document
    | _ => none

/-- Takes the rest of the tokens. -/
def run (r : Reading) : List Token → Option Entries
  | [] => r.finish
  | token :: tokens => match r.step token with
    | some r => r.run tokens
    | none => none

end Reading

/-- Reads the characters of a document. -/
def readChars? (cs : List Char) : Option Entries := (Token.scan cs).bind Reading.start.run

def read? (s : String) : Option Entries := readChars? s.toList

end PushDispatch.Toml
