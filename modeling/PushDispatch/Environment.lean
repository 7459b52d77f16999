/-!
The environment of the program, and references to its variables in a text. A reference is a name of one or
more characters, none of them a closing brace, between `${` and the next closing brace. One pass from left to
right puts the value of each variable that is set in place of the reference; values are not looked at again.
-/

namespace PushDispatch

/-- The variables that are set, with their values. -/
structure Environment where
  value? : String → Option String

namespace Environment

/-- The environment with the given variables. -/
def ofList (values : List (String × String)) : Environment := ⟨fun name => values.lookup name⟩

def openBrace : Char := Char.ofNat 123

def closeBrace : Char := Char.ofNat 125

/-- A text is read as characters and references. -/
inductive Piece where
  | char (c : Char)
  | reference (name : List Char)
deriving DecidableEq

/-- A reference as it is written. -/
def written (name : List Char) : List Char := '$' :: openBrace :: name ++ [closeBrace]

/-- Where the pass over a text stands: outside of references, after a dollar sign, or in a reference whose name
has been read so far with its last character first. -/
inductive Place where
  | outside
  | afterDollar
  | inName (name : List Char)

/-- The pieces of the rest of a text. A reference without a name, and one without an end, are characters. -/
def piecesFrom : Place → List Char → List Piece
  | .outside, [] => []
  | .afterDollar, [] => [.char '$']
  | .inName name, [] => ('$' :: openBrace :: name.reverse).map .char
  | .outside, c :: cs => if c = '$' then piecesFrom .afterDollar cs else .char c :: piecesFrom .outside cs
  | .afterDollar, c :: cs =>
    if c = openBrace then piecesFrom (.inName []) cs
    else if c = '$' then .char '$' :: piecesFrom .afterDollar cs
    else .char '$' :: .char c :: piecesFrom .outside cs
  | .inName name, c :: cs =>
    if c ≠ closeBrace then piecesFrom (.inName (c :: name)) cs
    else if name.isEmpty then (written []).map .char ++ piecesFrom .outside cs
    else .reference name.reverse :: piecesFrom .outside cs

def pieces (cs : List Char) : List Piece := piecesFrom .outside cs

/-- The names in the references of a text. -/
def names (text : String) : List String :=
  (pieces text.toList).filterMap fun
    | .reference name => some (String.ofList name)
    | .char _ => none

/-- What stands for a piece in the result. -/
def substitute (e : Environment) : Piece → List Char
  | .char c => [c]
  | .reference name => match e.value? (String.ofList name) with
    | some value => value.toList
    | none => written name

/-- The characters of a text with the values of variables in place of references to them. -/
def resolveChars (e : Environment) (cs : List Char) : List Char := (pieces cs).flatMap e.substitute

def resolve (e : Environment) (text : String) : String := String.ofList (e.resolveChars text.toList)

end Environment

end PushDispatch
