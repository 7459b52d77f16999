/-!
JSON values as trees. Members keep their order and their repetitions, numbers keep their digits, and a
string literal that names half of a surrogate pair is a value, although it denotes no text.
-/

namespace PushDispatch

inductive Json where
  | null
  | bool (value : Bool)
  | number (literal : List Char)
  | string (value : Option String)
  | array (items : List Json)
  | object (members : List (Option String × Json))

namespace Json

instance : Inhabited Json := ⟨null⟩

/-- The string literal of a text. -/
def text (s : String) : Json := string (some s)

/-- An object whose names are texts. -/
def record (members : List (String × Json)) : Json :=
  object (members.map fun (name, value) => (some name, value))

/-- The text of a value that is a string with one. -/
def text? : Json → Option String
  | string value => value
  | _ => none

end Json

end PushDispatch
