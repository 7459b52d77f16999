/-!
TOML values. Tables and arrays remember how they were written, for that decides what a document may still
add to them.
-/

namespace PushDispatch

/-- How a table came into being. -/
inductive Toml.TableKind where
  /-- It stands on the way to a table with a header of its own. -/
  | implied
  /-- It has a header. -/
  | headed
  /-- It stands on the way to the last part of a dotted key. -/
  | dotted
  /-- It is written between braces, and nothing can be added to it. -/
  | inline
deriving DecidableEq

inductive Toml where
  | string (value : String)
  | integer (value : Int)
  | float (literal : List Char)
  | boolean (value : Bool)
  | dateTime (literal : List Char)
  /-- An array between square brackets. -/
  | array (items : List Toml)
  /-- An array of tables, each with a header. -/
  | tables (items : List Toml)
  | table (kind : Toml.TableKind) (entries : List (String × Toml))

namespace Toml

instance : Inhabited Toml := ⟨boolean false⟩

/-- The entries of a table; their keys differ. -/
abbrev Entries := List (String × Toml)

/-- The items of an array of either form. -/
def items? : Toml → Option (List Toml)
  | array items => some items
  | tables items => some items
  | _ => none

def string? : Toml → Option String
  | string value => some value
  | _ => none

end Toml

end PushDispatch
