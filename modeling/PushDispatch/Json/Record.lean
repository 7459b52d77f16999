import PushDispatch.Json.Basic
import PushDispatch.TextMap

/-!
Records in JSON. A record is an object with its fields by name, in any order and among members with other
names, or an array with its fields by position. A field that stands twice makes the record unreadable,
as does an item too many.
-/

namespace PushDispatch.Json

/-- The values of a record's fields, in the order of the fields; `none` for a field that is missing. -/
structure Fields where
  byPosition : Bool
  values : List (Option Json)

/-- The values of the members with the given name. -/
def named (members : List (Option String × Json)) (name : String) : List Json :=
  (members.filter fun member => member.1 == some name).map (·.2)

/-- The fields with the given names, if the value is a record with such fields. -/
def fields? (names : List String) : Json → Option Fields
  | .array items =>
    if items.length ≤ names.length then
      some ⟨true, items.map some ++ List.replicate (names.length - items.length) none⟩
    else none
  | .object members =>
    if members.all (fun member => member.1.isSome) && names.all (fun name => (named members name).length ≤ 1) then
      some ⟨false, names.map fun name => (named members name).head?⟩
    else none
  | _ => none

/-- Reads a field that may be missing and then has a value of its own. -/
def fieldOr {α : Type} (missing : α) (read? : Json → Option α) : Option Json → Option α
  | none => some missing
  | some value => read? value

/-- Reads a value that may be `null`. -/
def nullable? {α : Type} (read? : Json → Option α) : Json → Option (Option α)
  | .null => some none
  | value => (read? value).map some

/-- Reads an array item by item. -/
def list? {α : Type} (read? : Json → Option α) : Json → Option (List α)
  | .array items => items.mapM read?
  | _ => none

/-- Reads a member whose name and value are texts. -/
def textMember? : Option String × Json → Option (String × String)
  | (some name, .string (some value)) => some (name, value)
  | _ => none

/-- Reads an object of texts; of members with one name the last counts. -/
def textMap? : Json → Option TextMap
  | .object members => (members.mapM textMember?).map TextMap.ofList
  | _ => none

/-- The object of a map of texts. -/
def ofTextMap (m : TextMap) : Json := record (m.toList.map fun entry => (entry.1, text entry.2))

end PushDispatch.Json
