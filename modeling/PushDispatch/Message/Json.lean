import PushDispatch.Message
import PushDispatch.Json.Record

/-!
Messages in JSON.
-/

namespace PushDispatch.Message

def toJson (m : Message) : Json :=
  .record [("title", .text m.title), ("body", .text m.body), ("data", .ofTextMap m.data),
    ("category", match m.category with
      | some category => .text category
      | none => .null)]

/-- Reads a message; the data and the category may be missing. -/
def ofJson? (json : Json) : Option Message := do
  match (← json.fields? ["title", "body", "data", "category"]).values with
  | [some title, some body, data, category] =>
    pure ⟨← title.text?, ← body.text?, ← Json.fieldOr .empty Json.textMap? data,
      ← Json.fieldOr none (Json.nullable? Json.text?) category⟩
  | _ => none

end PushDispatch.Message
