import PushDispatch.TextMap
import PushDispatch.Text.Blank

/-!
The message that a push carries, and the `key=value` form in which a person gives its data entries.
-/

namespace PushDispatch

/-- A title and a body, data entries for the app, and a hint such as `chat` on where the app takes the reader. -/
structure Message where
  title : String
  body : String
  data : TextMap
  category : Option String
deriving DecidableEq

namespace Message

/-- A message with a title and a body alone. -/
def ofText (title body : String) : Message := ⟨title, body, .empty, none⟩

/-- Adds a data entry; the last value given for a key counts. -/
def withData (m : Message) (key value : String) : Message :=
  { m with data := m.data.insert key value }

def withCategory (m : Message) (category : String) : Message :=
  { m with category := some category }

end Message

/-- Why a text is no data entry. -/
inductive EntryProblem where
  | noSeparator (text : String)
  | emptyKey (text : String)
deriving DecidableEq

def EntryProblem.message : EntryProblem → String
  | .noSeparator text => "expected key=value, got `" ++ text ++ "`"
  | .emptyKey text => "empty key in `" ++ text ++ "`"

/-- Reads a data entry: the trimmed text before the first `=` is the key, all that follows is the value. -/
def readEntry (text : String) : Except EntryProblem (String × String) :=
  match Text.splitFirst '=' text.toList with
  | none => .error (.noSeparator text)
  | some (before, after) =>
    match Text.dropAround Text.isBlank before with
    | [] => .error (.emptyKey text)
    | key => .ok (String.ofList key, String.ofList after)

end PushDispatch
