/-!
The forms in which log events can be written.
-/

namespace PushDispatch.Log

/-- One short line an event, or one JSON object a line. -/
inductive Format where
  | compact
  | json
deriving DecidableEq

namespace Format

def name : Format → String
  | compact => "compact"
  | json => "json"

def all : List Format := [compact, json]

/-- The form with exactly this name. -/
def ofName? (name : String) : Option Format := all.find? (·.name = name)

end Format

end PushDispatch.Log
