import PushDispatch.Device
import PushDispatch.Json.Record

/-!
Devices in JSON.
-/

namespace PushDispatch

/-- Reads the name of a platform, given as a string or as an object with that name alone and `null`. -/
def Platform.ofJson? : Json → Option Platform
  | .string (some name) => ofName? name
  | .object [(some name, .null)] => ofName? name
  | _ => none

namespace Device

def toJson (d : Device) : Json :=
  .record [("token", .text d.token), ("platform", .text d.platform.name)]

def ofJson? (json : Json) : Option Device := do
  match (← json.fields? ["token", "platform"]).values with
  | [some token, some platform] => pure ⟨← token.text?, ← Platform.ofJson? platform⟩
  | _ => none

/-- A list of devices, in the form of a devices file. -/
def listToJson (devices : List Device) : Json := .array (devices.map toJson)

def listOfJson? : Json → Option (List Device) := Json.list? ofJson?

end Device

end PushDispatch
