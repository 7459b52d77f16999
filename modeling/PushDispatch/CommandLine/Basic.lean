import PushDispatch.Device.Json
import PushDispatch.Files
import PushDispatch.Json.Reader
import PushDispatch.Message
import PushDispatch.Settings.Check

/-!
What a command line asks for: a message, the devices that receive it, and how the program is to run.
-/

namespace PushDispatch

structure CommandLine where
  /-- The path of the settings file. -/
  config : String
  tokens : List String
  /-- The platform of the devices whose tokens are given. -/
  platform : Platform
  /-- The path of a file of devices. -/
  devices : Option String
  title : String
  body : String
  data : List (String × String)
  category : Option String
  verbose : Bool
  jsonLogs : Bool
deriving DecidableEq

namespace CommandLine

def defaultConfig : String := "retreat-notify.toml"

/-- The message, with its data entries added in their order. -/
def message (c : CommandLine) : Message :=
  let message := c.data.foldl (fun m entry => m.withData entry.1 entry.2) (.ofText c.title c.body)
  match c.category with
  | some category => message.withCategory category
  | none => message

/-- The devices whose tokens are given. -/
def tokenDevices (c : CommandLine) : List Device := c.tokens.map fun token => ⟨token, c.platform⟩

/-- The devices in a devices file. -/
def readDevices (text : String) : Except PushError (List Device) :=
  match (Json.read? text).bind Device.listOfJson? with
  | some devices => .ok devices
  | none => .error (.serialization none)

/-- All devices: those of the file, then those whose tokens are given. -/
def targets (c : CommandLine) (readText : String → Except FileProblem String) : Except PushError (List Device) :=
  match c.devices with
  | none => .ok c.tokenDevices
  | some path =>
    match readText path with
    | .error problem => .error (.file problem)
    | .ok text => (readDevices text).map (· ++ c.tokenDevices)

/-- Checks that there is something to say and somebody to say it to. Devices in a file are not looked at. -/
def validate (c : CommandLine) : Except PushError Unit := do
  Check.nonBlank "title" c.title
  Check.nonBlank "body" c.body
  if c.tokens.isEmpty && c.devices.isNone then throw (.missingSetting "--token or --devices")
  match c.tokens.find? Text.isAllBlank with
  | some token => throw (.invalidSetting "token" token "Device token cannot be empty")
  | none => pure ()

end CommandLine

end PushDispatch
