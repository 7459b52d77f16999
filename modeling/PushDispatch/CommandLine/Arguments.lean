import PushDispatch.CommandLine.Basic

/-!
Reading the arguments of the program from left to right. An option takes its value from the same argument,
after an equals sign, or is followed by it; the value of an option is looked at when the next option begins.
-/

namespace PushDispatch.CommandLine

/-- The options that have a value. -/
inductive Opt where
  | config
  | token
  | platform
  | devices
  | title
  | body
  | data
  | category
deriving DecidableEq

/-- The options without a value. -/
inductive Switch where
  | verbose
  | jsonLogs
  | help
deriving DecidableEq

/-- Why the arguments are rejected; a call for help is one reason. -/
inductive Rejection where
  | help
  | unknownArgument (argument : String)
  /-- An option has no value, or an empty one where a path should be. -/
  | missingValue (option : Opt)
  | invalidValue (option : Opt) (value : String)
  | repeatedOption (option : Opt)
  | repeatedSwitch (switch : Switch)
  | unneededValue (switch : Switch)
  | missingOption (option : Opt)
deriving DecidableEq

namespace Opt

def name : Opt → String
  | config => "config"
  | token => "token"
  | platform => "platform"
  | devices => "devices"
  | title => "title"
  | body => "body"
  | data => "data"
  | category => "category"

def all : List Opt := [config, token, platform, devices, title, body, data, category]

def ofName? (name : String) : Option Opt := all.find? (·.name = name)

end Opt

namespace Switch

def name : Switch → String
  | verbose => "verbose"
  | jsonLogs => "json-logs"
  | help => "help"

def all : List Switch := [verbose, jsonLogs, help]

def ofName? (name : String) : Option Switch := all.find? (·.name = name)

end Switch

/-! ### Single arguments -/

/-- What an argument is by its form. -/
inductive Argument where
  | option (option : Opt) (attached : Option String)
  | switch (switch : Switch) (attached : Option String)
  /-- Two hyphens, after which there are no options. -/
  | endOfOptions
  | plain
  | unknown

/-- The argument with a long name and what is attached to it. -/
def Argument.long (name : String) (attached : Option String) : Argument :=
  match Opt.ofName? name, Switch.ofName? name with
  | some o, _ => option o attached
  | none, some s => switch s attached
  | none, none => unknown

/-- Recognises an argument. The options with a short name are `-c` and `-h`. -/
def Argument.ofChars : List Char → Argument
  | ['-', '-'] => endOfOptions
  | '-' :: '-' :: rest =>
    match Text.splitFirst '=' rest with
    | some (name, value) => long (String.ofList name) (some (String.ofList value))
    | none => long (String.ofList rest) none
  | ['-'] => plain
  | ['-', 'c'] => option .config none
  | '-' :: 'c' :: '=' :: value => option .config (some (String.ofList value))
  | '-' :: 'c' :: value => option .config (some (String.ofList value))
  | '-' :: 'h' :: _ => switch .help none
  | '-' :: _ => unknown
  | _ => plain

/-! ### Collecting values -/

/-- What has been given so far. -/
structure Draft where
  config : Option String
  tokens : List String
  platform : Option Platform
  devices : Option String
  title : Option String
  body : Option String
  data : List (String × String)
  category : Option String
  verbose : Bool
  jsonLogs : Bool

namespace Draft

def empty : Draft := ⟨none, [], none, none, none, none, [], none, false, false⟩

/-- A text for an option that is given once. -/
def once (o : Opt) (before : Option String) (value : String) : Except Rejection (Option String) :=
  if before.isSome then .error (.repeatedOption o) else .ok (some value)

/-- A path for an option that is given once. -/
def path (o : Opt) (before : Option String) (value : String) : Except Rejection (Option String) := do
  let value ← once o before value
  if value == some "" then throw (.missingValue o)
  pure value

/-- Gives an option its value. -/
def set (d : Draft) (o : Opt) (value : String) : Except Rejection Draft :=
  match o with
  | .config => do pure { d with config := ← path o d.config value }
  | .token => .ok { d with tokens := d.tokens ++ [value] }
  | .platform =>
    if d.platform.isSome then .error (.repeatedOption o)
    else match Platform.read value with
      | .ok platform => .ok { d with platform := some platform }
      | .error _ => .error (.invalidValue o value)
  | .devices => do pure { d with devices := ← path o d.devices value }
  | .title => do pure { d with title := ← once o d.title value }
  | .body => do pure { d with body := ← once o d.body value }
  | .data => match readEntry value with
    | .ok entry => .ok { d with data := d.data ++ [entry] }
    | .error _ => .error (.invalidValue o value)
  | .category => do pure { d with category := ← once o d.category value }

/-- Sets a switch. -/
def turnOn (d : Draft) : Switch → Except Rejection Draft
  | .verbose => if d.verbose then .error (.repeatedSwitch .verbose) else .ok { d with verbose := true }
  | .jsonLogs => if d.jsonLogs then .error (.repeatedSwitch .jsonLogs) else .ok { d with jsonLogs := true }
  | .help => .error .help

/-- The command line, when all options have been read: the title and the body have to be there. -/
def finish (d : Draft) : Except Rejection CommandLine := do
  let some title := d.title | throw (.missingOption .title)
  let some body := d.body | throw (.missingOption .body)
  pure ⟨d.config.getD defaultConfig, d.tokens, d.platform.getD .android, d.devices, title, body, d.data, d.category,
    d.verbose, d.jsonLogs⟩

end Draft

/-- An option whose value has not been looked at, and the value, if it has been read. -/
abbrev Pending := Option (Opt × Option String)

/-- Gives a waiting option its value. -/
def settle (d : Draft) : Pending → Except Rejection Draft
  | none => .ok d
  | some (o, none) => .error (.missingValue o)
  | some (o, some value) => d.set o value

/-- Reads the rest of the arguments. An argument that cannot stand where it does is reported before a bad value
that waits. -/
def readFrom (d : Draft) (pending : Pending) : List String → Except Rejection Draft
  | [] => settle d pending
  | argument :: rest =>
    match Argument.ofChars argument.toList with
    | .unknown => .error (.unknownArgument argument)
    | .endOfOptions => match rest with
      | [] => settle d pending
      | next :: _ => .error (.unknownArgument next)
    | .plain => match pending with
      | some (o, none) => readFrom d (some (o, some argument)) rest
      | _ => .error (.unknownArgument argument)
    | .switch s (some _) => .error (.unneededValue s)
    | .switch s none => do readFrom (← (← settle d pending).turnOn s) none rest
    | .option o (some value) => do readFrom (← (← settle d pending).set o value) none rest
    | .option o none => do readFrom (← settle d pending) (some (o, none)) rest

/-- Reads the arguments. -/
def read (arguments : List String) : Except Rejection CommandLine := do
  (← readFrom .empty none arguments).finish

/-! ### Rejections -/

namespace Rejection

/-- The exit code of a program whose arguments are rejected. -/
def exitCode : Rejection → Nat
  | help => 0
  | _ => 2

/-- Whether the text goes to standard error. -/
def isError (r : Rejection) : Bool := r.exitCode ≠ 0

def usage : String :=
  "Usage: retreat-notify [OPTIONS] --title <TITLE> --body <BODY>\n\n" ++
  "Options:\n" ++
  "  -c, --config <CONFIG>      [default: retreat-notify.toml]\n" ++
  "      --token <TOKENS>       Device token to notify; repeat for several devices\n" ++
  "      --platform <PLATFORM>  Platform of the devices given with --token [default: android]\n" ++
  "      --devices <DEVICES>    JSON file with a list of devices\n" ++
  "      --title <TITLE>\n" ++
  "      --body <BODY>\n" ++
  "      --data <DATA>          Extra data entry as key=value; repeatable\n" ++
  "      --category <CATEGORY>\n" ++
  "      --verbose              Enable verbose output\n" ++
  "      --json-logs            Emit JSON log lines, overriding [logging]\n" ++
  "  -h, --help                 Print help"

def message : Rejection → String
  | help => "Send push notifications to retreat members' devices through FCM\n\n" ++ usage
  | unknownArgument argument => "error: unexpected argument '" ++ argument ++ "' found\n\n" ++ usage
  | missingValue o => "error: a value is required for '--" ++ o.name ++ "' but none was supplied"
  | invalidValue o value => "error: invalid value '" ++ value ++ "' for '--" ++ o.name ++ "'"
  | repeatedOption o => "error: the argument '--" ++ o.name ++ "' cannot be used multiple times\n\n" ++ usage
  | repeatedSwitch s => "error: the argument '--" ++ s.name ++ "' cannot be used multiple times\n\n" ++ usage
  | unneededValue s => "error: unexpected value for '--" ++ s.name ++ "' found; no more were expected\n\n" ++ usage
  | missingOption o => "error: the argument '--" ++ o.name ++ "' was not provided\n\n" ++ usage

end Rejection

end PushDispatch.CommandLine
