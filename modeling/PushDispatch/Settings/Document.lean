import PushDispatch.Environment
import PushDispatch.Files
import PushDispatch.Settings.Basic
import PushDispatch.Toml.Reader

/-!
Settings in TOML. References to variables of the environment are resolved in the text of the document, before
it is read. A group of settings is a table, or an array with all settings of the group in order.
-/

namespace PushDispatch.Settings

/-- The settings of a group with the given names, in that order; `none` for one that is missing. -/
def group? (names : List String) : Toml → Option (List (Option Toml))
  | .table _ entries => some (names.map fun name => entries.lookup name)
  | value => match value.items? with
    | some items => if names.length ≤ items.length then some ((items.take names.length).map some) else none
    | none => none

/-- Reads a setting that may be missing. -/
def optional? {α : Type} (read? : Toml → Option α) : Option Toml → Option (Option α)
  | none => some none
  | some value => (read? value).map some

/-- Reads a number of so many bits without a sign. -/
def unsigned? (bits : Nat) : Toml → Option Nat
  | .integer i => if 0 ≤ i && i < (Nat.pow 2 bits : Nat) then some i.toNat else none
  | _ => none

def isEmptyValue : Toml → Bool
  | .table _ entries => entries.isEmpty
  | value => match value.items? with
    | some items => items.isEmpty
    | none => false

/-- Reads the form of the log: its name, or a table whose one key is the name and whose value is empty. -/
def logFormat? : Toml → Option Log.Format
  | .string name => Log.Format.ofName? name
  | .table _ [(name, value)] => if isEmptyValue value then Log.Format.ofName? name else none
  | _ => none

def service? (value : Toml) : Option ServiceSettings := do
  match ← group? ["project_id", "endpoint", "access_token", "timeout_seconds"] value with
  | [some projectId, endpoint, accessToken, timeout] =>
    pure ⟨← projectId.string?, ← optional? Toml.string? endpoint, ← optional? Toml.string? accessToken,
      ← optional? (unsigned? 64) timeout⟩
  | _ => none

def dispatch? (value : Toml) : Option DispatchSettings := do
  match ← group? ["concurrent_requests", "max_attempts", "base_delay_ms", "max_delay_ms"] value with
  | [concurrent, attempts, base, max] =>
    pure ⟨← optional? (unsigned? 64) concurrent, ← optional? (unsigned? 32) attempts,
      ← optional? (unsigned? 64) base, ← optional? (unsigned? 64) max⟩
  | _ => none

def logging? (value : Toml) : Option LogSettings := do
  match ← group? ["level", "format"] value with
  | [level, format] => pure ⟨← optional? Toml.string? level, ← optional? logFormat? format⟩
  | _ => none

/-- The settings of a document. -/
def ofEntries? (entries : Toml.Entries) : Option Settings := do
  pure ⟨← service? (← entries.lookup "fcm"), ← optional? dispatch? (entries.lookup "dispatch"),
    ← optional? logging? (entries.lookup "logging")⟩

/-- Reads the text of a settings file. -/
def read (environment : Environment) (text : String) : Except PushError Settings :=
  match (Toml.read? (environment.resolve text)).bind ofEntries? with
  | some settings => .ok settings
  | none => .error (.configuration "TOML parsing error")

/-- Reads settings from the file at a path. -/
def load (readText : String → Except FileProblem String) (environment : Environment) (path : String) :
    Except PushError Settings :=
  match readText path with
  | .ok text => read environment text
  | .error problem => .error (.file problem)

end PushDispatch.Settings
