import PushDispatch.Error
import PushDispatch.Url.Reader

/-!
Checks of single settings. A check names the setting in its error, with the value that was refused and the
reason.
-/

namespace PushDispatch.Check

/-- A URL that HTTP can reach. -/
def url (field value : String) : Except PushError Unit :=
  if value.isEmpty then .error (.invalidSetting field value "URL cannot be empty")
  else match Url.read value with
    | .error problem => .error (.invalidSetting field value ("Invalid URL format: " ++ problem.message))
    | .ok url =>
      match String.ofList url.scheme with
      | "http" => .ok ()
      | "https" => .ok ()
      | scheme => .error (.invalidSetting field value ("Unsupported URL scheme: " ++ scheme))

/-- A number with a lower bound. -/
def atLeast (field : String) (min value : Nat) : Except PushError Unit :=
  if value < min then
    .error (.invalidSetting field (Text.Decimal.text value) ("Value must be at least " ++ Text.Decimal.text min))
  else .ok ()

/-- A number with both bounds; a bound itself is in range. -/
def between (field : String) (min max value : Int) : Except PushError Unit :=
  if value < min || max < value then
    .error (.invalidSetting field (Text.Decimal.intText value)
      ("Value must be between " ++ Text.Decimal.intText min ++ " and " ++ Text.Decimal.intText max))
  else .ok ()

/-- A setting without a default. -/
def required {α : Type} (field : String) : Option α → Except PushError α
  | some value => .ok value
  | none => .error (.missingSetting field)

/-- A text with a character that is not blank. -/
def nonBlank (field value : String) : Except PushError Unit :=
  if Text.isAllBlank value then
    .error (.invalidSetting field value "Value cannot be empty or whitespace-only")
  else .ok ()

/-- The characters of project ids. -/
def isProjectIdChar (c : Char) : Bool := ('a' ≤ c && c ≤ 'z') || Text.Decimal.isDigit c || c == '-'

/-- A project id. -/
def projectId (field value : String) : Except PushError Unit := do
  nonBlank field value
  if value.toList.all isProjectIdChar then .ok ()
  else .error (.invalidSetting field value "Project id can only contain lowercase letters, numbers and hyphens")

end PushDispatch.Check
