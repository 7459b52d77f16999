import PushDispatch.Duration

/-!
Everything that can go wrong between reading the settings and the last answer of the push service, with
the texts for the log and for the person at the terminal, and what follows from each error: whether the
same message may be sent again, and how grave it is.
-/

namespace PushDispatch

/-- Why a file could not be read as text. -/
inductive FileProblem where
  | notFound
  | permissionDenied
  | notDirectory
  | isDirectory
  | notUtf8
  | nameTooLong
  | zeroInName
  | other (text : String)
deriving DecidableEq

def FileProblem.message : FileProblem → String
  | .notFound => "No such file or directory (os error 2)"
  | .permissionDenied => "Permission denied (os error 13)"
  | .notDirectory => "Not a directory (os error 20)"
  | .isDirectory => "Is a directory (os error 21)"
  | .notUtf8 => "stream did not contain valid UTF-8"
  | .nameTooLong => "File name too long (os error 36)"
  | .zeroInName => "file name contained an unexpected NUL byte"
  | .other text => text

/-- Why an exchange with the push service gave no answer. -/
inductive HttpProblem where
  /-- The address is no URL, or a header value holds a forbidden byte. -/
  | malformedRequest
  /-- The URL is not one that HTTP can reach. -/
  | unsupportedUrl (url : String)
  | connectionRefused (url : String)
  | timedOut (url : String)
  /-- The connection ended before a reply. -/
  | connectionClosed (url : String)
  /-- The reply reports success, but its body is cut short or is no answer to a send. -/
  | unreadableAnswer
deriving DecidableEq

namespace HttpProblem

def message : HttpProblem → String
  | malformedRequest => "builder error"
  | unsupportedUrl url => "builder error for url (" ++ url ++ ")"
  | connectionRefused url => "error sending request for url (" ++ url ++ ")"
  | timedOut url => "error sending request for url (" ++ url ++ ")"
  | connectionClosed url => "error sending request for url (" ++ url ++ ")"
  | unreadableAnswer => "error decoding response body"

/-- Only when no connection was made or no reply came in time may the request be made again. -/
def retryable : HttpProblem → Bool
  | connectionRefused _ => true
  | timedOut _ => true
  | _ => false

end HttpProblem

inductive Severity where
  | low
  | medium
  | high
  | critical
deriving DecidableEq

def Severity.name : Severity → String
  | .low => "Low"
  | .medium => "Medium"
  | .high => "High"
  | .critical => "Critical"

/-- What to do about an error of the given severity. -/
def Severity.suggestion : Severity → String
  | .low => "Remove the stale device token from the user's devices"
  | .medium => "Retry later or check the FCM service status"
  | .high => "Check the message data for unsupported values"
  | .critical => "Fix the configuration file and run again"

inductive PushError where
  | http (problem : HttpProblem)
  | file (problem : FileProblem)
  /-- A text is not the JSON it should be; the detail, if there is one, says where. -/
  | serialization (detail : Option String)
  | configuration (detail : String)
  | missingSetting (field : String)
  | invalidSetting (field value reason : String)
  /-- The push service no longer knows the device. -/
  | unregisteredDevice
  /-- The push service refused the message, and may have asked for a wait before the next try. -/
  | rejected (status : Nat) (text : String) (mayRetry : Bool) (wait : Option Duration)
deriving DecidableEq

namespace PushError

/-- The text for the log. -/
def message : PushError → String
  | http problem => "FCM request failed: " ++ problem.message
  | file problem => "IO error: " ++ problem.message
  | serialization none => "Serialization error"
  | serialization (some detail) => "Serialization error: " ++ detail
  | configuration detail => "Configuration error: " ++ detail
  | missingSetting field => "Missing configuration: " ++ field
  | invalidSetting field value reason => "Invalid value for " ++ field ++ " (" ++ value ++ "): " ++ reason
  | unregisteredDevice => "Device token is no longer registered"
  | rejected status text _ _ =>
    "FCM rejected the message with status " ++ Text.Decimal.text status ++ ": " ++ text

/-- Whether sending the same message again may succeed. -/
def retryable : PushError → Bool
  | http problem => problem.retryable
  | rejected _ _ mayRetry _ => mayRetry
  | _ => false

/-- The wait that the push service asked for. -/
def retryAfter : PushError → Option Duration
  | rejected _ _ _ wait => wait
  | _ => none

def severity : PushError → Severity
  | unregisteredDevice => .low
  | http _ => .medium
  | rejected .. => .medium
  | serialization _ => .high
  | file _ => .critical
  | configuration _ => .critical
  | missingSetting _ => .critical
  | invalidSetting .. => .critical

/-- The text for the person at the terminal. -/
def friendly : PushError → String
  | http _ => "Could not reach the push service"
  | file problem => "File access failed: " ++ problem.message
  | serialization _ => "Could not encode the push payload"
  | configuration detail => "Configuration problem: " ++ detail
  | missingSetting field => "Required setting `" ++ field ++ "` is missing"
  | invalidSetting field _ reason => "Setting `" ++ field ++ "` is invalid: " ++ reason
  | unregisteredDevice => "The device is no longer registered"
  | rejected status text _ _ =>
    "Push service refused the message (" ++ Text.Decimal.text status ++ "): " ++ text

def suggestion (e : PushError) : String := e.severity.suggestion

end PushError

end PushDispatch
