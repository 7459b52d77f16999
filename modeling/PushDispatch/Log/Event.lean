import PushDispatch.Device
import PushDispatch.Error
import PushDispatch.Log.Level

/-!
The events that are logged, with their level and their text.
-/

namespace PushDispatch.Log

inductive Event where
  | starting
  /-- The command line as the program understood it, in the given words. -/
  | commandLine (text : String)
  | invalidConfiguration (error : PushError)
  | programFailed (error : PushError)
  | recovery (suggestion : String)
  | nothingToSend
  | dispatching (title : String) (devices limit : Nat)
  | sending (url : String)
  | retrying (attempt limit : Nat) (error : PushError) (wait : Duration)
  | delivered (platform : Platform) (messageId : String) (attempts : Nat)
  | unregistered (platform : Platform)
  | failed (platform : Platform) (attempts : Nat) (reason : String)
  /-- A delivery broke off. -/
  | aborted
  | dispatched (delivered failed stale : Nat)
deriving DecidableEq

namespace Event

def level : Event → Level
  | starting => .info
  | commandLine _ => .debug
  | invalidConfiguration _ => .error
  | programFailed _ => .error
  | recovery _ => .error
  | nothingToSend => .debug
  | dispatching .. => .info
  | sending _ => .debug
  | retrying .. => .warn
  | delivered .. => .debug
  | unregistered _ => .warn
  | failed .. => .error
  | aborted => .error
  | dispatched .. => .info

private def num (n : Nat) : String := Text.Decimal.text n

/-- The text of an event. What the runtime says about a delivery that broke off stands in the log behind the text for it,
after a colon, and is left out here. -/
def message : Event → String
  | starting => "Starting retreat-notify"
  | commandLine text => "CLI config: " ++ text
  | invalidConfiguration error => "❌ Configuration validation failed: " ++ error.message
  | programFailed error =>
    "❌ retreat-notify failed: " ++ error.message ++ " (Severity: " ++ error.severity.name ++ ")"
  | recovery suggestion => "💡 Recovery suggestion: " ++ suggestion
  | nothingToSend => "No device targets, nothing to send"
  | dispatching title devices limit =>
    "📨 Dispatching '" ++ title ++ "' to " ++ num devices ++ " device(s), " ++ num limit ++ " in flight"
  | sending url => "Sending push to " ++ url
  | retrying attempt limit error wait =>
    "⚠️ Attempt " ++ num attempt ++ "/" ++ num limit ++ " failed: " ++ error.message ++ "; retrying in " ++ wait.text
  | delivered platform messageId attempts =>
    platform.name ++ " device delivered as " ++ messageId ++ " (" ++ num attempts ++ " attempt(s))"
  | unregistered platform => "🗑️ " ++ platform.name ++ " device token is unregistered"
  | failed platform attempts reason =>
    "❌ " ++ platform.name ++ " device failed after " ++ num attempts ++ " attempt(s): " ++ reason
  | aborted => "❌ Delivery task aborted"
  | dispatched ok bad stale =>
    "✅ Dispatch finished: " ++ num ok ++ " delivered, " ++ num bad ++ " failed, " ++ num stale ++ " stale token(s)"

end Event

end PushDispatch.Log
