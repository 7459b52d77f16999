import PushDispatch.Text.Decimal
import PushDispatch.TextMap

/-!
How a push is to be shown on each platform. Android apps draw the notification themselves from the data;
iOS shows a visible alert that an extension of the app may rewrite.
-/

namespace PushDispatch.Fcm

inductive AndroidPriority where
  | normal
  | high
deriving DecidableEq

def AndroidPriority.name : AndroidPriority → String
  | .normal => "normal"
  | .high => "high"

/-- How urgent an Android push is, and whether the system displays it or the app gets its data alone. -/
structure AndroidPolicy where
  priority : AndroidPriority
  display : Bool
deriving DecidableEq

def AndroidPolicy.isDataOnly (p : AndroidPolicy) : Bool := !p.display

inductive ApnsPushType where
  | alert
  | background
deriving DecidableEq

def ApnsPushType.name : ApnsPushType → String
  | .alert => "alert"
  | .background => "background"

/-- The headers of an iOS push, and whether the app may rewrite it before it is shown. -/
structure ApnsPolicy where
  pushType : ApnsPushType
  priority : UInt8
  mutableContent : Bool
deriving DecidableEq

namespace ApnsPolicy

def headers (p : ApnsPolicy) : TextMap :=
  .ofList [("apns-push-type", p.pushType.name), ("apns-priority", Text.Decimal.text p.priority.toNat)]

def mutableFlag (p : ApnsPolicy) : Nat := if p.mutableContent then 1 else 0

end ApnsPolicy

/-- The policies of one push. -/
structure Policy where
  android : AndroidPolicy
  apns : ApnsPolicy
deriving DecidableEq

/-- Urgent data-only pushes on Android, visible rewritable alerts of the highest priority on iOS. -/
def Policy.standard : Policy := ⟨⟨.high, false⟩, ⟨.alert, 10, true⟩⟩

end PushDispatch.Fcm
