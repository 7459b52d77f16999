import PushDispatch.Device
import PushDispatch.Fcm.Policy
import PushDispatch.Json.Printer
import PushDispatch.Json.Record
import PushDispatch.Message

/-!
The body of a send in version 1 of the Firebase Cloud Messaging API, and how it is built for a device.
-/

namespace PushDispatch.Fcm

/-- A title and a body that the platform shows. -/
structure Alert where
  title : String
  body : String
deriving DecidableEq

structure AndroidBlock where
  priority : AndroidPriority
  notification : Option Alert
deriving DecidableEq

structure ApnsBlock where
  headers : TextMap
  alert : Alert
  mutableFlag : Nat
deriving DecidableEq

/-- One message to one device. -/
structure Request where
  token : String
  data : TextMap
  notification : Option Alert
  android : Option AndroidBlock
  apns : Option ApnsBlock
deriving DecidableEq

namespace Request

/-- The request that shows a message on a device. The category becomes a data entry; for an Android app
that draws its own notification the title and the body do too. -/
def build (policy : Policy) (device : Device) (message : Message) : Request :=
  let data := match message.category with
    | some category => message.data.insert "category" category
    | none => message.data
  let alert : Alert := ⟨message.title, message.body⟩
  match device.platform with
  | .android =>
    if policy.android.isDataOnly then
      ⟨device.token, (data.insert "title" message.title).insert "body" message.body, none,
        some ⟨policy.android.priority, none⟩, none⟩
    else ⟨device.token, data, none, some ⟨policy.android.priority, some alert⟩, none⟩
  | .ios => ⟨device.token, data, none, none, some ⟨policy.apns.headers, alert, policy.apns.mutableFlag⟩⟩
  | .web => ⟨device.token, data, some alert, none, none⟩

end Request

/-! ### JSON -/

/-- A member that is left out where there is no value. -/
def member {α : Type} (name : String) (toJson : α → Json) : Option α → List (String × Json)
  | some value => [(name, toJson value)]
  | none => []

def Alert.toJson (a : Alert) : Json := .record [("title", .text a.title), ("body", .text a.body)]

def AndroidBlock.toJson (b : AndroidBlock) : Json :=
  .record (("priority", .text b.priority.name) :: member "notification" Alert.toJson b.notification)

def ApnsBlock.toJson (b : ApnsBlock) : Json :=
  .record [("headers", .ofTextMap b.headers),
    ("payload", .record [("aps", .record [("alert", b.alert.toJson),
      ("mutable-content", .number (Text.Decimal.write b.mutableFlag))])])]

namespace Request

/-- The request as JSON; the data and the blocks of other platforms are left out where they are empty. -/
def toJson (r : Request) : Json :=
  .record [("message", .record (("token", .text r.token) ::
    ((if r.data.isEmpty then [] else [("data", .ofTextMap r.data)]) ++
      member "notification" Alert.toJson r.notification ++ member "android" AndroidBlock.toJson r.android ++
      member "apns" ApnsBlock.toJson r.apns)))]

/-- The text of the body that is sent. -/
def body (r : Request) : String := r.toJson.renderText

end Request

end PushDispatch.Fcm
