import PushDispatch.Dispatch.Retry
import PushDispatch.Json.Reader
import PushDispatch.Json.Record

/-!
What comes back from the push service, and what it means: an accepted message with its id, a device that the
service no longer knows, a refusal that may ask for a wait, or a failed exchange.
-/

namespace PushDispatch.Fcm

/-- A reply over HTTP. Header values and the body are bytes; a body may have been cut short. -/
structure Reply where
  status : Nat
  headers : List (String × List UInt8)
  body : List UInt8
  isWhole : Bool

/-- How an exchange with a server ends. -/
inductive Exchange where
  | refused
  | timedOut
  /-- The connection was closed before a reply. -/
  | closed
  | replied (reply : Reply)

namespace Reply

def isSuccess (r : Reply) : Bool := 200 ≤ r.status && r.status < 300

/-- Whether a refusal may be followed by another try: too many requests, or an error of the server. -/
def mayRetry (status : Nat) : Bool := status = 429 || (500 ≤ status && status < 600)

/-- The body; a reply with status 204 or 304 has none. -/
def content (r : Reply) : List UInt8 := if r.status = 204 || r.status = 304 then [] else r.body

/-! ### The wait that a refusal asks for -/

/-- The first value of a header; names of headers have no case. -/
def header? (name : String) (r : Reply) : Option (List UInt8) :=
  (r.headers.find? fun header => Text.lowerAscii header.1 = name).map (·.2)

/-- The characters of a header value, if it holds visible ASCII characters, blanks and tabs alone. -/
def visibleText? (bytes : List UInt8) : Option (List Char) :=
  if bytes.all fun b => (32 ≤ b.toNat && b.toNat < 127) || b.toNat = 9 then
    some (bytes.map fun b => Char.ofNat b.toNat)
  else none

/-- A number of seconds below 2^64; blanks around it do not count, and a plus sign may stand in front. -/
def readSeconds? (cs : List Char) : Option Nat :=
  let digits := match Text.dropAround Text.isBlank cs with
    | '+' :: digits => digits
    | digits => digits
  match Text.Decimal.read? digits with
  | some seconds => if seconds < Nat.pow 2 64 then some seconds else none
  | none => none

/-- The wait in seconds that the headers ask for. A date in place of seconds is not understood. -/
def retryAfter? (r : Reply) : Option Duration :=
  (((r.header? "retry-after").bind visibleText?).bind readSeconds?).map Duration.ofSeconds

end Reply

/-! ### Bodies -/

/-- Reads the id of an accepted message. -/
def messageId? (json : Json) : Option String := do
  match (← json.fields? ["name"]).values with
  | [some name] => name.text?
  | _ => none

/-- What the service says about a refusal: a message for people, a status by name, and for each detail its
error code, if it has one. -/
structure Complaint where
  message : String
  status : String
  details : List (Option String)
deriving DecidableEq

namespace Complaint

def empty : Complaint := ⟨"", "", []⟩

/-- Reads a detail. The error code may be missing from an object, but not from an array. -/
def detail? (json : Json) : Option (Option String) := do
  let fields ← json.fields? ["errorCode"]
  match fields.values with
  | [some code] => Json.nullable? Json.text? code
  | _ => if fields.byPosition then none else some none

def ofJson? (json : Json) : Option Complaint := do
  match (← json.fields? ["message", "status", "details"]).values with
  | [message, status, details] =>
    pure ⟨← Json.fieldOr "" Json.text? message, ← Json.fieldOr "" Json.text? status,
      ← Json.fieldOr [] (Json.list? detail?) details⟩
  | _ => none

/-- Reads the body of a refusal, whose field `error` holds the complaint. -/
def ofBody? (json : Json) : Option Complaint := do
  match (← json.fields? ["error"]).values with
  | [error] => Json.fieldOr empty ofJson? error
  | _ => none

/-- The complaint in the text of a body; an unreadable one says nothing. -/
def read (cs : List Char) : Complaint := ((Json.readChars? cs).bind ofBody?).getD empty

/-- The first error code of the details. -/
def errorCode? (c : Complaint) : Option String := c.details.findSome? id

/-- Whether the complaint is that the device is no longer known. The service says so by an error code, or by
naming the token as the invalid argument. -/
def namesStaleDevice (c : Complaint) : Bool :=
  c.errorCode? == some "UNREGISTERED" ||
    (c.status == "INVALID_ARGUMENT" &&
      Text.occursIn "registration token".toList (Text.lowerAscii c.message).toList)

end Complaint

/-! ### Meaning -/

/-- The number of characters of a body that are shown where the service gives no message. -/
def excerptLength : Nat := 200

/-- The error that a refusal is. -/
def refusal (status : Nat) (wait : Option Duration) (body : List Char) : PushError :=
  let complaint := Complaint.read body
  if complaint.namesStaleDevice then .unregisteredDevice
  else .rejected status
    (if complaint.message.isEmpty then String.ofList (body.take excerptLength) else complaint.message)
    (Reply.mayRetry status) wait

/-- What a reply means. Of a body that was cut short nothing is read. -/
def Reply.answer (r : Reply) : Answer :=
  if r.isSuccess then
    match if r.isWhole then (Json.readBytes? r.content).bind messageId? else none with
    | some id => .accepted id
    | none => .refused (.http .unreadableAnswer)
  else .refused (refusal r.status r.retryAfter? (if r.isWhole then Text.Utf8.decodeLossy r.content else []))

/-- What an exchange with the server at a URL means. -/
def Exchange.answer (url : String) : Exchange → Answer
  | refused => .refused (.http (.connectionRefused url))
  | timedOut => .refused (.http (.timedOut url))
  | closed => .refused (.http (.connectionClosed url))
  | replied reply => reply.answer

end PushDispatch.Fcm
