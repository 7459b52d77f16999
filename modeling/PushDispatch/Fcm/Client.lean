import PushDispatch.Dispatch.Schedule
import PushDispatch.Fcm.Reply
import PushDispatch.Text.Base64
import PushDispatch.Url.Reader

/-!
The client of the push service: how a request becomes a post to a URL, and the transport that sends requests
over a network and understands what comes back.
-/

namespace PushDispatch.Fcm

/-- The value of a header that says who sends. -/
inductive Credentials where
  /-- User name and password, which stood in the URL. -/
  | basic (user : List Char) (password : List Char)
  | bearer (token : List Char)
deriving DecidableEq

def Credentials.text : Credentials → List Char
  | basic user password => "Basic ".toList ++ Text.Base64.encode (Text.Utf8.encode (user ++ ':' :: password))
  | bearer token => "Bearer ".toList ++ token

/-- One post of a request: the URL without credentials, the credentials in the order of their headers, and the
request that is the body. -/
structure Post where
  url : Url
  credentials : List Credentials
  request : Request
deriving DecidableEq

/-! ### URLs that HTTP can reach -/

/-- The longest URL, in characters, that can be sent. -/
def maxUrlLength : Nat := 65534

/-- The characters that a URL standard allows in the host of a URL, but HTTP does not. -/
def isStrangeToHttp (c : Char) : Bool := ['"', Char.ofNat 96, Char.ofNat 123, Char.ofNat 125].contains c

/-- Whether HTTP can reach a URL. -/
def isReachable (u : Url) : Bool :=
  (u.scheme == "http".toList || u.scheme == "https".toList) && !u.hostText.any isStrangeToHttp &&
    u.chars.length ≤ maxUrlLength

/-- Takes user name and password out of a URL; they have to be texts when percent signs are resolved. -/
def takeUser (u : Url) : List Credentials × Url :=
  let decode? (cs : List Char) : Option (List Char) := Text.Utf8.decode? (Url.decode cs)
  match decode? u.username with
  | none => ([], u)
  | some user =>
    match u.password.bind decode? with
    | some password => ([.basic user password], u.withoutUser)
    | none => if user.isEmpty then ([], u) else ([.basic user []], u.withoutUser)

/-- Whether a character may stand in the value of a header. -/
def isHeaderChar (c : Char) : Bool := c = '\t' || (32 ≤ c.toNat && c.toNat ≠ 127)

/-! ### Client and network -/

/-- Where requests are sent, and the access token that goes with them. -/
structure Client where
  sendUrl : String
  accessToken : Option String
deriving DecidableEq

/-- The URL for sends in a project; slashes at the end of the endpoint do not count. -/
def sendUrl (endpoint projectId : String) : String :=
  String.ofList (Text.dropEndWhile (· == '/') endpoint.toList) ++ "/v1/projects/" ++ projectId ++ "/messages:send"

namespace Client

/-- The post of a request, or why it cannot be made. -/
def post (c : Client) (request : Request) : Except HttpProblem Post :=
  match Url.read c.sendUrl with
  | .error _ => .error .malformedRequest
  | .ok url =>
    if !url.hasHost then .error (.unsupportedUrl url.text)
    else
      let (user, url) := takeUser url
      let bearer := c.accessToken.map String.toList
      if bearer.any fun token => !token.all isHeaderChar then .error .malformedRequest
      else if !isReachable url then .error (.unsupportedUrl url.text)
      else .ok ⟨url, user ++ (bearer.map Credentials.bearer).toList, request⟩

end Client

/-- A network that may change with each exchange: how many nanoseconds an exchange takes, and how it ends. -/
structure Network (σ : Type) where
  exchange : σ → Post → (Nat × Exchange) × σ

/-- Sends requests over a network. -/
def Client.transport {σ : Type} (c : Client) (network : Network σ) : Transport σ where
  send state request :=
    let event := Log.Event.sending c.sendUrl
    match c.post request with
    | .error problem => (⟨0, .refused (.http problem), [event]⟩, state)
    | .ok post =>
      let ((latency, exchange), state) := network.exchange state post
      (⟨latency, exchange.answer post.url.text, [event]⟩, state)

end PushDispatch.Fcm
