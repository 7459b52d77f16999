import PushDispatch.Dispatch.Retry
import PushDispatch.Log.Format
import PushDispatch.Settings.Check

/-!
The settings of the program: what a settings file says, what holds where it says nothing, and when settings
are fit for use.
-/

namespace PushDispatch

/-- How to reach the push service. -/
structure ServiceSettings where
  projectId : String
  endpoint : Option String
  accessToken : Option String
  timeoutSeconds : Option Nat
deriving DecidableEq

/-- How many sends there may be at a time, and how failed ones are tried again. -/
structure DispatchSettings where
  concurrentRequests : Option Nat
  maxAttempts : Option Nat
  baseDelayMillis : Option Nat
  maxDelayMillis : Option Nat
deriving DecidableEq

/-- What is logged, and in which form. -/
structure LogSettings where
  level : Option String
  format : Option Log.Format
deriving DecidableEq

/-- What a settings file says. -/
structure Settings where
  service : ServiceSettings
  dispatch : Option DispatchSettings
  logging : Option LogSettings
deriving DecidableEq

namespace Settings

/-! ### What holds where a setting is missing -/

def defaultEndpoint : String := "https://fcm.googleapis.com"

def defaultLogFilter : String := "retreat_notify=info"

def endpoint (s : Settings) : String := s.service.endpoint.getD defaultEndpoint

def requestTimeout (s : Settings) : Duration := .ofSeconds (s.service.timeoutSeconds.getD 10)

def dispatchOrNone (s : Settings) : DispatchSettings := s.dispatch.getD ⟨none, none, none, none⟩

def concurrency (s : Settings) : Nat := s.dispatchOrNone.concurrentRequests.getD 5

/-- The retry policy; each part that is missing has its own standard. -/
def retryPolicy (s : Settings) : RetryPolicy :=
  let d := s.dispatchOrNone
  let standard := RetryPolicy.standard
  ⟨d.maxAttempts.getD standard.maxAttempts, (d.baseDelayMillis.map Duration.ofMillis).getD standard.baseDelay,
    (d.maxDelayMillis.map Duration.ofMillis).getD standard.maxDelay⟩

def logFilter (s : Settings) : String := (s.logging.bind (·.level)).getD defaultLogFilter

def logFormat (s : Settings) : Log.Format := (s.logging.bind (·.format)).getD .compact

/-! ### Validation -/

/-- Whether a text holds the beginning of a reference to a variable. -/
def holdsReference (text : String) : Bool := Text.occursIn ['$', Char.ofNat 123] text.toList

/-- The access token has to be there, with every variable in it set, and not blank. -/
def checkToken (s : Settings) : Except PushError Unit := do
  let token ← Check.required "fcm.access_token" s.service.accessToken
  if holdsReference token then
    throw (.invalidSetting "fcm.access_token" token "Environment variable is not set")
  Check.nonBlank "fcm.access_token" token

/-- Checks a setting that may be missing. -/
def checkIfPresent {α : Type} (check : α → Except PushError Unit) : Option α → Except PushError Unit
  | some value => check value
  | none => .ok ()

def checkConcurrency (value : Nat) : Except PushError Unit := do
  Check.atLeast "dispatch.concurrent_requests" 1 value
  Check.between "dispatch.concurrent_requests" 1 500 value

/-- The first wait cannot be longer than the longest one. -/
def checkDelays (p : RetryPolicy) : Except PushError Unit :=
  if p.maxDelay.nanos < p.baseDelay.nanos then
    .error (.invalidSetting "dispatch.base_delay_ms" (Text.Decimal.text p.baseDelay.millis)
      "Base delay cannot exceed dispatch.max_delay_ms")
  else .ok ()

/-- Checks all settings in turn and reports the first that is unfit for use. -/
def validate (s : Settings) : Except PushError Unit := do
  Check.projectId "fcm.project_id" s.service.projectId
  Check.url "fcm.endpoint" s.endpoint
  s.checkToken
  checkIfPresent (fun n : Nat => Check.between "fcm.timeout_seconds" 1 300 n) s.service.timeoutSeconds
  checkIfPresent checkConcurrency s.dispatchOrNone.concurrentRequests
  checkIfPresent (fun n : Nat => Check.between "dispatch.max_attempts" 1 10 n) s.dispatchOrNone.maxAttempts
  checkDelays s.retryPolicy

end Settings

end PushDispatch
