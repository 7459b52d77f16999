import PushDispatch.CommandLine.Arguments
import PushDispatch.CommandLine.Listing
import PushDispatch.Fcm.Client
import PushDispatch.Log.Logger
import PushDispatch.Settings.Document

/-!
The program from its arguments to its exit code. It reads its settings and its devices, sends the message to
all devices over the network that it is given, and says what became of it.
-/

namespace PushDispatch

/-- What the program writes: lines for standard output and for standard error, and events for the log. -/
inductive Output where
  | line (text : String)
  | errorLine (text : String)
  | logged (format : Log.Format) (event : Log.Event)
deriving DecidableEq

/-- What the program finds around it. -/
structure Surroundings where
  environment : Environment
  readText : String → Except FileProblem String

/-- A run of the program that has ended, with the state of the network after it. -/
structure Ended (σ : Type) where
  exitCode : Nat
  outputs : List Output
  network : σ

namespace Program

/-- The exit code for an error of the given severity. -/
def exitCodeOf : Severity → Nat
  | .low => 0
  | .medium => 2
  | .high => 1
  | .critical => 3

/-- The outputs for events that the logger lets through. -/
def logs (logger : Log.Logger) (events : List Log.Event) : List Output :=
  (events.filter logger.allows).map (Output.logged logger.format)

/-- What is written about an error that ends the program. -/
def farewell (logger : Log.Logger) (e : PushError) : List Output :=
  logs logger [.programFailed e, .recovery e.suggestion] ++
    [.errorLine ("❌ " ++ e.friendly), .errorLine ("💡 " ++ e.suggestion)]

/-- The exit code of a program that an error ends; it is never 0. -/
def failureCode (e : PushError) : Nat := max (exitCodeOf e.severity) 1

/-- The logger for a command line and settings. -/
def chooseLogger (environment : Environment) (c : CommandLine) (settings : Settings) : Log.Logger :=
  if c.jsonLogs then .json environment
  else .configured environment settings.logFilter settings.logFormat c.verbose

/-- The first events of a run with settings. -/
def opening (c : CommandLine) : List Log.Event :=
  .starting :: (if c.verbose then [.commandLine c.listing] else [])

/-- The lines for the person at the terminal after a dispatch. -/
def conclusion (s : Summary) : List Output :=
  .line ("✅ Delivered " ++ Text.Decimal.text s.delivered ++ "/" ++ Text.Decimal.text s.reports.length ++
      " notification(s)") ::
    s.staleTokens.map (fun token => .line ("🗑️ Unregistered token: " ++ token)) ++
    (if 0 < s.hardFailures then
      [.errorLine ("❌ " ++ Text.Decimal.text s.hardFailures ++ " notification(s) could not be delivered")]
    else [])

/-- The exit code after a dispatch: only failures of registered devices count. -/
def dispatchCode (s : Summary) : Nat := if 0 < s.hardFailures then exitCodeOf .medium else 0

/-- The client for settings. -/
def client (settings : Settings) : Fcm.Client :=
  ⟨Fcm.sendUrl settings.endpoint settings.service.projectId, settings.service.accessToken⟩

def dispatcher (settings : Settings) : Dispatcher := ⟨settings.concurrency, settings.retryPolicy⟩

/-- The exit code of a program that breaks off. -/
def brokenCode : Nat := 101

/-- All devices, once settings and command line have been found fit for use; and the events in front of an
error. -/
def prepare (around : Surroundings) (c : CommandLine) (settings : Settings) :
    Except (List Log.Event × PushError) (List Device) :=
  match (do settings.validate; c.validate : Except PushError Unit) with
  | .error e => .error ([.invalidConfiguration e], e)
  | .ok () => match c.targets around.readText with
    | .error e => .error ([], e)
    | .ok devices => .ok devices

/-- Runs the program after its settings have been read. -/
def runWith {σ : Type} (network : Fcm.Network σ) (state : σ) (around : Surroundings) (c : CommandLine)
    (settings : Settings) : Ended σ :=
  let logger := chooseLogger around.environment c settings
  let first := logs logger (opening c)
  match prepare around c settings with
  | .error (events, e) => ⟨failureCode e, first ++ logs logger events ++ farewell logger e, state⟩
  | .ok devices =>
    match (dispatcher settings).dispatch ((client settings).transport network) state 0 devices c.message with
    | none => ⟨brokenCode, first, state⟩
    | some dispatched =>
      let events := (logged dispatched.trace).map (·.2)
      ⟨dispatchCode dispatched.summary, first ++ logs logger events ++ conclusion dispatched.summary,
        dispatched.service⟩

/-- Runs the program after its arguments have been read. -/
def runCommand {σ : Type} (network : Fcm.Network σ) (state : σ) (around : Surroundings) (c : CommandLine) : Ended σ :=
  match Settings.load around.readText around.environment c.config with
  | .error e => ⟨failureCode e, farewell (.standard around.environment c.verbose) e, state⟩
  | .ok settings => runWith network state around c settings

/-- Runs the program. -/
def run {σ : Type} (network : Fcm.Network σ) (state : σ) (around : Surroundings) (arguments : List String) : Ended σ :=
  match CommandLine.read arguments with
  | .error rejection =>
    ⟨rejection.exitCode, [if rejection.isError then .errorLine rejection.message else .line rejection.message], state⟩
  | .ok c => runCommand network state around c

end Program

end PushDispatch
