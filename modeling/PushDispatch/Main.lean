import PushDispatch.Log.Line
import PushDispatch.Program
import PushDispatch.Calendar.Stamp

/-!
The program at the command line. It reads the two files that the arguments name and the variables that they
refer to, runs, and writes what the run says. It has no network: every connection is refused, and a wait
between two sends takes no time.
-/

namespace PushDispatch.Terminal

/-- The network of a machine that has none. -/
def noNetwork : Fcm.Network Unit where
  exchange _ _ := ((0, .refused), ())

def fileProblem : IO.Error → FileProblem
  | .noFileOrDirectory .. => .notFound
  | .permissionDenied .. => .permissionDenied
  | .inappropriateType _ 20 _ => .notDirectory
  | .inappropriateType _ 21 _ => .isDirectory
  | .inappropriateType .. => .isDirectory
  | error => .other error.toString

def readFile (path : String) : IO (Except FileProblem String) := do
  try
    match Text.Utf8.decode? (← IO.FS.readBinFile path).toList with
    | some cs => pure (.ok (String.ofList cs))
    | none => pure (.error .notUtf8)
  catch error => pure (.error (fileProblem error))

/-- The time of day by the clock of the file system. -/
def now : IO Calendar.Instant := do
  let (_, path) ← IO.FS.createTempFile
  let modified := (← path.metadata).modified
  IO.FS.removeFile path
  pure ⟨modified.sec, modified.nsec.toNat⟩

/-- What the program finds around it: the files that the command line names, and the variables that the
settings file refers to. -/
def surroundings (c : CommandLine) : IO Surroundings := do
  let files ← (c.config :: c.devices.toList).mapM fun path => do pure (path, ← readFile path)
  let settingsText := match files.lookup c.config with
    | some (.ok text) => text
    | _ => ""
  let values ← ("RUST_LOG" :: Environment.names settingsText).filterMapM fun name => do
    pure ((← IO.getEnv name).map fun value => (name, value))
  pure ⟨.ofList values, fun path => (files.lookup path).getD (.error .notFound)⟩

def write : Output → IO Unit
  | .line text => IO.println text
  | .errorLine text => IO.eprintln text
  | .logged format event => do
    let stamp := (Calendar.stamp? (← now)).getD ""
    IO.println (Log.line stamp event format)

end PushDispatch.Terminal

open PushDispatch PushDispatch.Terminal in
def main (arguments : List String) : IO UInt32 := do
  let around ← match CommandLine.read arguments with
    | .ok c => surroundings c
    | .error _ => pure ⟨.ofList [], fun _ => .error .notFound⟩
  let ended := Program.run noNetwork () around arguments
  ended.outputs.forM write
  pure ended.exitCode.toUInt32
