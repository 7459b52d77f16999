import PushDispatch.Dispatch.Schedule

/-!
Scripts: what a rehearsed service does with each send, token by token. Devices with one token share the
steps of that token, and a token whose steps are used up, or that has none, meets the fallback.
-/

namespace PushDispatch

/-- For each token the steps that are left. -/
structure Script (α : Type) where
  steps : List (String × List α)
  fallback : String → α

namespace Script

variable {α : Type}

/-- The next step of a token, and the script without it. -/
def next (s : Script α) (token : String) : α × Script α :=
  match s.steps.lookup token with
  | some (step :: _) =>
    (step, { s with steps := s.steps.map fun (t, steps) => (t, if t == token then steps.tail else steps) })
  | _ => (s.fallback token, s)

end Script

/-- The transport that follows a script of answers. -/
def Transport.scripted : Transport (Script Sent) where
  send script request := script.next request.token

end PushDispatch
