import PushDispatch.Environment
import PushDispatch.Log.Event
import PushDispatch.Log.Filter
import PushDispatch.Log.Format

/-!
The logger: what it lets through, in which form it writes, and how both are chosen. A readable filter in the
environment is always the one that counts.
-/

namespace PushDispatch.Log

structure Logger where
  filter : Filter
  format : Format

namespace Logger

/-- The filter that the environment asks for. -/
def environmentFilter? (e : Environment) : Option Filter := (e.value? "RUST_LOG").bind Filter.read?

/-- Debug events of this program and informative ones of any other. -/
def verboseFilter : Filter := ⟨[⟨some source.toList, some .debug⟩, ⟨none, some .info⟩]⟩

/-- The logger of a program without settings. -/
def standard (e : Environment) (verbose : Bool) : Logger :=
  ⟨(environmentFilter? e).getD (if verbose then verboseFilter else .only .info), .compact⟩

/-- The logger that writes JSON, whatever the settings say. -/
def json (e : Environment) : Logger := ⟨(environmentFilter? e).getD (.only .info), .json⟩

/-- The logger of a program whose settings ask for a filter and a form; a wish for all details goes first. -/
def configured (e : Environment) (filter : String) (format : Format) (verbose : Bool) : Logger :=
  if verbose then standard e true
  else ⟨((environmentFilter? e).or (Filter.read? filter)).getD (.only .info), format⟩

/-- Whether an event is logged. -/
def allows (l : Logger) (event : Event) : Bool := l.filter.allows event.level

end Logger

end PushDispatch.Log
