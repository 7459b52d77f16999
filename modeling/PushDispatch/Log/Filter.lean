import PushDispatch.Log.Level
import PushDispatch.Text.Blank
import PushDispatch.Text.Decimal

/-!
Which events are logged. A filter is a list of directives between commas, such as `retreat_notify=debug,info`;
each sets a level for the events whose source begins with its target, or for all. Of the directives that are
about this program the one with the longest target decides.
-/

namespace PushDispatch.Log

/-- The source of all events of this program. -/
def source : String := "retreat_notify"

/-- The least important level that is still logged; `none` logs nothing. -/
abbrev Threshold := Option Level

namespace Threshold

/-- Reads a threshold: the name of a level in any case, `off`, or a number from 0 to 5. -/
def read? (cs : List Char) : Option Threshold :=
  match Text.lowerAscii (String.ofList cs) with
  | "off" => some none
  | "error" => some (some .error)
  | "warn" => some (some .warn)
  | "info" => some (some .info)
  | "debug" => some (some .debug)
  | "trace" => some (some .trace)
  | _ => match Text.Decimal.read? cs with
    | some 0 => some none
    | some 1 => some (some .error)
    | some 2 => some (some .warn)
    | some 3 => some (some .info)
    | some 4 => some (some .debug)
    | some 5 => some (some .trace)
    | _ => none

/-- Whether an event of a level is logged. -/
def allows (t : Threshold) (level : Level) : Bool := t.any fun least => level.detail ≤ least.detail

end Threshold

structure Directive where
  target : Option (List Char)
  threshold : Threshold
deriving DecidableEq

namespace Directive

/-- The characters with which a directive can begin. -/
def isFirstChar (c : Char) : Bool :=
  ('a' ≤ c && c ≤ 'z') || ('A' ≤ c && c ≤ 'Z') || Text.Decimal.isDigit c || ['-', ':', '_'].contains c ||
    128 ≤ c.toNat

/-- Reads a directive: a level for all, a target with a level, or a target alone, of which all is logged. -/
def read? (cs : List Char) : Option Directive :=
  if !((Text.dropAround Text.isBlank cs).head?.any isFirstChar) then none
  else match Text.splitFirst '=' cs with
    | some (target, level) =>
      if target.head?.any Text.isBlank then none
      else if (Text.dropAround Text.isBlank level).isEmpty then some ⟨some target, some .trace⟩
      else (Threshold.read? level).map fun t => ⟨some target, t⟩
    | none => match Threshold.read? cs with
      | some t => some ⟨none, t⟩
      | none => some ⟨some cs, some .trace⟩

/-- Whether a directive is about this program. -/
def isRelevant (d : Directive) : Bool := d.target.all (·.isPrefixOf source.toList)

/-- How closely the target is named. -/
def weight (d : Directive) : Nat := d.target.elim 0 (·.length + 1)

end Directive

structure Filter where
  directives : List Directive
deriving DecidableEq

namespace Filter

/-- The filter that sets one threshold for this program and no other. -/
def only (level : Level) : Filter := ⟨[⟨some source.toList, some level⟩]⟩

/-- The threshold for this program: of two directives with one target the later counts, without any nothing is
logged. -/
def threshold (f : Filter) : Threshold :=
  let chosen := f.directives.foldl (fun (best : Option Directive) d =>
    if d.isRelevant && best.all (·.weight ≤ d.weight) then some d else best) none
  chosen.bind (·.threshold)

def allows (f : Filter) (level : Level) : Bool := f.threshold.allows level

/-- Reads a filter; one wrong directive makes it unreadable. -/
def read? (s : String) : Option Filter :=
  (((Text.splitAll ',' s.toList).filter (!·.isEmpty)).mapM Directive.read?).map Filter.mk

end Filter

end PushDispatch.Log
