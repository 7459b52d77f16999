import PushDispatch.Json.Printer
import PushDispatch.Log.Event
import PushDispatch.Log.Format
import PushDispatch.Text.Hex

/-!
The text of log lines.
-/

namespace PushDispatch.Log

/-- The control characters that could act on a terminal. -/
def actsOnTerminal (c : Char) : Bool :=
  [7, 8, 12, 27, 127].contains c.toNat || (128 ≤ c.toNat && c.toNat < 160)

/-- A character of a compact line. -/
def escape (c : Char) : List Char :=
  if !actsOnTerminal c then [c]
  else if c.toNat < 128 then ['\\', 'x', Text.Hex.digit (c.toNat / 16), Text.Hex.digit (c.toNat % 16)]
  else ['\\', 'u', Char.ofNat 123, Text.Hex.digit (c.toNat / 16), Text.Hex.digit (c.toNat % 16), Char.ofNat 125]

/-- The name of a level in five columns. -/
def Level.column (level : Level) : String :=
  String.ofList (List.replicate (5 - level.name.length) ' ') ++ level.name

/-- The line of an event with the given time stamp, without a line end. -/
def line (stamp : String) (event : Event) : Format → String
  | .compact =>
    stamp ++ " " ++ event.level.column ++ " " ++ String.ofList (event.message.toList.flatMap escape)
  | .json =>
    (Json.record [("timestamp", .text stamp), ("level", .text event.level.name),
      ("fields", .record [("message", .text event.message)])]).renderText

end PushDispatch.Log
