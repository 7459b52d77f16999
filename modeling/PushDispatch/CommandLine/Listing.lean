import PushDispatch.CommandLine.Basic
import PushDispatch.Text.Quoted

/-!
A command line as a listing of its values, for the log.
-/

namespace PushDispatch.CommandLine

/-- Texts with commas between them. -/
def commaSeparated : List String → String
  | [] => ""
  | [item] => item
  | item :: items => item ++ ", " ++ commaSeparated items

def listText (items : List String) : String := "[" ++ commaSeparated items ++ "]"

def optionalText : Option String → String
  | some text => "Some(" ++ text ++ ")"
  | none => "None"

def platformText : Platform → String
  | .android => "Android"
  | .ios => "Ios"
  | .web => "Web"

def flagText (b : Bool) : String := if b then "true" else "false"

/-- The listing. -/
def listing (c : CommandLine) : String :=
  let quote := Text.Quoted.write
  "CliConfig \x7b config: " ++ Text.Quoted.writePath c.config ++
    ", tokens: " ++ listText (c.tokens.map quote) ++
    ", platform: " ++ platformText c.platform ++
    ", devices: " ++ optionalText (c.devices.map Text.Quoted.writePath) ++
    ", title: " ++ quote c.title ++
    ", body: " ++ quote c.body ++
    ", data: " ++ listText (c.data.map fun (key, value) => "(" ++ quote key ++ ", " ++ quote value ++ ")") ++
    ", category: " ++ optionalText (c.category.map quote) ++
    ", verbose: " ++ flagText c.verbose ++
    ", json_logs: " ++ flagText c.jsonLogs ++ " \x7d"

end PushDispatch.CommandLine
