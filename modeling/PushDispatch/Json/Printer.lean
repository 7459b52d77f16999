import PushDispatch.Json.Basic
import PushDispatch.Json.Token

/-!
Writing JSON in its compact form: no blanks, members in the order of the tree.
-/

namespace PushDispatch.Json

mutual

/-- The tokens of a value. -/
def tokens : Json → List Token
  | .null => [.null]
  | .bool value => [.bool value]
  | .number literal => [.number literal]
  | .string value => [.string value]
  | .array items => .openSquare :: itemTokens items ++ [.closeSquare]
  | .object members => .openCurly :: memberTokens members ++ [.closeCurly]

/-- The tokens of items with commas between them. -/
def itemTokens : List Json → List Token
  | [] => []
  | [item] => item.tokens
  | item :: next :: rest => item.tokens ++ .comma :: itemTokens (next :: rest)

/-- The tokens of members with commas between them. -/
def memberTokens : List (Option String × Json) → List Token
  | [] => []
  | [(name, value)] => .string name :: .colon :: value.tokens
  | (name, value) :: next :: rest => .string name :: .colon :: value.tokens ++ .comma :: memberTokens (next :: rest)

end

/-- The compact text of a value. -/
def render (json : Json) : List Char := json.tokens.flatMap Token.write

def renderText (json : Json) : String := String.ofList json.render

end PushDispatch.Json
