import PushDispatch.Url.Basic

/-!
Reading URLs as browsers do. Control characters and blanks around the text and tabs and line ends anywhere in it
do not count; schemes of the web take backslashes for slashes and always have a host.
-/

namespace PushDispatch.Url

/-- The text without what does not count. -/
def significant (cs : List Char) : List Char :=
  (Text.dropAround (·.toNat ≤ 0x20) cs).filter fun c => !(['\t', '\n', '\r'].contains c)

def isAlpha (c : Char) : Bool := ('a' ≤ c && c ≤ 'z') || ('A' ≤ c && c ≤ 'Z')

def isSchemeChar (c : Char) : Bool :=
  isAlpha c || Text.Decimal.isDigit c || c == '+' || c == '-' || c == '.'

/-- The scheme in lower case and what follows the colon. -/
def scheme? (cs : List Char) : Option (List Char × List Char) := do
  let (before, after) ← Text.splitFirst ':' cs
  if before.head?.any isAlpha && before.all isSchemeChar then some (before.map Char.toLower, after) else none

/-- Whether a character ends the authority. -/
def endsAuthority (special : Bool) (c : Char) : Bool := c == '/' || c == '?' || c == '#' || (special && c == '\\')

/-- The text before the last `@`, if there is one, and the text after it. -/
def splitUserinfo (authority : List Char) : Option (List Char) × List Char :=
  if authority.contains '@' then
    let host := (authority.reverse.takeWhile (· != '@')).reverse
    (some (authority.take (authority.length - host.length - 1)), host)
  else (none, authority)

/-- Splits host and port at the first colon that is not between square brackets. -/
def splitPort (inBrackets : Bool) : List Char → List Char × Option (List Char)
  | [] => ([], none)
  | c :: cs =>
    if c = ':' && !inBrackets then ([], some cs)
    else
      let inBrackets := if c = '[' then true else if c = ']' then false else inBrackets
      let (host, port) := splitPort inBrackets cs
      (c :: host, port)

/-- Reads a port; no digits, like the usual port of the scheme, mean that there is none. -/
def readPort (scheme : List Char) (digits : List Char) : Except Problem (Option Nat) :=
  if digits.isEmpty then .ok none
  else match Text.Decimal.read? digits with
    | some port =>
      if 65535 < port then .error .invalidPort
      else .ok (if defaultPort scheme = some port then none else some port)
    | none => .error .invalidPort

/-- User name and password of the text before the `@`. -/
def readUserinfo (cs : List Char) : List Char × Option (List Char) :=
  match Text.splitFirst ':' cs with
  | none => (encode .userinfo cs, none)
  | some (user, []) => (encode .userinfo user, none)
  | some (user, password) => (encode .userinfo user, some (encode .userinfo password))

/-! ### Paths -/

def isSingleDot (segment : List Char) : Bool :=
  [".", "%2e"].contains (Text.lowerAscii (String.ofList segment))

def isDoubleDot (segment : List Char) : Bool :=
  ["..", ".%2e", "%2e.", "%2e%2e"].contains (Text.lowerAscii (String.ofList segment))

/-- Adds a segment to those before it: one dot stays, two dots go back by one. A path that ends in dots ends in
an empty segment. -/
def addSegment (path : List (List Char)) (segment : List Char) (isLast : Bool) : List (List Char) :=
  if isDoubleDot segment then path.dropLast ++ (if isLast then [[]] else [])
  else if isSingleDot segment then path ++ (if isLast then [[]] else [])
  else path ++ [segment]

def addSegments (path : List (List Char)) : List (List Char) → List (List Char)
  | [] => path
  | [segment] => addSegment path segment true
  | segment :: segments => addSegments (addSegment path segment false) segments

/-- The segments of a path after its first slash. -/
def readSegments (special : Bool) (cs : List Char) : List (List Char) :=
  let cs := if special then cs.map fun c => if c = '\\' then '/' else c else cs
  addSegments [] ((Text.splitAll '/' cs).map (encode .path))

/-- Reads the path after an authority. A scheme of the web always has one. -/
def readPath (special : Bool) (cs : List Char) : Path :=
  match cs with
  | [] => .segments (if special then [[]] else [])
  | c :: rest =>
    if c = '/' || (special && c = '\\') then .segments (readSegments special rest)
    else .segments (readSegments special cs)

/-! ### The whole -/

/-- Fragment and query, cut off from the end: the rest, the query and the fragment. -/
def splitTail (special : Bool) (cs : List Char) : List Char × Option (List Char) × Option (List Char) :=
  let (cs, fragment) := match Text.splitFirst '#' cs with
    | some (before, after) => (before, some (encode .fragment after))
    | none => (cs, none)
  match Text.splitFirst '?' cs with
  | some (before, after) => (before, some (encode (if special then .specialQuery else .query) after), fragment)
  | none => (cs, none, fragment)

/-- Reads authority and path after two slashes. -/
def readAuthority (scheme : List Char) (cs : List Char) : Except Problem Url := do
  let special := isSpecial scheme
  let authority := cs.takeWhile (!endsAuthority special ·)
  let (path, query, fragment) := splitTail special (cs.dropWhile (!endsAuthority special ·))
  let (userinfo, hostport) := splitUserinfo authority
  let (hostChars, portChars) := splitPort false hostport
  if hostChars.isEmpty && (special || userinfo.isSome || portChars.isSome) then throw .emptyHost
  let host ← if special then Host.read hostChars else Host.readPlain hostChars
  let port ← readPort scheme (portChars.getD [])
  let (username, password) := readUserinfo (userinfo.getD [])
  pure ⟨scheme, username, password, some host, port, readPath special path, query, fragment⟩

/-- Whether a text is the name of a drive, which begins a path and is no host. -/
def isDrive : List Char → Bool
  | [c, d] => isAlpha c && (d == ':' || d == '|')
  | _ => false

/-- Reads a URL of the scheme `file` after the colon; its host may be empty. -/
def readFile (scheme : List Char) (cs : List Char) : Except Problem Url := do
  let isSlash (c : Char) : Bool := c == '/' || c == '\\'
  let (text, query, fragment) := splitTail true cs
  let file (host : Host) (path : List Char) : Url :=
    ⟨scheme, [], none, some host, none, readPath true path, query, fragment⟩
  if (text.take 2).length = 2 && (text.take 2).all isSlash then
    let name := (text.drop 2).takeWhile (!isSlash ·)
    if name.isEmpty then pure (file (.domain []) (text.drop 2))
    else if isDrive name then pure (file (.domain []) (text.drop 2))
    else
      let host ← Host.read name
      let host := if host = .domain "localhost".toList then .domain [] else host
      pure (file host (text.drop (2 + name.length)))
  else pure (file (.domain []) text)

/-- Reads the characters of a URL. -/
def readChars (cs : List Char) : Except Problem Url :=
  match scheme? (significant cs) with
  | none => .error .noBase
  | some (scheme, rest) =>
    if isSpecial scheme then readAuthority scheme (rest.dropWhile fun c => c == '/' || c == '\\')
    else if scheme = "file".toList then readFile scheme rest
    else match rest with
      | '/' :: '/' :: rest => readAuthority scheme rest
      | '/' :: rest =>
        let (path, query, fragment) := splitTail false rest
        .ok ⟨scheme, [], none, none, none, .segments (readSegments false path), query, fragment⟩
      | _ =>
        let (path, query, fragment) := splitTail false rest
        .ok ⟨scheme, [], none, none, none, .rootless (encode .plain path), query, fragment⟩

def read (s : String) : Except Problem Url := readChars s.toList

end PushDispatch.Url
