import PushDispatch.Url.Host

/-!
URLs taken apart, and their text. All parts are held as they are written, that is percent-encoded.
-/

namespace PushDispatch

/-- What follows the authority: text without structure, or segments that each follow a slash. -/
inductive Url.Path where
  | rootless (text : List Char)
  | segments (segments : List (List Char))
deriving DecidableEq

structure Url where
  scheme : List Char
  username : List Char
  password : Option (List Char)
  /-- The host; a URL without one has no authority. -/
  host : Option Url.Host
  /-- The port, unless it is the usual one of the scheme. -/
  port : Option Nat
  path : Url.Path
  query : Option (List Char)
  fragment : Option (List Char)
deriving DecidableEq

namespace Url

/-- The usual port of a scheme. -/
def defaultPort (scheme : List Char) : Option Nat :=
  match String.ofList scheme with
  | "http" => some 80
  | "https" => some 443
  | "ws" => some 80
  | "wss" => some 443
  | "ftp" => some 21
  | _ => none

/-- Whether a scheme is one to which the web gives a meaning and that names a host. -/
def isSpecial (scheme : List Char) : Bool := (defaultPort scheme).isSome

def Path.text : Path → List Char
  | rootless chars => chars
  | segments list => list.flatMap ('/' :: ·)

def userinfoText (u : Url) : List Char :=
  if u.username.isEmpty && u.password.isNone then []
  else u.username ++ (match u.password with
    | some password => ':' :: password
    | none => []) ++ ['@']

/-- Host and port as they stand in the authority. -/
def hostText (u : Url) : List Char :=
  (match u.host with
    | some host => host.text
    | none => []) ++
  match u.port with
    | some port => ':' :: Text.Decimal.write port
    | none => []

/-- The text between the scheme and the path. -/
def authorityText (u : Url) : List Char :=
  match u.host with
  | some _ => '/' :: '/' :: (u.userinfoText ++ u.hostText)
  | none => match u.path with
    | .segments ([] :: _ :: _) => ['/', '.']
    | _ => []

def chars (u : Url) : List Char :=
  u.scheme ++ ':' :: (u.authorityText ++ u.path.text ++
    (match u.query with
      | some query => '?' :: query
      | none => []) ++
    match u.fragment with
      | some fragment => '#' :: fragment
      | none => [])

def text (u : Url) : String := String.ofList u.chars

/-- What a client asks a server for: the path and the query. -/
def target (u : Url) : String :=
  String.ofList (u.path.text ++ match u.query with
    | some query => '?' :: query
    | none => [])

/-- Whether the URL names a host; an empty name is none. -/
def hasHost (u : Url) : Bool := !u.hostText.isEmpty

/-- The URL without user name and password. -/
def withoutUser (u : Url) : Url := { u with username := [], password := none }

end Url

end PushDispatch
