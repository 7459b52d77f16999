import PushDispatch.Text.Decimal
import PushDispatch.Text.Hex
import PushDispatch.Url.Domain
import PushDispatch.Url.Percent

/-!
The host of a URL: a domain, an IPv4 or IPv6 address, or for URLs of schemes that the web gives no meaning an
opaque name. Addresses are written in one form, however they were given.
-/

namespace PushDispatch.Url

/-- Why a text is no URL. -/
inductive Problem where
  | noBase
  | emptyHost
  | invalidPort
  | invalidIpv4
  | invalidIpv6
  | invalidDomain
  | invalidHostCharacter
deriving DecidableEq

def Problem.message : Problem → String
  | .noBase => "relative URL without a base"
  | .emptyHost => "empty host"
  | .invalidPort => "invalid port number"
  | .invalidIpv4 => "invalid IPv4 address"
  | .invalidIpv6 => "invalid IPv6 address"
  | .invalidDomain => "invalid international domain name"
  | .invalidHostCharacter => "invalid domain character"

inductive Host where
  | domain (name : List Char)
  | ipv4 (address : Nat)
  | ipv6 (pieces : List Nat)
deriving DecidableEq

/-! ### IPv4 -/

/-- The value of digits below the base; `none` if there are others. -/
def digitsValue? (base : Nat) (cs : List Char) : Option Nat :=
  cs.foldl (fun value c => do
    let d ← Text.Hex.value? c
    if d < base then some ((← value) * base + d) else none) (some 0)

/-- A number of an IPv4 address: hexadecimal after `0x`, octal after `0`, decimal otherwise. -/
def ipv4Number? : List Char → Option Nat
  | [] => none
  | '0' :: 'x' :: digits => digitsValue? 16 digits
  | '0' :: 'X' :: digits => digitsValue? 16 digits
  | '0' :: d :: digits => digitsValue? 8 (d :: digits)
  | digits => digitsValue? 10 digits

/-- The labels of a domain without the empty one after a dot at the end. -/
def labels (domain : List Char) : List (List Char) :=
  let all := Text.splitAll '.' domain
  if all.getLast? == some [] then all.dropLast else all

/-- Whether the last label is a number, or one that is too large; then the host is an IPv4 address or nothing. -/
def endsInNumber (domain : List Char) : Bool :=
  match (labels domain).getLast? with
  | some last => (!last.isEmpty && last.all Text.Decimal.isDigit) || (ipv4Number? last).isSome
  | none => false

/-- The address of up to four numbers. All but the last are bytes, the last fills the bytes that are left. -/
def ipv4Address? (numbers : List Nat) : Option Nat :=
  match numbers.reverse with
  | [] => none
  | last :: before =>
    let bytes := before.reverse
    if numbers.length ≤ 4 && bytes.all (· ≤ 255) && last < Nat.pow 256 (4 - bytes.length) then
      some (bytes.foldl (fun value b => value * 256 + b) 0 * Nat.pow 256 (4 - bytes.length) + last)
    else none

def ipv4? (domain : List Char) : Option Nat := do
  ipv4Address? (← (labels domain).mapM ipv4Number?)

def ipv4Text (address : Nat) : List Char :=
  Domain.join ([address / 16777216 % 256, address / 65536 % 256, address / 256 % 256, address % 256].map
    Text.Decimal.write)

/-! ### IPv6 -/

/-- A decimal number from 0 to 255 without leading zeros. -/
def byte? (cs : List Char) : Option Nat :=
  match Text.Decimal.read? cs with
  | some n => if n ≤ 255 && Text.Decimal.write n == cs then some n else none
  | none => none

/-- The two pieces of four bytes in decimal notation. -/
def ipv4Pieces? (cs : List Char) : Option (List Nat) :=
  match (Text.splitAll '.' cs).mapM byte? with
  | some [a, b, c, d] => some [a * 256 + b, c * 256 + d]
  | _ => none

/-- A piece of one to four hexadecimal digits. -/
def piece? (cs : List Char) : Option Nat :=
  if cs.isEmpty || 4 < cs.length then none else digitsValue? 16 cs

/-- Pieces between colons, of which the last may be four bytes. -/
def pieces? (groups : List (List Char)) : Option (List Nat) :=
  match groups with
  | [] => some []
  | [group] => if group.contains '.' then ipv4Pieces? group else (piece? group).map ([·])
  | group :: rest => do pure ((← piece? group) :: (← pieces? rest))

/-- Splits at the first two colons that stand together. -/
def splitDoubleColon : List Char → Option (List Char × List Char)
  | ':' :: ':' :: rest => some ([], rest)
  | c :: cs => (splitDoubleColon cs).map fun (before, behind) => (c :: before, behind)
  | [] => none

def groups (cs : List Char) : List (List Char) := if cs.isEmpty then [] else Text.splitAll ':' cs

/-- An IPv6 address: eight pieces, where two colons stand for as many zeros as are missing. -/
def ipv6? (cs : List Char) : Option (List Nat) :=
  match splitDoubleColon cs with
  | none => match pieces? (groups cs) with
    | some pieces => if pieces.length = 8 then some pieces else none
    | none => none
  | some (before, behind) =>
    if before.contains '.' then none
    else match pieces? (groups before), pieces? (groups behind) with
      | some first, some last =>
        if first.length + last.length < 8 then
          some (first ++ List.replicate (8 - first.length - last.length) 0 ++ last)
        else none
      | _, _ => none

/-- The number of zeros at the front. -/
def leadingZeros (pieces : List Nat) : Nat := (pieces.takeWhile (· == 0)).length

/-- The first longest run of zeros: where it begins, and its length. -/
def longestZeros (start : Nat) : List Nat → Nat × Nat
  | [] => (start, 0)
  | p :: ps =>
    let here := leadingZeros (p :: ps)
    let later := longestZeros (start + 1) ps
    if later.2 ≤ here then (start, here) else later

/-- Pieces joined by colons. -/
def joinPieces : List Nat → List Char
  | [] => []
  | [p] => Text.Hex.write p
  | p :: ps => Text.Hex.write p ++ ':' :: joinPieces ps

/-- The address with two colons for its first longest run of two or more zeros. -/
def ipv6Text (pieces : List Nat) : List Char :=
  let (start, length) := longestZeros 0 pieces
  if length < 2 then joinPieces pieces
  else joinPieces (pieces.take start) ++ [':', ':'] ++ joinPieces (pieces.drop (start + length))

/-! ### Reading and writing -/

namespace Host

/-- The address between square brackets. -/
def bracketed (cs : List Char) : Except Problem Host :=
  match cs.reverse with
  | ']' :: inner => match ipv6? inner.reverse with
    | some pieces => .ok (.ipv6 pieces)
    | none => .error .invalidIpv6
  | _ => .error .invalidIpv6

/-- Reads the host of a URL whose scheme has a meaning on the web. -/
def read (cs : List Char) : Except Problem Host :=
  match cs with
  | '[' :: rest => bracketed rest
  | _ => match Domain.toAscii? (decode cs) with
    | none => .error .invalidDomain
    | some [] => .error .emptyHost
    | some name =>
      if endsInNumber name then
        match ipv4? name with
        | some address => .ok (.ipv4 address)
        | none => .error .invalidIpv4
      else .ok (.domain name)

/-- The characters that no host has. -/
def isForbidden (c : Char) : Bool :=
  c.toNat = 0 || ['\t', '\n', '\r', ' ', '#', '/', ':', '<', '>', '?', '@', '[', '\\', ']', '^', '|'].contains c

/-- Reads the host of a URL of any other scheme. -/
def readPlain (cs : List Char) : Except Problem Host :=
  match cs with
  | '[' :: rest => bracketed rest
  | _ => if cs.any isForbidden then .error .invalidHostCharacter else .ok (.domain (encode .plain cs))

def text : Host → List Char
  | domain name => name
  | ipv4 address => ipv4Text address
  | ipv6 pieces => '[' :: ipv6Text pieces ++ [']']

end Host

end PushDispatch.Url
