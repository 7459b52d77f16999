import PushDispatch.Text.Hex
import PushDispatch.Text.Utf8

/-!
Percent-encoding: a character of a URL part that may not stand there is written as its UTF-8 bytes, each as a
percent sign and two hexadecimal digits. Each part of a URL has its own set of such characters.
-/

namespace PushDispatch.Url

/-- The parts of a URL that differ in the characters that they encode. -/
inductive Part where
  | userinfo
  | path
  /-- The path of a URL whose path is not a list of segments, and a host that is no domain. -/
  | plain
  | query
  | specialQuery
  | fragment
deriving DecidableEq

/-- The characters besides control characters and those after `~` that a part encodes. -/
def Part.encodes : Part → List Char
  | plain => []
  | fragment => [' ', '"', '<', '>', '`']
  | query => [' ', '"', '#', '<', '>']
  | specialQuery => [' ', '"', '#', '<', '>', '\'']
  | path => [' ', '"', '#', '<', '>', '?', '`', Char.ofNat 123, Char.ofNat 125]
  | userinfo => [' ', '"', '#', '<', '>', '?', '`', Char.ofNat 123, Char.ofNat 125, '/', ':', ';', '=', '@', '[',
      '\\', ']', '^', '|']

def encodeByte (b : UInt8) : List Char := ['%', Text.Hex.upperDigit (b.toNat / 16), Text.Hex.upperDigit (b.toNat % 16)]

def encodeChar (part : Part) (c : Char) : List Char :=
  if c.toNat < 0x20 || 0x7E < c.toNat || part.encodes.contains c then (Text.Utf8.encodeChar c).flatMap encodeByte
  else [c]

def encode (part : Part) (cs : List Char) : List Char := cs.flatMap (encodeChar part)

/-- The bytes of a text in which percent signs with two hexadecimal digits stand for bytes. -/
def decode : List Char → List UInt8
  | '%' :: a :: b :: rest =>
    match Text.Hex.value? a, Text.Hex.value? b with
    | some x, some y => UInt8.ofNat (16 * x + y) :: decode rest
    | _, _ => Text.Utf8.encodeChar '%' ++ decode (a :: b :: rest)
  | c :: rest => Text.Utf8.encodeChar c ++ decode rest
  | [] => []

end PushDispatch.Url
