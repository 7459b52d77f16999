import PushDispatch.Text.Blank
import PushDispatch.Text.Printable
import PushDispatch.Text.Utf8
import PushDispatch.Url.Punycode

/-!
Domain names for the network: letters become lower case, full-width forms become plain, the dots of East Asian
scripts become dots, invisible characters vanish, and a label with other than ASCII characters becomes `xn--`
and its Punycode.
-/

namespace PushDispatch.Url.Domain

/-- The characters that a domain cannot hold. -/
def isForbidden (c : Char) : Bool :=
  c.toNat ≤ 0x20 || c.toNat = 0x7F ||
    ['#', '%', '/', ':', '<', '>', '?', '@', '[', '\\', ']', '^', '|'].contains c

/-- The characters that a domain name loses: the soft hyphen, joiners without effect and variation selectors. -/
def vanishes (c : Char) : Bool :=
  let n := c.toNat
  n == 0xAD || n == 0x34F || (0x180B ≤ n && n ≤ 0x180D) || n == 0x200B || n == 0x2060 || n == 0x2064 ||
    n == 0xFEFF || (0xFE00 ≤ n && n ≤ 0xFE0F)

/-- The lower-case form of a letter of the Latin, Greek or Cyrillic script, and the plain form of a full-width
character. -/
def fold (c : Char) : Char :=
  let n := c.toNat
  if n < 0x80 then c.toLower
  else if n == 0x3002 || n == 0xFF61 then '.'
  else if 0xFF01 ≤ n && n ≤ 0xFF5E then (Char.ofNat (n - 0xFEE0)).toLower
  else if (0xC0 ≤ n && n ≤ 0xDE && n != 0xD7) || (0x391 ≤ n && n ≤ 0x3A9) || (0x410 ≤ n && n ≤ 0x42F) then
    Char.ofNat (n + 0x20)
  else if 0x400 ≤ n && n ≤ 0x40F then Char.ofNat (n + 0x50)
  else if ((0x100 ≤ n && n ≤ 0x12F) || (0x132 ≤ n && n ≤ 0x137) || (0x14A ≤ n && n ≤ 0x177)) && n % 2 == 0 then
    Char.ofNat (n + 1)
  else if ((0x139 ≤ n && n ≤ 0x148) || (0x179 ≤ n && n ≤ 0x17E)) && n % 2 == 1 then Char.ofNat (n + 1)
  else c

def isAscii (label : List Char) : Bool := label.all (·.toNat < 128)

/-- Whether a label may stand for characters beyond ASCII: all have a shape, and the first stands alone. -/
def isShown (label : List Char) : Bool :=
  label.all Text.isPrintable && !(label.head?.any Text.isExtending)

/-- The network form of a label that has been folded. -/
def labelToAscii? (label : List Char) : Option (List Char) :=
  if isAscii label then
    if "xn--".toList.isPrefixOf label then
      match Punycode.decode? (label.drop 4) with
      | some shown =>
        if !isAscii shown && isShown shown && shown.map fold == shown && !shown.any vanishes then some label else none
      | none => none
    else some label
  else if isShown label then some ("xn--".toList ++ Punycode.encode label)
  else none

/-- Labels joined by dots. -/
def join : List (List Char) → List Char
  | [] => []
  | [label] => label
  | label :: labels => label ++ '.' :: join labels

/-- The network form of the domain that the bytes name. -/
def toAscii? (bytes : List UInt8) : Option (List Char) := do
  let cs ← Text.Utf8.decode? bytes
  let folded := (cs.filter (!vanishes ·)).map fold
  let labels ← (Text.splitAll '.' folded).mapM labelToAscii?
  let domain := join labels
  if domain.any isForbidden then none else some domain

end PushDispatch.Url.Domain
