/-!
Blank characters: the characters with the Unicode property White_Space, and trimming by them. Lists of
characters are the working form of a text; a `String` is taken apart and put together at the edges.
-/

namespace PushDispatch.Text

/-- The characters with the property White_Space, 25 in all. -/
def isBlank (c : Char) : Bool :=
  let n := c.toNat
  (9 ≤ n && n ≤ 13) || n == 0x20 || n == 0x85 || n == 0xA0 || n == 0x1680 || (0x2000 ≤ n && n ≤ 0x200A) ||
    n == 0x2028 || n == 0x2029 || n == 0x202F || n == 0x205F || n == 0x3000

/-- Drops characters of the class from the end. -/
def dropEndWhile (p : Char → Bool) (cs : List Char) : List Char :=
  (cs.reverse.dropWhile p).reverse

/-- Drops characters of the class from both ends. -/
def dropAround (p : Char → Bool) (cs : List Char) : List Char :=
  dropEndWhile p (cs.dropWhile p)

/-- Drops blank characters from both ends. -/
def trim (s : String) : String :=
  String.ofList (dropAround isBlank s.toList)

/-- Whether a text has no character that is not blank. -/
def isAllBlank (s : String) : Bool :=
  s.toList.all isBlank

/-- Lower-cases the letters A to Z and leaves every other character. -/
def lowerAscii (s : String) : String :=
  String.ofList (s.toList.map Char.toLower)

/-- Whether the first list occurs as a run of the second. -/
def occursIn (needle : List Char) : List Char → Bool
  | [] => needle.isEmpty
  | c :: cs => needle.isPrefixOf (c :: cs) || occursIn needle cs

theorem occursIn_iff {needle cs : List Char} :
    occursIn needle cs = true ↔ ∃ before after, cs = before ++ needle ++ after := by
  induction cs with
  | nil => simp [occursIn]
  | cons c cs ih =>
    simp only [occursIn, Bool.or_eq_true, List.isPrefixOf_iff_prefix, ih]
    constructor
    · rintro (⟨after, h⟩ | ⟨before, after, h⟩)
      · exact ⟨[], after, h.symm⟩
      · exact ⟨c :: before, after, by simp [h]⟩
    · rintro ⟨before, after, h⟩
      cases before with
      | nil => exact .inl ⟨after, h.symm⟩
      | cons b before =>
        obtain ⟨-, h⟩ := List.cons.inj h
        exact .inr ⟨before, after, h⟩

/-- Cuts at the first character equal to the separator, which is dropped; `none` if there is none. -/
def splitFirst (separator : Char) : List Char → Option (List Char × List Char)
  | [] => none
  | c :: cs =>
    if c = separator then some ([], cs)
    else (splitFirst separator cs).map fun (before, after) => (c :: before, after)

/-- The pieces between separators, one more than there are separators. -/
def splitAll (separator : Char) : List Char → List (List Char)
  | [] => [[]]
  | c :: cs =>
    if c = separator then [] :: splitAll separator cs
    else match splitAll separator cs with
      | [] => [[c]]
      | piece :: pieces => (c :: piece) :: pieces

end PushDispatch.Text
