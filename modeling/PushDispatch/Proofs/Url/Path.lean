import Mathlib.Data.List.Basic
import PushDispatch.Url.Reader

/-!
Paths of the web that go on. A slash ends a segment, whatever follows it, so the segments before a slash are
those that the path has without what follows; a path only gains what is added after a slash.
-/

namespace PushDispatch

namespace Text

theorem splitAll_ne_nil (c : Char) (cs : List Char) : splitAll c cs ≠ [] := by
  cases cs with
  | nil => simp [splitAll]
  | cons d cs =>
    unfold splitAll
    split
    · simp
    · split <;> simp

theorem splitAll_append (c : Char) (xs ys : List Char) :
    splitAll c (xs ++ c :: ys) = splitAll c xs ++ splitAll c ys := by
  induction xs with
  | nil => simp [splitAll]
  | cons d xs ih =>
    by_cases hd : d = c
    · simp [splitAll, hd, ih]
    · obtain ⟨piece, pieces, hs⟩ := List.exists_cons_of_ne_nil (splitAll_ne_nil c xs)
      simp [splitAll, hd, ih, hs]

theorem splitAll_of_notMem {c : Char} {cs : List Char} (h : c ∉ cs) : splitAll c cs = [cs] := by
  induction cs with
  | nil => rfl
  | cons d cs ih =>
    rw [List.mem_cons, not_or] at h
    simp [splitAll, Ne.symm h.1, ih h.2]

end Text

namespace Url

@[simp] theorem Path.text_segments_append (xs ys : List (List Char)) :
    (Path.segments (xs ++ ys)).text = (Path.segments xs).text ++ (Path.segments ys).text := by
  simp [Path.text]

theorem Path.text_segments_replicate (k : ℕ) : (Path.segments (List.replicate k [])).text = List.replicate k '/' := by
  simp [Path.text, List.flatMap_replicate, List.flatten_replicate_singleton]

/-! ### Segments before dots are resolved -/

/-- The segments of a path of the web after its first slash, with their dots. -/
def pieces (cs : List Char) : List (List Char) :=
  (Text.splitAll '/' (cs.map fun c => if c = '\\' then '/' else c)).map (encode .path)

theorem readSegments_eq (cs : List Char) : readSegments true cs = addSegments [] (pieces cs) := rfl

theorem pieces_nil : pieces [] = [[]] := rfl

theorem pieces_ne_nil (cs : List Char) : pieces cs ≠ [] := by
  simp [pieces, Text.splitAll_ne_nil]

theorem pieces_append (xs ys : List Char) : pieces (xs ++ '/' :: ys) = pieces xs ++ pieces ys := by
  simp [pieces, Text.splitAll_append]

theorem pieces_replicate (k : ℕ) : pieces (List.replicate k '/') = List.replicate (k + 1) [] := by
  induction k with
  | zero => rfl
  | succ k ih =>
    calc pieces ('/' :: List.replicate k '/') = pieces [] ++ pieces (List.replicate k '/') := pieces_append [] _
      _ = List.replicate (k + 1 + 1) [] := by rw [ih, pieces_nil, List.singleton_append]; rfl

/-- A character of a path that stands for itself. -/
def IsPlain (c : Char) : Prop := 0x20 < c.toNat ∧ c.toNat ≤ 0x7E ∧ c ∉ Part.path.encodes ∧ c ≠ '/' ∧ c ≠ '\\'

instance (c : Char) : Decidable (IsPlain c) := inferInstanceAs (Decidable (_ ∧ _ ∧ _ ∧ _ ∧ _))

theorem pieces_of_isPlain {cs : List Char} (h : ∀ c ∈ cs, IsPlain c) : pieces cs = [cs] := by
  have hslash : (cs.map fun c => if c = '\\' then '/' else c) = cs :=
    (List.map_congr_left fun c hc => if_neg (h c hc).2.2.2.2).trans (List.map_id' cs)
  have hencode : encode .path cs = cs := by
    refine (List.flatMap_congr fun c hc => ?_).trans (List.flatMap_singleton' cs)
    obtain ⟨hlow, hhigh, hset, -⟩ := h c hc
    rw [encodeChar, if_neg]
    simp only [Bool.or_eq_true, decide_eq_true_eq, List.contains_eq_mem, not_or]
    exact ⟨⟨by omega, by omega⟩, hset⟩
  rw [pieces, hslash, Text.splitAll_of_notMem fun hc => (h _ hc).2.2.2.1 rfl, List.map_singleton, hencode]

/-! ### Dots -/

/-- A segment that is not made of dots. -/
def IsName (segment : List Char) : Prop := isSingleDot segment = false ∧ isDoubleDot segment = false

theorem isName_of_head {segment : List Char} (h : ∀ c ∈ segment.head?, c.toLower ≠ '.' ∧ c.toLower ≠ '%') :
    IsName segment := by
  have hne (text : String) (c : Char) (ht : text.toList.head? = some c) (hc : c = '.' ∨ c = '%') :
      Text.lowerAscii (String.ofList segment) ≠ text := by
    rintro rfl
    cases segment with
    | nil => simp [Text.lowerAscii] at ht
    | cons d cs =>
      simp only [Text.lowerAscii, String.toList_ofList, List.map_cons, List.head?_cons, Option.some.injEq] at ht
      obtain ⟨hdot, hpercent⟩ := h d rfl
      rcases hc with rfl | rfl
      · exact hdot ht
      · exact hpercent ht
  constructor
  · simp [isSingleDot, hne "." '.' rfl, hne "%2e" '%' rfl]
  · simp [isDoubleDot, hne ".." '.' rfl, hne ".%2e" '.' rfl, hne "%2e." '%' rfl, hne "%2e%2e" '%' rfl]

theorem isName_nil : IsName [] := isName_of_head (by simp)

theorem addSegments_singleton (path : List (List Char)) (segment : List Char) :
    addSegments path [segment] = addSegment path segment true := rfl

theorem addSegments_cons_cons (path : List (List Char)) (segment next : List Char) (more : List (List Char)) :
    addSegments path (segment :: next :: more) = addSegments (addSegment path segment false) (next :: more) := rfl

theorem addSegments_append (path before : List (List Char)) {after : List (List Char)} (h : after ≠ []) :
    addSegments path (before ++ after) = addSegments (before.foldl (addSegment · · false) path) after := by
  induction before generalizing path with
  | nil => rfl
  | cons segment before ih =>
    obtain ⟨next, more, hnext⟩ := List.exists_cons_of_ne_nil (l := before ++ after) (by simp [h])
    rw [List.cons_append, hnext, addSegments_cons_cons, ← hnext, ih, List.foldl_cons]

theorem addSegments_of_isName (path : List (List Char)) {names : List (List Char)} (h : ∀ s ∈ names, IsName s) :
    addSegments path names = path ++ names := by
  have hadd (path : List (List Char)) (isLast : Bool) (s : List Char) (hs : IsName s) :
      addSegment path s isLast = path ++ [s] := by
    simp [addSegment, hs.1, hs.2]
  induction names generalizing path with
  | nil => simp [addSegments]
  | cons s names ih =>
    obtain ⟨hs, hnames⟩ := List.forall_mem_cons.mp h
    cases names with
    | nil => exact hadd path true s hs
    | cons t names =>
      rw [addSegments_cons_cons, hadd path false s hs, ih _ hnames, List.append_assoc, List.singleton_append]

/-- A last segment of dots leaves a slash at the end of the path; any other is added as it is before others. -/
theorem addSegment_last (path : List (List Char)) (segment : List Char) :
    ∃ k, (Path.segments (addSegment path segment true)).text =
      (Path.segments (addSegment path segment false)).text ++ List.replicate k '/' := by
  unfold addSegment
  split
  · exact ⟨1, by simp [Path.text]⟩
  · split
    · exact ⟨1, by simp [Path.text]⟩
    · exact ⟨0, by simp⟩

/-! ### The beginning of a path -/

/-- The segments that stay when a slash and more follow the beginning of a path. -/
def directory : List Char → List (List Char)
  | [] => []
  | _ :: cs => (pieces cs).foldl (addSegment · · false) []

variable {start : List Char}

theorem readPath_append (hs : ∀ c ∈ start.head?, c = '/' ∨ c = '\\') (more : List Char) :
    readPath true (start ++ '/' :: more) = .segments (addSegments (directory start) (pieces more)) := by
  cases start with
  | nil => simp [readPath, directory, readSegments_eq]
  | cons c cs =>
    have hc : (c = '/' || (true && c = '\\')) = true := by simpa using hs c rfl
    rw [List.cons_append, readPath, if_pos hc, readSegments_eq, pieces_append,
      addSegments_append _ _ (pieces_ne_nil more)]
    rfl

/-- On its own a beginning has the path of its directory, perhaps with one more slash. -/
theorem readPath_text (hs : ∀ c ∈ start.head?, c = '/' ∨ c = '\\') :
    ∃ k, (readPath true start).text = (Path.segments (directory start)).text ++ List.replicate k '/' := by
  cases start with
  | nil => exact ⟨1, Path.text_segments_replicate 1⟩
  | cons c cs =>
    have hc : (c = '/' || (true && c = '\\')) = true := by simpa using hs c rfl
    have hlast := List.dropLast_append_getLast (pieces_ne_nil cs)
    rw [readPath, if_pos hc, readSegments_eq, directory, ← hlast, addSegments_append _ _ (by simp), List.foldl_append,
      List.foldl_cons, List.foldl_nil, addSegments_singleton]
    exact addSegment_last _ _

/-- What a path gains when it goes on with names. -/
theorem readPath_append_text (hs : ∀ c ∈ start.head?, c = '/' ∨ c = '\\') {more : List Char}
    (names : ∀ s ∈ pieces more, IsName s) :
    (readPath true (start ++ '/' :: more)).text =
      (Path.segments (directory start)).text ++ (Path.segments (pieces more)).text := by
  rw [readPath_append hs, addSegments_of_isName _ names, Path.text_segments_append]

/-- Slashes after a beginning only stand at the end of the path. -/
theorem readPath_slashes (hs : ∀ c ∈ start.head?, c = '/' ∨ c = '\\') (k : ℕ) :
    ∃ j, (readPath true (start ++ List.replicate k '/')).text =
      (Path.segments (directory start)).text ++ List.replicate j '/' := by
  cases k with
  | zero => simpa using readPath_text hs
  | succ k =>
    have hnames : ∀ s ∈ pieces (List.replicate k '/'), IsName s := by
      intro s h
      rw [pieces_replicate] at h
      rw [List.eq_of_mem_replicate h]
      exact isName_nil
    refine ⟨k + 1, ?_⟩
    rw [List.replicate_succ, readPath_append_text hs hnames, pieces_replicate, Path.text_segments_replicate,
      List.replicate_succ]

end Url

end PushDispatch
