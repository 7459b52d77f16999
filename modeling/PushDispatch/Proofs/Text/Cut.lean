import Mathlib.Data.List.DropRight
import PushDispatch.Text.Blank

/-! Texts that are cut at a separator, or of which the characters of a class are taken off both ends. -/

namespace PushDispatch.Text

/-! ### At a separator -/

variable {c : Char} {cs before after : List Char}

theorem splitFirst_eq_none_iff {c : Char} {cs : List Char} : splitFirst c cs = none ↔ c ∉ cs := by
  induction cs with
  | nil => simp [splitFirst]
  | cons d cs ih =>
    by_cases h : d = c
    · simp [splitFirst, h]
    · simp [splitFirst, h, ih, Ne.symm h]

theorem splitFirst_append_cons (h : c ∉ before) (after : List Char) :
    splitFirst c (before ++ c :: after) = some (before, after) := by
  induction before with
  | nil => simp [splitFirst]
  | cons d before ih =>
    obtain ⟨hne, hbefore⟩ : c ≠ d ∧ c ∉ before := by simpa using h
    simp [splitFirst, Ne.symm hne, ih hbefore]

/-- A text is cut at the first separator. -/
theorem splitFirst_eq_some_iff :
    splitFirst c cs = some (before, after) ↔ cs = before ++ c :: after ∧ c ∉ before := by
  constructor
  · intro h
    have hc : c ∈ cs := by
      by_contra hn
      rw [splitFirst_eq_none_iff.2 hn] at h
      cases h
    obtain ⟨first, rest, rfl, hfirst⟩ := List.eq_append_cons_of_mem hc
    rw [splitFirst_append_cons hfirst] at h
    cases h
    exact ⟨rfl, hfirst⟩
  · rintro ⟨rfl, h⟩
    exact splitFirst_append_cons h after

theorem splitFirst_append_of_eq_some (h : splitFirst c cs = some (before, after)) (more : List Char) :
    splitFirst c (cs ++ more) = some (before, after ++ more) := by
  obtain ⟨rfl, hbefore⟩ := splitFirst_eq_some_iff.1 h
  rw [List.append_assoc, List.cons_append]
  exact splitFirst_append_cons hbefore (after ++ more)

/-! ### At the ends -/

variable {p : Char → Bool}

theorem dropEndWhile_append_of_pos {xs ys : List Char} (h : ∀ c ∈ ys, p c) :
    dropEndWhile p (xs ++ ys) = dropEndWhile p xs := by
  rw [dropEndWhile, List.reverse_append, List.dropWhile_append_of_pos (by simpa using h)]
  rfl

theorem dropEndWhile_append_of_neg {xs ys : List Char} (hne : ys ≠ []) (h : ∀ c ∈ ys, ¬p c) :
    dropEndWhile p (xs ++ ys) = xs ++ ys :=
  List.rdropWhile_eq_self_iff.mpr fun hl => by
    rw [List.getLast_append_of_ne_nil hl hne]
    exact h _ (List.getLast_mem hne)

theorem exists_eq_dropEndWhile_append (p : Char → Bool) (cs : List Char) :
    ∃ tail, cs = dropEndWhile p cs ++ tail ∧ ∀ c ∈ tail, p c := by
  refine ⟨(cs.reverse.takeWhile p).reverse, ?_, fun c hc => List.mem_takeWhile_imp (List.mem_reverse.mp hc)⟩
  rw [dropEndWhile, ← List.reverse_append, List.takeWhile_append_dropWhile, List.reverse_reverse]

/-- What remains of a text when the characters of a class are taken off both of its ends: neither end is of the class. -/
structure TrimsTo (p : Char → Bool) (cs key : List Char) : Prop where
  around : ∃ left right, cs = left ++ key ++ right ∧ (∀ c ∈ left, p c) ∧ ∀ c ∈ right, p c
  first : ∀ c ∈ key.head?, ¬ p c
  last : ∀ c ∈ key.getLast?, ¬ p c

theorem not_of_head?_dropWhile (h : c ∈ (cs.dropWhile p).head?) : ¬ p c := by
  have hnot := List.head?_dropWhile_not p cs
  rw [Option.mem_def.1 h] at hnot
  simpa using hnot

theorem dropEndWhile_eq_self (h : ∀ c ∈ cs.getLast?, ¬ p c) : dropEndWhile p cs = cs :=
  List.rdropWhile_eq_self_iff.mpr fun hne => h _ (List.getLast?_eq_some_getLast hne)

theorem trimsTo_dropAround (p : Char → Bool) (cs : List Char) : TrimsTo p cs (dropAround p cs) := by
  obtain ⟨tail, hcut, htail⟩ := exists_eq_dropEndWhile_append p (cs.dropWhile p)
  refine ⟨⟨cs.takeWhile p, tail, ?_, fun c => List.mem_takeWhile_imp, htail⟩, fun c hc => ?_, fun c hc => ?_⟩
  · rw [dropAround, List.append_assoc, ← hcut, List.takeWhile_append_dropWhile]
  · have hhead : c ∈ (cs.dropWhile p).head? := by
      rw [hcut, List.head?_append, ← dropAround, Option.mem_def.1 hc]
      rfl
    exact not_of_head?_dropWhile hhead
  · obtain ⟨hne, rfl⟩ := List.mem_getLast?_eq_getLast hc
    exact List.rdropWhile_last_not p _ hne

theorem TrimsTo.dropAround_eq {key : List Char} (h : TrimsTo p cs key) : dropAround p cs = key := by
  obtain ⟨⟨left, right, rfl, hleft, hright⟩, hfirst, hlast⟩ := h
  have hfront : (left ++ key ++ right).dropWhile p = (key ++ right).dropWhile p := by
    rw [List.append_assoc, List.dropWhile_append_of_pos hleft]
  rw [dropAround, hfront]
  cases key with
  | nil =>
    rw [List.nil_append, List.dropWhile_eq_nil_iff.2 hright]
    rfl
  | cons k key =>
    rw [List.cons_append, List.dropWhile_cons_of_neg (hfirst k rfl), ← List.cons_append,
      dropEndWhile_append_of_pos hright, dropEndWhile_eq_self hlast]

/-- What trimming leaves is what is between characters of the class. -/
theorem dropAround_eq_iff {key : List Char} : dropAround p cs = key ↔ TrimsTo p cs key :=
  ⟨fun h => h ▸ trimsTo_dropAround p cs, TrimsTo.dropAround_eq⟩

theorem dropAround_eq_nil_iff : dropAround p cs = [] ↔ ∀ c ∈ cs, p c := by
  refine ⟨fun h c hc => ?_, fun h => TrimsTo.dropAround_eq ⟨⟨[], cs, rfl, by simp, h⟩, by simp, by simp⟩⟩
  obtain ⟨left, right, he, hleft, hright⟩ := (dropAround_eq_iff.1 h).around
  rw [he, List.append_nil] at hc
  exact (List.mem_append.1 hc).elim (hleft c) (hright c)

end PushDispatch.Text
