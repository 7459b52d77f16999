import Mathlib.Algebra.GroupWithZero.Nat
import Mathlib.Data.List.Basic
import Mathlib.Data.List.Induction
import Mathlib.Data.Nat.Digits.Defs
import Mathlib.Order.Lattice
import PushDispatch.Text.Decimal

/-! Decimal digits. The digits of a number are the standard ones and read back as it. A number that fits into a width is
written in exactly that many digits, and two texts of one width are in the order of their numbers. -/

namespace PushDispatch.Text.Decimal

/-- The number of digits of a number. -/
theorem length_write_le_iff {width : Nat} (hw : 0 < width) (n : Nat) : (write n).length ≤ width ↔ n < 10 ^ width := by
  induction width generalizing n with
  | zero => omega
  | succ width ih =>
    have hten : 10 ≤ 10 ^ (width + 1) := Nat.le_self_pow (by omega) 10
    rw [write]
    split
    · next h =>
      rw [List.length_singleton]
      omega
    · next h =>
      rw [List.length_append, List.length_singleton, Nat.add_le_add_iff_right]
      rcases Nat.eq_zero_or_pos width with rfl | hpos
      · have := List.length_pos_of_ne_nil (write_ne_nil (n / 10))
        omega
      · rw [ih hpos, Nat.pow_succ]
        omega

theorem length_writePadded (width n : Nat) : (writePadded width n).length = max width (write n).length := by
  unfold writePadded
  rw [List.length_append, List.length_replicate]
  omega

theorem length_writePadded_of_lt {width n : Nat} (hw : 0 < width) (h : n < 10 ^ width) :
    (writePadded width n).length = width := by
  rw [length_writePadded]
  exact Nat.max_eq_left ((length_write_le_iff hw n).2 h)

theorem all_isDigit_writePadded (width n : Nat) : (writePadded width n).all isDigit = true := by
  unfold writePadded
  rw [List.all_append, all_isDigit_write, Bool.and_true, List.all_replicate]
  simp [isDigit]

theorem isDigit_iff {c : Char} : isDigit c = true ↔ '0' ≤ c ∧ c ≤ '9' := by
  rw [isDigit, Bool.and_eq_true, decide_eq_true_iff, decide_eq_true_iff]
  rfl

theorem toNat_of_isDigit {c : Char} (h : isDigit c = true) : 48 ≤ c.toNat ∧ c.toNat ≤ 57 := by
  simpa [isDigit] using h

theorem valueFrom_cons (v : Nat) (c : Char) (cs : List Char) :
    valueFrom v (c :: cs) = valueFrom (10 * v + (c.toNat - 48)) cs := by
  rw [valueFrom.eq_def]

theorem valueFrom_nil (v : Nat) : valueFrom v [] = v := rfl

theorem valueFrom_append_singleton (v : Nat) (cs : List Char) (c : Char) :
    valueFrom v (cs ++ [c]) = 10 * valueFrom v cs + (c.toNat - 48) := by
  rw [valueFrom_append, valueFrom_cons, valueFrom_nil]

theorem valueFrom_zeros (k : Nat) (cs : List Char) : valueFrom 0 (List.replicate k '0' ++ cs) = valueFrom 0 cs := by
  induction k with
  | zero => rfl
  | succ k ih => exact ih

theorem valueFrom_writePadded (width n : Nat) : valueFrom 0 (writePadded width n) = n := by
  rw [writePadded, valueFrom_zeros, valueFrom_write]

theorem read?_eq_some_iff {cs : List Char} {n : Nat} :
    read? cs = some n ↔ cs ≠ [] ∧ cs.all isDigit = true ∧ valueFrom 0 cs = n := by
  simp [read?, and_assoc]

theorem read?_writePadded (width n : Nat) : read? (writePadded width n) = some n :=
  read?_eq_some_iff.2 ⟨by simp [writePadded, write_ne_nil], all_isDigit_writePadded .., valueFrom_writePadded ..⟩

/-- Digits contain no other character. -/
theorem notMem_of_read? {cs : List Char} {n : Nat} (h : read? cs = some n) {c : Char} (hc : isDigit c = false) :
    c ∉ cs := fun hm => by
  have := List.all_eq_true.1 (read?_eq_some_iff.1 h).2.1 c hm
  rw [hc] at this
  cases this

/-- The last digit counts once, the one before it ten times, and so on. -/
theorem valueFrom_eq_ofDigits (cs : List Char) :
    valueFrom 0 cs = Nat.ofDigits 10 (cs.reverse.map fun c => c.toNat - 48) := by
  induction cs using List.reverseRecOn with
  | nil => rfl
  | append_singleton cs c ih =>
    rw [valueFrom_append_singleton, ih, List.reverse_append, List.reverse_singleton, List.singleton_append,
      List.map_cons, Nat.ofDigits_cons, Nat.add_comm]

/-- Digits that write a number. -/
def Denotes (digits : List Char) (n : Nat) : Prop :=
  digits ≠ [] ∧ (∀ c ∈ digits, '0' ≤ c ∧ c ≤ '9') ∧
    n = Nat.ofDigits 10 (digits.reverse.map fun c => c.toNat - '0'.toNat)

theorem read?_eq_some_iff_denotes {cs : List Char} {n : Nat} : read? cs = some n ↔ Denotes cs n := by
  rw [read?_eq_some_iff, Denotes, valueFrom_eq_ofDigits, List.all_eq_true]
  simp only [isDigit_iff, eq_comm (a := n)]
  rfl

/-! ### The text of a number -/

theorem digit_eq_digitChar {n : Nat} (h : n < 10) : digit n = n.digitChar := by
  have : ∀ m : Fin 10, digit m = Nat.digitChar m := by decide
  exact this ⟨n, h⟩

theorem write_eq_toDigits (n : Nat) : write n = Nat.toDigits 10 n := by
  induction n using Nat.strongRecOn with
  | ind n ih =>
    rw [write, Nat.toDigits_eq_if (by decide)]
    split
    · next h => rw [digit_eq_digitChar h]
    · next h => rw [ih (n / 10) (by omega), digit_eq_digitChar (Nat.mod_lt n (by decide))]

theorem text_eq_toString (n : Nat) : text n = toString n := by
  rw [text, write_eq_toDigits, Nat.toString_eq_repr, Nat.repr_eq_ofList_toDigits]

/-! ### The order of digits -/

/-- The first digits decide, whatever digits follow them. -/
theorem valueFrom_lt_of_lt {v w : Nat} (h : v < w) {cs ds : List Char} (hl : cs.length = ds.length)
    (hc : cs.all isDigit = true) : valueFrom v cs < valueFrom w ds := by
  induction cs generalizing v w ds with
  | nil =>
    obtain rfl := List.length_eq_zero_iff.1 hl.symm
    exact h
  | cons c cs ih =>
    obtain ⟨d, ds, rfl⟩ := List.exists_cons_of_length_eq_add_one hl.symm
    rw [List.all_cons, Bool.and_eq_true] at hc
    have hdigit := toNat_of_isDigit hc.1
    rw [valueFrom_cons, valueFrom_cons]
    exact ih (by omega) (by simpa using hl) hc.2

/-- Of two texts that begin with equally many digits the one with the smaller number comes first. -/
theorem append_lt_append_of_valueFrom_lt {v : Nat} {cs ds : List Char} (hl : cs.length = ds.length)
    (hc : cs.all isDigit = true) (hd : ds.all isDigit = true) (h : valueFrom v cs < valueFrom v ds) (xs ys : List Char) :
    cs ++ xs < ds ++ ys := by
  induction cs generalizing v ds with
  | nil =>
    obtain rfl := List.length_eq_zero_iff.1 hl.symm
    exact absurd h (Nat.lt_irrefl _)
  | cons c cs ih =>
    obtain ⟨d, ds, rfl⟩ := List.exists_cons_of_length_eq_add_one hl.symm
    rw [List.all_cons, Bool.and_eq_true] at hc hd
    rw [valueFrom_cons, valueFrom_cons] at h
    have htail : cs.length = ds.length := by simpa using hl
    rw [List.cons_append, List.cons_append, List.cons_lt_cons_iff]
    rcases Nat.lt_trichotomy c.toNat d.toNat with hlt | heq | hgt
    · exact .inl (UInt32.lt_iff_toNat_lt.2 hlt)
    · obtain rfl := Char.toNat_inj.1 heq
      exact .inr ⟨rfl, ih htail hc.2 hd.2 h⟩
    · have hdigit := toNat_of_isDigit hd.1
      have hback := valueFrom_lt_of_lt (v := 10 * v + (d.toNat - 48)) (w := 10 * v + (c.toNat - 48)) (by omega)
        htail.symm hd.2
      omega

/-- Numbers that are filled up to one width decide the order of texts before what follows them. -/
theorem writePadded_append_lt {width m n : Nat} (hw : 0 < width) (hn : n < 10 ^ width) {xs ys : List Char}
    (h : m < n ∨ m = n ∧ xs < ys) : writePadded width m ++ xs < writePadded width n ++ ys := by
  rcases h with hlt | ⟨rfl, h⟩
  · have hl : (writePadded width m).length = (writePadded width n).length := by
      rw [length_writePadded_of_lt hw (hlt.trans hn), length_writePadded_of_lt hw hn]
    refine append_lt_append_of_valueFrom_lt (v := 0) hl (all_isDigit_writePadded ..) (all_isDigit_writePadded ..) ?_ xs ys
    rwa [valueFrom_writePadded, valueFrom_writePadded]
  · exact List.append_left_lt h

end PushDispatch.Text.Decimal
