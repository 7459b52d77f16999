import Mathlib.Algebra.Order.Group.Nat
import PushDispatch.Duration

/-! Lengths of time in machine words: whole seconds in 64 bits, and the nanoseconds beyond them in 32 bits. Multiplying
carries from the nanoseconds into the seconds and stops at the longest length where the seconds overflow; the shorter of
two lengths is found by comparing seconds first. Both agree with exact arithmetic on nanoseconds. -/

namespace PushDispatch.Duration

structure Words where
  seconds : UInt64
  nanos : UInt32
  nanos_lt : nanos.toNat < 1000000000
deriving DecidableEq

namespace Words

/-! ### Arithmetic on words -/

/-- The product of two words if it fits into one. -/
def mul? (a b : UInt64) : Option UInt64 := if a.toNat * b.toNat < 2 ^ 64 then some (a * b) else none

/-- The sum of two words if it fits into one. -/
def add? (a b : UInt64) : Option UInt64 := if a.toNat + b.toNat < 2 ^ 64 then some (a + b) else none

theorem toNat_of_mul? {a b c : UInt64} (h : mul? a b = some c) : c.toNat = a.toNat * b.toNat := by
  rw [mul?, Option.ite_none_right_eq_some] at h
  rw [← Option.some.inj h.2, UInt64.toNat_mul, Nat.mod_eq_of_lt h.1]

theorem le_of_mul? {a b : UInt64} (h : mul? a b = none) : 2 ^ 64 ≤ a.toNat * b.toNat := by
  rw [mul?] at h
  split at h
  · cases h
  · omega

/-- A product fits exactly if it is a word. -/
theorem mul?_eq_some_iff {a b c : UInt64} : mul? a b = some c ↔ c.toNat = a.toNat * b.toNat := by
  refine ⟨toNat_of_mul?, fun h => ?_⟩
  have hlt : a.toNat * b.toNat < 2 ^ 64 := h ▸ c.toNat_lt
  rw [mul?, if_pos hlt, Option.some_inj, ← UInt64.toNat_inj, UInt64.toNat_mul, Nat.mod_eq_of_lt hlt, h]

theorem toNat_of_add? {a b c : UInt64} (h : add? a b = some c) : c.toNat = a.toNat + b.toNat := by
  rw [add?, Option.ite_none_right_eq_some] at h
  rw [← Option.some.inj h.2, UInt64.toNat_add, Nat.mod_eq_of_lt h.1]

theorem le_of_add? {a b : UInt64} (h : add? a b = none) : 2 ^ 64 ≤ a.toNat + b.toNat := by
  rw [add?] at h
  split at h
  · cases h
  · omega

/-- A sum fits exactly if it is a word. -/
theorem add?_eq_some_iff {a b c : UInt64} : add? a b = some c ↔ c.toNat = a.toNat + b.toNat := by
  refine ⟨toNat_of_add?, fun h => ?_⟩
  have hlt : a.toNat + b.toNat < 2 ^ 64 := h ▸ c.toNat_lt
  rw [add?, if_pos hlt, Option.some_inj, ← UInt64.toNat_inj, UInt64.toNat_add, Nat.mod_eq_of_lt hlt, h]

/-! ### Lengths -/

variable {w v : Words}

/-- All nanoseconds of a length. -/
def total (w : Words) : Nat := w.seconds.toNat * 1000000000 + w.nanos.toNat

def longest : Words := ⟨UInt64.ofNat (2 ^ 64 - 1), 999999999, by decide⟩

theorem total_longest : longest.total = maxNanos := by decide

theorem total_le (w : Words) : w.total ≤ maxNanos := by
  have hs := w.seconds.toNat_lt
  have hn := w.nanos_lt
  rw [total, maxNanos, Nat.pow_eq]
  omega

theorem eq_of_total_eq (h : w.total = v.total) : w = v := by
  obtain ⟨s, n, hn⟩ := w
  obtain ⟨s', n', hn'⟩ := v
  simp only [total] at h
  obtain rfl : s = s' := UInt64.toNat_inj.1 (by omega)
  obtain rfl : n = n' := UInt32.toNat_inj.1 (by omega)
  rfl

/-- The nanoseconds beyond the seconds, `k` times. -/
def beyond (w : Words) (k : UInt32) : UInt64 := w.nanos.toUInt64 * k.toUInt64

/-- No product of two words of 32 bits is too large for 64 bits. -/
theorem toNat_beyond (w : Words) (k : UInt32) : (w.beyond k).toNat = w.nanos.toNat * k.toNat := by
  rw [beyond, UInt64.toNat_mul, UInt32.toNat_toUInt64, UInt32.toNat_toUInt64]
  refine Nat.mod_eq_of_lt ?_
  calc w.nanos.toNat * k.toNat < 2 ^ 32 * 2 ^ 32 := Nat.mul_lt_mul_of_lt_of_lt w.nanos.toNat_lt k.toNat_lt
    _ = 2 ^ 64 := by decide

/-- The nanoseconds of `k` times a length that do not make up a second. -/
def rest (w : Words) (k : UInt32) : UInt32 := (w.beyond k % 1000000000).toUInt32

theorem toNat_rest (w : Words) (k : UInt32) : (w.rest k).toNat = w.nanos.toNat * k.toNat % 1000000000 := by
  have hmod : (w.beyond k % 1000000000).toNat = w.nanos.toNat * k.toNat % 1000000000 := by
    rw [UInt64.toNat_mod, toNat_beyond]
    rfl
  rw [rest, UInt64.toNat_toUInt32, hmod]
  omega

theorem rest_lt (w : Words) (k : UInt32) : (w.rest k).toNat < 1000000000 := by
  rw [toNat_rest]
  omega

/-- `k` times a length, or the longest length if its seconds do not fit into a word. -/
def times (w : Words) (k : UInt32) : Words :=
  match (mul? w.seconds k.toUInt64).bind (add? · (w.beyond k / 1000000000)) with
  | some seconds => ⟨seconds, w.rest k, w.rest_lt k⟩
  | none => longest

theorem total_times (w : Words) (k : UInt32) : (w.times k).total = min (w.total * k.toNat) maxNanos := by
  have hcarry : (w.beyond k / 1000000000).toNat = w.nanos.toNat * k.toNat / 1000000000 := by
    rw [UInt64.toNat_div, toNat_beyond]
    rfl
  have htotal : w.total * k.toNat = w.seconds.toNat * k.toNat * 1000000000 + w.nanos.toNat * k.toNat := by
    rw [total, Nat.add_mul, Nat.mul_right_comm]
  have hoverflow : 2 ^ 64 ≤ w.seconds.toNat * k.toNat + w.nanos.toNat * k.toNat / 1000000000 →
      longest.total = min (w.total * k.toNat) maxNanos := by
    intro hlarge
    rw [total_longest, Nat.min_eq_right]
    rw [htotal, maxNanos, Nat.pow_eq]
    omega
  rw [times]
  cases hproduct : mul? w.seconds k.toUInt64 with
  | none =>
    have hlarge := le_of_mul? hproduct
    rw [UInt32.toNat_toUInt64] at hlarge
    exact hoverflow (by omega)
  | some product =>
    have hp := toNat_of_mul? hproduct
    rw [UInt32.toNat_toUInt64] at hp
    rw [Option.bind_some]
    cases hsum : add? product (w.beyond k / 1000000000) with
    | none =>
      have hlarge := le_of_add? hsum
      rw [hp, hcarry] at hlarge
      exact hoverflow hlarge
    | some seconds =>
      have hs := toNat_of_add? hsum
      rw [hp, hcarry] at hs
      have hexact : total ⟨seconds, w.rest k, w.rest_lt k⟩ = w.total * k.toNat := by
        change seconds.toNat * 1000000000 + (w.rest k).toNat = _
        rw [toNat_rest, htotal, hs]
        omega
      rw [← hexact, Nat.min_eq_left (total_le _)]

/-- The shorter of two lengths. -/
def shorter (w v : Words) : Words :=
  if w.seconds < v.seconds ∨ w.seconds = v.seconds ∧ w.nanos ≤ v.nanos then w else v

theorem total_shorter (w v : Words) : (w.shorter v).total = min w.total v.total := by
  have hw := w.nanos_lt
  have hv := v.nanos_lt
  simp only [shorter, UInt64.lt_iff_toNat_lt, ← UInt64.toNat_inj, UInt32.le_iff_toNat_le]
  split <;> simp only [total] <;> omega

end Words

/-- A length in machine words. -/
def words (d : Duration) : Words where
  seconds := UInt64.ofNat (d.nanos / 1000000000)
  nanos := UInt32.ofNat (d.nanos % 1000000000)
  nanos_lt := by
    rw [UInt32.toNat_ofNat']
    omega

@[simp] theorem total_words (d : Duration) : d.words.total = d.nanos := by
  have hd := d.nanos_le
  rw [maxNanos, Nat.pow_eq] at hd
  rw [Words.total, words, UInt64.toNat_ofNat', UInt32.toNat_ofNat']
  omega

theorem words_eq_iff {d : Duration} {w : Words} : w = d.words ↔ w.total = d.nanos :=
  ⟨fun h => h ▸ d.total_words, fun h => Words.eq_of_total_eq (h.trans d.total_words.symm)⟩

theorem words_scale (d : Duration) (k : UInt32) : d.words.times k = (d.scale k.toNat).words := by
  rw [words_eq_iff, Words.total_times, total_words, nanos_scale]

theorem words_shorter (d d' : Duration) : d.words.shorter d'.words = (d.shorter d').words := by
  rw [words_eq_iff, Words.total_shorter, total_words, total_words, nanos_shorter]

end PushDispatch.Duration
