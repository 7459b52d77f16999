import PushDispatch.Dispatch.Retry
import PushDispatch.Proofs.Duration.Words

/-! The waits of a retry policy in exact nanoseconds. Reckoned in machine words, with a factor that is shifted into
place, they come out the same: the shift loses no bit, and where multiplying stops at the longest length the policy's
own longest wait has the last word. -/

namespace PushDispatch.RetryPolicy

variable {p : RetryPolicy} {attempt : Nat}

/-! ### Waits in machine words -/

/-- How often the wait has doubled by the given send; a send numbered zero counts as the first. -/
def doublings (attempt : UInt32) : UInt32 :=
  let retries := if attempt = 0 then 0 else attempt - 1
  if retries ≤ 16 then retries else 16

def factor (attempt : UInt32) : UInt32 := 1 <<< doublings attempt

/-- The wait after a send, in machine words. -/
def wordsAfter (p : RetryPolicy) (attempt : UInt32) : Duration.Words :=
  (p.baseDelay.words.times (factor attempt)).shorter p.maxDelay.words

theorem toNat_doublings (attempt : UInt32) : (doublings attempt).toNat = min (max attempt.toNat 1 - 1) 16 := by
  have hretries : (if attempt = 0 then 0 else attempt - 1).toNat = max attempt.toNat 1 - 1 := by
    split
    · next h => rw [h]; rfl
    · next h =>
      have hpos : 1 ≤ attempt.toNat := Nat.one_le_iff_ne_zero.2 fun h0 => h (UInt32.toNat_inj.1 h0)
      rw [UInt32.toNat_sub_of_le _ _ (UInt32.le_iff_toNat_le.2 (show (1 : UInt32).toNat ≤ _ from hpos)),
        Nat.max_eq_left hpos]
      rfl
  simp only [doublings, UInt32.le_iff_toNat_le, hretries]
  split
  · next h => rw [hretries, Nat.min_eq_left (show _ ≤ 16 from h)]
  · next h => rw [Nat.min_eq_right (by simpa using Nat.le_of_not_le h)]; rfl

/-- No bit is shifted out. -/
theorem toNat_factor (attempt : UInt32) : (factor attempt).toNat = 2 ^ (doublings attempt).toNat := by
  have hle : (doublings attempt).toNat ≤ 16 := by rw [toNat_doublings]; omega
  have hpow : 2 ^ (doublings attempt).toNat ≤ 2 ^ 16 := Nat.pow_le_pow_right (by decide) hle
  have hmod : (doublings attempt).toNat % 32 = (doublings attempt).toNat := Nat.mod_eq_of_lt (by omega)
  rw [factor, UInt32.toNat_shiftLeft, hmod, UInt32.toNat_one, Nat.one_shiftLeft, Nat.mod_eq_of_lt (by omega)]

theorem wordsAfter_eq (p : RetryPolicy) (attempt : UInt32) :
    p.wordsAfter attempt = (p.delayAfter attempt.toNat).words := by
  rw [wordsAfter, Duration.words_scale, Duration.words_shorter, delayAfter, toNat_factor, toNat_doublings, Nat.pow_eq]

/-! ### Waits in exact arithmetic -/

/-- Where multiplying stops short of the exact product, the longest wait is shorter still. -/
theorem nanos_delayAfter (p : RetryPolicy) (attempt : Nat) :
    (p.delayAfter attempt).nanos = min (p.baseDelay.nanos * 2 ^ min (max attempt 1 - 1) 16) p.maxDelay.nanos := by
  have hmax := p.maxDelay.nanos_le
  rw [delayAfter, Duration.nanos_shorter, Duration.nanos_scale, Nat.pow_eq]
  omega

theorem nanos_delayAfter_mono (p : RetryPolicy) {a b : Nat} (h : a ≤ b) :
    (p.delayAfter a).nanos ≤ (p.delayAfter b).nanos := by
  have hpow : 2 ^ min (max a 1 - 1) 16 ≤ 2 ^ min (max b 1 - 1) 16 := Nat.pow_le_pow_right (by decide) (by omega)
  have hmul := Nat.mul_le_mul_left p.baseDelay.nanos hpow
  rw [nanos_delayAfter, nanos_delayAfter]
  omega

theorem nanos_delayAfter_succ (p : RetryPolicy) (h1 : 1 ≤ attempt) (h16 : attempt ≤ 16) :
    (p.delayAfter (attempt + 1)).nanos = min (2 * (p.delayAfter attempt).nanos) p.maxDelay.nanos := by
  have hexponent : min (max (attempt + 1) 1 - 1) 16 = min (max attempt 1 - 1) 16 + 1 := by omega
  rw [nanos_delayAfter, nanos_delayAfter, hexponent, Nat.pow_succ, ← Nat.mul_assoc]
  omega

theorem delayAfter_of_le (p : RetryPolicy) (h : 17 ≤ attempt) : p.delayAfter attempt = p.delayAfter 17 := by
  have hexponent : min (max attempt 1 - 1) 16 = min (max 17 1 - 1) 16 := by omega
  rw [delayAfter, delayAfter, hexponent]

/-- The wait after a send is the first wait, doubled up to sixteen times, or the longest wait if that is shorter: in
exact nanoseconds, and in machine words all the same. So it never gets shorter or longer than the longest wait, doubles
from one send to the next as far as that allows, and stays the same from the seventeenth send on. -/
theorem delays_exact (p : RetryPolicy) :
    (∀ attempt, (p.delayAfter attempt).nanos =
      min (p.baseDelay.nanos * 2 ^ min (max attempt 1 - 1) 16) p.maxDelay.nanos) ∧
    (∀ attempt : UInt32, (doublings attempt).toNat < 32 ∧
      (factor attempt).toNat = 2 ^ min (max attempt.toNat 1 - 1) 16 ∧
      p.wordsAfter attempt = (p.delayAfter attempt.toNat).words) ∧
    (∀ a b, a ≤ b → (p.delayAfter a).nanos ≤ (p.delayAfter b).nanos) ∧
    (∀ attempt, (p.delayAfter attempt).nanos ≤ p.maxDelay.nanos) ∧
    (∀ attempt, 1 ≤ attempt → attempt ≤ 16 →
      (p.delayAfter (attempt + 1)).nanos = min (2 * (p.delayAfter attempt).nanos) p.maxDelay.nanos) ∧
    (∀ attempt, 17 ≤ attempt → p.delayAfter attempt = p.delayAfter 17) := by
  refine ⟨p.nanos_delayAfter, fun attempt => ⟨?_, ?_, p.wordsAfter_eq attempt⟩, fun _ _ => p.nanos_delayAfter_mono,
    fun attempt => ?_, fun _ => p.nanos_delayAfter_succ, fun _ => p.delayAfter_of_le⟩
  · rw [toNat_doublings]
    omega
  · rw [toNat_factor, toNat_doublings]
  · rw [nanos_delayAfter]
    exact Nat.min_le_right ..

/-- The first wait, of 2^60 + 1 seconds, doubled four times is longer than any length of time can be. -/
theorem delays_exact_beyond_longest :
    let p : RetryPolicy := ⟨3, .ofSeconds (2 ^ 60 + 1), .ofNanos Duration.maxNanos⟩
    p.baseDelay.nanos * 2 ^ 4 = 18446744073709551632000000000 ∧ (p.delayAfter 5).nanos = Duration.maxNanos ∧
      p.wordsAfter 5 = .longest ∧
      1 ≤ 4 ∧ 4 ≤ 16 ∧ (p.delayAfter 5).nanos = min (2 * (p.delayAfter 4).nanos) p.maxDelay.nanos ∧
      4 ≤ 5 ∧ (p.delayAfter 4).nanos ≤ (p.delayAfter 5).nanos ∧
      17 ≤ 4294967295 ∧ p.delayAfter 4294967295 = p.delayAfter 17 := by
  intro p
  obtain ⟨hexact, hwords, hmono, -, hdouble, hlast⟩ := delays_exact p
  have hnanos : (p.delayAfter 5).nanos = Duration.maxNanos := by rw [hexact]; decide
  have hlongest : p.wordsAfter 5 = .longest := by
    rw [(hwords 5).2.2]
    exact (Duration.words_eq_iff.2 (Duration.Words.total_longest.trans hnanos.symm)).symm
  exact ⟨by decide, hnanos, hlongest, by decide, by decide, hdouble 4 (by decide) (by decide), by decide,
    hmono 4 5 (by decide), by decide, hlast 4294967295 (by decide)⟩

end PushDispatch.RetryPolicy
