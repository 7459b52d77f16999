import Mathlib.Data.Nat.Find
import Mathlib.Order.Bounds.Basic
import PushDispatch.Dispatch.Retry

/-! One delivery on its own. It ends with the first send whose answer forbids another one, or with the last
send that its policy allows, and its outcome is read off the answer to that send. -/

namespace PushDispatch

namespace Answer

/-- Whether the same message may be sent again after this answer. -/
def mayRetry : Answer → Bool
  | refused error => error.retryable
  | _ => false

/-- The outcome of a delivery whose last answer this is; one that broke off has none. -/
def outcome? : Answer → Option Outcome
  | accepted messageId => some (.delivered messageId)
  | refused .unregisteredDevice => some .unregistered
  | refused error => some (.failed error.message error.retryable)
  | aborted => none

@[simp] theorem outcome?_eq_none_iff {answer : Answer} : answer.outcome? = none ↔ answer = .aborted := by
  cases answer with
  | refused error => cases error <;> simp [outcome?]
  | _ => simp [outcome?]

end Answer

namespace RetryPolicy

variable {p : RetryPolicy} {attempt : Nat} {answer : Answer}

theorem one_le_limit (p : RetryPolicy) : 1 ≤ p.limit := Nat.le_max_right ..

/-- Another send follows exactly if it may help and there are sends left. -/
theorem judge_eq_retry_iff {error : PushError} {wait : Duration} :
    p.judge attempt answer = .retry error wait ↔
      answer = .refused error ∧ error.retryable = true ∧ attempt < p.limit ∧ wait = p.waitAfter attempt error := by
  cases answer with
  | refused e => cases e <;> simp [judge, PushError.retryable] <;> grind
  | _ => simp [judge]

theorem judge_eq_finish_iff {outcome : Outcome} :
    p.judge attempt answer = .finish outcome ↔
      answer.outcome? = some outcome ∧ (answer.mayRetry = true → p.limit ≤ attempt) := by
  cases answer with
  | refused e => cases e <;> simp [judge, Answer.outcome?, Answer.mayRetry, PushError.retryable] <;> grind
  | _ => simp [judge, Answer.outcome?, Answer.mayRetry]

theorem judge_eq_abort_iff : p.judge attempt answer = .abort ↔ answer = .aborted := by
  cases answer with
  | refused e => cases e <;> simp [judge] <;> grind
  | _ => simp [judge]

/-- Whether a delivery ends with send number `k` at the latest. -/
def EndsAt (p : RetryPolicy) (answers : Nat → Answer) (k : Nat) : Prop :=
  1 ≤ k ∧ (p.limit ≤ k ∨ (answers k).mayRetry = false)

theorem endsAt_limit (p : RetryPolicy) (answers : Nat → Answer) : p.EndsAt answers p.limit :=
  ⟨p.one_le_limit, .inl le_rfl⟩

end RetryPolicy

variable {p : RetryPolicy} {answers : Nat → Answer} {attempt n : Nat}

theorem deliverFrom_of_retry {error : PushError} {wait : Duration}
    (h : p.judge attempt (answers attempt) = .retry error wait) :
    deliverFrom p answers attempt = deliverFrom p answers (attempt + 1) := by
  rw [deliverFrom]
  split <;> simp_all

theorem deliverFrom_of_finish {outcome : Outcome} (h : p.judge attempt (answers attempt) = .finish outcome) :
    deliverFrom p answers attempt = some (outcome, attempt) := by
  rw [deliverFrom]
  split <;> simp_all

theorem deliverFrom_of_abort (h : p.judge attempt (answers attempt) = .abort) :
    deliverFrom p answers attempt = none := by
  rw [deliverFrom]
  split <;> simp_all

theorem deliverFrom_of_endsAt (h : p.EndsAt answers attempt) :
    deliverFrom p answers attempt = (answers attempt).outcome?.map (·, attempt) := by
  cases ho : (answers attempt).outcome? with
  | none => exact deliverFrom_of_abort (RetryPolicy.judge_eq_abort_iff.2 (Answer.outcome?_eq_none_iff.1 ho))
  | some outcome =>
    refine deliverFrom_of_finish (RetryPolicy.judge_eq_finish_iff.2 ⟨ho, fun hr => ?_⟩)
    exact h.2.resolve_right (by simp [hr])

theorem deliverFrom_of_not_endsAt (h1 : 1 ≤ attempt) (h : ¬ p.EndsAt answers attempt) :
    deliverFrom p answers attempt = deliverFrom p answers (attempt + 1) := by
  obtain ⟨hlt, hr⟩ : attempt < p.limit ∧ (answers attempt).mayRetry = true := by
    simpa [RetryPolicy.EndsAt, h1] using h
  obtain ⟨error, he⟩ : ∃ error, answers attempt = .refused error := by
    cases ha : answers attempt with
    | refused error => exact ⟨error, rfl⟩
    | _ => simp [ha, Answer.mayRetry] at hr
  rw [he] at hr
  exact deliverFrom_of_retry (RetryPolicy.judge_eq_retry_iff.2 ⟨he, hr, hlt, rfl⟩)

theorem deliverFrom_eq (h1 : 1 ≤ attempt) (hle : attempt ≤ n) (hn : p.EndsAt answers n)
    (before : ∀ k, attempt ≤ k → k < n → ¬ p.EndsAt answers k) :
    deliverFrom p answers attempt = (answers n).outcome?.map (·, n) := by
  induction hk : n - attempt generalizing attempt with
  | zero =>
    obtain rfl : attempt = n := by omega
    exact deliverFrom_of_endsAt hn
  | succ m ih =>
    rw [deliverFrom_of_not_endsAt h1 (before attempt le_rfl (by omega))]
    exact ih (by omega) (by omega) (fun k hk => before k (by omega)) (by omega)

/-- A delivery ends with the first send that may be its last, and comes to what the answer to that send says. -/
theorem deliver_eq (h : IsLeast {k | p.EndsAt answers k} n) :
    deliver p answers = (answers n).outcome?.map (·, n) :=
  deliverFrom_eq le_rfl h.1.1 h.1 fun _ _ hlt hk => hlt.not_ge (h.2 hk)

open Classical in
theorem exists_isLeast_endsAt (p : RetryPolicy) (answers : Nat → Answer) :
    ∃ n, IsLeast {k | p.EndsAt answers k} n :=
  have h : ∃ k, p.EndsAt answers k := ⟨_, p.endsAt_limit answers⟩
  ⟨Nat.find h, Nat.find_spec h, fun _ hk => Nat.find_min' h hk⟩

/-- Where a delivery ends: with the first answer after which no send may follow, or with the last send. -/
theorem RetryPolicy.isLeast_of_endsAt (p : RetryPolicy) (h : IsLeast {k | p.EndsAt answers k} n) {stops : Nat → Prop}
    (hs : ∀ k, (answers k).mayRetry = false ↔ stops k) :
    IsLeast {k | 1 ≤ k ∧ (stops k ∨ k = max 1 p.maxAttempts)} n := by
  have hl : p.limit = max 1 p.maxAttempts := Nat.max_comm ..
  have hle : n ≤ p.limit := h.2 (p.endsAt_limit answers)
  obtain ⟨h1, hn⟩ := h.1
  refine ⟨⟨h1, ?_⟩, fun k ⟨hk, hends⟩ => h.2 ⟨hk, ?_⟩⟩
  · rcases hn with hge | hr
    · exact .inr (hl ▸ le_antisymm hle hge)
    · exact .inl ((hs n).1 hr)
  · rcases hends with hr | he
    · exact .inr ((hs k).2 hr)
    · exact .inl (hl.trans he.symm).le

/-- The number of sends in the result of a delivery is the least at which it may end. -/
theorem isLeast_of_deliver {outcome : Outcome} (h : deliver p answers = some (outcome, n)) :
    IsLeast {k | p.EndsAt answers k} n := by
  obtain ⟨m, hm⟩ := exists_isLeast_endsAt p answers
  rw [deliver_eq hm] at h
  obtain ⟨_, _, he⟩ := Option.map_eq_some_iff.1 h
  obtain rfl : m = n := congrArg Prod.snd he
  exact hm

end PushDispatch
