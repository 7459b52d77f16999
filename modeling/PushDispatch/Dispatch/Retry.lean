import PushDispatch.Dispatch.Report
import PushDispatch.Error

/-!
Trying again: how long to wait after a failed send, what one answer means for a delivery, and what a whole
series of answers comes to.
-/

namespace PushDispatch

/-- How often a message is sent to one device at most, and the first and the longest wait in between. -/
structure RetryPolicy where
  maxAttempts : Nat
  baseDelay : Duration
  maxDelay : Duration
deriving DecidableEq

/-- What one send brought back. -/
inductive Answer where
  | accepted (messageId : String)
  | refused (error : PushError)
  /-- The delivery broke off without an answer. -/
  | aborted
deriving DecidableEq

/-- What is done after an answer. -/
inductive Verdict where
  | finish (outcome : Outcome)
  | retry (error : PushError) (wait : Duration)
  | abort
deriving DecidableEq

namespace RetryPolicy

/-- Three sends, 200 milliseconds after the first and never more than five seconds. -/
def standard : RetryPolicy := ⟨3, .ofMillis 200, .ofSeconds 5⟩

/-- The wait after send number `attempt`, counted from one: it doubles sixteen times at most. -/
def delayAfter (p : RetryPolicy) (attempt : Nat) : Duration :=
  (p.baseDelay.scale (Nat.pow 2 (min (max attempt 1 - 1) 16))).shorter p.maxDelay

/-- The number of sends after which a delivery ends; a message is always sent once. -/
def limit (p : RetryPolicy) : Nat := max p.maxAttempts 1

/-- The wait before the next send: the longer of the policy's own and the one that the service asked for. -/
def waitAfter (p : RetryPolicy) (attempt : Nat) (error : PushError) : Duration :=
  (p.delayAfter attempt).longer (error.retryAfter.getD .zero)

/-- What the answer to send number `attempt` means. -/
def judge (p : RetryPolicy) (attempt : Nat) : Answer → Verdict
  | .accepted messageId => .finish (.delivered messageId)
  | .refused .unregisteredDevice => .finish .unregistered
  | .refused error =>
    if error.retryable && attempt < p.limit then .retry error (p.waitAfter attempt error)
    else .finish (.failed error.message error.retryable)
  | .aborted => .abort

/-- Another send follows only while there are sends left. -/
theorem lt_limit_of_judge_retry {p : RetryPolicy} {attempt : Nat} {answer : Answer} {error : PushError}
    {wait : Duration} (h : p.judge attempt answer = .retry error wait) : attempt < p.limit := by
  unfold judge at h
  split at h
  · cases h
  · cases h
  · split at h
    · next h' => simpa using (Bool.and_eq_true_iff.1 h').2
    · cases h
  · cases h

end RetryPolicy

/-- How a delivery ends whose send number `k` is answered by `answers k`, from send number `attempt` on:
the outcome and the number of sends, or `none` if it breaks off. -/
def deliverFrom (p : RetryPolicy) (answers : Nat → Answer) (attempt : Nat) : Option (Outcome × Nat) :=
  match _h : p.judge attempt (answers attempt) with
  | .finish outcome => some (outcome, attempt)
  | .abort => none
  | .retry _ _ => deliverFrom p answers (attempt + 1)
termination_by p.limit - attempt
decreasing_by have := RetryPolicy.lt_limit_of_judge_retry _h; omega

/-- How a delivery ends. -/
def deliver (p : RetryPolicy) (answers : Nat → Answer) : Option (Outcome × Nat) := deliverFrom p answers 1

end PushDispatch
