import Mathlib.Algebra.GroupWithZero.Nat
import PushDispatch.Proofs.Dispatch.Delivery
import PushDispatch.Proofs.Dispatch.Replay

/-! The pace of one delivery. Between the answer to a send and the next send lies the wait that the policy and the
service ask for after this very answer, and nothing else. -/

namespace PushDispatch

/-- The sends of one delivery, in order. -/
def sendsAt (index : Nat) (sends : List Performed) : List Performed := sends.filter fun x => x.index = index

@[simp] theorem sendsAt_append (i : Nat) (xs ys : List Performed) :
    sendsAt i (xs ++ ys) = sendsAt i xs ++ sendsAt i ys := List.filter_append ..

@[simp] theorem sendsAt_singleton (i : Nat) (x : Performed) : sendsAt i [x] = if x.index = i then [x] else [] := by
  by_cases h : x.index = i <;> simp [sendsAt, h]

/-- A delivery begins with a send and goes on from the answer to each send with a wait to the next send, up to its
last answer. A wait is the longer one of the two that belong to the send before it: its place among the sends sets
the policy's, its answer the service's. -/
structure Course (p : RetryPolicy) (start stop : Nat) (sends : List Performed) (waits : List Nat) : Prop where
  length : waits.length + 1 = sends.length
  first : sends.head?.map Performed.time = some start
  next : ∀ k x y, sends[k]? = some x → sends[k + 1]? = some y → ∃ error wait,
    x.sent.answer = .refused error ∧ waits[k]? = some wait ∧
      wait = max (p.delayAfter (k + 1)).nanos (error.retryAfter.elim 0 Duration.nanos) ∧
        y.time = x.time + x.sent.latency + wait
  last : sends.getLast?.map (fun x => x.time + x.sent.latency) = some stop
  span : stop = start + (sends.map fun x => x.sent.latency).sum + waits.sum

theorem RetryPolicy.nanos_waitAfter (p : RetryPolicy) (attempt : Nat) (error : PushError) :
    (p.waitAfter attempt error).nanos =
      max (p.delayAfter attempt).nanos (error.retryAfter.elim 0 Duration.nanos) := by
  rw [waitAfter, Duration.nanos_longer]
  cases error.retryAfter <;> rfl

variable {p : RetryPolicy} {start stop : Nat} {sends : List Performed} {waits : List Nat} {d : Delivery}

theorem course_singleton (p : RetryPolicy) (x : Performed) : Course p x.time (x.time + x.sent.latency) [x] [] where
  length := rfl
  first := rfl
  next := by simp
  last := rfl
  span := by simp

/-- One more send, after the wait that the last answer calls for. -/
theorem Course.snoc (h : Course p start stop sends waits) {error : PushError}
    (he : sends.getLast?.map (fun x => x.sent.answer) = some (.refused error)) {x : Performed}
    (hx : x.time = stop + (p.waitAfter sends.length error).nanos) :
    Course p start (x.time + x.sent.latency) (sends ++ [x]) (waits ++ [(p.waitAfter sends.length error).nanos]) where
  length := by simp [h.length]
  first := by
    obtain ⟨y, hy, ht⟩ := Option.map_eq_some_iff.1 h.first
    simp [hy, ht]
  next k y z hy hz := by
    have hlen := h.length
    have hk : k + 1 < (sends ++ [x]).length := (List.getElem?_eq_some_iff.1 hz).1
    rw [List.length_append, List.length_singleton] at hk
    rw [List.getElem?_append_left (by omega)] at hy
    rcases Nat.lt_or_ge (k + 1) sends.length with hlt | hge
    · rw [List.getElem?_append_left hlt] at hz
      rw [List.getElem?_append_left (by omega)]
      exact h.next k y z hy hz
    · -- the send before the new one is the last one so far
      have hk : k + 1 = sends.length := by omega
      obtain rfl : x = z := by simpa [hk] using hz
      have hlast : sends.getLast? = some y := by rw [List.getLast?_eq_getElem?, ← hy, ← hk, Nat.add_sub_cancel]
      have hstop : y.time + y.sent.latency = stop := by simpa [hlast] using h.last
      have hwait : k = waits.length := by omega
      refine ⟨error, (p.waitAfter sends.length error).nanos, by simpa [hlast] using he, by simp [hwait], ?_, ?_⟩
      · rw [hk, p.nanos_waitAfter]
      · rw [hx, hstop]
  last := by simp
  span := by
    have := h.span
    simp only [List.map_append, List.sum_append, List.map_singleton, List.sum_singleton, hx]
    omega

/-- No wait is shorter than what the policy or the service asks for. -/
theorem Course.le_wait (h : Course p start stop sends waits) {k wait : Nat} (hw : waits[k]? = some wait) :
    ∃ x error, sends[k]? = some x ∧ x.sent.answer = .refused error ∧ (p.delayAfter (k + 1)).nanos ≤ wait ∧
      ∀ asked, error.retryAfter = some asked → asked.nanos ≤ wait := by
  have hk : k < waits.length := (List.getElem?_eq_some_iff.1 hw).1
  have hlen := h.length
  obtain ⟨error, wait', he, hw', rfl, -⟩ := h.next k _ _ (List.getElem?_eq_getElem (by omega))
    (List.getElem?_eq_getElem (by omega))
  obtain rfl := Option.some.inj (hw.symm.trans hw')
  exact ⟨_, error, List.getElem?_eq_getElem (by omega), he, Nat.le_max_left .., fun asked ha => by simp [ha]⟩

/-- What an active delivery has sent by now fits its next step: a send is due when the pace demands it, an answer
when it has taken its time. -/
def Delivery.OnTime (p : RetryPolicy) (start : Nat) (d : Delivery) (sends : List Performed) : Prop :=
  match d.phase with
  | .ready => sends.length + 1 = d.attempt ∧
    ∀ x : Performed, x.time = d.due → ∃ waits, Course p start (x.time + x.sent.latency) (sends ++ [x]) waits
  | .awaiting answer => sends.length = d.attempt ∧
    sends.getLast?.map (fun x => x.sent.answer) = some answer ∧ ∃ waits, Course p start d.due sends waits

theorem Delivery.onTime_begin (p : RetryPolicy) (start : Nat) (job : Job) :
    Delivery.OnTime p start ⟨job, 1, .ready, start⟩ [] :=
  ⟨rfl, fun x hx => ⟨[], hx ▸ course_singleton p x⟩⟩

theorem Delivery.OnTime.send (h : d.OnTime p start sends) (hd : d.phase = .ready) {x : Performed}
    (hx : x.time = d.due) {d' : Delivery} (ha : d'.attempt = d.attempt) (hp : d'.phase = .awaiting x.sent.answer)
    (hdue : d'.due = d.due + x.sent.latency) : d'.OnTime p start (sends ++ [x]) := by
  simp only [OnTime, hd] at h
  simp only [OnTime, hp]
  exact ⟨by simpa [ha] using h.1, by simp, hdue ▸ hx ▸ h.2 x hx⟩

theorem Delivery.OnTime.retry (h : d.OnTime p start sends) {answer : Answer} (hd : d.phase = .awaiting answer)
    {error : PushError} {wait : Duration} (hj : p.judge d.attempt answer = .retry error wait) {d' : Delivery}
    (ha : d'.attempt = d.attempt + 1) (hp : d'.phase = .ready) (hdue : d'.due = d.due + wait.nanos) :
    d'.OnTime p start sends := by
  simp only [OnTime, hd] at h
  simp only [OnTime, hp]
  obtain ⟨hlen, hlast, waits, hc⟩ := h
  obtain ⟨rfl, -, -, rfl⟩ := RetryPolicy.judge_eq_retry_iff.1 hj
  exact ⟨by rw [ha, hlen], fun x hx => ⟨_, hc.snoc hlast (by rw [hx, hdue, hlen])⟩⟩

theorem Delivery.OnTime.exists_course (h : d.OnTime p start sends) {answer : Answer} (hd : d.phase = .awaiting answer) :
    ∃ waits, Course p start d.due sends waits := by
  simp only [OnTime, hd] at h
  exact h.2.2

end PushDispatch
