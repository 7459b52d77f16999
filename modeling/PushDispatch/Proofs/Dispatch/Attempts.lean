import Mathlib.Data.List.Induction
import PushDispatch.Proofs.Dispatch.Reports

/-! How many sends a delivery makes. Each answer but the last one is an error after which the same message may be sent
again, and comes while there are sends left. So the number of a send never passes the limit of the policy, and the
attempts in a report are the sends that were made. The last answer decides the outcome. -/

namespace PushDispatch

open Tasks (Path Step)

/-! ### What a delivery comes to -/

namespace Answer

/-- The answer with the result of a send that has not broken off. -/
def ofResult : Except PushError String → Answer
  | .ok messageId => .accepted messageId
  | .error error => .refused error

/-- What the last answer makes of a delivery. -/
inductive Decides : Answer → Outcome → Prop
  | delivered (messageId : String) : Decides (.accepted messageId) (.delivered messageId)
  | unregistered : Decides (.refused .unregisteredDevice) .unregistered
  | failed {error : PushError} (h : error ≠ .unregisteredDevice) :
    Decides (.refused error) (.failed error.message error.retryable)

variable {answer : Answer} {outcome : Outcome}

theorem decides_of_outcome? (h : answer.outcome? = some outcome) : answer.Decides outcome := by
  cases answer with
  | accepted messageId =>
    cases h
    exact .delivered messageId
  | refused error =>
    by_cases he : error = .unregisteredDevice
    · subst he
      cases h
      exact .unregistered
    · have hfailed : (Answer.refused error).outcome? = some (.failed error.message error.retryable) := by
        cases error <;> first | rfl | exact absurd rfl he
      obtain rfl := Option.some.inj (hfailed.symm.trans h)
      exact .failed he
  | aborted => cases h

/-- Only a failure can be retryable, and only if its error is. -/
theorem Decides.mayRetry {reason : String} (h : answer.Decides (.failed reason true)) : answer.mayRetry = true := by
  generalize ho : Outcome.failed reason true = outcome at h
  cases h with
  | delivered => cases ho
  | unregistered => cases ho
  | failed => exact (Outcome.failed.inj ho).2.symm

theorem exists_of_mayRetry (h : answer.mayRetry = true) :
    ∃ error, answer = .refused error ∧ error.retryable = true := by
  cases answer with
  | refused error => exact ⟨error, rfl, h⟩
  | _ => cases h

theorem mayRetry_ofResult (result : Except PushError String) :
    (ofResult result).mayRetry = false ↔ ∀ error, result = .error error → error.retryable = false := by
  cases result <;> simp [ofResult, mayRetry]

theorem ofResult_ne_aborted (result : Except PushError String) : ofResult result ≠ .aborted := by
  cases result <;> simp [ofResult]

end Answer

/-- What the answers to all sends of a delivery come to. -/
structure RetryPolicy.ComesTo (p : RetryPolicy) (heard : List Answer) (outcome : Outcome) (attempts : Nat) : Prop where
  attempts : attempts = heard.length
  bounds : 1 ≤ heard.length ∧ heard.length ≤ max 1 p.maxAttempts
  earlier : ∀ answer ∈ heard.dropLast, ∃ error, answer = .refused error ∧ error.retryable = true
  /-- The last answer decides, and forbids another send unless there is none left. -/
  last : ∃ answer, heard.getLast? = some answer ∧ answer.Decides outcome ∧
    (answer.mayRetry = true → heard.length = max 1 p.maxAttempts)

theorem RetryPolicy.ComesTo.attempts_of_retryable {p : RetryPolicy} {heard : List Answer} {reason : String}
    {attempts : Nat} (h : p.ComesTo heard (.failed reason true) attempts) : attempts = max 1 p.maxAttempts := by
  obtain ⟨answer, -, hd, hstop⟩ := h.last
  rw [h.attempts, hstop hd.mayRetry]

theorem Begins.map_range {answers : Nat → Answer} {first : List Answer} (h : Begins answers first) :
    ((List.range first.length).map fun k => answers (k + 1)) = first := by
  refine List.ext_getElem (by simp) fun k _ hk => ?_
  rw [List.getElem_map, List.getElem_range]
  exact h k _ (List.getElem?_eq_getElem hk)

/-- A delivery makes the sends up to the first that may be its last. -/
theorem RetryPolicy.comesTo_of_isLeast {p : RetryPolicy} {answers : Nat → Answer} {n : Nat}
    (h : IsLeast {k | p.EndsAt answers k} n) {outcome : Outcome} (ho : (answers n).outcome? = some outcome) :
    p.ComesTo ((List.range n).map fun k => answers (k + 1)) outcome n := by
  have hl : p.limit = max 1 p.maxAttempts := Nat.max_comm ..
  have hle : n ≤ max 1 p.maxAttempts := hl ▸ h.2 (p.endsAt_limit answers)
  obtain ⟨h1, hn⟩ := h.1
  obtain ⟨m, rfl⟩ : ∃ m, n = m + 1 := ⟨n - 1, by omega⟩
  refine ⟨by simp, by simpa using hle, fun answer hm => ?_, answers (m + 1), by simp [List.range_succ],
    Answer.decides_of_outcome? ho, fun hr => ?_⟩
  · rw [List.range_succ, List.map_append, List.map_singleton, List.dropLast_concat] at hm
    obtain ⟨k, hk, rfl⟩ := List.mem_map.1 hm
    rw [List.mem_range] at hk
    have hnot : ¬ p.EndsAt answers (k + 1) := fun hk' => by
      have := h.2 hk'
      omega
    have hagain : (answers (k + 1)).mayRetry = true := by
      simpa using fun hf => hnot ⟨by omega, .inr hf⟩
    exact Answer.exists_of_mayRetry hagain
  · have hge : p.limit ≤ m + 1 := hn.resolve_right (by simp [hr])
    rw [List.length_map, List.length_range]
    omega

/-- A report tells what the answers come to, unless its delivery has broken off. -/
theorem Tells.comesTo {p : RetryPolicy} {device : Device} {first : List Answer} {r : Report}
    (h : Tells p device first r) (hn : .aborted ∉ first) : p.ComesTo first r.outcome r.attempts := by
  obtain ⟨answers, ha⟩ := exists_begins first
  have hleast := h.isLeast_length ha hn
  obtain ⟨last, hlast, ho⟩ := h.outcome_eq hn
  have hanswer : answers first.length = last := by
    have h1 : 1 ≤ first.length := hleast.1.1
    rw [List.getLast?_eq_getElem?] at hlast
    have := ha _ _ hlast
    rwa [Nat.sub_add_cancel h1] at this
  have hcomes := RetryPolicy.comesTo_of_isLeast hleast (hanswer.symm ▸ ho)
  rwa [ha.map_range, ← h.attempts hn] at hcomes

/-! ### The sends of a task -/

/-- After each of the answers another send may follow. -/
def RetryPolicy.AsksAgain (p : RetryPolicy) (heard : List Answer) : Prop :=
  ∀ k answer, heard[k]? = some answer → answer.mayRetry = true ∧ k + 1 < p.limit

/-- A task that has ended has had one more answer than those after which it went on. -/
def Stage.Asked (p : RetryPolicy) (heard : List Answer) : Stage → Prop
  | finished _ _ | panicked => p.AsksAgain heard.dropLast
  | _ => p.AsksAgain heard

section

variable {p : RetryPolicy} {heard : List Answer} {answer : Answer}

theorem Stage.Asked.of_isOver {stage : Stage} (h : stage.Asked p heard) (ho : stage.isOver = true) :
    p.AsksAgain heard.dropLast := by
  cases stage with
  | finished outcome attempts => exact h
  | panicked => exact h
  | _ => cases ho

theorem RetryPolicy.asksAgain_nil (p : RetryPolicy) : p.AsksAgain [] := by
  intro k answer h
  simp at h

theorem RetryPolicy.AsksAgain.snoc (h : p.AsksAgain heard) (hr : answer.mayRetry = true)
    (hlt : heard.length + 1 < p.limit) : p.AsksAgain (heard ++ [answer]) := by
  intro k a hk
  rcases Nat.lt_or_ge k heard.length with hk' | hk'
  · rw [List.getElem?_append_left hk'] at hk
    exact h k a hk
  · obtain ⟨rfl, rfl⟩ : k = heard.length ∧ answer = a := by
      have := (List.getElem?_eq_some_iff.1 hk).1
      rw [List.length_append, List.length_singleton] at this
      obtain rfl : k = heard.length := by omega
      simpa using hk
    exact ⟨hr, hlt⟩

/-- There is a send left after each answer that asks for one. -/
theorem RetryPolicy.AsksAgain.length_lt (h : p.AsksAgain heard) : heard.length < p.limit := by
  cases heard using List.reverseRecOn with
  | nil => exact p.one_le_limit
  | append_singleton heard answer =>
    have := (h heard.length answer (by simp)).2
    simpa using this

end

namespace Tasks

variable {p : RetryPolicy} {permits n i : Nat} {moves : List Move} {s t : Tasks} {move : Move}

/-- The sends that a task has begun: the answered ones and the one that is under way. -/
def sendsBegun (i : Nat) (moves : List Move) (s : Tasks) : Nat :=
  (answersOf i moves).length + if s.stages[i]?.any Stage.isSending then 1 else 0

theorem Step.asked (hr : Recorded p n moves s)
    (ih : ∀ i (stage : Stage), s.stages[i]? = some stage → stage.Asked p (answersOf i moves)) (hs : Step p s move t)
    (i : Nat) (stage : Stage) (hi : t.stages[i]? = some stage) : stage.Asked p (answersOf i (moves ++ [move])) := by
  -- a change of one task leaves the others as they are
  have key : ∀ {j : Nat} {old new : Stage}, s.stages[j]? = some old → t.stages = s.stages.set j new →
      (∀ k ≠ j, answersOf k [move] = []) → new.Asked p (answersOf j (moves ++ [move])) →
        stage.Asked p (answersOf i (moves ++ [move])) := by
    intro j old new hj ht hother hnew
    rw [ht, getElem?_set_of_eq_some hj] at hi
    split at hi
    · next e =>
      subst e
      obtain rfl := Option.some.inj hi
      exact hnew
    · next e =>
      rw [answersOf_append, hother i (Ne.symm e), List.append_nil]
      exact ih i stage hi
  cases hs with
  | @acquire j hj hfree => exact key hj rfl (fun _ _ => rfl) (by simpa [Stage.Asked] using ih j _ hj)
  | @retry j attempt answer error wait hj hjudge =>
    obtain ⟨rfl, hagain, hlt, -⟩ := RetryPolicy.judge_eq_retry_iff.1 hjudge
    have hlen : (answersOf j moves).length + 1 = attempt := (hr.fits j _ hj).1
    have hasked : p.AsksAgain (answersOf j moves) := ih j _ hj
    refine key hj rfl (fun k hk => by simp [Ne.symm hk]) ?_
    rw [answersOf_append, answersOf_reply, if_pos rfl]
    exact hasked.snoc hagain (hlen ▸ hlt)
  | @finish j attempt answer outcome hj hjudge =>
    exact key hj rfl (fun k hk => by simp [Ne.symm hk]) (by simpa [Stage.Asked] using ih j _ hj)
  | @abort j attempt answer hj hjudge =>
    exact key hj rfl (fun k hk => by simp [Ne.symm hk]) (by simpa [Stage.Asked] using ih j _ hj)
  | @wake j attempt hj => exact key hj rfl (fun _ _ => rfl) (by simpa [Stage.Asked] using ih j _ hj)

/-- Whatever the order of steps, a task goes on only after answers that ask for it, and while there are sends left. -/
theorem Path.asked (h : Path p (start permits n) moves s) :
    ∀ (i : Nat) (stage : Stage), s.stages[i]? = some stage → stage.Asked p (answersOf i moves) := by
  induction h with
  | refl =>
    intro i stage hi
    obtain ⟨-, rfl⟩ : i < n ∧ .waiting = stage := by simpa [start, List.getElem?_replicate] using hi
    exact p.asksAgain_nil
  | snoc path step ih => exact step.asked path.recorded ih

/-- When all tasks have ended, each of them has gone on after all its answers but the last one. -/
theorem Path.asksAgain (h : Path p (start permits n) moves s) (ho : s.IsOver) (hi : i < n) :
    p.AsksAgain (answersOf i moves).dropLast := by
  have hlt : i < s.stages.length := h.recorded.length.symm ▸ hi
  exact (h.asked i _ (List.getElem?_eq_getElem hlt)).of_isOver (ho _ (List.getElem_mem hlt))

/-- No task begins more sends than its policy allows. -/
theorem Path.sendsBegun_le (h : Path p (start permits n) moves s) (hi : i < n) : sendsBegun i moves s ≤ p.limit := by
  have hlt : i < s.stages.length := h.recorded.length.symm ▸ hi
  have hstage : s.stages[i]? = some s.stages[i] := List.getElem?_eq_getElem hlt
  have hasked := h.asked i _ hstage
  rw [sendsBegun, hstage, Option.any_some]
  cases hs : s.stages[i] with
  | finished | panicked =>
    rw [hs] at hasked
    have := RetryPolicy.AsksAgain.length_lt hasked
    rw [List.length_dropLast] at this
    simp only [Stage.isSending, Bool.false_eq_true, if_false]
    omega
  | sending =>
    rw [hs] at hasked
    exact RetryPolicy.AsksAgain.length_lt hasked
  | waiting | sleeping =>
    rw [hs] at hasked
    exact (RetryPolicy.AsksAgain.length_lt hasked).le

/-- The number of a send that is under way, or comes after a sleep, is within the limit. -/
theorem Path.attempt_le (h : Path p (start permits n) moves s) {attempt : Nat}
    (hi : s.stages[i]? = some (.sending attempt) ∨ s.stages[i]? = some (.sleeping attempt)) : attempt ≤ p.limit := by
  have hr := h.recorded
  rcases hi with hi | hi
  all_goals
    have hlen : (answersOf i moves).length + 1 = attempt := (hr.fits i _ hi).1
    have := RetryPolicy.AsksAgain.length_lt (h.asked i _ hi)
    omega

end Tasks

/-! ### All deliveries -/

namespace Dispatcher

/-- Whatever the limit is, also 0 and the largest number of 32 bits, and whatever the results of its sends are, a
delivery ends with the first result after which the same message may not be sent again, or with the last send that is
allowed. Its attempts are the sends that it has made, in every order of steps and in the scheduled run, and the last
result decides its outcome. The counter of sends stays within 32 bits. -/
theorem attempts_counted (maxAttempts : UInt32) (base longest : Duration) :
    let p : RetryPolicy := ⟨maxAttempts.toNat, base, longest⟩
    (∀ results : Nat → Except PushError String, ∃ outcome n,
      deliver p (fun k => .ofResult (results k)) = some (outcome, n) ∧
        IsLeast {k | 1 ≤ k ∧
          ((∀ error, results k = .error error → error.retryable = false) ∨ k = max 1 maxAttempts.toNat)} n ∧
        p.ComesTo ((List.range n).map fun k => .ofResult (results (k + 1))) outcome n ∧
        ∀ reason, outcome = .failed reason true → n = max 1 maxAttempts.toNat) ∧
    (∀ permits n moves s, Path p (Tasks.start permits n) moves s → ∀ (i : Nat),
      (∀ outcome attempts, s.stages[i]? = some (.finished outcome attempts) →
        p.ComesTo (answersOf i moves) outcome attempts) ∧
      ∀ attempt, s.stages[i]? = some (.sending attempt) ∨ s.stages[i]? = some (.sleeping attempt) →
        attempt ≤ max 1 maxAttempts.toNat ∧ attempt < UInt32.size) ∧
    ∀ (σ : Type) (t : Transport σ) (service : σ) (clock concurrency : Nat) (devices : List Device) (message : Message),
      (⟨concurrency, p⟩ : Dispatcher).permits ≤ maxPermits →
        ∃ x, (⟨concurrency, p⟩ : Dispatcher).dispatch t service clock devices message = some x ∧
          ∀ i < devices.length, ∃ r, x.summary.reports[i]? = some r ∧
            (.aborted ∉ answersAt i (t.performed service x.trace) →
              p.ComesTo (answersAt i (t.performed service x.trace)) r.outcome r.attempts) := by
  intro p
  have hl : p.limit = max 1 maxAttempts.toNat := Nat.max_comm ..
  refine ⟨fun results => ?_, fun permits n moves s h i => ⟨fun outcome attempts hi => ?_, fun attempt hi => ?_⟩,
    fun σ t service clock concurrency devices message hp => ?_⟩
  · obtain ⟨n, hn⟩ := exists_isLeast_endsAt p fun k => .ofResult (results k)
    obtain ⟨outcome, ho⟩ := Option.ne_none_iff_exists'.1
      (mt Answer.outcome?_eq_none_iff.1 (Answer.ofResult_ne_aborted (results n)))
    have hcomes := RetryPolicy.comesTo_of_isLeast hn ho
    refine ⟨outcome, n, by rw [deliver_eq hn, ho, Option.map_some], ?_, hcomes, ?_⟩
    · exact p.isLeast_of_endsAt hn fun k => Answer.mayRetry_ofResult (results k)
    · rintro reason rfl
      exact hcomes.attempts_of_retryable
  · have hfits := h.recorded.fits i _ hi
    exact (hfits.tells rfl ⟨"", .web⟩).comesTo hfits.2.1
  · have hle : attempt ≤ max 1 maxAttempts.toNat := hl ▸ h.attempt_le hi
    have hsize := maxAttempts.toNat_lt_size
    exact ⟨hle, by simp only [UInt32.size] at hsize ⊢; omega⟩
  · obtain ⟨x, hx, hcomplete, -⟩ :=
      (⟨concurrency, p⟩ : Dispatcher).exists_complete hp t service clock devices message
    refine ⟨x, hx, fun i hi => ?_⟩
    obtain ⟨r, hr, htells⟩ := hcomplete.2 i _ (List.getElem?_eq_getElem hi)
    exact ⟨r, hr, htells.comesTo⟩

/-- Under the largest limit the first reply comes too late and the second one accepts the message, in the scheduled run
as in steps that are taken by hand. -/
theorem attempts_counted_largest_limit :
    let p : RetryPolicy := ⟨(4294967295 : UInt32).toNat, .zero, .zero⟩
    let late : Answer := .refused (.http (.timedOut ""))
    let t : Transport Nat := ⟨fun k _ => (⟨1, if k = 0 then late else .accepted "id", []⟩, k + 1)⟩
    let s : Tasks := ⟨1, [], [.finished (.delivered "id") 2], [(0, some (.delivered "id", 2))]⟩
    Path p (Tasks.start 1 1) [.acquire 0, .reply 0 late, .wake 0, .reply 0 (.accepted "id")] s ∧
      p.ComesTo [late, .accepted "id"] (.delivered "id") 2 ∧
      (⟨0, p⟩ : Dispatcher).permits ≤ maxPermits ∧
      ∃ x, (⟨0, p⟩ : Dispatcher).dispatch t 0 0 [⟨"a", .web⟩] (.ofText "" "") = some x ∧
        .aborted ∉ answersAt 0 (t.performed 0 x.trace) ∧
        ∃ r, x.summary.reports[0]? = some r ∧
          p.ComesTo (answersAt 0 (t.performed 0 x.trace)) r.outcome r.attempts ∧ r.attempts = 2 := by
  intro p late t s
  obtain ⟨-, hsteps, hrun⟩ := attempts_counted 4294967295 .zero .zero
  have hretry : p.judge 1 late = .retry _ _ := RetryPolicy.judge_eq_retry_iff.2 ⟨rfl, rfl, by decide, rfl⟩
  have hpath : Path p (Tasks.start 1 1) [.acquire 0, .reply 0 late, .wake 0, .reply 0 (.accepted "id")] s :=
    (((Path.single (.acquire (i := 0) rfl (by decide))).snoc (.retry (i := 0) rfl hretry)).snoc
      (.wake (i := 0) rfl)).snoc (.finish (i := 0) rfl rfl)
  have hp : (⟨0, p⟩ : Dispatcher).permits ≤ maxPermits := by decide
  obtain ⟨x, hx, h⟩ := hrun Nat t 0 0 0 [⟨"a", .web⟩] (.ofText "" "") hp
  obtain ⟨r, hr, hcomes⟩ := h 0 (by decide)
  have hended : ((⟨0, p⟩ : Dispatcher).dispatch t 0 0 [⟨"a", .web⟩] (.ofText "" "")).map (fun x =>
      (answersAt 0 (t.performed 0 x.trace), x.summary.reports.map Report.attempts)) =
      some ([late, .accepted "id"], [2]) := by
    decide +kernel
  rw [hx, Option.map_some, Option.some.injEq, Prod.mk.injEq] at hended
  have hwhole : .aborted ∉ answersAt 0 (t.performed 0 x.trace) := by
    rw [hended.1]
    decide
  have hattempts : (x.summary.reports.map Report.attempts)[0]? = some r.attempts := by rw [List.getElem?_map, hr]; rfl
  rw [hended.2] at hattempts
  exact ⟨hpath, (hsteps 1 1 _ _ hpath 0).1 _ _ rfl, hp, x, hx, hwhole, r, hr, hcomes hwhole,
    (Option.some.inj hattempts).symm⟩

end Dispatcher

end PushDispatch
