import PushDispatch.Proofs.Dispatch.Attempts
import PushDispatch.Proofs.Dispatch.Concurrency
import PushDispatch.Proofs.Dispatch.Timing
import PushDispatch.Proofs.Program.Run

/-! What settings that are fit for use promise of a dispatch. Their bounds are bounds on the sends that are under way
and on the sends to one device, and they keep the waits within what is written in the settings: neither the bound on
the doublings of a wait nor the longest length of time ever shows. -/

namespace PushDispatch

open Dispatcher (jobs)
open Tasks (Path)

theorem length_answersAt (i : Nat) (sends : List Performed) :
    (answersAt i sends).length = (sendsAt i sends).length := by
  rw [answersAt, sendsAt, List.length_map]

namespace Settings

/-- The wait after a send that the settings ask for, in nanoseconds: it doubles with each send up to the longest one. -/
def backoff (s : Settings) (attempt : Nat) : Nat := min (s.baseMillis * 2 ^ (attempt - 1)) s.longestMillis * 1000000

/-- What the settings promise of every dispatch. -/
structure Limits (s : Settings) : Prop where
  /-- In every order of steps, few sends are under way at a time, and few are made to one device. -/
  steps : ∀ n moves t, Path s.retryPolicy (Tasks.start (Program.dispatcher s).permits n) moves t →
    t.stages.countP Stage.isSending ≤ 500 ∧ ∀ i < n, Tasks.sendsBegun i moves t ≤ 10
  /-- So it is in the scheduled run, where each wait between two sends is as long as the settings ask for, unless the
  answer asks for a longer one. -/
  run : ∀ (σ : Type) (t : Transport σ) (service : σ) (clock : Nat) (devices : List Device) (message : Message),
    (∀ r, Run.Passes s.retryPolicy t
        (Run.start (Program.dispatcher s).permits clock service (jobs devices message)) r → r.active.length ≤ 500) ∧
      ∃ x, (Program.dispatcher s).dispatch t service clock devices message = some x ∧
        ∀ i < devices.length, (sendsAt i (t.performed service x.trace)).length ≤ 10 ∧
          ∀ k y z, (sendsAt i (t.performed service x.trace))[k]? = some y →
            (sendsAt i (t.performed service x.trace))[k + 1]? = some z → ∃ error, y.sent.answer = .refused error ∧
              z.time = y.time + y.sent.latency + max (s.backoff (k + 1)) (error.retryAfter.elim 0 Duration.nanos)
  /-- No wait comes to the bound on doublings, nor to the longest length of time. -/
  waits : ∀ attempt, 1 ≤ attempt → attempt ≤ 10 →
    (s.retryPolicy.delayAfter attempt).nanos = s.backoff attempt ∧ attempt - 1 < 16 ∧
      s.baseMillis * 1000000 * 2 ^ (attempt - 1) < Duration.maxNanos

section

variable {s : Settings}

/-- Both bounds stay out of sight as long as a wait doubles less than ten times. -/
theorem WaitsFit.nanos_delayAfter (h : s.WaitsFit) {attempt : Nat} (ha : attempt ≤ 10) :
    s.baseMillis * 1000000 * 2 ^ (attempt - 1) < Duration.maxNanos ∧
      (s.retryPolicy.delayAfter attempt).nanos = s.backoff attempt := by
  have hpow : 2 ^ (attempt - 1) ≤ 2 ^ 9 := Nat.pow_le_pow_right (by decide) (by omega)
  have hlt : s.baseMillis * 1000000 * 2 ^ (attempt - 1) < Duration.maxNanos := by
    have hmax : 2 ^ 64 * 1000000 * 2 ^ 9 ≤ Duration.maxNanos := by decide
    have hbase := h.base
    calc s.baseMillis * 1000000 * 2 ^ (attempt - 1) ≤ s.baseMillis * 1000000 * 2 ^ 9 := Nat.mul_le_mul_left _ hpow
      _ < 2 ^ 64 * 1000000 * 2 ^ 9 := by omega
      _ ≤ Duration.maxNanos := hmax
  refine ⟨hlt, ?_⟩
  -- with ten sends the wait doubles nine times at most, less often than the policy allows
  have hdoublings : min (max attempt 1 - 1) 16 = attempt - 1 := by omega
  rw [RetryPolicy.delayAfter, hdoublings, Duration.nanos_shorter, Duration.nanos_scale, h.nanos_baseDelay,
    h.nanos_maxDelay, Nat.pow_eq, Nat.min_eq_left hlt.le, backoff, Nat.mul_right_comm, Nat.mul_min_mul_right]

theorem limit_le (hm : Requirement.attempts.Met s) : s.retryPolicy.limit ≤ 10 :=
  max_le (s.maxAttempts_retryPolicy ▸ hm.2) (by decide)

theorem permits_le (hm : Requirement.concurrency.Met s) : (Program.dispatcher s).permits ≤ 500 :=
  max_le (concurrency_le hm) (by decide)

/-- Settings that meet their requirements bound every dispatch. -/
theorem limits_of_met (h : s.WaitsFit) (hm : ∀ r : Requirement, r.Met s) : s.Limits where
  steps n moves t ht :=
    ⟨ht.balanced.countP_isSending_le.trans (permits_le (hm .concurrency)),
      fun i hi => (ht.sendsBegun_le hi).trans (limit_le (hm .attempts))⟩
  run σ t service clock devices message := by
    have hpermits := permits_le (hm .concurrency)
    refine ⟨fun r hr => ?_, ?_⟩
    · obtain ⟨moves, u, hu⟩ := hr.exists_traced (Dispatcher.map_index_jobs devices message)
      have hlen := hu.holders_perm.length_eq
      have htotal := hu.path.balanced.total
      rw [List.length_map] at hlen
      omega
    · have hp : (Program.dispatcher s).permits ≤ maxPermits := hpermits.trans (by decide)
      obtain ⟨x, spans, hx, hkeeps⟩ := (Program.dispatcher s).exists_keeps hp t service clock devices message
      obtain ⟨x', moves, u, hx', hreal⟩ := (Program.dispatcher s).exists_realizes hp t service clock devices message
      obtain rfl : x = x' := Option.some.inj (hx.symm.trans hx')
      obtain ⟨start, stop, hspan⟩ := hkeeps.exists_times
      refine ⟨x, hx, fun i hi => ?_⟩
      have hten : (sendsAt i (t.performed service x.trace)).length ≤ 10 := by
        have hbegun : Tasks.sendsBegun i moves u ≤ s.retryPolicy.limit := hreal.path.sendsBegun_le hi
        have hlimit := limit_le (hm .attempts)
        rw [Tasks.sendsBegun, ← hreal.answers, length_answersAt] at hbegun
        omega
      refine ⟨hten, fun k y z hy hz => ?_⟩
      obtain ⟨waits, hcourse⟩ := hkeeps.course i _ _ (hspan i hi).1 (hspan i hi).2
      obtain ⟨error, wait, he, -, rfl, htime⟩ := hcourse.next k y z hy hz
      have hk : k + 1 < (sendsAt i (t.performed service x.trace)).length := (List.getElem?_eq_some_iff.1 hz).1
      have hdelay : ((Program.dispatcher s).retry.delayAfter (k + 1)).nanos = s.backoff (k + 1) :=
        (h.nanos_delayAfter (by omega)).2
      exact ⟨error, he, by rw [htime, hdelay]⟩
  waits attempt h1 h10 := ⟨(h.nanos_delayAfter h10).2, by omega, (h.nanos_delayAfter h10).1⟩

end

end Settings

namespace Program

/-- Settings are fit for use exactly if they meet all requirements, and otherwise the error is that of the first one
that is not met. A dispatch with settings that are fit for use has 500 sends under way at most, makes 10 sends in a
delivery at most, and waits between two of them for as long as the settings say, or longer if the service asks so. -/
theorem settings_validated {s : Settings} (h : s.WaitsFit) :
    (s.validate = .ok () ↔ ∀ r : Settings.Requirement, r.Met s) ∧
      (∀ e, s.validate = .error e ↔ ∃ before r after, Settings.Requirement.all = before ++ r :: after ∧
        (∀ q ∈ before, q.Met s) ∧ r.Fails s e) ∧
      (∀ r : Settings.Requirement, (∃ e, r.Fails s e) ↔ ¬ r.Met s) ∧
      (s.validate = .ok () → s.Limits) :=
  ⟨Settings.validate_eq_ok_iff h, fun _ => Settings.validate_eq_error_iff h,
    fun r => (Settings.Requirement.tests s h r).exists_fails_iff,
    fun hok => Settings.limits_of_met h ((Settings.validate_eq_ok_iff h).1 hok)⟩

/-- Only the first wait is given. With three seconds it is within the standard of the longest one, which the second wait
comes to; with six it is not. -/
theorem settings_validated_longest_wait_left_out :
    let text := "[fcm]\nproject_id = \"p\"\naccess_token = \"t\"\n[dispatch]\n" ++
      "concurrent_requests = 500\nmax_attempts = 10\nbase_delay_ms = 3000\n"
    let s (base : Nat) : Settings := ⟨⟨"p", none, some "t", none⟩, some ⟨some 500, some 10, some base, none⟩, none⟩
    Settings.read (.ofList []) text = .ok (s 3000) ∧ (s 3000).WaitsFit ∧
      (∀ r : Settings.Requirement, r.Met (s 3000)) ∧ (s 3000).Limits ∧ (s 3000).backoff 2 = 5000000000 ∧
      (s 6000).WaitsFit ∧ ¬ Settings.Requirement.delays.Met (s 6000) ∧
      (s 6000).validate = .error (.invalidSetting "dispatch.base_delay_ms" "6000"
        "Base delay cannot exceed dispatch.max_delay_ms") := by
  intro text s
  have hread : Settings.read (.ofList []) text = .ok (s 3000) := by decide +kernel
  have hfit : (s 3000).WaitsFit := Settings.waitsFit_of_read hread
  have hvalid : (s 3000).validate = .ok () := by decide +kernel
  obtain ⟨hok, -, -, hlimits⟩ := settings_validated hfit
  have hfit' : (s 6000).WaitsFit := ⟨show 6000 < 2 ^ 64 by decide, show 5000 < 2 ^ 64 by decide⟩
  obtain ⟨-, herror, hfails, -⟩ := settings_validated hfit'
  have hdelays : Settings.Requirement.delays.Fails (s 6000) (.invalidSetting "dispatch.base_delay_ms"
      (Text.Decimal.text 6000) "Base delay cannot exceed dispatch.max_delay_ms") :=
    .delays (show 5000 < 6000 by decide)
  have hbefore : ∀ q ∈ [Settings.Requirement.projectId, .endpoint, .accessToken, .timeout, .concurrency, .attempts],
      q.Met (s 6000) := by
    -- up to the waits the two are alike
    intro q hq
    have hq' := hok.1 hvalid q
    cases q with
    | delays => simp at hq
    | _ => exact hq'
  refine ⟨hread, hfit, hok.1 hvalid, hlimits hvalid, by decide, hfit', (hfails _).1 ⟨_, hdelays⟩, ?_⟩
  have htext : Text.Decimal.text 6000 = "6000" := by decide +kernel
  rw [← htext]
  exact (herror _).2 ⟨_, _, [], rfl, hbefore, hdelays⟩

end Program

end PushDispatch
