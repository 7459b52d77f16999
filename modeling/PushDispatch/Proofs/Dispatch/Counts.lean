import Mathlib.Data.List.Basic
import PushDispatch.Dispatch.Report

/-! The counts of a summary. Each report is delivered, stale or a hard failure, and only one of the three. -/

namespace PushDispatch

/-- The push neither went through nor failed for a device that is no longer known. -/
def Report.isHard (r : Report) : Bool := !r.isDelivered && !r.isStale

namespace Summary

/-- Each report is counted once. -/
theorem counts_add (s : Summary) :
    s.delivered + s.staleTokens.length + s.reports.countP Report.isHard = s.reports.length := by
  obtain ⟨reports⟩ := s
  simp only [delivered, staleTokens, List.length_map, ← List.countP_eq_length_filter]
  induction reports with
  | nil => rfl
  | cons r reports ih =>
    have hone : (if r.isDelivered = true then 1 else 0) + (if r.isStale = true then 1 else 0) +
        (if r.isHard = true then 1 else 0) = 1 := by
      obtain ⟨device, outcome, attempts⟩ := r
      cases outcome <;> rfl
    simp only [List.countP_cons, List.length_cons]
    omega

/-- A stale token belongs to a report that counts as failed. -/
theorem length_staleTokens_le_failed (s : Summary) : s.staleTokens.length ≤ s.failed := by
  have := s.counts_add
  unfold failed
  omega

theorem hardFailures_eq (s : Summary) : s.hardFailures = s.reports.countP Report.isHard := by
  have := s.counts_add
  unfold hardFailures failed
  omega

theorem hardFailures_eq_zero_iff (s : Summary) :
    s.hardFailures = 0 ↔ ∀ r ∈ s.reports, (∃ messageId, r.outcome = .delivered messageId) ∨ r.outcome = .unregistered := by
  rw [hardFailures_eq, List.countP_eq_zero]
  refine forall₂_congr fun r _ => ?_
  unfold Report.isHard Report.isDelivered Report.isStale
  cases r.outcome <;> simp

end Summary

/-! ### The tally of a list of reports -/

/-- The push failed, for another reason than that the device is no longer known. -/
def Outcome.IsFailure (o : Outcome) : Prop := ∃ reason retryable, o = .failed reason retryable

instance : DecidablePred Outcome.IsFailure
  | .delivered _ => isFalse fun ⟨_, _, h⟩ => by cases h
  | .unregistered => isFalse fun ⟨_, _, h⟩ => by cases h
  | .failed reason retryable => isTrue ⟨reason, retryable, rfl⟩

/-- What reports come to, one after the other: how many are delivered, which tokens are stale, and how many pushes
failed for another reason. -/
inductive Tallies : List Report → Nat → List String → Nat → Prop
  | nil : Tallies [] 0 [] 0
  | delivered {reports done stale lost} (device : Device) (messageId : String) (attempts : Nat)
      (rest : Tallies reports done stale lost) :
      Tallies (⟨device, .delivered messageId, attempts⟩ :: reports) (done + 1) stale lost
  | unregistered {reports done stale lost} (device : Device) (attempts : Nat) (rest : Tallies reports done stale lost) :
      Tallies (⟨device, .unregistered, attempts⟩ :: reports) done (device.token :: stale) lost
  | failed {reports done stale lost} (device : Device) (reason : String) (retryable : Bool) (attempts : Nat)
      (rest : Tallies reports done stale lost) :
      Tallies (⟨device, .failed reason retryable, attempts⟩ :: reports) done stale (lost + 1)

namespace Tallies

variable {reports reports' : List Report} {done done' : Nat} {stale stale' : List String} {lost lost' : Nat}

/-- Reports have one tally. -/
theorem unique (h : Tallies reports done stale lost) (h' : Tallies reports done' stale' lost') :
    done = done' ∧ stale = stale' ∧ lost = lost' := by
  induction h generalizing done' stale' lost' with
  | nil =>
    cases h'
    exact ⟨rfl, rfl, rfl⟩
  | delivered _ _ _ _ ih =>
    cases h' with
    | delivered _ _ _ rest =>
      obtain ⟨rfl, rfl, rfl⟩ := ih rest
      exact ⟨rfl, rfl, rfl⟩
  | unregistered _ _ _ ih =>
    cases h' with
    | unregistered _ _ rest =>
      obtain ⟨rfl, rfl, rfl⟩ := ih rest
      exact ⟨rfl, rfl, rfl⟩
  | failed _ _ _ _ _ ih =>
    cases h' with
    | failed _ _ _ _ rest =>
      obtain ⟨rfl, rfl, rfl⟩ := ih rest
      exact ⟨rfl, rfl, rfl⟩

/-- Of two lists of reports the counts add up, and the stale tokens follow each other. -/
theorem append (h : Tallies reports done stale lost) (h' : Tallies reports' done' stale' lost') :
    Tallies (reports ++ reports') (done + done') (stale ++ stale') (lost + lost') := by
  induction h with
  | nil => simpa using h'
  | delivered device messageId attempts _ ih =>
    rw [Nat.add_right_comm]
    exact .delivered device messageId attempts ih
  | unregistered device attempts _ ih => exact .unregistered device attempts ih
  | failed device reason retryable attempts _ ih =>
    rw [Nat.add_right_comm]
    exact .failed device reason retryable attempts ih

theorem length_eq (h : Tallies reports done stale lost) : done + stale.length + lost = reports.length := by
  induction h with
  | nil => rfl
  | _ => simp only [List.length_cons]; omega

theorem sublist (h : Tallies reports done stale lost) : stale.Sublist (reports.map fun r => r.device.token) := by
  induction h with
  | nil => exact .slnil
  | unregistered _ _ _ ih => exact ih.cons_cons _
  | _ => exact .cons _ ‹_›

/-- A token is stale as often as it is reported. -/
theorem count_eq (h : Tallies reports done stale lost) (token : String) :
    stale.count token = reports.countP fun r => r.outcome = .unregistered ∧ r.device.token = token := by
  induction h with
  | nil => rfl
  | unregistered device _ _ ih => rw [List.count_cons, List.countP_cons, ih]; simp
  | _ => rwa [List.countP_cons_of_neg (by simp)]

theorem countP_isFailure_eq (h : Tallies reports done stale lost) :
    (reports.countP fun r => r.outcome.IsFailure) = lost := by
  induction h with
  | nil => rfl
  | failed _ _ _ _ _ ih => rw [List.countP_cons_of_pos (by simp [Outcome.IsFailure]), ih]
  | _ => rwa [List.countP_cons_of_neg (by simp [Outcome.IsFailure])]

end Tallies

namespace Summary

/-- The counts of a summary are the tally of its reports. -/
theorem tallies (s : Summary) : Tallies s.reports s.delivered s.staleTokens s.hardFailures := by
  rw [hardFailures_eq]
  obtain ⟨reports⟩ := s
  simp only [delivered, staleTokens]
  induction reports with
  | nil => exact .nil
  | cons r reports ih =>
    obtain ⟨device, outcome, attempts⟩ := r
    rw [List.countP_cons, List.countP_cons]
    cases outcome with
    | delivered messageId => exact .delivered device messageId attempts ih
    | unregistered => exact .unregistered device attempts ih
    | failed reason retryable => exact .failed device reason retryable attempts ih

theorem failed_eq (s : Summary) : s.failed = s.staleTokens.length + s.hardFailures := by
  have := s.tallies.length_eq
  unfold failed
  omega

/-- Each report is counted once: as delivered, by its stale token, or as a failure for another reason, of which there are
as many as there are failed reports beyond the stale tokens. Of two lists of reports the counts add up and the stale
tokens follow each other. -/
theorem counts_exact (s : Summary) :
    Tallies s.reports s.delivered s.staleTokens s.hardFailures ∧
    s.delivered + s.failed = s.reports.length ∧
    s.staleTokens.Sublist (s.reports.map fun r => r.device.token) ∧
    (∀ token, s.staleTokens.count token =
      s.reports.countP fun r => r.outcome = .unregistered ∧ r.device.token = token) ∧
    s.staleTokens.length ≤ s.failed ∧
    s.failed - s.staleTokens.length = (s.reports.countP fun r => r.outcome.IsFailure) ∧
    ∀ t : Summary, let both : Summary := ⟨s.reports ++ t.reports⟩
      both.delivered = s.delivered + t.delivered ∧ both.failed = s.failed + t.failed ∧
        both.staleTokens = s.staleTokens ++ t.staleTokens ∧ both.hardFailures = s.hardFailures + t.hardFailures := by
  have htally := s.tallies
  have hfailed := s.failed_eq
  refine ⟨htally, ?_, htally.sublist, htally.count_eq, s.length_staleTokens_le_failed, ?_, fun t => ?_⟩
  · have := htally.length_eq
    omega
  · rw [htally.countP_isFailure_eq]
    omega
  · intro both
    obtain ⟨hdelivered, hstale, hlost⟩ := both.tallies.unique (htally.append t.tallies)
    refine ⟨hdelivered, ?_, hstale, hlost⟩
    rw [both.failed_eq, t.failed_eq, hstale, hlost, List.length_append, hfailed]
    omega

end Summary

end PushDispatch
