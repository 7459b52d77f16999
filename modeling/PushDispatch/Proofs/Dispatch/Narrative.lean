import PushDispatch.Proofs.Dispatch.Attempts
import PushDispatch.Proofs.Dispatch.Counts
import PushDispatch.Proofs.Dispatch.Pace
import PushDispatch.Proofs.Duration.Text

/-! What is logged about one delivery: a record for each of its answers, when the answer comes in. After each answer but
the last one a warning says which send of how many has failed, with what error, and how long the delivery waits before it
tries again; after the last one the record says what the report says. So of the records that only ever close a delivery
there is one for each report. -/

namespace PushDispatch

/-! ### What the log shows -/

namespace Log

/-- What the log shows of an event. -/
structure Record where
  level : Level
  text : String
deriving DecidableEq

def Event.record (event : Event) : Record := ⟨event.level, event.message⟩

namespace Event

open Text.Decimal (text_eq_toString)

theorem record_dispatching (title : String) (devices limit : Nat) :
    (dispatching title devices limit).record = ⟨.info, "📨 Dispatching '" ++ title ++ "' to " ++ toString devices ++
      " device(s), " ++ toString limit ++ " in flight"⟩ := by
  simp only [← text_eq_toString]
  rfl

theorem record_retrying (attempt limit : Nat) (error : PushError) (wait : Duration) :
    (retrying attempt limit error wait).record = ⟨.warn, "⚠️ Attempt " ++ toString attempt ++ "/" ++ toString limit ++
      " failed: " ++ error.message ++ "; retrying in " ++ wait.text⟩ := by
  simp only [← text_eq_toString]
  rfl

theorem record_delivered (platform : Platform) (messageId : String) (attempts : Nat) :
    (delivered platform messageId attempts).record = ⟨.debug, platform.name ++ " device delivered as " ++ messageId ++
      " (" ++ toString attempts ++ " attempt(s))"⟩ := by
  simp only [← text_eq_toString]
  rfl

theorem record_failed (platform : Platform) (attempts : Nat) (reason : String) :
    (failed platform attempts reason).record = ⟨.error, "❌ " ++ platform.name ++ " device failed after " ++
      toString attempts ++ " attempt(s): " ++ reason⟩ := by
  simp only [← text_eq_toString]
  rfl

theorem record_dispatched (delivered failed stale : Nat) :
    (dispatched delivered failed stale).record = ⟨.info, "✅ Dispatch finished: " ++ toString delivered ++
      " delivered, " ++ toString failed ++ " failed, " ++ toString stale ++ " stale token(s)"⟩ := by
  simp only [← text_eq_toString]
  rfl

end Event

end Log

/-- The records of a trace, with their times. -/
def shown (trace : List (Nat × Happening)) : List (Nat × Log.Record) := (logged trace).map (Prod.map id Log.Event.record)

/-! ### The answers of a delivery -/

/-- The event that says what is made of an answer. -/
def RetryPolicy.eventAfter (p : RetryPolicy) (platform : Platform) (attempt : Nat) (answer : Answer) : Log.Event :=
  match p.judge attempt answer with
  | .finish outcome => outcome.event platform attempt
  | .retry error wait => .retrying attempt p.limit error wait
  | .abort => .aborted

/-- The events after the answers to the sends of a delivery, with their times. -/
def narrative (p : RetryPolicy) (platform : Platform) (sends : List Performed) : List (Nat × Log.Event) :=
  sends.mapIdx fun k x => (x.time + x.sent.latency, p.eventAfter platform (k + 1) x.sent.answer)

/-- The answer to the last of some sends closes a delivery, with a report and a record that say the same. -/
inductive Concludes (device : Device) (sends : Nat) : Answer → Report → Log.Record → Prop where
  | delivered (messageId : String) : Concludes device sends (.accepted messageId) ⟨device, .delivered messageId, sends⟩
      ⟨.debug, device.platform.name ++ " device delivered as " ++ messageId ++ " (" ++ toString sends ++ " attempt(s))"⟩
  | unregistered : Concludes device sends (.refused .unregisteredDevice) ⟨device, .unregistered, sends⟩
      ⟨.warn, "🗑️ " ++ device.platform.name ++ " device token is unregistered"⟩
  | failed {error : PushError} (h : error ≠ .unregisteredDevice) :
    Concludes device sends (.refused error) ⟨device, .failed error.message error.retryable, sends⟩
      ⟨.error, "❌ " ++ device.platform.name ++ " device failed after " ++ toString sends ++ " attempt(s): " ++
        error.message⟩
  | aborted : Concludes device sends .aborted ⟨device, .failed "delivery task aborted" true, 0⟩
      ⟨.error, "❌ Delivery task aborted"⟩

/-- Records tell of a delivery what its report says: one record when the answer to each send comes in, a warning with the
error and the wait after all but the last one, and after that one the outcome, or that the delivery has broken off. -/
structure Narrates (p : RetryPolicy) (device : Device) (r : Report) (sends : List Performed)
    (records : List (Nat × Log.Record)) : Prop where
  length : records.length = sends.length
  retries : ∀ k x, k + 1 < sends.length → sends[k]? = some x → ∃ error wait, x.sent.answer = .refused error ∧
    Duration.Shows (max (p.delayAfter (k + 1)).nanos (error.retryAfter.elim 0 Duration.nanos)) wait ∧
      records[k]? = some (x.time + x.sent.latency, ⟨.warn, "⚠️ Attempt " ++ toString (k + 1) ++ "/" ++
        toString (max 1 p.maxAttempts) ++ " failed: " ++ error.message ++ "; retrying in " ++ wait⟩)
  closing : ∃ x record, sends.getLast? = some x ∧ records.getLast? = some (x.time + x.sent.latency, record) ∧
    Concludes device sends.length x.sent.answer r record

variable {p : RetryPolicy} {device : Device} {platform : Platform} {r : Report} {sends : List Performed}
  {heard : List Answer} {records : List (Nat × Log.Record)}

theorem narrative_append_singleton (p : RetryPolicy) (platform : Platform) (sends : List Performed) (x : Performed) :
    narrative p platform (sends ++ [x]) =
      narrative p platform sends ++
        [(x.time + x.sent.latency, p.eventAfter platform (sends.length + 1) x.sent.answer)] := by
  simp [narrative, List.mapIdx_append]

theorem getElem?_narrative (p : RetryPolicy) (platform : Platform) (sends : List Performed) (k : Nat) :
    (narrative p platform sends)[k]? =
      sends[k]?.map fun x => (x.time + x.sent.latency, p.eventAfter platform (k + 1) x.sent.answer) :=
  List.getElem?_mapIdx

theorem RetryPolicy.eventAfter_of_retry {attempt : Nat} {error : PushError} (hr : error.retryable = true)
    (hlt : attempt < p.limit) :
    p.eventAfter platform attempt (.refused error) =
      .retrying attempt (max 1 p.maxAttempts) error (p.waitAfter attempt error) := by
  rw [eventAfter, judge_eq_retry_iff.2 ⟨rfl, hr, hlt, rfl⟩, Nat.max_comm]
  rfl

theorem RetryPolicy.eventAfter_of_finish {attempt : Nat} {answer : Answer} {outcome : Outcome}
    (ho : answer.outcome? = some outcome) (hstop : answer.mayRetry = true → p.limit ≤ attempt) :
    p.eventAfter platform attempt answer = outcome.event platform attempt := by
  rw [eventAfter, judge_eq_finish_iff.2 ⟨ho, hstop⟩]

theorem RetryPolicy.eventAfter_of_abort (attempt : Nat) : p.eventAfter platform attempt .aborted = .aborted := by
  rw [eventAfter, judge_eq_abort_iff.2 rfl]

/-- A delivery asks for another send after all answers but the last one, so none of them breaks it off. -/
theorem RetryPolicy.AsksAgain.notMem_aborted (h : p.AsksAgain heard) : .aborted ∉ heard := fun hm => by
  obtain ⟨k, hk⟩ := List.mem_iff_getElem?.1 hm
  exact absurd (h k _ hk).1 (by simp [Answer.mayRetry])

theorem Answer.Decides.concludes {answer : Answer} {outcome : Outcome} (h : answer.Decides outcome) (device : Device)
    (sends : Nat) : Concludes device sends answer ⟨device, outcome, sends⟩ (outcome.event device.platform sends).record := by
  cases h with
  | delivered messageId =>
    rw [Outcome.event, Log.Event.record_delivered]
    exact .delivered messageId
  | unregistered => exact .unregistered
  | failed h =>
    rw [Outcome.event, Log.Event.record_failed]
    exact .failed h

/-- The record after the last answer says what the report says. -/
theorem Tells.concludes {last : Answer} (h : Tells p device (heard ++ [last]) r) (hasked : p.AsksAgain heard) :
    Concludes device (heard.length + 1) last r (p.eventAfter device.platform (heard.length + 1) last).record := by
  have hown := h.own
  by_cases he : last = .aborted
  · subst he
    obtain ⟨houtcome, hattempts⟩ := h.aborted.2 (by simp)
    obtain ⟨_, _, _⟩ := r
    obtain rfl : _ = device := hown
    obtain rfl : _ = Outcome.failed _ _ := houtcome
    obtain rfl : _ = 0 := hattempts
    rw [RetryPolicy.eventAfter_of_abort]
    exact .aborted
  · have hn : .aborted ∉ heard ++ [last] := by
      simpa [Ne.symm he] using hasked.notMem_aborted
    have hattempts : r.attempts = heard.length + 1 := by simpa using h.attempts hn
    obtain ⟨_, hlast, ho⟩ := h.outcome_eq hn
    obtain ⟨_, hlast', -, hstop⟩ := (h.comesTo hn).last
    obtain rfl : last = _ := by simpa using hlast
    obtain rfl : last = _ := by simpa using hlast'
    have hlimit : last.mayRetry = true → p.limit ≤ heard.length + 1 := fun hr => by
      have := hstop hr
      rw [List.length_append, List.length_singleton] at this
      rw [RetryPolicy.limit, Nat.max_comm, this]
    rw [RetryPolicy.eventAfter_of_finish ho hlimit]
    have hr : r = ⟨device, r.outcome, heard.length + 1⟩ := by rw [← hown, ← hattempts]
    rw [hr]
    exact (Answer.decides_of_outcome? ho).concludes device _

/-- The report and the records of a delivery are drawn from the same answers. -/
theorem Tells.narrates (h : Tells p device (sends.map fun x => x.sent.answer) r)
    (hasked : p.AsksAgain (sends.map fun x => x.sent.answer).dropLast) :
    Narrates p device r sends ((narrative p device.platform sends).map (Prod.map id Log.Event.record)) := by
  cases sends using List.reverseRecOn with
  | nil =>
    obtain ⟨_, hlast, -⟩ := h.outcome_eq (by simp)
    cases hlast
  | append_singleton before x =>
    rw [List.map_append, List.map_singleton] at h hasked
    rw [List.dropLast_concat] at hasked
    refine ⟨by simp [narrative], fun k y hk hy => ?_, x,
      (p.eventAfter device.platform (before.length + 1) x.sent.answer).record, by simp,
      by simp [narrative_append_singleton], ?_⟩
    · rw [List.length_append, List.length_singleton, Nat.add_lt_add_iff_right] at hk
      have hanswer : (before.map fun x => x.sent.answer)[k]? = some y.sent.answer := by
        rw [List.getElem?_append_left hk] at hy
        rw [List.getElem?_map, hy, Option.map_some]
      obtain ⟨hagain, hlt⟩ := hasked k _ hanswer
      obtain ⟨error, he, hr⟩ := Answer.exists_of_mayRetry hagain
      have hwait := p.nanos_waitAfter (k + 1) error
      refine ⟨error, (p.waitAfter (k + 1) error).text, he, hwait ▸ Duration.shows_text _, ?_⟩
      rw [List.getElem?_map, getElem?_narrative, hy, Option.map_some, Option.map_some, he,
        RetryPolicy.eventAfter_of_retry hr hlt, Prod.map_apply, Log.Event.record_retrying]
      rfl
    · simpa using h.concludes hasked

/-! ### Counting records -/

theorem Platform.mem_all (platform : Platform) : platform ∈ all := by
  cases platform <;> decide

/-- Whether a record says that a device is no longer known. -/
def Log.Record.isUnregistered (record : Log.Record) : Bool :=
  Platform.all.any fun platform => record = ⟨.warn, "🗑️ " ++ platform.name ++ " device token is unregistered"⟩

/-- Records that only close a delivery, and exactly one whose report is of a certain kind. -/
structure Closes (pick : Log.Record → Bool) (kind : Report → Bool) : Prop where
  retrying : ∀ rest, pick ⟨.warn, "⚠️ Attempt " ++ rest⟩ = false
  concluding : ∀ {device sends answer r record}, Concludes device sends answer r record → pick record = kind r

theorem closes_debug : Closes (fun record => record.level = .debug) Report.isDelivered where
  retrying _ := rfl
  concluding h := by cases h <;> rfl

theorem closes_unregistered : Closes Log.Record.isUnregistered Report.isStale where
  retrying rest := by
    refine List.any_eq_false.2 fun platform _ => ?_
    rw [decide_eq_true_iff, Log.Record.mk.injEq]
    rintro ⟨-, htext⟩
    -- the texts differ in their first character
    have hhead := congrArg (fun text => text.toList.head?) htext
    simp at hhead
  concluding h := by
    cases h with
    | unregistered => exact List.any_eq_true.2 ⟨_, Platform.mem_all _, decide_eq_true rfl⟩
    | _ => rfl

theorem closes_error : Closes (fun record => record.level = .error) Report.isHard where
  retrying _ := rfl
  concluding h := by cases h <;> rfl

theorem Narrates.countP_eq (h : Narrates p device r sends records) {pick : Log.Record → Bool} {kind : Report → Bool}
    (hc : Closes pick kind) : (records.countP fun e => pick e.2) = if kind r then 1 else 0 := by
  obtain ⟨x, record, -, hlast, hconcludes⟩ := h.closing
  obtain ⟨before, rfl⟩ := List.getLast?_eq_some_iff.1 hlast
  have hbefore : (before.countP fun e => pick e.2) = 0 := by
    refine List.countP_eq_zero.2 fun e he => ?_
    obtain ⟨k, hk, rfl⟩ := List.getElem_of_mem he
    have hlen := h.length
    rw [List.length_append, List.length_singleton] at hlen
    obtain ⟨error, wait, -, -, hrecord⟩ := h.retries k sends[k] (by omega) (List.getElem?_eq_getElem (by omega))
    rw [List.getElem?_append_left hk, List.getElem?_eq_getElem hk] at hrecord
    simp only [Option.some.inj hrecord, String.append_assoc, hc.retrying, Bool.false_eq_true, not_false_eq_true]
  rw [List.countP_append, hbefore, List.countP_singleton, hc.concluding hconcludes, Nat.zero_add]

end PushDispatch
