import PushDispatch.Dispatch.Schedule

/-! What a transport did in a dispatch. The trace names each send, and a transport that begins in the same state
and gets the same requests in the same order answers them in the same way. -/

namespace PushDispatch

/-- A send that was made: when, in which delivery, of which request, and what it brought back. -/
structure Performed where
  time : Nat
  index : Nat
  request : Fcm.Request
  sent : Sent

/-- The answers that one delivery was given, in order. -/
def answersAt (index : Nat) (sends : List Performed) : List Answer :=
  (sends.filter fun x => x.index = index).map fun x => x.sent.answer

@[simp] theorem answersAt_nil (i : Nat) : answersAt i [] = [] := rfl

@[simp] theorem answersAt_append (i : Nat) (xs ys : List Performed) :
    answersAt i (xs ++ ys) = answersAt i xs ++ answersAt i ys := by
  simp [answersAt]

@[simp] theorem answersAt_singleton (i : Nat) (x : Performed) :
    answersAt i [x] = if x.index = i then [x.sent.answer] else [] := by
  by_cases h : x.index = i <;> simp [answersAt, h]

theorem answersAt_cons (i : Nat) (x : Performed) (xs : List Performed) :
    answersAt i (x :: xs) = if x.index = i then x.sent.answer :: answersAt i xs else answersAt i xs := by
  by_cases h : x.index = i <;> simp [answersAt, h]

namespace Transport

variable {σ : Type} (t : Transport σ)

/-- The state of a transport after a number of sends. -/
def after (service : σ) (requests : List Fcm.Request) : σ :=
  requests.foldl (fun state request => (t.send state request).2) service

/-- The sends of a trace in the order of time, of a transport that begins in the given state. -/
def performed (service : σ) : List (Nat × Happening) → List Performed
  | [] => []
  | (time, .sent index request) :: trace =>
    ⟨time, index, request, (t.send service request).1⟩ :: performed (t.send service request).2 trace
  | _ :: trace => performed service trace

@[simp] theorem performed_nil (service : σ) : t.performed service [] = [] := rfl

@[simp] theorem performed_sent (service : σ) (time index : Nat) (request : Fcm.Request)
    (trace : List (Nat × Happening)) :
    t.performed service ((time, .sent index request) :: trace) =
      ⟨time, index, request, (t.send service request).1⟩ :: t.performed (t.send service request).2 trace := rfl

@[simp] theorem performed_logged (service : σ) (time : Nat) (event : Log.Event) (trace : List (Nat × Happening)) :
    t.performed service ((time, .logged event) :: trace) = t.performed service trace := rfl

@[simp] theorem performed_started (service : σ) (time index : Nat) (trace : List (Nat × Happening)) :
    t.performed service ((time, .started index) :: trace) = t.performed service trace := rfl

@[simp] theorem performed_ended (service : σ) (time index : Nat) (trace : List (Nat × Happening)) :
    t.performed service ((time, .ended index) :: trace) = t.performed service trace := rfl

@[simp] theorem after_nil (service : σ) : t.after service [] = service := rfl

@[simp] theorem after_cons (service : σ) (request : Fcm.Request) (requests : List Fcm.Request) :
    t.after service (request :: requests) = t.after (t.send service request).2 requests := rfl

theorem after_append (service : σ) (xs ys : List Fcm.Request) :
    t.after service (xs ++ ys) = t.after (t.after service xs) ys := List.foldl_append

theorem performed_append (service : σ) (xs ys : List (Nat × Happening)) :
    t.performed service (xs ++ ys) = t.performed service xs ++
      t.performed (t.after service ((t.performed service xs).map Performed.request)) ys := by
  induction xs generalizing service with
  | nil => rfl
  | cons x xs ih =>
    obtain ⟨time, happening⟩ := x
    cases happening <;> simp [ih]

/-- Whatever has been sent, the transport has sent it. -/
theorem exists_send_of_mem_performed {service : σ} {trace : List (Nat × Happening)} {x : Performed}
    (h : x ∈ t.performed service trace) : ∃ earlier, x.sent = (t.send earlier x.request).1 := by
  induction trace generalizing service with
  | nil => cases h
  | cons y trace ih =>
    obtain ⟨time, happening⟩ := y
    cases happening with
    | sent index request =>
      rw [performed_sent] at h
      rcases List.mem_cons.1 h with rfl | h
      · exact ⟨service, rfl⟩
      · exact ih h
    | _ => exact ih h

end Transport

namespace Run

variable {σ : Type} (t : Transport σ) (service : σ)

/-- The sends that a dispatch has made so far. -/
def performed (r : Run σ) : List Performed := t.performed service r.trace.reverse

theorem performed_note (r : Run σ) (h : Happening) :
    (r.note h).performed t service = r.performed t service ++
      t.performed (t.after service ((r.performed t service).map Performed.request)) [(r.clock, h)] := by
  simp [performed, note, t.performed_append]

@[simp] theorem performed_log (r : Run σ) (event : Log.Event) :
    (r.log event).performed t service = r.performed t service := by
  simp [log, performed_note]

/-- The end of a delivery is no send. -/
theorem performed_note_ended {t : Transport σ} {service : σ} {r q : Run σ} (h : q.trace = r.trace) (i : Nat) :
    (q.note (.ended i)).performed t service = r.performed t service := by
  rw [performed_note, Transport.performed_ended, Transport.performed_nil, List.append_nil, performed, h, performed]

@[simp] theorem performed_resume (r : Run σ) (d : Delivery) :
    (r.resume d).performed t service = r.performed t service := rfl

@[simp] theorem performed_grant (r : Run σ) : r.grant.performed t service = r.performed t service := by
  unfold grant
  split
  · rfl
  · split
    · rw [performed_note, Transport.performed_started, Transport.performed_nil, List.append_nil]
      rfl
    · rfl

@[simp] theorem performed_foldl_log (events : List Log.Event) (r : Run σ) :
    (events.foldl log r).performed t service = r.performed t service := by
  induction events generalizing r with
  | nil => rfl
  | cons event events ih => simp [ih]

/-- Events around the trace of a run are no sends. -/
theorem performed_framed (r : Run σ) (first last : Nat) (e f : Log.Event) :
    t.performed service ((first, .logged e) :: r.trace.reverse ++ [(last, .logged f)]) = r.performed t service := by
  simp [t.performed_append, performed]

/-- Logging changes the trace alone. -/
theorem foldl_log (events : List Log.Event) (r : Run σ) :
    events.foldl log r =
      { r with trace := (events.map fun event => (r.clock, Happening.logged event)).reverse ++ r.trace } := by
  induction events generalizing r with
  | nil => rfl
  | cons event events ih => rw [List.foldl_cons, ih]; simp [log, note]

/-! ### One step -/

variable {t service} {p : RetryPolicy} {r : Run σ} {d : Delivery} {answer : Answer}

theorem step_of_ready (hd : d.phase = .ready) :
    r.step p t d = Run.resume { r with
      clock := d.due, service := (t.send r.service d.job.request).2
      trace := ((t.send r.service d.job.request).1.events.map fun event => (d.due, Happening.logged event)).reverse ++
        (d.due, .sent d.job.index d.job.request) :: r.trace }
      { d with
        phase := .awaiting (t.send r.service d.job.request).1.answer
        due := d.due + (t.send r.service d.job.request).1.latency } := by
  simp only [step, hd, foldl_log]
  rfl

theorem performed_step_of_ready (hd : d.phase = .ready)
    (hs : r.service = t.after service ((r.performed t service).map Performed.request)) :
    (r.step p t d).performed t service = r.performed t service ++
      [⟨d.due, d.job.index, d.job.request, (t.send r.service d.job.request).1⟩] := by
  simp only [step, hd, performed_resume, performed_foldl_log, performed_note]
  have hp : ({ r with clock := d.due, service := (t.send r.service d.job.request).2 } : Run σ).performed t service =
      r.performed t service := rfl
  rw [hp, ← hs]
  rfl

theorem step_of_retry (hd : d.phase = .awaiting answer) {error : PushError} {wait : Duration}
    (hj : p.judge d.attempt answer = .retry error wait) :
    r.step p t d =
      (Run.log { r with clock := d.due } (.retrying d.attempt p.limit error wait)).resume
        { d with attempt := d.attempt + 1, phase := .ready, due := d.due + wait.nanos } := by
  simp only [step, hd, hj]

theorem step_of_finish (hd : d.phase = .awaiting answer) {outcome : Outcome}
    (hj : p.judge d.attempt answer = .finish outcome) :
    r.step p t d =
      (Run.log { r with clock := d.due } (outcome.event d.job.device.platform d.attempt)).finish d
        (some (outcome, d.attempt)) := by
  simp only [step, hd, hj]

theorem step_of_abort (hd : d.phase = .awaiting answer) (hj : p.judge d.attempt answer = .abort) :
    r.step p t d = (Run.log { r with clock := d.due } .aborted).finish d none := by
  simp only [step, hd, hj]

end Run

end PushDispatch
