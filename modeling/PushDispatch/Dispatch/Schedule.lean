import PushDispatch.Dispatch.Retry
import PushDispatch.Fcm.Request
import PushDispatch.Log.Event

/-!
One dispatch in virtual time. Every device has a delivery; a delivery needs a permit from its first send to
its last answer, waits between two sends included, and gives it back when it ends or breaks off. Permits go
to waiting deliveries in their order. Sends and waits take the time that they say, nothing else takes time,
and of two deliveries due at one moment the one that has been waiting longer goes first.
-/

namespace PushDispatch

/-- What a transport does with one request: how many nanoseconds the answer takes, the answer, and the
events that the send logs. -/
structure Sent where
  latency : Nat
  answer : Answer
  events : List Log.Event

/-- A way to send requests that may change with each send. -/
structure Transport (σ : Type) where
  send : σ → Fcm.Request → Sent × σ

/-- A delivery that has no permit yet. -/
structure Job where
  index : Nat
  device : Device
  request : Fcm.Request

/-- Whether a delivery with a permit is to send next, or waits for the answer to a send. -/
inductive Phase where
  | ready
  | awaiting (answer : Answer)

/-- A delivery with a permit, the number of the send it is at, and the moment of its next step. -/
structure Delivery where
  job : Job
  attempt : Nat
  phase : Phase
  due : Nat

/-- What can happen in a dispatch. -/
inductive Happening where
  | started (index : Nat)
  | sent (index : Nat) (request : Fcm.Request)
  | ended (index : Nat)
  | logged (event : Log.Event)

/-- A dispatch under way. The results of ended deliveries and the happenings stand last first. -/
structure Run (σ : Type) where
  service : σ
  clock : Nat
  free : Nat
  queue : List Job
  active : List Delivery
  results : List (Nat × Option (Outcome × Nat))
  trace : List (Nat × Happening)

/-- Takes out the delivery that is due first, of several the one that stands first. -/
def earliest : List Delivery → Option (Delivery × List Delivery)
  | [] => none
  | d :: ds => match earliest ds with
    | none => some (d, [])
    | some (e, rest) => if e.due < d.due then some (e, d :: rest) else some (d, ds)

/-- The event that reports the end of a delivery. -/
def Outcome.event (platform : Platform) (attempts : Nat) : Outcome → Log.Event
  | .delivered messageId => .delivered platform messageId attempts
  | .unregistered => .unregistered platform
  | .failed reason _ => .failed platform attempts reason

namespace Run

variable {σ : Type}

def note (r : Run σ) (h : Happening) : Run σ := { r with trace := (r.clock, h) :: r.trace }

def log (r : Run σ) (event : Log.Event) : Run σ := r.note (.logged event)

/-- Gives a free permit to the first delivery that waits for one. -/
def grant (r : Run σ) : Run σ :=
  match r.queue with
  | [] => r
  | job :: queue =>
    if 0 < r.free then
      let begun : Delivery := ⟨job, 1, .ready, r.clock⟩
      { r with free := r.free - 1, queue := queue, active := r.active ++ [begun] }.note (.started job.index)
    else r

/-- Puts a delivery back: first if it goes on at once, last if it has to wait. -/
def resume (r : Run σ) (d : Delivery) : Run σ :=
  { r with active := if d.due = r.clock then d :: r.active else r.active ++ [d] }

/-- Ends a delivery and passes its permit on. -/
def finish (r : Run σ) (d : Delivery) (result : Option (Outcome × Nat)) : Run σ :=
  ({ r with free := r.free + 1, results := (d.job.index, result) :: r.results }.note (.ended d.job.index)).grant

/-- The next step of the delivery `d`, which has been taken out of the active ones. -/
def step (policy : RetryPolicy) (transport : Transport σ) (r : Run σ) (d : Delivery) : Run σ :=
  let r := { r with clock := d.due }
  match d.phase with
  | .ready =>
    let (sent, service) := transport.send r.service d.job.request
    let r := { r with service := service }.note (.sent d.job.index d.job.request)
    (sent.events.foldl log r).resume { d with phase := .awaiting sent.answer, due := d.due + sent.latency }
  | .awaiting answer => match policy.judge d.attempt answer with
    | .retry error wait =>
      (r.log (.retrying d.attempt policy.limit error wait)).resume
        { d with attempt := d.attempt + 1, phase := .ready, due := d.due + wait.nanos }
    | .finish outcome =>
      (r.log (outcome.event d.job.device.platform d.attempt)).finish d (some (outcome, d.attempt))
    | .abort => (r.log .aborted).finish d none

end Run

/-! ### Every dispatch ends -/

/-- How many steps a delivery with a permit has left at most. -/
def Delivery.work (limit : Nat) (d : Delivery) : Nat :=
  match d.phase with
  | .ready => 2 * (limit - d.attempt) + 2
  | .awaiting _ => 2 * (limit - d.attempt) + 1

/-- How many steps active deliveries have left at most. -/
def activeWork (limit : Nat) : List Delivery → Nat
  | [] => 0
  | d :: ds => d.work limit + activeWork limit ds

theorem activeWork_append (limit : Nat) (ds es : List Delivery) :
    activeWork limit (ds ++ es) = activeWork limit ds + activeWork limit es := by
  induction ds with
  | nil => simp [activeWork]
  | cons d ds ih => simp only [List.cons_append, activeWork, ih]; omega

theorem activeWork_earliest (limit : Nat) {ds rest : List Delivery} {d : Delivery}
    (h : earliest ds = some (d, rest)) : activeWork limit ds = d.work limit + activeWork limit rest := by
  induction ds generalizing d rest with
  | nil => simp [earliest] at h
  | cons e es ih =>
    unfold earliest at h
    split at h
    · next hn =>
      cases es with
      | nil => cases h; simp [activeWork]
      | cons x xs => unfold earliest at hn; split at hn <;> (try split at hn) <;> cases hn
    · next f r hs =>
      split at h <;> cases h
      · have := ih hs; simp [activeWork] at this ⊢; omega
      · simp [activeWork]

namespace Run

variable {σ : Type}

/-- How many steps are left at most. -/
def work (policy : RetryPolicy) (r : Run σ) : Nat :=
  activeWork policy.limit r.active + r.queue.length * (2 * policy.limit + 1)

theorem work_grant_le (policy : RetryPolicy) (r : Run σ) : r.grant.work policy ≤ r.work policy := by
  unfold grant
  split
  · exact Nat.le_refl _
  · next job queue hq =>
    split
    · have hl : 1 ≤ policy.limit := Nat.le_max_right ..
      simp only [work, note, hq, activeWork_append, activeWork, Delivery.work, List.length_cons, Nat.succ_mul]
      omega
    · exact Nat.le_refl _

theorem work_finish_le (policy : RetryPolicy) (r : Run σ) (d : Delivery) (result : Option (Outcome × Nat)) :
    (r.finish d result).work policy ≤ r.work policy := by
  unfold finish
  exact Nat.le_trans (work_grant_le policy _) (Nat.le_refl _)

theorem work_resume (policy : RetryPolicy) (r : Run σ) (d : Delivery) :
    (r.resume d).work policy = r.work policy + d.work policy.limit := by
  unfold resume work
  split <;> simp [activeWork, activeWork_append] <;> omega

theorem work_foldl_log (policy : RetryPolicy) (events : List Log.Event) (r : Run σ) :
    (events.foldl log r).work policy = r.work policy := by
  induction events generalizing r with
  | nil => rfl
  | cons e es ih => simp only [List.foldl_cons, ih]; rfl

/-- A step leaves less work than the delivery had before it. -/
theorem work_step_lt (policy : RetryPolicy) (transport : Transport σ) (r : Run σ) (d : Delivery) :
    (r.step policy transport d).work policy < r.work policy + d.work policy.limit := by
  unfold step
  split
  · next hp =>
    have h : ({ r with clock := d.due, service := (transport.send r.service d.job.request).2 }.note
      (.sent d.job.index d.job.request)).work policy = r.work policy := rfl
    simp only [work_resume, work_foldl_log, h, Delivery.work, hp]
    omega
  · next answer hp =>
    split
    · next error wait hj =>
      have hlt := RetryPolicy.lt_limit_of_judge_retry hj
      have h : ({ r with clock := d.due }.log (.retrying d.attempt policy.limit error wait)).work policy
        = r.work policy := rfl
      simp only [work_resume, h, Delivery.work, hp]
      omega
    · refine Nat.lt_of_le_of_lt (work_finish_le ..) ?_
      change r.work policy < _
      simp only [Delivery.work, hp]
      omega
    · refine Nat.lt_of_le_of_lt (work_finish_le ..) ?_
      change r.work policy < _
      simp only [Delivery.work, hp]
      omega

/-- Steps until no delivery is active. -/
def complete (policy : RetryPolicy) (transport : Transport σ) (r : Run σ) : Run σ :=
  match _h : earliest r.active with
  | none => r
  | some (d, rest) => complete policy transport (step policy transport { r with active := rest } d)
termination_by r.work policy
decreasing_by
  have hstep := work_step_lt policy transport { r with active := rest } d
  have hwork := activeWork_earliest policy.limit _h
  simp only [work] at hstep ⊢
  omega

/-- A dispatch about to begin: as many deliveries as there are permits have one. -/
def start (limit clock : Nat) (service : σ) (jobs : List Job) : Run σ :=
  jobs.foldl (fun r _ => r.grant) ⟨service, clock, limit, jobs, [], [], []⟩

end Run

/-! ### Dispatching -/

/-- The number of permits that there can be at most. -/
def maxPermits : Nat := Nat.pow 2 61 - 1

/-- The reason given for a delivery that broke off. -/
def abortedOutcome : Outcome := .failed "delivery task aborted" true

/-- Sends a message to many devices, with so many deliveries at a time at most; at least one is allowed. -/
structure Dispatcher where
  concurrency : Nat
  retry : RetryPolicy

/-- A dispatch that has ended: its summary, the moment of its end, the state of the transport after it, and
all that happened, with times, in order. -/
structure Dispatched (σ : Type) where
  summary : Summary
  clock : Nat
  service : σ
  trace : List (Nat × Happening)

namespace Dispatcher

variable {σ : Type}

/-- The number of permits. -/
def permits (d : Dispatcher) : Nat := max d.concurrency 1

/-- The deliveries of a message to a list of devices. -/
def jobs (devices : List Device) (message : Message) : List Job :=
  devices.zipIdx.map fun (device, index) => ⟨index, device, Fcm.Request.build .standard device message⟩

/-- The report of a delivery from its result. -/
def report (device : Device) : Option (Outcome × Nat) → Report
  | some (outcome, attempts) => ⟨device, outcome, attempts⟩
  | none => ⟨device, abortedOutcome, 0⟩

/-- The reports of all deliveries, in the order of the devices. -/
def reports (devices : List Device) (results : List (Nat × Option (Outcome × Nat))) : List Report :=
  devices.zipIdx.map fun (device, index) => report device ((results.lookup index).join)

/-- Runs a dispatch from the moment `clock` on; `none` if there cannot be so many permits. -/
def dispatch (d : Dispatcher) (transport : Transport σ) (service : σ) (clock : Nat) (devices : List Device)
    (message : Message) : Option (Dispatched σ) :=
  if devices.isEmpty then some ⟨.empty, clock, service, [(clock, .logged .nothingToSend)]⟩
  else if maxPermits < d.permits then none
  else
    let run := (Run.start d.permits clock service (jobs devices message)).complete d.retry transport
    let summary : Summary := ⟨reports devices run.results⟩
    let first := (clock, Happening.logged (.dispatching message.title devices.length d.permits))
    let last := (run.clock, Happening.logged
      (.dispatched summary.delivered summary.failed summary.staleTokens.length))
    some ⟨summary, run.clock, run.service, first :: run.trace.reverse ++ [last]⟩

end Dispatcher

/-- The events that were logged, with their times. -/
def logged (trace : List (Nat × Happening)) : List (Nat × Log.Event) :=
  trace.filterMap fun
    | (time, .logged event) => some (time, event)
    | _ => none

/-- The requests that were sent, with their times. -/
def sends (trace : List (Nat × Happening)) : List (Nat × Fcm.Request) :=
  trace.filterMap fun
    | (time, .sent _ request) => some (time, request)
    | _ => none

end PushDispatch
