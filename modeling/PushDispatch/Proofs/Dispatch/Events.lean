import Mathlib.Algebra.BigOperators.Group.Finset.Piecewise
import PushDispatch.Proofs.Dispatch.Narrative
import PushDispatch.Proofs.Dispatch.Timeline

/-! The log of a dispatch. Deliveries and the transport log into one trace, between a record at the begin and one at the
end. What comes from one delivery tells of its answers in their order, whatever comes in between, so the records that
close a delivery are as many as the summary counts. -/

namespace PushDispatch

/-! ### Where lines come from -/

/-- A line comes from a delivery itself, or from the transport while it sends for the delivery. -/
inductive Origin where
  | delivery (index : Nat)
  | transport (index : Nat)
deriving DecidableEq

def Origin.index : Origin → Nat
  | delivery index => index
  | transport index => index

def Origin.isDelivery : Origin → Bool
  | delivery _ => true
  | transport _ => false

variable {α β : Type}

/-- The lines of one origin, with their times. -/
def linesOf (origin : Origin) (entries : List (Origin × Nat × α)) : List (Nat × α) :=
  (entries.filter fun e => e.1 = origin).map Prod.snd

/-- The events that a transport logs with a send. -/
def Performed.lines (x : Performed) : List (Nat × Log.Event) := x.sent.events.map fun event => (x.time, event)

@[simp] theorem linesOf_nil (origin : Origin) : linesOf origin ([] : List (Origin × Nat × α)) = [] := rfl

@[simp] theorem linesOf_append (origin : Origin) (xs ys : List (Origin × Nat × α)) :
    linesOf origin (xs ++ ys) = linesOf origin xs ++ linesOf origin ys := by
  simp [linesOf]

@[simp] theorem linesOf_map (origin source : Origin) (lines : List (Nat × α)) :
    linesOf origin (lines.map fun line => (source, line)) = if source = origin then lines else [] := by
  by_cases h : source = origin <;> simp [linesOf, List.filter_map, Function.comp_def, h]

@[simp] theorem linesOf_singleton (origin source : Origin) (line : Nat × α) :
    linesOf origin [(source, line)] = if source = origin then [line] else [] := linesOf_map origin source [line]

/-- What lines hold may be changed without a change of their origins. -/
theorem linesOf_map_payload (f : α → β) (origin : Origin) (entries : List (Origin × Nat × α)) :
    linesOf origin (entries.map (Prod.map id (Prod.map id f))) = (linesOf origin entries).map (Prod.map id f) := by
  simp [linesOf, List.filter_map, Function.comp_def]

@[simp] theorem logged_append (xs ys : List (Nat × Happening)) : logged (xs ++ ys) = logged xs ++ logged ys :=
  List.filterMap_append ..

/-- The lines of all deliveries are counted delivery by delivery. -/
theorem countP_eq_sum {entries : List (Origin × Nat × α)} {n : Nat} (h : ∀ e ∈ entries, e.1.index < n)
    (pick : α → Bool) :
    (entries.countP fun e => e.1.isDelivery && pick e.2.2) =
      ∑ i ∈ Finset.range n, (linesOf (.delivery i) entries).countP fun e => pick e.2 := by
  induction entries with
  | nil => simp
  | cons e entries ih =>
    obtain ⟨origin, line⟩ := e
    obtain ⟨hlt, h⟩ := List.forall_mem_cons.1 h
    have hone : ∀ i, ((linesOf (.delivery i) ((origin, line) :: entries)).countP fun e => pick e.2) =
        ((linesOf (.delivery i) entries).countP fun e => pick e.2) +
          if origin = .delivery i then if pick line.2 then 1 else 0 else 0 := by
      intro i
      by_cases ho : origin = .delivery i <;> simp [linesOf, ho, List.countP_cons]
    rw [List.countP_cons, ih h, Finset.sum_congr rfl fun i _ => hone i, Finset.sum_add_distrib]
    congr 1
    cases origin with
    | transport j => simp [Origin.isDelivery]
    | delivery j =>
      rw [Origin.index] at hlt
      simp [Origin.isDelivery, hlt]

/-- The reports of a kind are counted report by report. -/
theorem countP_reports_eq_sum (reports : List Report) (kind : Report → Bool) :
    reports.countP kind = ∑ i ∈ Finset.range reports.length, reports[i]?.toList.countP kind := by
  induction reports with
  | nil => rfl
  | cons r reports ih =>
    rw [List.length_cons, Finset.sum_range_succ', List.countP_cons, ih]
    simp [List.countP_cons]

/-! ### What has been logged so far -/

/-- The sends of a delivery whose answers have come in. -/
def Delivery.answered (d : Delivery) (sends : List Performed) : List Performed :=
  match d.phase with
  | .ready => sends
  | .awaiting _ => sends.dropLast

/-- When an answer comes in, the event about it is the next one of its delivery. -/
theorem Delivery.OnTime.narrative_eq {start : Nat} {sends : List Performed} {answer : Answer} {p : RetryPolicy}
    {d : Delivery} (h : d.OnTime p start sends) (hd : d.phase = .awaiting answer) (platform : Platform) :
    narrative p platform sends =
      narrative p platform (d.answered sends) ++ [(d.due, p.eventAfter platform d.attempt answer)] := by
  simp only [OnTime, hd] at h
  obtain ⟨hlen, hlast, waits, hc⟩ := h
  obtain ⟨x, hx, rfl⟩ := Option.map_eq_some_iff.1 hlast
  obtain ⟨before, rfl⟩ := List.getLast?_eq_some_iff.1 hx
  have hdue : x.time + x.sent.latency = d.due := by simpa using hc.last
  rw [List.length_append, List.length_singleton] at hlen
  simp [answered, hd, narrative_append_singleton, hlen, hdue]

namespace Run

variable {σ : Type} {t : Transport σ} {service : σ} {p : RetryPolicy} {jobs : List Job} {permits n : Nat}
  {devices : List Device} {entries : List (Origin × Nat × Log.Event)} {moves : List Move} {s : Tasks}
  {active : List Delivery} {r q : Run σ} {d : Delivery}

/-- The trace is made up of the events of deliveries and of the transport: those that come with the sends so far, and
those about the answers that have come in. -/
structure Told (p : RetryPolicy) (t : Transport σ) (service : σ) (devices : List Device)
    (entries : List (Origin × Nat × Log.Event)) (active : List Delivery) (r : Run σ) : Prop where
  trace : logged r.trace.reverse = entries.map Prod.snd
  known : ∀ e ∈ entries, e.1.index < devices.length
  sends : ∀ i, linesOf (.transport i) entries = (sendsAt i (r.performed t service)).flatMap Performed.lines
  running : ∀ d ∈ active, linesOf (.delivery d.job.index) entries =
    narrative p d.job.device.platform (d.answered (sendsAt d.job.index (r.performed t service)))
  others : ∀ (i : Nat) (device : Device), devices[i]? = some device → (∀ d ∈ active, d.job.index ≠ i) →
    linesOf (.delivery i) entries = narrative p device.platform (sendsAt i (r.performed t service))

theorem Told.perm (h : Told p t service devices entries active r) {active' : List Delivery} (hp : active.Perm active') :
    Told p t service devices entries active' r :=
  { h with
    running := fun d hd => h.running d (hp.mem_iff.2 hd)
    others := fun i device hi hne => h.others i device hi fun d hd => hne d (hp.mem_iff.1 hd) }

theorem Told.of_eq (h : Told p t service devices entries active r)
    (hp : q.performed t service = r.performed t service)
    (hl : logged q.trace.reverse = logged r.trace.reverse) :
    Told p t service devices entries active q :=
  ⟨hl ▸ h.trace, h.known, hp ▸ h.sends, hp ▸ h.running, hp ▸ h.others⟩

theorem Told.resume (h : Told p t service devices entries (d :: r.active) r) :
    Told p t service devices entries (r.resume d).active (r.resume d) :=
  (h.perm (perm_resume r d).symm).of_eq (performed_resume t service r d) rfl

/-- A delivery sends, and the transport logs. -/
theorem Told.send (h : Told p t service devices entries (d :: active) r) (hM : Mirrors jobs s (d :: active) r)
    (hi : d.job.index < devices.length) (hd : d.phase = .ready) {d' : Delivery} (hj : d'.job = d.job)
    {x : Performed} (hd' : d'.phase = .awaiting x.sent.answer) (hx : x.index = d.job.index)
    (hp : q.performed t service = r.performed t service ++ [x])
    (hl : logged q.trace.reverse = logged r.trace.reverse ++ x.lines) :
    Told p t service devices (entries ++ x.lines.map fun line => (.transport d.job.index, line)) (d' :: active) q := by
  refine ⟨?_, fun e he => ?_, fun i => ?_, fun e he => ?_, fun i device hdevice hne => ?_⟩
  · simp [hl, h.trace, Function.comp_def]
  · rcases List.mem_append.1 he with he | he
    · exact h.known e he
    · obtain ⟨line, -, rfl⟩ := List.mem_map.1 he
      exact hi
  · by_cases e : d.job.index = i <;> simp [h.sends, hp, hx, e]
  · rcases List.mem_cons.1 he with rfl | he
    · have hown := h.running d List.mem_cons_self
      simp [hp, hj, hx, hown, Delivery.answered, hd, hd']
    · have hne := hM.index_ne (mem_remaining_of_active he)
      simp [hp, hx, hne, h.running e (List.mem_cons_of_mem _ he)]
  · have hown : d.job.index ≠ i := hj ▸ hne d' List.mem_cons_self
    have hrest : ∀ e ∈ d :: active, e.job.index ≠ i :=
      List.forall_mem_cons.2 ⟨hown, fun e he => hne e (List.mem_cons_of_mem _ he)⟩
    simp [hp, hx, hown, h.others i device hdevice hrest]

/-- An answer comes in, and its delivery logs what is made of it. -/
theorem Told.reply (h : Told p t service devices entries (d :: active) r) (hM : Mirrors jobs s (d :: active) r)
    (hi : devices[d.job.index]? = some d.job.device) {answer : Answer} (hd : d.phase = .awaiting answer) {start : Nat}
    (hon : d.OnTime p start (sendsAt d.job.index (r.performed t service))) {stays : List Delivery}
    (hstays : ∀ e ∈ stays, e.job = d.job ∧ e.phase = .ready) (hp : q.performed t service = r.performed t service)
    (hl : logged q.trace.reverse = logged r.trace.reverse ++
      [(d.due, p.eventAfter d.job.device.platform d.attempt answer)]) :
    Told p t service devices
      (entries ++ [(.delivery d.job.index, d.due, p.eventAfter d.job.device.platform d.attempt answer)])
      (stays ++ active) q := by
  have hown := hon.narrative_eq hd d.job.device.platform
  rw [← h.running d List.mem_cons_self] at hown
  refine ⟨?_, fun e he => ?_, fun i => ?_, fun e he => ?_, fun i device hdevice hne => ?_⟩
  · simp [hl, h.trace]
  · rcases List.mem_append.1 he with he | he
    · exact h.known e he
    · obtain rfl := List.mem_singleton.1 he
      exact (List.getElem?_eq_some_iff.1 hi).1
  · simp [h.sends, hp]
  · rcases List.mem_append.1 he with he | he
    · obtain ⟨hj, hr⟩ := hstays e he
      simp [hp, hj, hown, Delivery.answered, hr]
    · have hne := hM.index_ne (mem_remaining_of_active he)
      simp [hp, hne, h.running e (List.mem_cons_of_mem _ he)]
  · by_cases e : d.job.index = i
    · subst e
      obtain rfl : d.job.device = device := Option.some.inj (hi.symm.trans hdevice)
      simp [hp, hown]
    · have hrest : ∀ e ∈ d :: active, e.job.index ≠ i :=
        List.forall_mem_cons.2 ⟨e, fun f hf => hne f (List.mem_append_right _ hf)⟩
      simp [hp, e, h.others i device hdevice hrest]

/-- A delivery that gets a permit has logged all that there is to tell about its sends. -/
theorem Told.acquire (h : Told p t service devices entries active r) (hM : Mirrors jobs s active r) {job : Job}
    (hj : job ∈ r.queue) (hi : devices[job.index]? = some job.device) (clock : Nat)
    (hp : q.performed t service = r.performed t service)
    (hl : logged q.trace.reverse = logged r.trace.reverse) :
    Told p t service devices entries (⟨job, 1, .ready, clock⟩ :: active) q := by
  refine ⟨hl ▸ h.trace, h.known, hp ▸ h.sends, fun e he => ?_, fun i device hdevice hne => ?_⟩
  · rcases List.mem_cons.1 he with rfl | he
    · rw [hp]
      exact h.others job.index job.device hi (hM.active_index_ne hj)
    · exact hp ▸ h.running e he
  · exact hp ▸ h.others i device hdevice fun e he => hne e (List.mem_cons_of_mem _ he)

/-! ### One step -/

theorem Told.grant (h : Told p t service devices entries r.active r) (hM : Mirrors jobs s r.active r)
    (hjobs : ∀ job ∈ jobs, devices[job.index]? = some job.device) :
    Told p t service devices entries r.grant.active r.grant := by
  have hp := r.performed_grant t service
  rcases r.grant_cases with ⟨he, -⟩ | ⟨job, queue, hq, hf, he⟩
  · rwa [he]
  · have hperm : (⟨job, 1, .ready, r.clock⟩ :: r.active).Perm r.grant.active := by
      rw [he]
      exact (List.perm_append_singleton _ r.active).symm
    have hj : job ∈ r.queue := by simp [hq]
    have hi := hjobs job (hM.known job (mem_remaining_of_queue hj))
    exact (h.acquire hM hj hi r.clock hp (by rw [he]; simp [note, logged])).perm hperm

/-- A delivery that ends hands its permit on, and has logged its outcome. -/
theorem Told.finish (h : Told p t service devices entries r.active r) (hM : Mirrors jobs s (d :: r.active) r)
    (hjobs : ∀ job ∈ jobs, devices[job.index]? = some job.device) (result : Option (Outcome × Nat)) :
    Told p t service devices entries (r.finish d result).active (r.finish d result) := by
  let closed : Run σ := Run.note { r with free := r.free + 1, results := (d.job.index, result) :: r.results }
    (.ended d.job.index)
  have hp : closed.performed t service = r.performed t service := performed_note_ended rfl d.job.index
  have hMc : Mirrors jobs (s.close d.job.index .panicked result) closed.active closed := hM.close rfl result rfl rfl rfl
  have hc : Told p t service devices entries closed.active closed := h.of_eq hp (by simp [closed, note, logged])
  exact hc.grant hMc hjobs

/-- A step logs what the transport has logged, or what is made of an answer. -/
theorem exists_told_step (h : Told p t service devices entries (d :: r.active) r)
    (hM : Mirrors jobs s (d :: r.active) r) (hjobs : ∀ job ∈ jobs, devices[job.index]? = some job.device)
    (hs : r.service = t.after service ((r.performed t service).map Performed.request)) {start : Nat}
    (hon : d.OnTime p start (sendsAt d.job.index (r.performed t service))) :
    ∃ entries', Told p t service devices entries' (r.step p t d).active (r.step p t d) := by
  have hi := hjobs d.job (hM.known d.job (mem_remaining_of_active List.mem_cons_self))
  have hlog : ∀ event, logged (Run.log { r with clock := d.due } event).trace.reverse =
      logged r.trace.reverse ++ [(d.due, event)] := fun event => by simp [Run.log, note, logged]
  cases hd : d.phase with
  | ready =>
    have hp := performed_step_of_ready (p := p) hd hs
    rw [step_of_ready hd] at hp ⊢
    refine ⟨_, Told.resume (h.send hM (List.getElem?_eq_some_iff.1 hi).1 hd ?_ ?_ ?_ hp ?_)⟩
    case refine_4 => simp [logged, Performed.lines]
    all_goals rfl
  | awaiting answer =>
    have hreply : ∀ stays : List Delivery, (∀ e ∈ stays, e.job = d.job ∧ e.phase = .ready) → ∀ event,
        p.eventAfter d.job.device.platform d.attempt answer = event →
          Told p t service devices (entries ++ [(.delivery d.job.index, d.due, event)]) (stays ++ r.active)
            (Run.log { r with clock := d.due } event) := by
      rintro stays hstays event rfl
      exact h.reply hM hi hd hon hstays (performed_log ..) (hlog _)
    have hMlog : ∀ event, Mirrors jobs s (d :: r.active) (Run.log { r with clock := d.due } event) :=
      fun _ => hM.of_eq rfl rfl rfl
    cases hj : p.judge d.attempt answer with
    | retry error wait =>
      rw [step_of_retry hd hj]
      let d' : Delivery := { d with attempt := d.attempt + 1, phase := .ready, due := d.due + wait.nanos }
      have htold := hreply [d'] (by simp [d']) (.retrying d.attempt p.limit error wait)
        (by rw [RetryPolicy.eventAfter, hj])
      exact ⟨_, Told.resume htold⟩
    | finish outcome =>
      rw [step_of_finish hd hj]
      have htold := hreply [] (by simp) (outcome.event d.job.device.platform d.attempt)
        (by rw [RetryPolicy.eventAfter, hj])
      exact ⟨_, htold.finish (hMlog _) hjobs _⟩
    | abort =>
      rw [step_of_abort hd hj]
      have htold := hreply [] (by simp) .aborted (by rw [RetryPolicy.eventAfter, hj])
      exact ⟨_, htold.finish (hMlog _) hjobs _⟩

/-! ### The whole run -/

theorem Told.foldl_grant (l : List Job) (h : Told p t service devices entries r.active r)
    (hM : Mirrors jobs s r.active r) (hH : Heard t service jobs moves r.active r)
    (hjobs : ∀ job ∈ jobs, devices[job.index]? = some job.device) :
    Told p t service devices entries (l.foldl (fun r _ => r.grant) r).active (l.foldl (fun r _ => r.grant) r) := by
  induction l generalizing r s moves with
  | nil => exact h
  | cons _ l ih =>
    obtain ⟨_, _, -, hM', hH'⟩ := exists_path_grant p hM hH
    exact ih (h.grant hM hjobs) hM' hH'

/-- Nothing is logged while the first permits are granted. -/
theorem told_start (p : RetryPolicy) (t : Transport σ) (service : σ) (permits clock : Nat)
    (hj : jobs.map Job.index = List.range n) (hjobs : ∀ job ∈ jobs, devices[job.index]? = some job.device) :
    Told p t service devices [] (Run.start permits clock service jobs).active (Run.start permits clock service jobs) := by
  let first : Run σ := ⟨service, clock, permits, jobs, [], [], []⟩
  have hM : Mirrors jobs (Tasks.start permits n) first.active first := mirrors_begin hj permits clock service
  have hH : Heard t service jobs [] first.active first := heard_begin t service jobs permits clock
  have h : Told p t service devices [] first.active first :=
    ⟨rfl, by simp, fun _ => rfl, by simp [first], fun _ _ _ _ => rfl⟩
  exact h.foldl_grant jobs hM hH hjobs

/-- Whatever a dispatch has logged so far tells of the sends and the answers so far. -/
theorem Passes.exists_told {clock : Nat} (hj : jobs.map Job.index = List.range n)
    (hjobs : ∀ job ∈ jobs, devices[job.index]? = some job.device)
    (h : Passes p t (Run.start permits clock service jobs) r) : ∃ entries, Told p t service devices entries r.active r := by
  induction h with
  | refl => exact ⟨[], told_start p t service permits clock hj hjobs⟩
  | @step r d rest hr he ih =>
    obtain ⟨entries, h⟩ := ih
    obtain ⟨_, _, -, hP⟩ := hr.charted hj
    obtain ⟨_, s, htraced⟩ := hr.exists_traced hj
    have hperm := perm_of_earliest he
    let r' : Run σ := { r with active := rest }
    obtain ⟨_, -, hon⟩ := hP.running d (hperm.mem_iff.2 List.mem_cons_self)
    have hM : Mirrors jobs s (d :: r'.active) r' := (htraced.mirrors.perm hperm).of_eq rfl rfl rfl
    have h' : Told p t service devices entries (d :: r'.active) r' := (h.perm hperm).of_eq rfl rfl
    exact exists_told_step h' hM hjobs htraced.heard.state hon

end Run

/-! ### The dispatch -/

/-- Of the records that close deliveries there are as many as there are reports of their kind. -/
theorem countP_closing {entries : List (Origin × Nat × Log.Record)} {reports : List Report}
    (hn : ∀ e ∈ entries, e.1.index < reports.length)
    (h : ∀ (i : Nat) (r : Report), reports[i]? = some r →
      ∃ p device sends, Narrates p device r sends (linesOf (.delivery i) entries))
    {pick : Log.Record → Bool} {kind : Report → Bool} (hc : Closes pick kind) :
    (entries.countP fun e => e.1.isDelivery && pick e.2.2) = reports.countP kind := by
  rw [countP_eq_sum hn, countP_reports_eq_sum]
  refine Finset.sum_congr rfl fun i hi => ?_
  have hr := List.getElem?_eq_getElem (Finset.mem_range.1 hi)
  obtain ⟨p, device, sends, hnarrates⟩ := h i _ hr
  rw [hnarrates.countP_eq hc, hr, Option.toList_some, List.countP_singleton]

namespace Dispatcher

/-- Between a record with the title, the number of devices and the limit at the begin and one with the counts of the
summary at the end, a dispatch logs what each delivery and the transport have to tell. A delivery tells of each answer
when it comes in: of all but the last one that it tries again, with the number of the send, the error and the wait, and of
the last one what its report says, or that it has broken off. So the records that close a delivery are as many as the
summary counts. -/
theorem events_told {σ : Type} (d : Dispatcher) (hp : d.permits ≤ maxPermits) (t : Transport σ) (service : σ)
    (clock : Nat) {devices : List Device} (hne : devices ≠ []) (message : Message) :
    ∃ x entries, d.dispatch t service clock devices message = some x ∧
      shown x.trace = (clock, ⟨.info, "📨 Dispatching '" ++ message.title ++ "' to " ++ toString devices.length ++
          " device(s), " ++ toString (max 1 d.concurrency) ++ " in flight"⟩) ::
        entries.map Prod.snd ++
          [(x.clock, ⟨.info, "✅ Dispatch finished: " ++ toString x.summary.delivered ++ " delivered, " ++
            toString x.summary.failed ++ " failed, " ++ toString x.summary.staleTokens.length ++ " stale token(s)"⟩)] ∧
      (∀ e ∈ entries, e.1.index < devices.length) ∧
      (∀ (i : Nat) (device : Device), devices[i]? = some device → ∃ r, x.summary.reports[i]? = some r ∧
        Narrates d.retry device r (sendsAt i (t.performed service x.trace)) (linesOf (.delivery i) entries) ∧
        linesOf (.transport i) entries = (sendsAt i (t.performed service x.trace)).flatMap fun y =>
          y.sent.events.map fun event => (y.time, event.record)) ∧
      (entries.countP fun e => e.1.isDelivery && e.2.2.level = .debug) = x.summary.delivered ∧
      (entries.countP fun e => e.1.isDelivery && e.2.2.isUnregistered) = x.summary.staleTokens.length ∧
      (entries.countP fun e => e.1.isDelivery && e.2.2.level = .error) =
        x.summary.failed - x.summary.staleTokens.length := by
  obtain ⟨x, r, hx, hpass, ha, hreports, -, hclock, htrace⟩ := d.exists_passes hp t service clock hne message
  have hj := map_index_jobs devices message
  obtain ⟨events, htold⟩ := hpass.exists_told hj fun job hm => (mem_jobs hm).1
  obtain ⟨moves, s, htraced⟩ := hpass.exists_traced hj
  have hover := htraced.isOver d.one_le_permits ha
  have hperformed : t.performed service x.trace = r.performed t service := htrace ▸ r.performed_framed ..
  have hcomplete := complete_reports htraced.path.recorded hover (.refl s.results)
  rw [htraced.mirrors.results, ← hreports] at hcomplete
  let entries := events.map (Prod.map id (Prod.map id Log.Event.record))
  have hknown : ∀ e ∈ entries, e.1.index < devices.length := List.forall_mem_map.2 htold.known
  have hown : ∀ (i : Nat) (device : Device), devices[i]? = some device → ∃ report, x.summary.reports[i]? = some report ∧
      Narrates d.retry device report (sendsAt i (t.performed service x.trace)) (linesOf (.delivery i) entries) := by
    intro i device hi
    obtain ⟨report, hr, htells⟩ := hcomplete.2 i device hi
    have hasked := htraced.path.asksAgain hover (List.getElem?_eq_some_iff.1 hi).1
    dsimp only at htells
    rw [← htraced.heard.others i (by simp [ha])] at htells hasked
    refine ⟨report, hr, ?_⟩
    rw [hperformed, linesOf_map_payload, htold.others i device hi (by simp [ha])]
    exact htells.narrates hasked
  have hcount : ∀ {pick : Log.Record → Bool} {kind : Report → Bool}, Closes pick kind →
      (entries.countP fun e => e.1.isDelivery && pick e.2.2) = x.summary.reports.countP kind := by
    refine countP_closing (hcomplete.1 ▸ hknown) fun i report hr => ?_
    have hi : i < devices.length := hcomplete.1 ▸ (List.getElem?_eq_some_iff.1 hr).1
    obtain ⟨_, hr', hnarrates⟩ := hown i devices[i] (List.getElem?_eq_getElem hi)
    obtain rfl := Option.some.inj (hr'.symm.trans hr)
    exact ⟨_, _, _, hnarrates⟩
  refine ⟨x, entries, hx, ?_, hknown, fun i device hi => ?_, hcount closes_debug, ?_, ?_⟩
  · have htold : (logged r.trace.reverse).map (Prod.map id Log.Event.record) = entries.map Prod.snd := by
      rw [htold.trace, List.map_map, List.map_map]
      rfl
    rw [htrace, shown, logged_append, List.map_append, hclock, Nat.max_comm, ← Log.Event.record_dispatching,
      ← Log.Event.record_dispatched, ← htold]
    rfl
  · obtain ⟨report, hr, hnarrates⟩ := hown i device hi
    refine ⟨report, hr, hnarrates, ?_⟩
    rw [hperformed, linesOf_map_payload, htold.sends i, List.map_flatMap]
    simp [Performed.lines, Function.comp_def]
  · rw [hcount closes_unregistered, Summary.staleTokens, List.length_map, List.countP_eq_length_filter]
  · rw [hcount closes_error, ← Summary.hardFailures_eq]
    rfl

/-- The first of two deliveries has to try again before it goes through, and the second one breaks off meanwhile. -/
theorem events_told_one_breaks_off :
    let d : Dispatcher := ⟨2, ⟨2, .ofMillis 100, .ofMillis 400⟩⟩
    let late : PushError := .http (.timedOut "u")
    let t : Transport Nat := ⟨fun n _ => (if n = 0 then ⟨5, .refused late, [.sending "u"]⟩
      else if n = 1 then ⟨3, .aborted, []⟩ else ⟨4, .accepted "id", []⟩, n + 1)⟩
    let devices : List Device := [⟨"a", .web⟩, ⟨"b", .ios⟩]
    let first : Nat × Log.Record := (7, ⟨.info, "📨 Dispatching 'Title' to 2 device(s), 2 in flight"⟩)
    let lines : List (Nat × Log.Record) := [(7, ⟨.debug, "Sending push to u"⟩), (10, ⟨.error, "❌ Delivery task aborted"⟩),
      (12, ⟨.warn, "⚠️ Attempt 1/2 failed: FCM request failed: error sending request for url (u); retrying in 100ms"⟩),
      (100000016, ⟨.debug, "web device delivered as id (2 attempt(s))"⟩)]
    let last : Nat × Log.Record := (100000016, ⟨.info, "✅ Dispatch finished: 1 delivered, 1 failed, 0 stale token(s)"⟩)
    d.permits ≤ maxPermits ∧ devices ≠ [] ∧ ∃ x entries,
      d.dispatch t 0 7 devices (.ofText "Title" "") = some x ∧
      shown x.trace = first :: entries.map Prod.snd ++ [last] ∧ entries.map Prod.snd = lines ∧
      (∃ r, Narrates d.retry ⟨"b", .ios⟩ r (sendsAt 1 (t.performed 0 x.trace)) (linesOf (.delivery 1) entries)) ∧
      (entries.countP fun e => e.1.isDelivery && e.2.2.level = .debug) = 1 := by
  intro d late t devices first lines last
  have hp : d.permits ≤ maxPermits := by decide
  have hne : devices ≠ [] := List.cons_ne_nil _ _
  obtain ⟨x, entries, hx, hshown, -, hown, hdebug, -⟩ := events_told d hp t 0 7 hne (.ofText "Title" "")
  obtain ⟨r, -, hnarrates, -⟩ := hown 1 ⟨"b", .ios⟩ rfl
  have hrun : (d.dispatch t 0 7 devices (.ofText "Title" "")).map (fun x => (shown x.trace, x.clock, x.summary.delivered,
      x.summary.failed, x.summary.staleTokens.length)) = some (first :: lines ++ [last], 100000016, 1, 1, 0) := by
    decide +kernel
  simp only [hx, Option.map_some, Option.some.injEq, Prod.mk.injEq] at hrun
  obtain ⟨htrace, -, hdelivered, -⟩ := hrun
  have hentries : entries.map Prod.snd = lines :=
    (List.append_inj' (List.tail_eq_of_cons_eq (hshown.symm.trans htrace)) rfl).1
  exact ⟨hp, hne, x, entries, hx, hentries ▸ htrace, hentries, ⟨r, hnarrates⟩, hdebug.trans hdelivered⟩

end Dispatcher

end PushDispatch
