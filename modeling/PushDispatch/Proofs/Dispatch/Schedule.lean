import PushDispatch.Proofs.Dispatch.Permits
import PushDispatch.Proofs.Dispatch.Replay

/-! A scheduled dispatch takes the steps of its tasks in one of the orders that they may come in. Each state that
it passes through stands for a state of the tasks: queued deliveries wait, active ones send or sleep, and the
answers that a task has had are those of the transport to the sends of its delivery. -/

namespace PushDispatch

open Tasks (Path Step)

/-- The stage of the task of an active delivery. A first send follows the permit without delay. -/
def Delivery.stage (d : Delivery) : Stage :=
  match d.phase with
  | .ready => if d.attempt = 1 then .sending 1 else .sleeping d.attempt
  | .awaiting _ => .sending d.attempt

/-- The answer that is on its way. -/
def Delivery.pending (d : Delivery) : List Answer :=
  match d.phase with
  | .ready => []
  | .awaiting answer => [answer]

theorem Delivery.stage_isRunning (d : Delivery) : d.stage.isRunning = true := by
  unfold stage
  split
  · split <;> rfl
  · rfl

theorem earliest_eq_none_iff {ds : List Delivery} : earliest ds = none ↔ ds = [] := by
  cases ds with
  | nil => simp [earliest]
  | cons d ds =>
    simp only [earliest, reduceCtorEq, iff_false]
    split
    · simp
    · split <;> simp

theorem perm_of_earliest {ds rest : List Delivery} {d : Delivery} (h : earliest ds = some (d, rest)) :
    ds.Perm (d :: rest) := by
  induction ds generalizing d rest with
  | nil => simp [earliest] at h
  | cons e es ih =>
    unfold earliest at h
    split at h
    · next hn => cases h; rw [earliest_eq_none_iff.1 hn]
    · next f others hs =>
      split at h <;> cases h
      · exact ((ih hs).cons e).trans (.swap ..)
      · exact .refl _

namespace Run

variable {σ : Type} {t : Transport σ} {service : σ} {p : RetryPolicy} {jobs : List Job} {permits n : Nat}
  {moves : List Move} {s : Tasks} {active : List Delivery} {r q : Run σ} {d : Delivery}

/-- The jobs that have not ended when the given deliveries are active. -/
def remaining (r : Run σ) (active : List Delivery) : List Job := r.queue ++ active.map Delivery.job

/-- The tasks are in the stages that a scheduled dispatch with the given active deliveries says. -/
structure Mirrors (jobs : List Job) (s : Tasks) (active : List Delivery) (r : Run σ) : Prop where
  free : s.free = r.free
  results : s.results = r.results
  queued : ∀ job ∈ r.queue, s.stages[job.index]? = some .waiting
  running : ∀ d ∈ active, s.stages[d.job.index]? = some d.stage ∧ 1 ≤ d.attempt
  nodup : ((r.remaining active).map Job.index).Nodup
  known : ∀ job ∈ r.remaining active, job ∈ jobs
  complete : ∀ (i : Nat) (stage : Stage), s.stages[i]? = some stage → stage.isOver = false →
    ∃ job ∈ r.remaining active, job.index = i

/-- The answers of the transport to the sends so far are those that the tasks have had, and those on their way. -/
structure Heard (t : Transport σ) (service : σ) (jobs : List Job) (moves : List Move) (active : List Delivery)
    (r : Run σ) : Prop where
  state : r.service = t.after service ((r.performed t service).map Performed.request)
  sends : ∀ x ∈ r.performed t service, ∃ job ∈ jobs, job.index = x.index ∧ job.request = x.request
  running : ∀ d ∈ active, answersAt d.job.index (r.performed t service) = answersOf d.job.index moves ++ d.pending
  others : ∀ i, (∀ d ∈ active, d.job.index ≠ i) → answersAt i (r.performed t service) = answersOf i moves

/-! ### The stages of the tasks -/

theorem Mirrors.perm (h : Mirrors jobs s active r) {active' : List Delivery} (hp : active.Perm active') :
    Mirrors jobs s active' r := by
  have hj : (r.remaining active).Perm (r.remaining active') := (hp.map _).append_left _
  exact ⟨h.free, h.results, h.queued, fun d hd => h.running d (hp.mem_iff.2 hd), (hj.map _).nodup_iff.1 h.nodup,
    fun job hm => h.known job (hj.mem_iff.2 hm), fun i stage hi ho =>
      (h.complete i stage hi ho).imp fun _ => And.imp_left hj.mem_iff.1⟩

theorem Mirrors.of_eq (h : Mirrors jobs s active r) (hf : q.free = r.free) (hq : q.queue = r.queue)
    (hr : q.results = r.results) : Mirrors jobs s active q := by
  have hj : q.remaining active = r.remaining active := by rw [remaining, hq, remaining]
  exact ⟨hf ▸ h.free, hr ▸ h.results, hq ▸ h.queued, h.running, hj ▸ h.nodup, hj ▸ h.known, hj ▸ h.complete⟩

theorem perm_remaining (r : Run σ) (d : Delivery) (active : List Delivery) :
    (r.remaining (d :: active)).Perm (d.job :: r.remaining active) := List.perm_middle

/-- Two jobs that have not ended are not the same. -/
theorem Mirrors.index_ne (h : Mirrors jobs s (d :: active) r) {job : Job} (hm : job ∈ r.remaining active) :
    d.job.index ≠ job.index := by
  have hn := (((r.perm_remaining d active).map Job.index).nodup_iff.1 h.nodup)
  exact fun e => (List.nodup_cons.1 hn).1 (e ▸ List.mem_map_of_mem hm)

/-- A delivery that waits for a permit is not active. -/
theorem Mirrors.active_index_ne (h : Mirrors jobs s active r) {job : Job} (hj : job ∈ r.queue) :
    ∀ e ∈ active, e.job.index ≠ job.index := by
  intro e he heq
  have hw := h.queued job hj
  rw [← heq, (h.running e he).1] at hw
  have hr := e.stage_isRunning
  rw [Option.some.inj hw] at hr
  cases hr

theorem mem_remaining_of_queue {job : Job} (hm : job ∈ r.queue) : job ∈ r.remaining active :=
  List.mem_append_left _ hm

theorem mem_remaining_of_active (hm : d ∈ active) : d.job ∈ r.remaining active :=
  List.mem_append_right _ (List.mem_map_of_mem hm)

/-- A delivery goes on to its next stage. -/
theorem Mirrors.put (h : Mirrors jobs s (d :: active) r) {d' : Delivery} (hj : d'.job = d.job)
    (ha : 1 ≤ d'.attempt) : Mirrors jobs (s.put d.job.index d'.stage) (d' :: active) r := by
  have hd := (h.running d List.mem_cons_self).1
  have hrem : r.remaining (d' :: active) = r.remaining (d :: active) := by simp [remaining, hj]
  refine ⟨h.free, h.results, fun job hm => ?_, fun e he => ?_, hrem ▸ h.nodup, hrem ▸ h.known, fun i stage hi ho => ?_⟩
  · have hne := h.index_ne (mem_remaining_of_queue hm)
    simpa [Tasks.put, getElem?_set_of_eq_some hd, hne] using h.queued job hm
  · rcases List.mem_cons.1 he with rfl | he
    · exact ⟨by simp [Tasks.put, getElem?_set_of_eq_some hd, hj], ha⟩
    · have hne := h.index_ne (mem_remaining_of_active he)
      simpa [Tasks.put, getElem?_set_of_eq_some hd, hne] using h.running e (List.mem_cons_of_mem _ he)
  · rw [hrem]
    by_cases e : d.job.index = i
    · exact ⟨d.job, mem_remaining_of_active List.mem_cons_self, e⟩
    · refine h.complete i stage ?_ ho
      simpa [Tasks.put, getElem?_set_of_eq_some hd, e] using hi

/-- A delivery ends. -/
theorem Mirrors.close (h : Mirrors jobs s (d :: active) r) {stage : Stage} (ho : stage.isOver = true)
    (result : Option (Outcome × Nat)) (hf : q.free = r.free + 1) (hq : q.queue = r.queue)
    (hr : q.results = (d.job.index, result) :: r.results) :
    Mirrors jobs (s.close d.job.index stage result) active q := by
  have hd := (h.running d List.mem_cons_self).1
  have hrem : q.remaining active = r.remaining active := by rw [remaining, hq, remaining]
  have hp := r.perm_remaining d active
  refine ⟨by simp [Tasks.close, h.free, hf], by simp [Tasks.close, h.results, hr], fun job hm => ?_, fun e he => ?_,
    ?_, fun job hm => ?_, fun i old hi hold => ?_⟩
  · rw [hq] at hm
    have hne := h.index_ne (mem_remaining_of_queue hm)
    simpa [Tasks.close, getElem?_set_of_eq_some hd, hne] using h.queued job hm
  · have hne := h.index_ne (mem_remaining_of_active he)
    simpa [Tasks.close, getElem?_set_of_eq_some hd, hne] using h.running e (List.mem_cons_of_mem _ he)
  · rw [hrem]
    exact (List.nodup_cons.1 ((hp.map Job.index).nodup_iff.1 h.nodup)).2
  · exact h.known job (hp.mem_iff.2 (List.mem_cons_of_mem _ (hrem ▸ hm)))
  · by_cases e : d.job.index = i
    · subst e
      obtain rfl : stage = old := by simpa [Tasks.close, getElem?_set_of_eq_some hd] using hi
      simp [ho] at hold
    · obtain ⟨job, hm, rfl⟩ := h.complete i old (by simpa [Tasks.close, getElem?_set_of_eq_some hd, e] using hi) hold
      rcases List.mem_cons.1 (hp.mem_iff.1 hm) with rfl | hm
      · exact absurd rfl e
      · exact ⟨job, hrem ▸ hm, rfl⟩

/-- The first delivery of the queue gets a permit. -/
theorem Mirrors.acquire (h : Mirrors jobs s active r) {job : Job} {queue : List Job} (hq : r.queue = job :: queue)
    (clock : Nat) (hf : q.free = r.free - 1) (hq' : q.queue = queue) (hr : q.results = r.results) :
    Mirrors jobs (s.acquire job.index) (⟨job, 1, .ready, clock⟩ :: active) q := by
  have hw := h.queued job (by simp [hq])
  have hp : (q.remaining (⟨job, 1, .ready, clock⟩ :: active)).Perm (r.remaining active) := by
    rw [remaining, remaining, hq, hq']
    exact List.perm_middle
  have hn : (job.index :: (queue ++ active.map Delivery.job).map Job.index).Nodup := by
    simpa [remaining, hq] using h.nodup
  have hne : ∀ j ∈ queue ++ active.map Delivery.job, job.index ≠ j.index :=
    fun j hm e => (List.nodup_cons.1 hn).1 (e ▸ List.mem_map_of_mem hm)
  refine ⟨by simp [Tasks.acquire, h.free, hf], by simp [Tasks.acquire, h.results, hr], fun j hm => ?_, fun e he => ?_,
    ((hp.map _).nodup_iff).2 h.nodup, fun j hm => h.known j (hp.mem_iff.1 hm), fun i stage hi ho => ?_⟩
  · rw [hq'] at hm
    have := hne j (List.mem_append_left _ hm)
    simpa [Tasks.acquire, getElem?_set_of_eq_some hw, this] using h.queued j (by simp [hq, hm])
  · rcases List.mem_cons.1 he with rfl | he
    · simp [Tasks.acquire, getElem?_set_of_eq_some hw, Delivery.stage]
    · have := hne e.job (List.mem_append_right _ (List.mem_map_of_mem he))
      simpa [Tasks.acquire, getElem?_set_of_eq_some hw, this] using h.running e he
  · by_cases e : job.index = i
    · exact ⟨job, by simp [remaining], e⟩
    · refine (h.complete i stage ?_ ho).imp fun _ => And.imp_left hp.mem_iff.2
      simpa [Tasks.acquire, getElem?_set_of_eq_some hw, e] using hi

/-! ### The answers of the tasks -/

theorem Heard.perm (h : Heard t service jobs moves active r) {active' : List Delivery} (hp : active.Perm active') :
    Heard t service jobs moves active' r :=
  ⟨h.state, h.sends, fun d hd => h.running d (hp.mem_iff.2 hd),
    fun i hi => h.others i fun d hd => hi d (hp.mem_iff.1 hd)⟩

/-- A change that makes no send. -/
theorem Heard.of_eq (h : Heard t service jobs moves active r) (hs : q.service = r.service)
    (hp : q.performed t service = r.performed t service) : Heard t service jobs moves active q :=
  ⟨hs ▸ hp ▸ h.state, hp ▸ h.sends, hp ▸ h.running, hp ▸ h.others⟩

/-- A delivery sends. -/
theorem Heard.send (h : Heard t service jobs moves (d :: active) r) (hM : Mirrors jobs s (d :: active) r)
    (hd : d.phase = .ready) {d' : Delivery} (hj : d'.job = d.job)
    (hd' : d'.phase = .awaiting (t.send r.service d.job.request).1.answer)
    (hs : q.service = (t.send r.service d.job.request).2) {time : Nat}
    (hp : q.performed t service = r.performed t service ++
      [⟨time, d.job.index, d.job.request, (t.send r.service d.job.request).1⟩])
    {new : List Move} (hnew : ∀ i, answersOf i new = []) :
    Heard t service jobs (moves ++ new) (d' :: active) q := by
  refine ⟨?_, fun x hx => ?_, fun e he => ?_, fun i hi => ?_⟩
  · rw [hp, List.map_append, t.after_append, ← h.state, hs]
    rfl
  · rw [hp] at hx
    rcases List.mem_append.1 hx with hx | hx
    · exact h.sends x hx
    · obtain rfl := List.mem_singleton.1 hx
      exact ⟨d.job, hM.known _ (mem_remaining_of_active List.mem_cons_self), rfl, rfl⟩
  · rcases List.mem_cons.1 he with rfl | he
    · have := h.running d List.mem_cons_self
      simp [hp, hj, hnew, this, Delivery.pending, hd, hd']
    · have hne := hM.index_ne (mem_remaining_of_active he)
      simp [hp, hnew, hne, h.running e (List.mem_cons_of_mem _ he)]
  · have hne : d.job.index ≠ i := hj ▸ hi d' List.mem_cons_self
    have hrest : ∀ e ∈ d :: active, e.job.index ≠ i :=
      List.forall_mem_cons.2 ⟨hne, fun e he => hi e (List.mem_cons_of_mem _ he)⟩
    simp [hp, hnew, hne, h.others i hrest]

/-- A reply comes in, and its delivery goes on or leaves. -/
theorem Heard.reply (h : Heard t service jobs moves (d :: active) r) (hM : Mirrors jobs s (d :: active) r)
    {answer : Answer} (hd : d.phase = .awaiting answer) {stays : List Delivery}
    (hstays : ∀ e ∈ stays, e.job = d.job ∧ e.phase = .ready) (hs : q.service = r.service)
    (hp : q.performed t service = r.performed t service) :
    Heard t service jobs (moves ++ [.reply d.job.index answer]) (stays ++ active) q := by
  have hown : answersAt d.job.index (r.performed t service) = answersOf d.job.index moves ++ [answer] := by
    simpa [Delivery.pending, hd] using h.running d List.mem_cons_self
  refine ⟨by rw [hs, hp, h.state], fun x hx => h.sends x (hp ▸ hx), fun e he => ?_, fun i hi => ?_⟩
  · rcases List.mem_append.1 he with he | he
    · obtain ⟨hj, hr⟩ := hstays e he
      simp [hp, hj, hown, Delivery.pending, hr]
    · have hne := hM.index_ne (mem_remaining_of_active he)
      simp [hp, hne, h.running e (List.mem_cons_of_mem _ he)]
  · by_cases e : d.job.index = i
    · subst e
      simp [hp, hown]
    · have hrest : ∀ e ∈ d :: active, e.job.index ≠ i :=
        List.forall_mem_cons.2 ⟨e, fun f hf => hi f (List.mem_append_right _ hf)⟩
      simp [hp, e, h.others i hrest]

/-- A delivery that gets a permit has heard nothing yet. -/
theorem Heard.acquire (h : Heard t service jobs moves active r) (hM : Mirrors jobs s active r) {job : Job}
    (hj : job ∈ r.queue) (clock : Nat) (hs : q.service = r.service)
    (hp : q.performed t service = r.performed t service) :
    Heard t service jobs (moves ++ [.acquire job.index]) (⟨job, 1, .ready, clock⟩ :: active) q := by
  refine ⟨by rw [hs, hp, h.state], fun x hx => h.sends x (hp ▸ hx), fun e he => ?_, fun i hi => ?_⟩
  · rcases List.mem_cons.1 he with rfl | he
    · simp [hp, Delivery.pending, h.others job.index (hM.active_index_ne hj)]
    · simp [hp, h.running e he]
  · simp [hp, h.others i fun e he => hi e (List.mem_cons_of_mem _ he)]

/-! ### One step -/

theorem perm_resume (r : Run σ) (d : Delivery) : (r.resume d).active.Perm (d :: r.active) := by
  unfold resume
  split
  · exact .refl _
  · exact List.perm_append_singleton d r.active

/-- A permit is granted if there is one and somebody waits for it. -/
theorem grant_cases (r : Run σ) :
    (r.grant = r ∧ (r.queue = [] ∨ r.free = 0)) ∨
      ∃ job queue, r.queue = job :: queue ∧ 0 < r.free ∧
        r.grant = Run.note { r with
          free := r.free - 1, queue := queue, active := r.active ++ [⟨job, 1, .ready, r.clock⟩] }
          (.started job.index) := by
  unfold grant
  split
  · next hq => exact .inl ⟨rfl, .inl hq⟩
  · next job queue hq =>
    split
    · next hf => exact .inr ⟨job, queue, hq, hf, rfl⟩
    · next hf => exact .inl ⟨rfl, .inr (by omega)⟩

theorem exists_path_grant (p : RetryPolicy) (hM : Mirrors jobs s r.active r)
    (hH : Heard t service jobs moves r.active r) :
    ∃ new s', Path p s new s' ∧ Mirrors jobs s' r.grant.active r.grant ∧
      Heard t service jobs (moves ++ new) r.grant.active r.grant := by
  have hp := r.performed_grant t service
  rcases r.grant_cases with ⟨he, -⟩ | ⟨job, queue, hq, hf, he⟩
  · exact ⟨[], s, .refl, by rwa [he], by simpa [he] using hH⟩
  · have hperm : (⟨job, 1, .ready, r.clock⟩ :: r.active).Perm r.grant.active := by
      rw [he]
      exact (List.perm_append_singleton _ _).symm
    have hw := hM.queued job (by simp [hq])
    refine ⟨_, _, .single (.acquire hw (hM.free ▸ hf)), ?_, ?_⟩
    · exact (hM.acquire hq r.clock (by rw [he]; rfl) (by rw [he]; rfl) (by rw [he]; rfl)).perm hperm
    · exact (hH.acquire hM (by simp [hq]) r.clock (by rw [he]; rfl) hp).perm hperm

/-- A delivery that is due sends: its task wakes up, or has just begun. -/
theorem exists_path_send (p : RetryPolicy) (hM : Mirrors jobs s (d :: r.active) r) (hd : d.phase = .ready)
    (answer : Answer) (due : Nat) :
    ∃ new, Path p s new (s.put d.job.index (Delivery.stage { d with phase := .awaiting answer, due := due })) ∧
      ∀ i, answersOf i new = [] := by
  have hs := (hM.running d List.mem_cons_self).1
  simp only [Delivery.stage, hd] at hs ⊢
  split at hs
  · next h1 => exact ⟨[], by rw [h1, Tasks.put_eq_self hs]; exact .refl, fun _ => rfl⟩
  · exact ⟨_, .single (.wake hs), fun _ => rfl⟩

/-- A delivery that has to try again goes to sleep with its permit. -/
theorem exists_path_retry (hM : Mirrors jobs s (d :: r.active) r) (hH : Heard t service jobs moves (d :: r.active) r)
    {answer : Answer} (hd : d.phase = .awaiting answer) {error : PushError} {wait : Duration}
    (hj : p.judge d.attempt answer = .retry error wait) :
    ∃ new s', Path p s new s' ∧ Mirrors jobs s' (r.step p t d).active (r.step p t d) ∧
      Heard t service jobs (moves ++ new) (r.step p t d).active (r.step p t d) := by
  let d' : Delivery := { d with attempt := d.attempt + 1, phase := .ready, due := d.due + wait.nanos }
  have hs : s.stages[d.job.index]? = some (.sending d.attempt) := by
    simpa [Delivery.stage, hd] using (hM.running d List.mem_cons_self).1
  have hstage : d'.stage = .sleeping (d.attempt + 1) := by
    have : d.attempt + 1 ≠ 1 := by have := (hM.running d List.mem_cons_self).2; omega
    simp only [Delivery.stage, d', if_neg this]
  have hput : Mirrors jobs (s.put d.job.index (.sleeping (d.attempt + 1))) (d' :: r.active) r :=
    hstage ▸ hM.put rfl (Nat.le_add_left 1 d.attempt)
  have hreply : Heard t service jobs (moves ++ [.reply d.job.index answer]) ([d'] ++ r.active)
      (Run.log { r with clock := d.due } (.retrying d.attempt p.limit error wait)) := by
    refine hH.reply hM hd ?_ ?_ (performed_log ..)
    · simp [d']
    · rfl
  rw [step_of_retry hd hj]
  refine ⟨_, _, .single (.retry hs hj), Mirrors.perm ?_ (perm_resume _ _).symm, Heard.perm ?_ (perm_resume _ _).symm⟩
  · refine hput.of_eq ?_ ?_ ?_ <;> rfl
  · exact hreply.of_eq rfl rfl

/-- A delivery that ends hands its permit on. -/
theorem exists_path_finish (hM : Mirrors jobs s (d :: r.active) r)
    (hH : Heard t service jobs moves (d :: r.active) r) {answer : Answer} (hd : d.phase = .awaiting answer)
    {stage : Stage} {result : Option (Outcome × Nat)} (ho : stage.isOver = true)
    (hs : Step p s (.reply d.job.index answer) (s.close d.job.index stage result)) :
    ∃ new s', Path p s new s' ∧ Mirrors jobs s' (r.finish d result).active (r.finish d result) ∧
      Heard t service jobs (moves ++ new) (r.finish d result).active (r.finish d result) := by
  let closed : Run σ := Run.note { r with free := r.free + 1, results := (d.job.index, result) :: r.results }
    (.ended d.job.index)
  have hp : closed.performed t service = r.performed t service := performed_note_ended rfl d.job.index
  have hMc : Mirrors jobs (s.close d.job.index stage result) closed.active closed := hM.close ho result rfl rfl rfl
  have hHc : Heard t service jobs (moves ++ [.reply d.job.index answer]) ([] ++ r.active) closed :=
    hH.reply hM hd (by simp) rfl hp
  obtain ⟨new, s', hpath, hM', hH'⟩ := exists_path_grant p hMc hHc
  refine ⟨_, s', (Path.single hs).trans hpath, hM', ?_⟩
  rwa [List.append_assoc] at hH'

/-- The next step of a delivery is a step of its task, and a permit that it gives back is passed on. -/
theorem exists_path_step (hM : Mirrors jobs s (d :: r.active) r) (hH : Heard t service jobs moves (d :: r.active) r) :
    ∃ new s', Path p s new s' ∧ Mirrors jobs s' (r.step p t d).active (r.step p t d) ∧
      Heard t service jobs (moves ++ new) (r.step p t d).active (r.step p t d) := by
  obtain ⟨hs, ha⟩ := hM.running d List.mem_cons_self
  cases hd : d.phase with
  | ready =>
    obtain ⟨new, hpath, hnew⟩ := exists_path_send p hM hd (t.send r.service d.job.request).1.answer
      (d.due + (t.send r.service d.job.request).1.latency)
    have hp := performed_step_of_ready (p := p) hd hH.state
    rw [step_of_ready hd] at hp ⊢
    refine ⟨new, _, hpath, Mirrors.perm ?_ (perm_resume _ _).symm, Heard.perm ?_ (perm_resume _ _).symm⟩
    · refine Mirrors.of_eq (hM.put ?_ ha) ?_ ?_ ?_ <;> rfl
    · refine hH.send hM hd ?_ ?_ ?_ hp hnew <;> rfl
  | awaiting answer =>
    have hsend : s.stages[d.job.index]? = some (.sending d.attempt) := by simpa [Delivery.stage, hd] using hs
    cases hj : p.judge d.attempt answer with
    | retry error wait => exact exists_path_retry hM hH hd hj
    | finish outcome =>
      rw [step_of_finish hd hj]
      refine exists_path_finish ?_ ?_ hd rfl (.finish hsend hj)
      · exact hM.of_eq rfl rfl rfl
      · exact hH.of_eq rfl (performed_log ..)
    | abort =>
      rw [step_of_abort hd hj]
      refine exists_path_finish ?_ ?_ hd rfl (.abort hsend hj)
      · exact hM.of_eq rfl rfl rfl
      · exact hH.of_eq rfl (performed_log ..)

/-! ### The whole run -/

/-- No permit is free while a delivery waits for one. -/
def Busy (r : Run σ) : Prop := r.queue = [] ∨ r.free = 0

theorem Busy.grant (h : r.Busy) : r.grant.Busy := by
  rcases r.grant_cases with ⟨he, -⟩ | ⟨job, queue, hq, hf, -⟩
  · rwa [he]
  · rcases h with h | h
    · simp [hq] at h
    · omega

theorem busy_foldl_grant (l : List Job) (r : Run σ) (hl : r.queue.length ≤ l.length ∨ r.Busy) :
    (l.foldl (fun r _ => r.grant) r).Busy := by
  induction l generalizing r with
  | nil => exact hl.elim (fun h => .inl (List.eq_nil_of_length_eq_zero (Nat.le_zero.1 h))) id
  | cons _ l ih =>
    refine ih r.grant ?_
    rcases r.grant_cases with ⟨he, hb⟩ | ⟨job, queue, hq, hf, he⟩
    · exact .inr (he.symm ▸ hb)
    · rcases hl with hl | hb
      · refine .inl ?_
        rw [he]
        simpa [hq, note] using hl
      · exact .inr hb.grant

theorem Busy.finish (h : r.Busy) (d : Delivery) (result : Option (Outcome × Nat)) : (r.finish d result).Busy := by
  rcases grant_cases (Run.note { r with free := r.free + 1, results := (d.job.index, result) :: r.results }
    (.ended d.job.index)) with ⟨he, hb⟩ | ⟨job, queue, hq, hf, he⟩
  · rw [Run.finish, he]
    exact hb
  · rw [Run.finish, he]
    rcases h with h | h
    · exact absurd (h.symm.trans hq) (by simp)
    · exact .inr (by simp [note, h])

theorem Busy.step (h : r.Busy) (p : RetryPolicy) (t : Transport σ) (d : Delivery) : (r.step p t d).Busy := by
  cases hd : d.phase with
  | ready =>
    rw [step_of_ready hd]
    exact h
  | awaiting answer =>
    cases hj : p.judge d.attempt answer with
    | retry error wait =>
      rw [step_of_retry hd hj]
      exact h
    | finish outcome =>
      rw [step_of_finish hd hj]
      exact Busy.finish (by exact h) d _
    | abort =>
      rw [step_of_abort hd hj]
      exact Busy.finish (by exact h) d _

/-- The states that a dispatch passes through. -/
inductive Passes (p : RetryPolicy) (t : Transport σ) (first : Run σ) : Run σ → Prop
  | refl : Passes p t first first
  | step {r d rest} (h : Passes p t first r) (he : earliest r.active = some (d, rest)) :
    Passes p t first (Run.step p t { r with active := rest } d)

theorem Passes.complete {first : Run σ} (h : Passes p t first r) : Passes p t first (r.complete p t) := by
  fun_induction Run.complete p t r with
  | case1 r _ => exact h
  | case2 r d rest he ih => exact ih (h.step he)

theorem active_complete (p : RetryPolicy) (t : Transport σ) (r : Run σ) : (r.complete p t).active = [] := by
  fun_induction Run.complete p t r with
  | case1 r he => exact earliest_eq_none_iff.1 he
  | case2 r d rest he ih => exact ih

/-- A state of a scheduled dispatch stands for a state that its tasks can come to. -/
structure Traced (p : RetryPolicy) (t : Transport σ) (service : σ) (permits n : Nat) (jobs : List Job)
    (moves : List Move) (s : Tasks) (r : Run σ) : Prop where
  path : Path p (Tasks.start permits n) moves s
  mirrors : Mirrors jobs s r.active r
  heard : Heard t service jobs moves r.active r
  busy : r.Busy

theorem mirrors_begin (hj : jobs.map Job.index = List.range n) (permits clock : Nat) (service : σ) :
    Mirrors jobs (Tasks.start permits n) [] ⟨service, clock, permits, jobs, [], [], []⟩ where
  free := rfl
  results := rfl
  queued job hm := by
    have : job.index ∈ List.range n := hj ▸ List.mem_map_of_mem hm
    simp [Tasks.start, List.mem_range.1 this]
  running := by simp
  nodup := by simpa [remaining, hj] using List.nodup_range
  known := by simp [remaining]
  complete i stage hi _ := by
    have hlt : i < n := by
      have := (List.getElem?_eq_some_iff.1 hi).1
      simpa [Tasks.start] using this
    have : i ∈ jobs.map Job.index := by rw [hj]; exact List.mem_range.2 hlt
    simpa [remaining] using this

theorem heard_begin (t : Transport σ) (service : σ) (jobs : List Job) (permits clock : Nat) :
    Heard t service jobs [] [] ⟨service, clock, permits, jobs, [], [], []⟩ :=
  ⟨rfl, by simp [Run.performed], by simp, by simp [Run.performed]⟩

theorem exists_path_foldl_grant (p : RetryPolicy) (l : List Job) (r : Run σ) (hM : Mirrors jobs s r.active r)
    (hH : Heard t service jobs moves r.active r) :
    ∃ new s', Path p s new s' ∧
      Mirrors jobs s' (l.foldl (fun r _ => r.grant) r).active (l.foldl (fun r _ => r.grant) r) ∧
      Heard t service jobs (moves ++ new) (l.foldl (fun r _ => r.grant) r).active
        (l.foldl (fun r _ => r.grant) r) := by
  induction l generalizing r moves s with
  | nil => exact ⟨[], s, .refl, hM, by simpa using hH⟩
  | cons _ l ih =>
    obtain ⟨new, s', hpath, hM', hH'⟩ := exists_path_grant p hM hH
    obtain ⟨new', s'', hpath', hM'', hH''⟩ := ih r.grant hM' hH'
    exact ⟨new ++ new', s'', hpath.trans hpath', hM'', by simpa using hH''⟩

theorem exists_traced_start (p : RetryPolicy) (t : Transport σ) (service : σ) (permits clock : Nat)
    (hj : jobs.map Job.index = List.range n) :
    ∃ moves s, Traced p t service permits n jobs moves s (Run.start permits clock service jobs) := by
  let first : Run σ := ⟨service, clock, permits, jobs, [], [], []⟩
  have hM : Mirrors jobs (Tasks.start permits n) first.active first := mirrors_begin hj permits clock service
  have hH : Heard t service jobs [] first.active first := heard_begin t service jobs permits clock
  obtain ⟨new, s, hpath, hM', hH'⟩ := exists_path_foldl_grant p jobs first hM hH
  exact ⟨new, s, hpath, hM', hH', busy_foldl_grant jobs first (.inl le_rfl)⟩

theorem Passes.exists_traced {clock : Nat} (hj : jobs.map Job.index = List.range n)
    (h : Passes p t (Run.start permits clock service jobs) r) :
    ∃ moves s, Traced p t service permits n jobs moves s r := by
  induction h with
  | refl => exact exists_traced_start p t service permits clock hj
  | @step r d rest _ he ih =>
    obtain ⟨moves, s, h⟩ := ih
    have hperm := perm_of_earliest he
    let r' : Run σ := { r with active := rest }
    have hM : Mirrors jobs s (d :: r'.active) r' := (h.mirrors.perm hperm).of_eq rfl rfl rfl
    have hH : Heard t service jobs moves (d :: r'.active) r' := (h.heard.perm hperm).of_eq rfl rfl
    have hb : r'.Busy := h.busy
    obtain ⟨new, s', hpath, hM', hH'⟩ := exists_path_step (p := p) hM hH
    exact ⟨moves ++ new, s', h.path.trans hpath, hM', hH', hb.step p t d⟩

/-- When no delivery is active any more, none waits for a permit. -/
theorem Traced.queue_eq_nil {p : RetryPolicy} (h : Traced p t service permits n jobs moves s r) (hp : 0 < permits)
    (ha : r.active = []) : r.queue = [] := by
  refine h.busy.resolve_right fun hf => ?_
  -- a permit that is not free is held by a task with an active delivery
  have hb := h.path.balanced
  have hlen : 0 < s.holders.length := by
    have := hb.total
    have := h.mirrors.free
    omega
  obtain ⟨i, hi⟩ := List.exists_mem_of_length_pos hlen
  obtain ⟨stage, hs, hr⟩ := (hb.holds i).1 hi
  obtain ⟨job, hm, rfl⟩ := h.mirrors.complete i stage hs (Stage.isOver_eq_false_of_isRunning hr)
  rw [remaining, ha, List.map_nil, List.append_nil] at hm
  obtain rfl : .waiting = stage := Option.some.inj ((h.mirrors.queued job hm).symm.trans hs)
  cases hr

/-- When no delivery is active any more, all tasks have ended. -/
theorem Traced.isOver {p : RetryPolicy} (h : Traced p t service permits n jobs moves s r) (hp : 0 < permits)
    (ha : r.active = []) : s.IsOver := by
  intro stage hm
  obtain ⟨i, hi⟩ := List.mem_iff_getElem?.1 hm
  by_contra ho
  obtain ⟨job, hj, -⟩ := h.mirrors.complete i stage hi (by simpa using ho)
  simp [remaining, ha, h.queue_eq_nil hp ha] at hj

end Run

/-! ### The dispatch -/

namespace Dispatcher

variable {σ : Type}

theorem one_le_permits (d : Dispatcher) : 1 ≤ d.permits := Nat.le_max_right ..

theorem map_index_jobs (devices : List Device) (message : Message) :
    (jobs devices message).map Job.index = List.range devices.length := by
  rw [jobs, List.map_map, List.range_eq_range', ← List.zipIdx_map_snd 0 devices]
  rfl

theorem mem_jobs {devices : List Device} {message : Message} {job : Job} (h : job ∈ jobs devices message) :
    devices[job.index]? = some job.device ∧ job.request = Fcm.Request.build .standard job.device message := by
  obtain ⟨⟨device, index⟩, hm, rfl⟩ := List.mem_map.1 h
  exact ⟨List.mem_zipIdx_iff_getElem?.1 hm, rfl⟩

/-- Sends of deliveries to the given devices. -/
def SendsTo (devices : List Device) (message : Message) (sends : List Performed) : Prop :=
  ∀ x ∈ sends, ∃ device, devices[x.index]? = some device ∧ x.request = Fcm.Request.build .standard device message

/-- A dispatch that has ended, as the end of a path of its tasks: it reports their results, and each task has had
the answers that the transport gave to the sends for its device. -/
structure Realizes (d : Dispatcher) (t : Transport σ) (service : σ) (devices : List Device) (message : Message)
    (x : Dispatched σ) (moves : List Move) (s : Tasks) : Prop where
  path : Path d.retry (Tasks.start d.permits devices.length) moves s
  ended : s.IsOver
  reports : x.summary.reports = Dispatcher.reports devices s.results
  answers : ∀ i, answersAt i (t.performed service x.trace) = answersOf i moves
  state : x.service = t.after service ((t.performed service x.trace).map Performed.request)
  sends : SendsTo devices message (t.performed service x.trace)

/-- A dispatch with devices is its scheduled run until no delivery is active, between an event that it begins and one
with the counts of its summary. -/
theorem exists_passes (d : Dispatcher) (hp : d.permits ≤ maxPermits) (t : Transport σ) (service : σ) (clock : Nat)
    {devices : List Device} (hne : devices ≠ []) (message : Message) :
    ∃ x r, d.dispatch t service clock devices message = some x ∧
      Run.Passes d.retry t (Run.start d.permits clock service (jobs devices message)) r ∧ r.active = [] ∧
      x.summary.reports = Dispatcher.reports devices r.results ∧ x.service = r.service ∧ x.clock = r.clock ∧
      x.trace = (clock, .logged (.dispatching message.title devices.length d.permits)) :: r.trace.reverse ++
        [(r.clock, .logged (.dispatched x.summary.delivered x.summary.failed x.summary.staleTokens.length))] := by
  have he : devices.isEmpty = false := by simpa using hne
  refine ⟨_, _, by simp only [dispatch, he, if_neg (Nat.not_lt.2 hp)]; rfl, Run.Passes.refl.complete,
    Run.active_complete .., rfl, rfl, rfl, rfl⟩

/-- With as many permits as there can be at most, every dispatch comes to an end. -/
theorem exists_realizes (d : Dispatcher) (hp : d.permits ≤ maxPermits) (t : Transport σ) (service : σ) (clock : Nat)
    (devices : List Device) (message : Message) :
    ∃ x moves s, d.dispatch t service clock devices message = some x ∧
      d.Realizes t service devices message x moves s := by
  rcases eq_or_ne devices [] with rfl | hne
  · refine ⟨_, [], Tasks.start d.permits 0, rfl, .refl, ?_, rfl, fun i => rfl, rfl, ?_⟩
    · simp [Tasks.IsOver, Tasks.start]
    · simp [SendsTo]
  · obtain ⟨x, r, hx, hpass, ha, hreports, hservice, -, htrace⟩ :=
      d.exists_passes hp t service clock hne message
    obtain ⟨moves, s, h⟩ := hpass.exists_traced (map_index_jobs devices message)
    have hperformed : t.performed service x.trace = r.performed t service := htrace ▸ r.performed_framed ..
    refine ⟨x, moves, s, hx, h.path, h.isOver d.one_le_permits ha, ?_, fun i => ?_, ?_, fun y hy => ?_⟩
    · rw [hreports, h.mirrors.results]
    · rw [hperformed]
      exact h.heard.others i (by simp [ha])
    · rw [hperformed, hservice]
      exact h.heard.state
    · rw [hperformed] at hy
      obtain ⟨job, hj, hi, hr⟩ := h.heard.sends y hy
      obtain ⟨hd, hb⟩ := mem_jobs hj
      exact ⟨job.device, hi ▸ hd, hr.symm.trans hb⟩

end Dispatcher

end PushDispatch
