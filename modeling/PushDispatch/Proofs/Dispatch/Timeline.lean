import PushDispatch.Proofs.Dispatch.Greedy
import PushDispatch.Proofs.Dispatch.Pace
import PushDispatch.Proofs.Dispatch.Schedule

/-! The times of a scheduled dispatch. Its clock goes from one due moment to the next, and at each of its states the
trace tells when the deliveries got their permits and gave them back: greedily in the order of the queue, and each
after the course of its own sends and waits. -/

namespace PushDispatch

open Spans (Greedy Crowded)

/-- The delivery that gets a permit. -/
def Happening.begun? : Happening → Option Nat
  | .started i => some i
  | _ => none

/-- The delivery that gives its permit back. -/
def Happening.over? : Happening → Option Nat
  | .ended i => some i
  | _ => none

/-- When the delivery with an index has come to one of its turns. -/
def moments (turn : Happening → Option Nat) (index : Nat) (trace : List (Nat × Happening)) : List Nat :=
  (trace.filter fun x => turn x.2 = some index).map Prod.fst

@[simp] theorem moments_nil (turn : Happening → Option Nat) (i : Nat) : moments turn i [] = [] := rfl

@[simp] theorem moments_cons (turn : Happening → Option Nat) (i : Nat) (x : Nat × Happening)
    (trace : List (Nat × Happening)) :
    moments turn i (x :: trace) = if turn x.2 = some i then x.1 :: moments turn i trace else moments turn i trace := by
  by_cases h : turn x.2 = some i <;> simp [moments, h]

@[simp] theorem moments_append (turn : Happening → Option Nat) (i : Nat) (xs ys : List (Nat × Happening)) :
    moments turn i (xs ++ ys) = moments turn i xs ++ moments turn i ys := by
  simp [moments]

@[simp] theorem moments_reverse (turn : Happening → Option Nat) (i : Nat) (trace : List (Nat × Happening)) :
    moments turn i trace.reverse = (moments turn i trace).reverse := by
  simp [moments, List.filter_reverse]

theorem moments_eq_nil {turn : Happening → Option Nat} {trace : List (Nat × Happening)}
    (h : ∀ x ∈ trace, turn x.2 = none) (i : Nat) : moments turn i trace = [] := by
  have hf : trace.filter (fun x => turn x.2 = some i) = [] :=
    List.filter_eq_nil_iff.2 fun x hx => by simp [h x hx]
  rw [moments, hf, List.map_nil]

/-- The deliveries that have got permits, in the order in which they got them. -/
def begunIn (trace : List (Nat × Happening)) : List Nat := trace.filterMap fun x => x.2.begun?

@[simp] theorem begunIn_append (xs ys : List (Nat × Happening)) : begunIn (xs ++ ys) = begunIn xs ++ begunIn ys :=
  List.filterMap_append ..

/-- No delivery that is left is due before the one that is taken out. -/
theorem due_le_of_earliest {ds rest : List Delivery} {d : Delivery} (h : earliest ds = some (d, rest)) :
    ∀ e ∈ rest, d.due ≤ e.due := by
  induction ds generalizing d rest with
  | nil => simp [earliest] at h
  | cons f fs ih =>
    unfold earliest at h
    split at h
    · cases h
      simp
    · next g others hs =>
      have hg := ih hs
      split at h <;> cases h <;> intro e he
      · rcases List.mem_cons.1 he with rfl | he
        · omega
        · exact hg e he
      · rcases List.mem_cons.1 ((perm_of_earliest hs).mem_iff.1 he) with rfl | he
        · omega
        · have := hg e he
          omega

namespace Run

variable {σ : Type} {t : Transport σ} {service : σ} {p : RetryPolicy} {jobs : List Job} {first permits n m : Nat}
  {s : Spans} {active : List Delivery} {r q : Run σ} {d : Delivery}

/-- The trace has the times of a greedy schedule, of which the first `m` deliveries have begun and the others are in
the queue. -/
structure Timed (first permits n m : Nat) (s : Spans) (active : List Delivery) (r : Run σ) : Prop where
  greedy : Greedy first permits s r.clock m (active.map fun d => d.job.index)
  crowded : r.queue ≠ [] → Crowded first permits s r.clock m
  queue : r.queue.map Job.index = List.range' m (n - m)
  le : m ≤ n
  free : r.free + active.length = permits
  due : ∀ d ∈ active, r.clock ≤ d.due
  order : begunIn r.trace.reverse = List.range m
  started : ∀ i, moments Happening.begun? i r.trace = (s.start i).toList
  ended : ∀ i, moments Happening.over? i r.trace = (s.stop i).toList

/-- The sends of each delivery have kept the pace of its policy; with a single permit they come delivery by
delivery. -/
structure Paced (p : RetryPolicy) (t : Transport σ) (service : σ) (permits m : Nat) (s : Spans)
    (active : List Delivery) (r : Run σ) : Prop where
  unsent : ∀ x ∈ r.performed t service, x.index < m
  running : ∀ d ∈ active, ∃ a, s.start d.job.index = some a ∧
    d.OnTime p a (sendsAt d.job.index (r.performed t service))
  course : ∀ i a b, s.start i = some a → s.stop i = some b →
    ∃ waits, Course p a b (sendsAt i (r.performed t service)) waits
  inLine : permits = 1 → (r.performed t service).Pairwise fun x y => x.index ≤ y.index

/-- A state of a scheduled dispatch whose times and sends are as they should be. -/
def Charted (p : RetryPolicy) (t : Transport σ) (service : σ) (first permits n : Nat) (r : Run σ) : Prop :=
  ∃ m s, Timed first permits n m s r.active r ∧ Paced p t service permits m s r.active r

theorem Timed.perm (h : Timed first permits n m s active r) {active' : List Delivery} (hp : active.Perm active') :
    Timed first permits n m s active' r :=
  { h with
    greedy := h.greedy.perm (hp.map _)
    free := hp.length_eq ▸ h.free
    due := fun d hd => h.due d (hp.mem_iff.2 hd) }

theorem Paced.perm (h : Paced p t service permits m s active r) {active' : List Delivery} (hp : active.Perm active') :
    Paced p t service permits m s active' r :=
  { h with running := fun d hd => h.running d (hp.mem_iff.2 hd) }

theorem Paced.of_eq (h : Paced p t service permits m s active r)
    (hp : q.performed t service = r.performed t service) : Paced p t service permits m s active q :=
  ⟨hp ▸ h.unsent, hp ▸ h.running, hp ▸ h.course, hp ▸ h.inLine⟩

theorem Timed.resume (h : Timed first permits n m s (d :: r.active) r) :
    Timed first permits n m s (r.resume d).active (r.resume d) :=
  { h.perm (perm_resume r d).symm with }

theorem Paced.resume (h : Paced p t service permits m s (d :: r.active) r) :
    Paced p t service permits m s (r.resume d).active (r.resume d) :=
  (h.perm (perm_resume r d).symm).of_eq (performed_resume t service r d)

/-! ### What time does -/

/-- The clock goes on to the next due moment, and no permit is given or taken. -/
theorem Timed.advance (h : Timed first permits n m s (d :: active) r) (hmin : ∀ e ∈ active, d.due ≤ e.due)
    (hb : r.Busy) (hc : q.clock = d.due) (hf : q.free = r.free) (hq : q.queue = r.queue)
    (others : List (Nat × Happening)) (ht : q.trace = others ++ r.trace)
    (hn : ∀ x ∈ others, x.2.begun? = none ∧ x.2.over? = none) :
    Timed first permits n m s (d :: active) q where
  greedy := hc ▸ h.greedy.advance (h.due d List.mem_cons_self)
  crowded hne := by
    have hfull : r.free = 0 := hb.resolve_left (hq ▸ hne)
    have := h.free
    exact hc ▸ (h.crowded (hq ▸ hne)).advance h.greedy (by rw [List.length_map]; omega) d.due
  queue := hq ▸ h.queue
  le := h.le
  free := hf ▸ h.free
  due e hm := hc ▸ (List.mem_cons.1 hm).elim (fun he => he ▸ le_rfl) (hmin e)
  order := by
    have hnil : begunIn others.reverse = [] :=
      List.filterMap_eq_nil_iff.2 fun x hx => (hn x (List.mem_reverse.1 hx)).1
    rw [ht, List.reverse_append, begunIn_append, h.order, hnil, List.append_nil]
  started i := by rw [ht, moments_append, moments_eq_nil fun x hx => (hn x hx).1, List.nil_append, h.started]
  ended i := by rw [ht, moments_append, moments_eq_nil fun x hx => (hn x hx).2, List.nil_append, h.ended]

/-- A delivery goes on. -/
theorem Timed.put (h : Timed first permits n m s (d :: active) r) {d' : Delivery} (hj : d'.job = d.job)
    (hd : r.clock ≤ d'.due) : Timed first permits n m s (d' :: active) r :=
  { h with
    greedy := by simpa [hj] using h.greedy
    free := by simpa using h.free
    due := List.forall_mem_cons.2 ⟨hd, fun e he => h.due e (List.mem_cons_of_mem _ he)⟩ }

/-- A delivery gives its permit back. -/
theorem Timed.close (h : Timed first permits n m s (d :: active) r) (hc : q.clock = r.clock)
    (hf : q.free = r.free + 1) (hq : q.queue = r.queue) (ht : q.trace = (r.clock, .ended d.job.index) :: r.trace) :
    Timed first permits n m (s.leave d.job.index r.clock) active q := by
  have hn : s.stop d.job.index = none := ((h.greedy.mem_active _).1 (by simp)).2
  rw [← hc]
  refine ⟨Greedy.leave (hc ▸ h.greedy), fun hne => ?_, hq ▸ h.queue, h.le, ?_,
    fun e he => hc ▸ h.due e (List.mem_cons_of_mem _ he), ?_, fun i => ?_, fun i => ?_⟩
  · exact Crowded.leave (hc ▸ h.crowded (hq ▸ hne)) hn
  · have := h.free
    rw [List.length_cons] at this
    omega
  · rw [ht, List.reverse_cons, begunIn_append, h.order]
    exact List.append_nil _
  · simpa [ht, Happening.begun?] using h.started i
  · by_cases e : d.job.index = i
    · subst e
      simp [ht, hc, Happening.over?, h.ended, hn]
    · simp [ht, Happening.over?, e, h.ended, s.stop_leave_of_ne (Ne.symm e)]

/-- The first delivery of the queue gets a permit. -/
theorem Timed.acquire (h : Timed first permits n m s active r) {job : Job} {queue : List Job}
    (hq : r.queue = job :: queue) (hfree : 0 < r.free) (hc : q.clock = r.clock) (hf : q.free = r.free - 1)
    (hq' : q.queue = queue) (ht : q.trace = (r.clock, .started job.index) :: r.trace) :
    job.index = m ∧
      Timed first permits n (m + 1) (s.enter m r.clock) (⟨job, 1, .ready, r.clock⟩ :: active) q := by
  have hcrowd := h.crowded (by simp [hq])
  have htotal := h.free
  obtain ⟨hlt, hjob, htail⟩ : m < n ∧ job.index = m ∧ queue.map Job.index = List.range' (m + 1) (n - (m + 1)) := by
    have hqueue := h.queue
    rw [hq, List.map_cons] at hqueue
    cases hk : n - m with
    | zero => simp [hk] at hqueue
    | succ k =>
      rw [hk, List.range'_succ] at hqueue
      obtain ⟨hj, htail⟩ := List.cons.inj hqueue
      have : n - (m + 1) = k := by omega
      exact ⟨by omega, hj, this ▸ htail⟩
  have hw := h.greedy.waiting m le_rfl
  subst hjob
  rw [← hc] at hcrowd ⊢
  have hg : Greedy first permits s q.clock job.index (active.map fun d => d.job.index) := hc ▸ h.greedy
  refine ⟨rfl, ?_, fun _ => hcrowd.enter, hq' ▸ htail, hlt, ?_, ?_, ?_, fun i => ?_, fun i => ?_⟩
  · exact hg.enter (by rw [List.length_map]; omega) hcrowd
  · rw [List.length_cons]
    omega
  · exact List.forall_mem_cons.2 ⟨le_rfl, hc ▸ h.due⟩
  · rw [ht, List.reverse_cons, begunIn_append, h.order, List.range_succ]
    rfl
  · by_cases e : job.index = i
    · subst e
      simp [ht, hc, Happening.begun?, h.started, hw.1]
    · simp [ht, Happening.begun?, e, h.started, s.start_enter_of_ne (Ne.symm e)]
  · simpa [ht, Happening.over?] using h.ended i

/-! ### What the sends do -/

/-- A delivery sends when it is due. -/
theorem Paced.send (h : Paced p t service permits m s (d :: active) r)
    (hg : Greedy first permits s r.clock m ((d :: active).map fun d => d.job.index)) (hd : d.phase = .ready)
    {x : Performed} (hx : x.time = d.due) (hi : x.index = d.job.index) {d' : Delivery} (hj : d'.job = d.job)
    (ha : d'.attempt = d.attempt) (hp' : d'.phase = .awaiting x.sent.answer) (hdue : d'.due = d.due + x.sent.latency)
    (hp : q.performed t service = r.performed t service ++ [x]) :
    Paced p t service permits m s (d' :: active) q := by
  obtain ⟨hlt, hn⟩ := (hg.mem_active d.job.index).1 (by simp)
  have hne : ∀ e ∈ active, d.job.index ≠ e.job.index := fun e he heq =>
    (List.nodup_cons.1 hg.nodup).1 (List.mem_map.2 ⟨e, he, heq.symm⟩)
  refine ⟨fun y hy => ?_, fun e he => ?_, fun i a b hs hb => ?_, fun h1 => ?_⟩
  · rw [hp, List.mem_append, List.mem_singleton] at hy
    rcases hy with hy | rfl
    · exact h.unsent y hy
    · exact hi ▸ hlt
  · rcases List.mem_cons.1 he with rfl | he
    · obtain ⟨a, hs, ho⟩ := h.running d List.mem_cons_self
      refine ⟨a, hj ▸ hs, ?_⟩
      simpa [hp, hj, hi] using ho.send hd hx ha hp' hdue
    · simpa [hp, hi, hne e he] using h.running e (List.mem_cons_of_mem _ he)
  · have : d.job.index ≠ i := by
      rintro rfl
      simp [hn] at hb
    simpa [hp, hi, this] using h.course i a b hs hb
  · -- the only delivery under way is the last one that has begun
    subst h1
    have hm : d.job.index + 1 = m := hg.succ_eq_of_mem (by simp)
    rw [hp]
    refine List.pairwise_append.2 ⟨h.inLine rfl, List.pairwise_singleton .., fun y hy z hz => ?_⟩
    obtain rfl := List.mem_singleton.1 hz
    have := h.unsent y hy
    omega

/-- A delivery is to send again. -/
theorem Paced.retry (h : Paced p t service permits m s (d :: active) r) {answer : Answer}
    (hd : d.phase = .awaiting answer) {error : PushError} {wait : Duration}
    (hj : p.judge d.attempt answer = .retry error wait) {d' : Delivery} (hjob : d'.job = d.job)
    (ha : d'.attempt = d.attempt + 1) (hp : d'.phase = .ready) (hdue : d'.due = d.due + wait.nanos) :
    Paced p t service permits m s (d' :: active) r :=
  { h with
    running := List.forall_mem_cons.2 ⟨by
      obtain ⟨a, hs, ho⟩ := h.running d List.mem_cons_self
      exact ⟨a, hjob ▸ hs, hjob ▸ ho.retry hd hj ha hp hdue⟩, fun e he => h.running e (List.mem_cons_of_mem _ he)⟩ }

/-- A delivery ends with its last answer. -/
theorem Paced.close (h : Paced p t service permits m s (d :: active) r) {answer : Answer}
    (hd : d.phase = .awaiting answer) : Paced p t service permits m (s.leave d.job.index d.due) active r where
  unsent := h.unsent
  running e he := h.running e (List.mem_cons_of_mem _ he)
  course i a b hs hb := by
    by_cases e : i = d.job.index
    · subst e
      obtain rfl : d.due = b := by simpa using hb
      obtain ⟨a', hs', ho⟩ := h.running d List.mem_cons_self
      obtain rfl := Option.some.inj (hs'.symm.trans hs)
      exact ho.exists_course hd
    · exact h.course i a b hs (s.stop_leave_of_ne e d.due ▸ hb)
  inLine := h.inLine

/-- A delivery that begins has sent nothing yet. -/
theorem Paced.acquire (h : Paced p t service permits m s active r) {job : Job} (hj : job.index = m) (clock : Nat)
    (hn : s.start m = none ∧ s.stop m = none) :
    Paced p t service permits (m + 1) (s.enter m clock) (⟨job, 1, .ready, clock⟩ :: active) r where
  unsent x hx := Nat.lt_succ_of_lt (h.unsent x hx)
  running e he := by
    rcases List.mem_cons.1 he with rfl | he
    · have hnil : sendsAt job.index (r.performed t service) = [] := by
        refine List.filter_eq_nil_iff.2 fun x hx => ?_
        have := h.unsent x hx
        simp only [decide_eq_true_eq]
        omega
      exact ⟨clock, by simp [hj], hnil ▸ Delivery.onTime_begin p clock job⟩
    · obtain ⟨a, hs, ho⟩ := h.running e he
      have : e.job.index ≠ m := by
        intro heq
        rw [heq, hn.1] at hs
        cases hs
      exact ⟨a, (s.start_enter_of_ne this clock).trans hs, ho⟩
  course i a b hs hb := by
    have : i ≠ m := by
      rintro rfl
      exact absurd (hn.2.symm.trans hb) (by simp)
    exact h.course i a b (s.start_enter_of_ne this clock ▸ hs) hb
  inLine := h.inLine

/-! ### One step -/

theorem Charted.grant (h : r.Charted p t service first permits n) : r.grant.Charted p t service first permits n := by
  obtain ⟨m, s, hT, hP⟩ := h
  rcases r.grant_cases with ⟨he, -⟩ | ⟨job, queue, hq, hf, he⟩
  · exact ⟨m, s, by rwa [he], by rwa [he]⟩
  · have hperm : (⟨job, 1, .ready, r.clock⟩ :: r.active).Perm r.grant.active := by
      rw [he]
      exact (List.perm_append_singleton _ r.active).symm
    obtain ⟨hj, hT'⟩ := hT.acquire (q := r.grant) hq hf (by rw [he]; rfl) (by rw [he]; rfl) (by rw [he]; rfl)
      (by rw [he]; rfl)
    have hP' := (hP.acquire hj r.clock (hT.greedy.waiting m le_rfl)).of_eq (r.performed_grant t service)
    exact ⟨_, _, hT'.perm hperm, hP'.perm hperm⟩

/-- A delivery that ends hands its permit on. -/
theorem charted_finish (hT : Timed first permits n m s (d :: r.active) r)
    (hP : Paced p t service permits m s (d :: r.active) r) (hc : r.clock = d.due) {answer : Answer}
    (hd : d.phase = .awaiting answer) (result : Option (Outcome × Nat)) :
    (r.finish d result).Charted p t service first permits n := by
  let closed : Run σ := Run.note { r with free := r.free + 1, results := (d.job.index, result) :: r.results }
    (.ended d.job.index)
  have hp : closed.performed t service = r.performed t service := performed_note_ended rfl d.job.index
  have hTc : Timed first permits n m (s.leave d.job.index d.due) closed.active closed :=
    hc ▸ hT.close rfl rfl rfl rfl
  have hPc : Paced p t service permits m (s.leave d.job.index d.due) closed.active closed := (hP.close hd).of_eq hp
  exact Charted.grant ⟨m, _, hTc, hPc⟩

/-- The next step of the delivery that is due first. -/
theorem charted_step (hT : Timed first permits n m s (d :: r.active) r)
    (hP : Paced p t service permits m s (d :: r.active) r) (hmin : ∀ e ∈ r.active, d.due ≤ e.due) (hb : r.Busy)
    (hs : r.service = t.after service ((r.performed t service).map Performed.request)) :
    (r.step p t d).Charted p t service first permits n := by
  cases hd : d.phase with
  | ready =>
    have hp := performed_step_of_ready (p := p) hd hs
    rw [step_of_ready hd] at hp ⊢
    refine ⟨m, s, Timed.resume (Timed.put (d := d) (hT.advance hmin hb ?_ ?_ ?_ _ (List.append_cons ..) ?_) ?_ ?_),
      Paced.resume (hP.send hT.greedy hd ?_ ?_ ?_ ?_ ?_ ?_ hp)⟩
    case refine_4 =>
      intro x hx
      rcases List.mem_append.1 hx with hx | hx
      · obtain ⟨event, -, rfl⟩ := List.mem_map.1 (List.mem_reverse.1 hx)
        exact ⟨rfl, rfl⟩
      · obtain rfl := List.mem_singleton.1 hx
        exact ⟨rfl, rfl⟩
    case refine_6 => exact Nat.le_add_right ..
    all_goals rfl
  | awaiting answer =>
    have hlog : ∀ event, Timed first permits n m s (d :: r.active) (Run.log { r with clock := d.due } event) :=
      fun event => hT.advance hmin hb rfl rfl rfl [(d.due, .logged event)] rfl
        (by simp [Happening.begun?, Happening.over?])
    have hPlog : ∀ event, Paced p t service permits m s (d :: r.active) (Run.log { r with clock := d.due } event) :=
      fun event => hP.of_eq (performed_log ..)
    cases hj : p.judge d.attempt answer with
    | retry error wait =>
      rw [step_of_retry hd hj]
      refine ⟨m, s, Timed.resume ((hlog _).put ?_ ?_), Paced.resume ((hPlog _).retry hd hj ?_ ?_ ?_ ?_)⟩
      case refine_2 => exact Nat.le_add_right ..
      all_goals rfl
    | finish outcome =>
      rw [step_of_finish hd hj]
      exact charted_finish (hlog _) (hPlog _) rfl hd _
    | abort =>
      rw [step_of_abort hd hj]
      exact charted_finish (hlog _) (hPlog _) rfl hd _

/-! ### The whole run -/

theorem Charted.foldl_grant (l : List Job) (h : r.Charted p t service first permits n) :
    (l.foldl (fun r _ => r.grant) r).Charted p t service first permits n := by
  induction l generalizing r with
  | nil => exact h
  | cons _ l ih => exact ih h.grant

theorem charted_start (p : RetryPolicy) (t : Transport σ) (service : σ) (permits clock : Nat)
    (hj : jobs.map Job.index = List.range n) :
    (Run.start permits clock service jobs).Charted p t service clock permits n := by
  let begin : Run σ := ⟨service, clock, permits, jobs, [], [], []⟩
  have hT : Timed clock permits n 0 .idle begin.active begin :=
    { greedy := Spans.greedy_idle clock permits
      crowded := fun _ => Spans.crowded_first clock permits .idle 0
      queue := hj.trans List.range_eq_range'
      le := Nat.zero_le n
      free := rfl
      due := by simp [begin]
      order := rfl
      started := fun _ => rfl
      ended := fun _ => rfl }
  have hP : Paced p t service permits 0 .idle begin.active begin :=
    { unsent := by simp [begin, Run.performed]
      running := by simp [begin]
      course := by simp [Spans.idle]
      inLine := by simp [begin, Run.performed] }
  exact Charted.foldl_grant jobs ⟨0, .idle, hT, hP⟩

/-- Every state that a dispatch passes through is charted. -/
theorem Passes.charted {clock : Nat} (hj : jobs.map Job.index = List.range n)
    (h : Passes p t (Run.start permits clock service jobs) r) : r.Charted p t service clock permits n := by
  induction h with
  | refl => exact charted_start p t service permits clock hj
  | @step r d rest hr he ih =>
    obtain ⟨m, s, hT, hP⟩ := ih
    obtain ⟨moves, u, htraced⟩ := hr.exists_traced hj
    have hperm := perm_of_earliest he
    let r' : Run σ := { r with active := rest }
    have hT' : Timed clock permits n m s (d :: r'.active) r' := { hT.perm hperm with }
    have hP' : Paced p t service permits m s (d :: r'.active) r' := (hP.perm hperm).of_eq rfl
    exact charted_step hT' hP' (due_le_of_earliest he) htraced.busy htraced.heard.state

end Run

end PushDispatch
