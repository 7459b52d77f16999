import PushDispatch.Proofs.Dispatch.Timeline

/-! The times of a dispatch that has ended: when each delivery had its permit, how its sends were spaced, and how the
deliveries followed each other. -/

namespace PushDispatch

open Spans (Greedy)

/-- How many of the first `n` deliveries are under way at a moment, if they begin and end at the given times. -/
def running (start stop : Nat → Nat) (n time : Nat) : Nat :=
  (List.range n).countP fun k => start k ≤ time ∧ time < stop k

/-- The times of a dispatch to `n` devices: a greedy schedule in which each delivery keeps its pace. -/
structure Dispatched.Keeps {σ : Type} (x : Dispatched σ) (d : Dispatcher) (t : Transport σ) (service : σ)
    (clock n : Nat) (s : Spans) : Prop where
  greedy : Greedy clock d.permits s x.clock n []
  order : begunIn x.trace = List.range n
  started : ∀ i, moments Happening.begun? i x.trace = (s.start i).toList
  ended : ∀ i, moments Happening.over? i x.trace = (s.stop i).toList
  course : ∀ i a b, s.start i = some a → s.stop i = some b →
    ∃ waits, Course d.retry a b (sendsAt i (t.performed service x.trace)) waits
  inLine : d.permits = 1 → (t.performed service x.trace).Pairwise fun y z => y.index ≤ z.index

namespace Dispatched

variable {σ : Type} {x : Dispatched σ} {d : Dispatcher} {t : Transport σ} {service : σ} {clock n i : Nat} {s : Spans}

/-- Every delivery has begun and ended. -/
theorem Keeps.exists_times (h : x.Keeps d t service clock n s) :
    ∃ start stop : Nat → Nat, ∀ i < n, s.start i = some (start i) ∧ s.stop i = some (stop i) := by
  refine ⟨fun i => (s.start i).getD 0, fun i => (s.stop i).getD 0, fun i hi => ?_⟩
  obtain ⟨a, ha, -⟩ := h.greedy.started i hi
  have hb : s.stop i ≠ none := fun hn => by simpa using (h.greedy.mem_active i).2 ⟨hi, hn⟩
  obtain ⟨b, hb⟩ := Option.ne_none_iff_exists'.1 hb
  simp [ha, hb]

theorem busy_eq_running {start stop : Nat → Nat}
    (hs : ∀ i < n, s.start i = some (start i) ∧ s.stop i = some (stop i)) {k : Nat} (hk : k ≤ n) (time : Nat) :
    s.busy k time = running start stop k time := by
  refine List.countP_congr fun i hi => ?_
  obtain ⟨ha, hb⟩ := hs i ((List.mem_range.1 hi).trans_le hk)
  simp [Spans.runs, ha, hb]

end Dispatched

namespace Dispatcher

variable {σ : Type}

/-- Every dispatch comes to an end with the times of a greedy schedule. -/
theorem exists_keeps (d : Dispatcher) (hp : d.permits ≤ maxPermits) (t : Transport σ) (service : σ) (clock : Nat)
    (devices : List Device) (message : Message) :
    ∃ x s, d.dispatch t service clock devices message = some x ∧ x.Keeps d t service clock devices.length s := by
  rcases eq_or_ne devices [] with rfl | hne
  · refine ⟨_, .idle, rfl, Spans.greedy_idle clock d.permits, rfl, fun i => ?_, fun i => ?_, ?_, fun _ => .nil⟩
    · simp [Happening.begun?, Spans.idle]
    · simp [Happening.over?, Spans.idle]
    · simp [Spans.idle]
  · obtain ⟨x, r, hx, hpass, ha, -, -, hclock, htrace⟩ := d.exists_passes hp t service clock hne message
    have hj := map_index_jobs devices message
    obtain ⟨m, s, hT, hP⟩ := hpass.charted hj
    obtain ⟨moves, u, htraced⟩ := hpass.exists_traced hj
    obtain rfl : m = devices.length := by
      have hqueue := hT.queue
      rw [htraced.queue_eq_nil d.one_le_permits ha, List.map_nil, eq_comm, List.range'_eq_nil_iff] at hqueue
      have := hT.le
      omega
    have hperformed : t.performed service x.trace = r.performed t service := htrace ▸ r.performed_framed ..
    have hmoments : ∀ turn : Happening → Option Nat, (∀ event, turn (.logged event) = none) →
        ∀ i o, moments turn i r.trace = Option.toList o → moments turn i x.trace = o.toList := by
      intro turn hturn i o ho
      cases o <;> simp [htrace, hturn, ho]
    refine ⟨x, s, hx, ?_, ?_, fun i => hmoments _ (fun _ => rfl) i _ (hT.started i),
      fun i => hmoments _ (fun _ => rfl) i _ (hT.ended i), ?_, ?_⟩
    · have hg := hT.greedy
      rwa [ha, List.map_nil, ← hclock] at hg
    · rw [htrace, List.cons_append, begunIn, List.filterMap_cons, ← begunIn, begunIn_append, hT.order]
      exact List.append_nil _
    · rw [hperformed]
      exact hP.course
    · rw [hperformed]
      exact hP.inLine

/-- A delivery sends at once when it has got its permit, waits after each answer but the last for exactly as long as the
policy or the service asks for after this answer, whichever is longer, and gives the permit back with the last answer. It
holds the permit for as long as its answers and waits take together. -/
theorem sends_paced (d : Dispatcher) (hp : d.permits ≤ maxPermits) (t : Transport σ) (service : σ) (clock : Nat)
    (devices : List Device) (message : Message) :
    ∃ x, d.dispatch t service clock devices message = some x ∧
      ∀ i < devices.length, ∃ start stop waits,
        moments Happening.begun? i x.trace = [start] ∧ moments Happening.over? i x.trace = [stop] ∧
        Course d.retry start stop (sendsAt i (t.performed service x.trace)) waits ∧
        ∀ k wait, waits[k]? = some wait → ∃ y error, (sendsAt i (t.performed service x.trace))[k]? = some y ∧
          y.sent.answer = .refused error ∧ (d.retry.delayAfter (k + 1)).nanos ≤ wait ∧
          ∀ asked, error.retryAfter = some asked → asked.nanos ≤ wait := by
  obtain ⟨x, s, hx, h⟩ := d.exists_keeps hp t service clock devices message
  obtain ⟨start, stop, hs⟩ := h.exists_times
  refine ⟨x, hx, fun i hi => ?_⟩
  obtain ⟨ha, hb⟩ := hs i hi
  obtain ⟨waits, hc⟩ := h.course i _ _ ha hb
  exact ⟨start i, stop i, waits, by rw [h.started, ha]; rfl, by rw [h.ended, hb]; rfl, hc, fun k wait => hc.le_wait⟩

/-- The first answer takes 10 milliseconds and asks for a wait of a second, longer than the policy's; the second one
takes 20 milliseconds. -/
theorem sends_paced_asked_to_wait :
    let d : Dispatcher := ⟨1, ⟨2, .ofMillis 100, .ofMillis 400⟩⟩
    let t : Transport Nat := ⟨fun n _ => if n = 0
      then (⟨10000000, .refused (.rejected 429 "" true (some (.ofSeconds 1))), []⟩, 1)
      else (⟨20000000, .accepted "id", []⟩, n + 1)⟩
    d.permits ≤ maxPermits ∧ ∃ x, d.dispatch t 0 7 [⟨"a", .web⟩] (.ofText "" "") = some x ∧
      ∃ waits, Course d.retry 7 1030000007 (sendsAt 0 (t.performed 0 x.trace)) waits := by
  intro d t
  have hp : d.permits ≤ maxPermits := by decide
  obtain ⟨x, hx, h⟩ := sends_paced d hp t 0 7 [⟨"a", .web⟩] (.ofText "" "")
  obtain ⟨start, stop, waits, hstart, hstop, hc, -⟩ := h 0 (by decide)
  have hrun : (d.dispatch t 0 7 [⟨"a", .web⟩] (.ofText "" "")).map (fun x =>
      (moments Happening.begun? 0 x.trace, moments Happening.over? 0 x.trace)) = some ([7], [1030000007]) := by
    decide +kernel
  rw [hx, Option.map_some, hstart, hstop] at hrun
  cases hrun
  exact ⟨hp, x, hx, waits, hc⟩

/-- Deliveries begin greedily, in the order of the devices: each one takes its permit, and sends, at the first moment at
which fewer of those before it are under way than there are permits. Up to that moment no permit is free, so nobody waits
for a free one, and the begins come in order. With a single permit, deliveries come one after the other with all their
sends. A delivery is under way from its first send to its last answer. -/
theorem starts_greedy (d : Dispatcher) (hp : d.permits ≤ maxPermits) (t : Transport σ) (service : σ) (clock : Nat)
    (devices : List Device) (message : Message) :
    ∃ x, d.dispatch t service clock devices message = some x ∧
      begunIn x.trace = List.range devices.length ∧
      (∃ start stop : Nat → Nat,
        (∀ i < devices.length,
          moments Happening.begun? i x.trace = [start i] ∧ moments Happening.over? i x.trace = [stop i] ∧
          (sendsAt i (t.performed service x.trace)).head?.map Performed.time = some (start i) ∧
          (sendsAt i (t.performed service x.trace)).getLast?.map (fun y => y.time + y.sent.latency) = some (stop i) ∧
          IsLeast {time | clock ≤ time ∧ running start stop i time < max 1 d.concurrency} (start i) ∧
          ∀ time, clock ≤ time → time < start i →
            running start stop devices.length time = max 1 d.concurrency) ∧
        (∀ i j, i ≤ j → j < devices.length → start i ≤ start j) ∧
        (d.concurrency ≤ 1 → ∀ i j, i < j → j < devices.length → stop i ≤ start j)) ∧
      (d.concurrency ≤ 1 → (t.performed service x.trace).Pairwise fun y z => y.index ≤ z.index) ∧
      ∀ r, Run.Passes d.retry t (Run.start d.permits clock service (jobs devices message)) r →
        r.queue = [] ∨ r.free = 0 := by
  obtain ⟨x, s, hx, h⟩ := d.exists_keeps hp t service clock devices message
  have hmax : max 1 d.concurrency = d.permits := Nat.max_comm ..
  have hone : d.concurrency ≤ 1 → d.permits = 1 := fun hc => Nat.max_eq_right hc
  obtain ⟨start, stop, hs⟩ := h.exists_times
  rw [hmax]
  refine ⟨x, hx, h.order, ⟨start, stop, fun i hi => ?_, fun i j hij hj => ?_, fun hc i j hij hj => ?_⟩,
    fun hc => h.inLine (hone hc), fun r hr => ?_⟩
  · obtain ⟨ha, hb⟩ := hs i hi
    obtain ⟨waits, hc⟩ := h.course i _ _ ha hb
    refine ⟨by rw [h.started, ha]; rfl, by rw [h.ended, hb]; rfl, hc.first, hc.last, ?_, fun time hf hlt => ?_⟩
    · simpa only [Dispatched.busy_eq_running hs hi.le] using h.greedy.least i _ ha
    · rw [← Dispatched.busy_eq_running hs le_rfl]
      exact h.greedy.busy_eq_slots ha hi.le hf hlt
  · exact h.greedy.ordered i j _ _ hij (hs i (hij.trans_lt hj)).1 (hs j hj).1
  · have hg := hone hc ▸ h.greedy
    exact hg.stop_le_start (hs i (hij.trans hj)).1 (hs i (hij.trans hj)).2 (hs j hj).1 hij
  · obtain ⟨moves, u, htraced⟩ := hr.exists_traced (map_index_jobs devices message)
    exact htraced.busy

/-- Of three deliveries with two permits the first one ends first and the second one breaks off later. The third one
begins when the first one ends. -/
theorem starts_greedy_third_waits :
    let d : Dispatcher := ⟨2, .standard⟩
    let devices : List Device := [⟨"a", .web⟩, ⟨"b", .web⟩, ⟨"c", .web⟩]
    let t : Transport Unit := ⟨fun _ request => if request.token = "b" then (⟨20, .aborted, []⟩, ())
      else (⟨10, .accepted "id", []⟩, ())⟩
    d.permits ≤ maxPermits ∧ ∃ x, d.dispatch t () 0 devices (.ofText "" "") = some x ∧
      begunIn x.trace = [0, 1, 2] ∧
      ∃ start stop : Nat → Nat, start 2 = 10 ∧ IsLeast {time | 0 ≤ time ∧ running start stop 2 time < 2} 10 := by
  intro d devices t
  have hp : d.permits ≤ maxPermits := by decide
  obtain ⟨x, hx, horder, ⟨start, stop, h, -⟩, -⟩ := starts_greedy d hp t () 0 devices (.ofText "" "")
  obtain ⟨hstart, -, -, -, hleast, -⟩ := h 2 (by decide)
  have hrun : (d.dispatch t () 0 devices (.ofText "" "")).map (fun x => moments Happening.begun? 2 x.trace) =
      some [10] := by
    decide +kernel
  rw [hx, Option.map_some, hstart] at hrun
  have h10 : start 2 = 10 := by simpa using hrun
  exact ⟨hp, x, hx, horder, start, stop, h10, h10 ▸ hleast⟩

end Dispatcher

end PushDispatch
