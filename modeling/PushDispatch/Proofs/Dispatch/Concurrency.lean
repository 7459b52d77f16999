import PushDispatch.Proofs.Dispatch.Schedule

/-! The limit on the deliveries that are under way at a time. It holds in every state that the tasks of a dispatch
can come to, and the scheduled run passes through such states alone. -/

namespace PushDispatch

open Tasks (Path Step)

/-- The deliveries that a scheduled dispatch takes for active are the ones whose tasks hold a permit. -/
theorem Run.Traced.holders_perm {σ : Type} {p : RetryPolicy} {t : Transport σ} {service : σ} {permits n : Nat}
    {jobs : List Job} {moves : List Move} {s : Tasks} {r : Run σ} (h : Traced p t service permits n jobs moves s r) :
    s.holders.Perm (r.active.map fun d => d.job.index) := by
  have hb := h.path.balanced
  have hn : (r.active.map fun d => d.job.index).Nodup := by
    have := h.mirrors.nodup
    rw [remaining, List.map_append, List.map_map] at this
    exact (List.nodup_append.1 this).2.1
  refine (List.perm_ext_iff_of_nodup hb.nodup hn).2 fun i => (hb.holds i).trans ⟨?_, ?_⟩
  · rintro ⟨stage, hs, hr⟩
    obtain ⟨job, hm, rfl⟩ := h.mirrors.complete i stage hs (Stage.isOver_eq_false_of_isRunning hr)
    rcases List.mem_append.1 hm with hm | hm
    · obtain rfl : .waiting = stage := Option.some.inj ((h.mirrors.queued job hm).symm.trans hs)
      cases hr
    · obtain ⟨d, hd, rfl⟩ := List.mem_map.1 hm
      exact List.mem_map.2 ⟨d, hd, rfl⟩
  · intro hm
    obtain ⟨d, hd, rfl⟩ := List.mem_map.1 hm
    exact ⟨d.stage, (h.mirrors.running d hd).1, d.stage_isRunning⟩

namespace Dispatcher

/-- In every order of steps, free and held permits make up the limit, which is one at least, so no more sends are
under way. A task holds one permit from its first send to its last reply, its sleeps included. Whatever the replies
are, some task can go on until all have ended, which they have after two steps for each send that may be made; then
every permit is free and every task has had its turn. The scheduled run passes through such states alone. -/
theorem permits_conserved (d : Dispatcher) (devices : List Device) {moves : List Move} {s : Tasks}
    (h : Path d.retry (Tasks.start d.permits devices.length) moves s) :
    s.free + s.holders.length = max 1 d.concurrency ∧
      s.stages.countP Stage.isSending ≤ max 1 d.concurrency ∧
      s.holders.Nodup ∧
      (∀ i, i ∈ s.holders ↔
        ∃ attempt, s.stages[i]? = some (.sending attempt) ∨ s.stages[i]? = some (.sleeping attempt)) ∧
      (¬ s.IsOver → ∀ next : Nat → Answer, ∃ move u, Step d.retry s move u ∧
        ∀ i answer, move = .reply i answer → answer = next i) ∧
      moves.length ≤ devices.length * (2 * d.retry.limit) ∧
      (s.IsOver → s.free = max 1 d.concurrency ∧ ∀ i < devices.length, .acquire i ∈ moves) ∧
      ∀ (σ : Type) (t : Transport σ) (service : σ) (clock : Nat) (message : Message) (r : Run σ),
        Run.Passes d.retry t (Run.start d.permits clock service (jobs devices message)) r →
          ∃ moves u, Path d.retry (Tasks.start d.permits devices.length) moves u ∧ u.free = r.free ∧
            u.holders.Perm (r.active.map fun e => e.job.index) := by
  have hb := h.balanced
  have hr := h.recorded
  have hmax : max 1 d.concurrency = d.permits := Nat.max_comm ..
  rw [hmax]
  refine ⟨hb.total, hb.countP_isSending_le, hb.nodup, fun i => (hb.holds i).trans ⟨?_, ?_⟩,
    fun ho => hb.exists_step d.one_le_permits ho d.retry, h.length_le, fun ho => ⟨hb.free_eq ho, fun i hi => ?_⟩,
    fun σ t service clock message r hp => ?_⟩
  · rintro ⟨stage, hs, hrun⟩
    cases stage with
    | sending attempt => exact ⟨attempt, .inl hs⟩
    | sleeping attempt => exact ⟨attempt, .inr hs⟩
    | _ => cases hrun
  · rintro ⟨attempt, hs | hs⟩
    · exact ⟨_, hs, rfl⟩
    · exact ⟨_, hs, rfl⟩
  · have hlt : i < s.stages.length := hr.length.symm ▸ hi
    have hne : s.stages[i] ≠ .waiting := by
      intro e
      have := ho s.stages[i] (List.getElem_mem hlt)
      rw [e] at this
      cases this
    exact hr.begun i _ (List.getElem?_eq_getElem hlt) hne
  · obtain ⟨moves, u, hu⟩ := hp.exists_traced (map_index_jobs devices message)
    exact ⟨moves, u, hu.path, hu.mirrors.free, hu.holders_perm⟩

/-- With a limit of 0 there is one permit. A delivery keeps it while it sleeps, and another one has to wait. -/
theorem permits_conserved_while_asleep :
    let d : Dispatcher := ⟨0, ⟨2, .ofMillis 1, .ofMillis 2⟩⟩
    let s : Tasks := ⟨0, [0], [.sleeping 2, .waiting], []⟩
    Path d.retry (Tasks.start d.permits 2) [.acquire 0, .reply 0 (.refused (.rejected 503 "" true none))] s ∧
      s.free + s.holders.length = max 1 d.concurrency ∧ s.stages.countP Stage.isSending ≤ max 1 d.concurrency := by
  intro d s
  have hj : d.retry.judge 1 (.refused (.rejected 503 "" true none)) = .retry _ _ :=
    RetryPolicy.judge_eq_retry_iff.2 ⟨rfl, rfl, by decide, rfl⟩
  have hfirst : Step d.retry (Tasks.start d.permits 2) (.acquire 0) ((Tasks.start d.permits 2).acquire 0) :=
    .acquire rfl (by decide)
  have hpath : Path d.retry (Tasks.start d.permits 2)
      [.acquire 0, .reply 0 (.refused (.rejected 503 "" true none))] s :=
    (Path.single hfirst).snoc (.retry (i := 0) rfl hj)
  have h := permits_conserved d [⟨"a", .web⟩, ⟨"a", .ios⟩] hpath
  exact ⟨hpath, h.1, h.2.1⟩

end Dispatcher

end PushDispatch
