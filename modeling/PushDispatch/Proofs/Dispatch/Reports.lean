import PushDispatch.Proofs.Dispatch.Schedule
import PushDispatch.Proofs.TextMap

/-! The reports of a dispatch. Tasks are joined in the order in which they end, and each report goes into the slot
of its device; the slot of a task that broke off stays empty. So there is one report for each device, in the order
of the devices, and it tells what the answers to the sends for that very device have come to. -/

namespace PushDispatch

open Tasks (Path Recorded)

/-- What joining a task brings: the index and the report of its delivery, or nothing if it broke off. -/
def joinedReport (devices : List Device) : Nat × Option (Outcome × Nat) → Option (Nat × Report)
  | (index, some (outcome, attempts)) => devices[index]?.map fun device => (index, ⟨device, outcome, attempts⟩)
  | (_, none) => none

/-- Puts reports into slots, in the order in which tasks are joined. -/
def fillSlots (slots : List (Option Report)) (joins : List (Option (Nat × Report))) : List (Option Report) :=
  joins.foldl (fun slots join => match join with
    | some (index, report) => slots.set index (some report)
    | none => slots) slots

/-- The reports from the slots; an empty slot tells that its delivery broke off. -/
def collectReports (devices : List Device) (joins : List (Option (Nat × Report))) : List Report :=
  List.zipWith (fun slot device => slot.getD ⟨device, .failed "delivery task aborted" true, 0⟩)
    (fillSlots (List.replicate devices.length none) joins) devices

/-- One join fills the slot of its own index alone. -/
theorem getElem?_fillSlots_cons (devices : List Device) {slots : List (Option Report)} {i j : Nat}
    (result : Option (Outcome × Nat)) (joins : List (Option (Nat × Report))) (hne : j ≠ i) :
    ∃ slots', fillSlots slots (joinedReport devices (j, result) :: joins) = fillSlots slots' joins ∧
      slots'[i]? = slots[i]? := by
  cases he : joinedReport devices (j, result) with
  | none => exact ⟨slots, rfl, rfl⟩
  | some x =>
    obtain ⟨index, report⟩ := x
    obtain rfl : index = j := by
      obtain _ | ⟨outcome, attempts⟩ := result
      · cases he
      · obtain ⟨_, _, hx⟩ := Option.map_eq_some_iff.1 he
        exact (congrArg Prod.fst hx).symm
    exact ⟨_, rfl, List.getElem?_set_ne hne⟩

theorem getElem?_fillSlots_of_not_mem {devices : List Device} {joined : List (Nat × Option (Outcome × Nat))} {i : Nat}
    (hi : i ∉ joined.map Prod.fst) (slots : List (Option Report)) :
    (fillSlots slots (joined.map (joinedReport devices)))[i]? = slots[i]? := by
  induction joined generalizing slots with
  | nil => rfl
  | cons x joined ih =>
    obtain ⟨j, result⟩ := x
    obtain ⟨hne, hi⟩ : i ≠ j ∧ i ∉ joined.map Prod.fst := by simpa using hi
    obtain ⟨slots', he, hs⟩ := getElem?_fillSlots_cons devices result
      (joined.map (joinedReport devices)) hne.symm
    rw [List.map_cons, he, ih hi, hs]

/-- A slot holds the report of its index, whenever that was joined. -/
theorem getElem?_fillSlots {devices : List Device} {joined : List (Nat × Option (Outcome × Nat))}
    (hk : (joined.map Prod.fst).Nodup) {slots : List (Option Report)} {i : Nat} {device : Device}
    (hd : devices[i]? = some device) (hs : slots[i]? = some none) :
    (fillSlots slots (joined.map (joinedReport devices)))[i]? =
      some ((joined.lookup i).join.map fun x => ⟨device, x.1, x.2⟩) := by
  induction joined generalizing slots with
  | nil => simpa [fillSlots] using hs
  | cons x joined ih =>
    obtain ⟨j, result⟩ := x
    obtain ⟨hnot, hk⟩ := List.nodup_cons.1 hk
    by_cases e : j = i
    · subst e
      rw [List.map_cons, List.lookup_cons_self, fillSlots, List.foldl_cons]
      rw [← fillSlots, getElem?_fillSlots_of_not_mem hnot]
      obtain _ | ⟨outcome, attempts⟩ := result
      · simpa [joinedReport] using hs
      · simp [joinedReport, hd, List.getElem?_set_self (List.getElem?_eq_some_iff.1 hs).1]
    · obtain ⟨slots', he, hs'⟩ := getElem?_fillSlots_cons devices result
        (joined.map (joinedReport devices)) e
      rw [List.map_cons, he, ih hk (hs'.trans hs), List.lookup_cons, beq_false_of_ne (Ne.symm e)]

namespace Dispatcher

theorem getElem?_reports (devices : List Device) (results : List (Nat × Option (Outcome × Nat))) (i : Nat) :
    (reports devices results)[i]? = devices[i]?.map fun device => report device (results.lookup i).join := by
  simp [reports, List.getElem?_zipIdx, Option.map_map, Function.comp_def]

@[simp] theorem length_reports (devices : List Device) (results : List (Nat × Option (Outcome × Nat))) :
    (reports devices results).length = devices.length := by
  simp [reports]

/-- Filling slots as tasks are joined gives the report of each result, in the order of the devices. -/
theorem collectReports_eq (devices : List Device) {joined : List (Nat × Option (Outcome × Nat))}
    (hk : (joined.map Prod.fst).Nodup) :
    collectReports devices (joined.map (joinedReport devices)) = reports devices joined := by
  refine List.ext_getElem? fun i => ?_
  rw [getElem?_reports, collectReports, List.getElem?_zipWith]
  cases hd : devices[i]? with
  | none => simp
  | some device =>
    have hi : i < devices.length := (List.getElem?_eq_some_iff.1 hd).1
    rw [getElem?_fillSlots hk hd (by simp [hi])]
    cases (joined.lookup i).join <;> rfl

end Dispatcher

/-! ### What a report says -/

/-- The report of a delivery to a device after the given answers: what the delivery comes to, or that it broke
off, exactly if one of the answers is missing. -/
structure Tells (p : RetryPolicy) (device : Device) (first : List Answer) (r : Report) : Prop where
  own : r.device = device
  result : ∀ answers, Begins answers first → r = Dispatcher.report device (deliver p answers)
  aborted : r.outcome = .failed "delivery task aborted" true ∧ r.attempts = 0 ↔ .aborted ∈ first
  attempts : .aborted ∉ first → r.attempts = first.length

/-- There is one report for each device, in their order, and it tells what the answers with its index come to. -/
def Complete (p : RetryPolicy) (devices : List Device) (answers : Nat → List Answer) (reports : List Report) : Prop :=
  reports.length = devices.length ∧
    ∀ (i : Nat) (device : Device), devices[i]? = some device → ∃ r, reports[i]? = some r ∧ Tells p device (answers i) r

theorem Complete.map_device {p : RetryPolicy} {devices : List Device} {answers : Nat → List Answer}
    {reports : List Report} (h : Complete p devices answers reports) : reports.map Report.device = devices := by
  refine List.ext_getElem? fun i => ?_
  rw [List.getElem?_map]
  cases hd : devices[i]? with
  | none => simpa [h.1] using hd
  | some device =>
    obtain ⟨r, hr, ht⟩ := h.2 i device hd
    rw [hr, Option.map_some, ht.own]

theorem exists_begins (first : List Answer) : ∃ answers, Begins answers first :=
  ⟨fun k => first[k - 1]?.getD .aborted, fun k answer hk => by simp [hk]⟩

/-- The result that an ended task leaves behind is what its delivery comes to. -/
theorem Stage.Fits.tells {p : RetryPolicy} {first : List Answer} {stage : Stage} (h : stage.Fits p first)
    {result : Option (Outcome × Nat)} (hr : stage.result? = some result) (device : Device) :
    Tells p device first (Dispatcher.report device result) := by
  cases stage with
  | finished outcome attempts =>
    obtain rfl : some (outcome, attempts) = result := by simpa [result?] using hr
    obtain ⟨rfl, hn, hd⟩ := h
    have hpos : first.length ≠ 0 := by
      obtain ⟨answers, ha⟩ := exists_begins first
      have := (isLeast_of_deliver (hd answers ha)).1.1
      omega
    exact ⟨rfl, fun answers ha => by rw [hd answers ha], by simp [Dispatcher.report, hn, hpos], fun _ => rfl⟩
  | panicked =>
    obtain rfl : none = result := by simpa [result?] using hr
    obtain ⟨hm, hd⟩ := h
    exact ⟨rfl, fun answers ha => by rw [hd answers ha], by simp [Dispatcher.report, abortedOutcome, hm], fun hn => absurd hm hn⟩
  | _ => cases hr

/-- A delivery that has not broken off has made the sends that it needs. -/
theorem Tells.isLeast_length {p : RetryPolicy} {device : Device} {first : List Answer} {r : Report}
    (h : Tells p device first r) {answers : Nat → Answer} (ha : Begins answers first) (hn : .aborted ∉ first) :
    IsLeast {k | p.EndsAt answers k} first.length := by
  obtain ⟨m, hm⟩ := exists_isLeast_endsAt p answers
  have hr : r = Dispatcher.report device ((answers m).outcome?.map (·, m)) := deliver_eq hm ▸ h.result answers ha
  cases ho : (answers m).outcome? with
  | none =>
    have : r.outcome = .failed "delivery task aborted" true ∧ r.attempts = 0 := by
      simp [hr, ho, Dispatcher.report, abortedOutcome]
    exact absurd (h.aborted.1 this) hn
  | some outcome =>
    have : r.attempts = m := by simp [hr, ho, Dispatcher.report]
    rwa [← h.attempts hn, this]

/-- The outcome of a delivery that has not broken off is that of its last answer. -/
theorem Tells.outcome_eq {p : RetryPolicy} {device : Device} {first : List Answer} {r : Report}
    (h : Tells p device first r) (hn : .aborted ∉ first) :
    ∃ last, first.getLast? = some last ∧ last.outcome? = some r.outcome := by
  obtain ⟨answers, ha⟩ := exists_begins first
  have hleast := h.isLeast_length ha hn
  have hpos : 1 ≤ first.length := hleast.1.1
  have hlast : first[first.length - 1]? = some (first[first.length - 1]) := List.getElem?_eq_getElem (by omega)
  have hanswer : answers first.length = first[first.length - 1] := by
    have := ha _ _ hlast
    rwa [Nat.sub_add_cancel hpos] at this
  refine ⟨_, List.getLast?_eq_getElem? ▸ hlast, ?_⟩
  have hr := h.result answers ha
  rw [deliver_eq hleast, hanswer] at hr
  cases ho : (first[first.length - 1]).outcome? with
  | none => exact absurd (List.getElem_mem _) (Answer.outcome?_eq_none_iff.1 ho ▸ hn)
  | some outcome => simp [hr, ho, Dispatcher.report]

namespace Dispatcher

/-- Once all tasks have ended, their results give a complete list of reports in whatever order they are joined. -/
theorem complete_reports {p : RetryPolicy} {devices : List Device} {moves : List Move} {s : Tasks}
    (h : Recorded p devices.length moves s) (ho : s.IsOver) {joined : List (Nat × Option (Outcome × Nat))}
    (hj : joined.Perm s.results) : Complete p devices (fun i => answersOf i moves) (reports devices joined) := by
  refine ⟨length_reports devices joined, fun i device hd => ?_⟩
  have hi : i < s.stages.length := h.length ▸ (List.getElem?_eq_some_iff.1 hd).1
  have hs : s.stages[i]? = some s.stages[i] := List.getElem?_eq_getElem hi
  obtain ⟨result, hr⟩ := Option.isSome_iff_exists.1 (ho s.stages[i] (List.getElem_mem hi))
  have hm : (i, result) ∈ joined := hj.mem_iff.2 ((h.result i result).2 (by rw [hs]; exact hr))
  have hl : joined.lookup i = some result :=
    (lookup_eq_some_iff_mem ((hj.map Prod.fst).nodup_iff.2 h.keys)).2 hm
  exact ⟨report device result, by simp [getElem?_reports, hd, hl], (h.fits i _ hs).tells hr device⟩

/-- Every dispatch ends with a complete list of reports, after sends that all belong to one of its devices. -/
theorem exists_complete {σ : Type} (d : Dispatcher) (hp : d.permits ≤ maxPermits) (t : Transport σ) (service : σ)
    (clock : Nat) (devices : List Device) (message : Message) :
    ∃ x, d.dispatch t service clock devices message = some x ∧
      Complete d.retry devices (fun i => answersAt i (t.performed service x.trace)) x.summary.reports ∧
      SendsTo devices message (t.performed service x.trace) ∧
      x.service = t.after service ((t.performed service x.trace).map Performed.request) := by
  obtain ⟨x, moves, s, hx, h⟩ := d.exists_realizes hp t service clock devices message
  have hc := complete_reports h.path.recorded h.ended (.refl s.results)
  refine ⟨x, hx, ?_, h.sends, h.state⟩
  rw [h.reports]
  simpa only [h.answers] using hc

/-- Every dispatch reports on each device once, in the order of the devices, and each report tells what the answers
to the sends for its own device have come to. That holds for every order in which tasks take their steps and are
joined, and of the scheduled run with whatever transport. -/
theorem reports_complete (d : Dispatcher) (hp : d.permits ≤ maxPermits) (devices : List Device) (message : Message) :
    (∀ moves s joined, Path d.retry (Tasks.start d.permits devices.length) moves s → s.IsOver →
      joined.Perm s.results →
        collectReports devices (joined.map (joinedReport devices)) = reports devices joined ∧
          Complete d.retry devices (fun i => answersOf i moves) (reports devices joined)) ∧
    ∀ (σ : Type) (t : Transport σ) (service : σ) (clock : Nat),
      ∃ x, d.dispatch t service clock devices message = some x ∧
        Complete d.retry devices (fun i => answersAt i (t.performed service x.trace)) x.summary.reports ∧
        SendsTo devices message (t.performed service x.trace) ∧
        x.service = t.after service ((t.performed service x.trace).map Performed.request) := by
  constructor
  · intro moves s joined hpath ho hj
    have h := hpath.recorded
    exact ⟨collectReports_eq devices ((hj.map Prod.fst).nodup_iff.2 h.keys), complete_reports h ho hj⟩
  · intro σ t service clock
    exact d.exists_complete hp t service clock devices message

/-- Two devices share a token. The first delivery has to try again and then breaks off, after the second one has
gone through. -/
theorem reports_complete_one_token :
    let d : Dispatcher := ⟨2, .standard⟩
    let devices : List Device := [⟨"a", .web⟩, ⟨"a", .ios⟩]
    let moves : List Move := [.acquire 0, .acquire 1, .reply 0 (.refused (.http (.timedOut ""))),
      .reply 1 (.accepted "id"), .wake 0, .reply 0 .aborted]
    let s : Tasks := ⟨2, [], [.panicked, .finished (.delivered "id") 1], [(0, none), (1, some (.delivered "id", 1))]⟩
    d.permits ≤ maxPermits ∧ Path d.retry (Tasks.start d.permits devices.length) moves s ∧ s.IsOver ∧
      Complete d.retry devices (fun i => answersOf i moves) (reports devices s.results) ∧
      reports devices s.results =
        [⟨⟨"a", .web⟩, .failed "delivery task aborted" true, 0⟩, ⟨⟨"a", .ios⟩, .delivered "id", 1⟩] := by
  intro d devices moves s
  have hp : d.permits ≤ maxPermits := by decide
  have hretry : d.retry.judge 1 (.refused (.http (.timedOut ""))) = .retry _ _ :=
    RetryPolicy.judge_eq_retry_iff.2 ⟨rfl, rfl, by decide, rfl⟩
  have hpath : Path d.retry (Tasks.start d.permits devices.length) moves s :=
    (((((Path.single (.acquire (i := 0) rfl (by decide))).snoc (.acquire (i := 1) rfl (by decide))).snoc
      (.retry (i := 0) rfl hretry)).snoc (.finish (i := 1) rfl rfl)).snoc (.wake (i := 0) rfl)).snoc
      (.abort (i := 0) rfl rfl)
  have ho : s.IsOver := by simp [s, Tasks.IsOver, Stage.isOver, Stage.result?]
  have h := (reports_complete d hp devices (.ofText "" "")).1 moves s s.results hpath ho (.refl _)
  exact ⟨hp, hpath, ho, h.2, rfl⟩

end Dispatcher

end PushDispatch
