import Mathlib.Data.List.Induction
import PushDispatch.Proofs.Dispatch.Reports
import PushDispatch.Proofs.Fcm.Requests

/-! Deliveries do not touch each other. Where the answers for a token depend on the sends for this token alone and
each device has a token of its own, the report on a device is the one that it would get alone: limits, latencies, the
order of steps and what happens to other devices leave no mark on it. -/

namespace PushDispatch

open Tasks (Path)
open Dispatcher (SendsTo)

/-- The answers for a token depend on the sends for this token alone: the script of the token gives the answer to
the last of them. Latencies and events may depend on everything. -/
def Transport.Follows {σ : Type} (t : Transport σ) (service : σ) (script : String → List Fcm.Request → Answer) : Prop :=
  ∀ earlier request, (t.send (t.after service earlier) request).1.answer =
    script request.token ((earlier.filter fun r => r.token = request.token) ++ [request])

/-- The transport of a script, with latencies that depend on all sends so far. -/
def Transport.ofScript (script : String → List Fcm.Request → Answer) (latency : List Fcm.Request → Nat) :
    Transport (List Fcm.Request) where
  send earlier request :=
    let own := (earlier.filter fun r => r.token = request.token) ++ [request]
    (⟨latency (earlier ++ [request]), script request.token own, []⟩, earlier ++ [request])

theorem Transport.follows_ofScript (script : String → List Fcm.Request → Answer) (latency : List Fcm.Request → Nat) :
    (ofScript script latency).Follows [] script := by
  have hafter : ∀ requests earlier, (ofScript script latency).after earlier requests = earlier ++ requests := by
    intro requests
    induction requests with
    | nil => simp
    | cons request requests ih =>
      intro earlier
      rw [after_cons, ih]
      simp [ofScript]
  intro earlier request
  rw [hafter]
  rfl

/-- The answers of a script to one request that is sent again and again. -/
def replies (script : List Fcm.Request → Answer) (request : Fcm.Request) (k : Nat) : Answer :=
  script (List.replicate k request)

/-- The report on a device whose delivery is the only one. -/
def Dispatcher.reportAlone (p : RetryPolicy) (message : Message) (script : List Fcm.Request → Answer)
    (device : Device) : Report :=
  report device (deliver p (replies script (.build .standard device message)))

section Tokens

variable {devices : List Device} {message : Message} {i : Nat} {device : Device}

theorem eq_of_token_eq (hn : (devices.map Device.token).Nodup) (hi : devices[i]? = some device) {j : Nat}
    {other : Device} (hj : devices[j]? = some other) (h : other.token = device.token) : j = i := by
  have hlt : j < (devices.map Device.token).length := by
    simpa using (List.getElem?_eq_some_iff.1 hj).1
  exact (List.getElem?_inj hlt hn).1 (by simp [hi, hj, h])

/-- The sends for a token are the sends of the delivery to its device, and all of one request. -/
theorem filter_token_eq (hn : (devices.map Device.token).Nodup) (hi : devices[i]? = some device)
    {sends : List Performed} (hs : SendsTo devices message sends) :
    (sends.map Performed.request).filter (fun r => r.token = device.token) =
      List.replicate (answersAt i sends).length (.build .standard device message) := by
  induction sends with
  | nil => rfl
  | cons x sends ih =>
    have ih := ih fun y hy => hs y (List.mem_cons_of_mem _ hy)
    obtain ⟨other, ho, hr⟩ := hs x List.mem_cons_self
    have happ : answersAt i (x :: sends) = answersAt i [x] ++ answersAt i sends := answersAt_append i [x] sends
    by_cases e : x.index = i
    · obtain rfl : device = other := Option.some.inj (hi.symm.trans (e ▸ ho))
      simp [happ, e, hr, Fcm.Request.token_build, ih, List.replicate_succ]
    · have hne : x.request.token ≠ device.token := by
        rw [hr, Fcm.Request.token_build]
        exact fun h => e (eq_of_token_eq hn hi ho h)
      simp [happ, e, hne, ih]

/-- With a token for each device, the answers that a delivery is given are those of its token's script. -/
theorem begins_answersAt {σ : Type} {t : Transport σ} {service : σ} {script : String → List Fcm.Request → Answer}
    (hf : t.Follows service script) (hn : (devices.map Device.token).Nodup) (hi : devices[i]? = some device)
    {trace : List (Nat × Happening)} (hs : SendsTo devices message (t.performed service trace)) :
    Begins (replies (script device.token) (.build .standard device message))
      (answersAt i (t.performed service trace)) := by
  induction trace using List.reverseRecOn with
  | nil => intro k answer hk; simp at hk
  | append_singleton trace x ih =>
    rw [t.performed_append] at hs ⊢
    have hs' : SendsTo devices message (t.performed service trace) := fun y hy => hs y (List.mem_append_left _ hy)
    have ih := ih hs'
    obtain ⟨time, happening⟩ := x
    cases happening with
    | sent index request =>
      rw [Transport.performed_sent, Transport.performed_nil] at hs ⊢
      rw [answersAt_append, answersAt_singleton]
      obtain ⟨other, ho, rfl⟩ := hs _ (List.mem_append_right _ (List.mem_singleton_self _))
      by_cases e : index = i
      · obtain rfl : device = other := Option.some.inj (hi.symm.trans (e ▸ ho))
        have hown := filter_token_eq hn hi hs'
        rw [if_pos e, begins_append_singleton]
        refine ⟨ih, ?_⟩
        rw [hf, Fcm.Request.token_build, hown, replies, List.replicate_succ']
      · simpa [e] using ih
    | _ => simpa using ih

end Tokens

namespace Dispatcher

variable {d : Dispatcher} {p : RetryPolicy} {devices : List Device} {message : Message}

/-- Where each delivery is given the answers of its token's script, each report is the one on its device alone. -/
theorem reports_eq_alone {answers : Nat → List Answer} {reports : List Report}
    (h : Complete p devices answers reports) {script : String → List Fcm.Request → Answer}
    (hs : ∀ (i : Nat) (device : Device), devices[i]? = some device →
      Begins (replies (script device.token) (.build .standard device message)) (answers i)) :
    reports = devices.map fun device => reportAlone p message (script device.token) device := by
  refine List.ext_getElem? fun i => ?_
  rw [List.getElem?_map]
  cases hd : devices[i]? with
  | none =>
    rw [List.getElem?_eq_none (h.1.trans_le (List.getElem?_eq_none_iff.1 hd))]
    rfl
  | some device =>
    obtain ⟨r, hr, ht⟩ := h.2 i device hd
    rw [hr, ht.result _ (hs i device hd)]
    rfl

/-- Reports that a dispatch may end with, in some order of steps and joins, when the replies to each delivery are
those of its token's script. -/
def MayReport (d : Dispatcher) (devices : List Device) (message : Message)
    (script : String → List Fcm.Request → Answer) (result : List Report) : Prop :=
  ∃ moves s joined, Path d.retry (Tasks.start d.permits devices.length) moves s ∧ s.IsOver ∧
    joined.Perm s.results ∧ result = reports devices joined ∧
    ∀ (i : Nat) (device : Device), devices[i]? = some device →
      Begins (replies (script device.token) (.build .standard device message)) (answersOf i moves)

theorem MayReport.eq_alone {script : String → List Fcm.Request → Answer} {result : List Report}
    (h : d.MayReport devices message script result) :
    result = devices.map fun device => reportAlone d.retry message (script device.token) device := by
  obtain ⟨moves, s, joined, hpath, ho, hj, rfl, hs⟩ := h
  exact reports_eq_alone (complete_reports hpath.recorded ho hj) hs

/-- The scheduled run ends with such reports. -/
theorem exists_mayReport {σ : Type} (d : Dispatcher) (hp : d.permits ≤ maxPermits) {t : Transport σ} {service : σ}
    {script : String → List Fcm.Request → Answer} (hf : t.Follows service script)
    (hn : (devices.map Device.token).Nodup) (clock : Nat) (message : Message) :
    ∃ x, d.dispatch t service clock devices message = some x ∧
      d.MayReport devices message script x.summary.reports := by
  obtain ⟨x, moves, s, hx, h⟩ := d.exists_realizes hp t service clock devices message
  refine ⟨x, hx, moves, s, s.results, h.path, h.ended, .refl _, h.reports, fun i device hd => ?_⟩
  rw [← h.answers]
  exact begins_answersAt hf hn hd h.sends

/-- Two dispatches of one message under one retry policy, with limits, transports, latencies, devices and orders of
steps of their own. A device that is in both and whose token has the same script in both gets the same report, so
permuted devices get permuted reports, and with the same devices and scripts the whole summaries are the same. -/
theorem report_isolated (retry : RetryPolicy) (message : Message) (c₁ c₂ : Nat) (devices₁ devices₂ : List Device)
    (script₁ script₂ : String → List Fcm.Request → Answer) {σ₁ σ₂ : Type} (t₁ : Transport σ₁) (t₂ : Transport σ₂)
    (service₁ : σ₁) (service₂ : σ₂) (clock₁ clock₂ : Nat)
    (hc₁ : (⟨c₁, retry⟩ : Dispatcher).permits ≤ maxPermits) (hc₂ : (⟨c₂, retry⟩ : Dispatcher).permits ≤ maxPermits)
    (hn₁ : (devices₁.map Device.token).Nodup) (hn₂ : (devices₂.map Device.token).Nodup)
    (hf₁ : t₁.Follows service₁ script₁) (hf₂ : t₂.Follows service₂ script₂) :
    (∃ x, (⟨c₁, retry⟩ : Dispatcher).dispatch t₁ service₁ clock₁ devices₁ message = some x ∧
      (⟨c₁, retry⟩ : Dispatcher).MayReport devices₁ message script₁ x.summary.reports) ∧
    (∃ x, (⟨c₂, retry⟩ : Dispatcher).dispatch t₂ service₂ clock₂ devices₂ message = some x ∧
      (⟨c₂, retry⟩ : Dispatcher).MayReport devices₂ message script₂ x.summary.reports) ∧
    ∀ reports₁ reports₂, (⟨c₁, retry⟩ : Dispatcher).MayReport devices₁ message script₁ reports₁ →
      (⟨c₂, retry⟩ : Dispatcher).MayReport devices₂ message script₂ reports₂ →
        (∀ (i j : Nat) (device : Device), devices₁[i]? = some device → devices₂[j]? = some device →
          script₁ device.token = script₂ device.token → reports₁[i]? = reports₂[j]?) ∧
        (∀ order : List Nat, devices₂.map some = order.map (devices₁[·]?) →
          (∀ device ∈ devices₂, script₁ device.token = script₂ device.token) →
            reports₂.map some = order.map (reports₁[·]?)) ∧
        (devices₁ = devices₂ → (∀ device ∈ devices₁, script₁ device.token = script₂ device.token) →
          reports₁ = reports₂) := by
  refine ⟨exists_mayReport _ hc₁ hf₁ hn₁ clock₁ message, exists_mayReport _ hc₂ hf₂ hn₂ clock₂ message,
    fun reports₁ reports₂ h₁ h₂ => ?_⟩
  rw [h₁.eq_alone, h₂.eq_alone]
  refine ⟨fun i j device hi hj hs => by simp [hi, hj, hs], fun order ho hs => ?_, fun hd hs => ?_⟩
  · calc (devices₂.map fun device => reportAlone retry message (script₂ device.token) device).map some
        = devices₂.map fun device => some (reportAlone retry message (script₁ device.token) device) := by
          rw [List.map_map]
          exact List.map_congr_left fun device hm => by simp [hs device hm]
      _ = (devices₂.map some).map
            (Option.map fun device => reportAlone retry message (script₁ device.token) device) := by simp
      _ = _ := by simp [ho]
  · subst hd
    exact List.map_congr_left fun device hm => by rw [hs device hm]

/-- Two devices in two orders, under two limits and with different latencies. One of them is told to try again first;
the other one goes through in the one dispatch and breaks off in the other. -/
theorem report_isolated_one_breaks_off :
    let busy : List Fcm.Request → Answer := fun own =>
      if own.length = 1 then .refused (.rejected 503 "" true none) else .accepted "id"
    let script₁ : String → List Fcm.Request → Answer := fun token =>
      if token = "a" then busy else fun _ => .accepted token
    let script₂ : String → List Fcm.Request → Answer := fun token =>
      if token = "a" then busy else fun _ => .aborted
    let devices₁ : List Device := [⟨"a", .web⟩, ⟨"b", .ios⟩]
    let devices₂ : List Device := [⟨"b", .ios⟩, ⟨"a", .web⟩]
    (⟨1, .standard⟩ : Dispatcher).permits ≤ maxPermits ∧ (⟨9, .standard⟩ : Dispatcher).permits ≤ maxPermits ∧
      (devices₁.map Device.token).Nodup ∧ (devices₂.map Device.token).Nodup ∧
      (Transport.ofScript script₁ List.length).Follows [] script₁ ∧
      (Transport.ofScript script₂ fun _ => 7).Follows [] script₂ ∧
      ∃ x₁ x₂, (⟨1, .standard⟩ : Dispatcher).dispatch (.ofScript script₁ List.length) [] 0 devices₁
          (.ofText "" "") = some x₁ ∧
        (⟨9, .standard⟩ : Dispatcher).dispatch (.ofScript script₂ fun _ => 7) [] 3 devices₂
          (.ofText "" "") = some x₂ ∧
        x₁.summary.reports[0]? = x₂.summary.reports[1]? := by
  intro busy script₁ script₂ devices₁ devices₂
  have hc₁ : (⟨1, .standard⟩ : Dispatcher).permits ≤ maxPermits := by decide
  have hc₂ : (⟨9, .standard⟩ : Dispatcher).permits ≤ maxPermits := by decide
  have hn₁ : (devices₁.map Device.token).Nodup := by decide
  have hn₂ : (devices₂.map Device.token).Nodup := by decide
  have hf₁ := Transport.follows_ofScript script₁ List.length
  have hf₂ := Transport.follows_ofScript script₂ fun _ => 7
  obtain ⟨⟨x₁, hx₁, hr₁⟩, ⟨x₂, hx₂, hr₂⟩, h⟩ := report_isolated .standard (.ofText "" "") 1 9 devices₁ devices₂
    script₁ script₂ _ _ [] [] 0 3 hc₁ hc₂ hn₁ hn₂ hf₁ hf₂
  have hsame : script₁ "a" = script₂ "a" := rfl
  exact ⟨hc₁, hc₂, hn₁, hn₂, hf₁, hf₂, x₁, x₂, hx₁, hx₂, (h _ _ hr₁ hr₂).1 0 1 ⟨"a", .web⟩ rfl rfl hsame⟩

end Dispatcher

end PushDispatch
