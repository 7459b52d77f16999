import Mathlib.Data.List.Nodup
import Mathlib.Logic.Function.Basic
import Mathlib.Order.Bounds.Basic

/-! Spans of time that share a number of slots and are begun one after the other, each at the first moment at which a
slot is free. The spans so far are followed as they begin and end. What is known of the past then never changes, and
from the present moment on the spans under way run until they are ended. -/

namespace PushDispatch

/-- When each span has begun and ended, as far as it has. -/
structure Spans where
  start : Nat → Option Nat
  stop : Nat → Option Nat

namespace Spans

/-- No span has begun. -/
def idle : Spans := ⟨fun _ => none, fun _ => none⟩

def enter (s : Spans) (i time : Nat) : Spans := { s with start := Function.update s.start i (some time) }

def leave (s : Spans) (i time : Nat) : Spans := { s with stop := Function.update s.stop i (some time) }

@[simp] theorem stop_enter (s : Spans) (i time : Nat) : (s.enter i time).stop = s.stop := rfl

@[simp] theorem start_leave (s : Spans) (i time : Nat) : (s.leave i time).start = s.start := rfl

@[simp] theorem start_enter_self (s : Spans) (i time : Nat) : (s.enter i time).start i = some time :=
  Function.update_self ..

@[simp] theorem stop_leave_self (s : Spans) (i time : Nat) : (s.leave i time).stop i = some time :=
  Function.update_self ..

theorem start_enter_of_ne (s : Spans) {i k : Nat} (h : k ≠ i) (time : Nat) : (s.enter i time).start k = s.start k :=
  Function.update_of_ne h ..

theorem stop_leave_of_ne (s : Spans) {i k : Nat} (h : k ≠ i) (time : Nat) : (s.leave i time).stop k = s.stop k :=
  Function.update_of_ne h ..

/-- Whether a span has begun at a moment and is not over then. -/
def runs (s : Spans) (time i : Nat) : Bool := (s.start i).any (· ≤ time) && (s.stop i).all (time < ·)

/-- How many of the first `n` spans run at a moment. -/
def busy (s : Spans) (n time : Nat) : Nat := (List.range n).countP (s.runs time)

variable {s u : Spans} {i j m n time clock first slots : Nat} {active : List Nat}

theorem runs_iff : s.runs time i = true ↔ (∃ a, s.start i = some a ∧ a ≤ time) ∧ ∀ b, s.stop i = some b → time < b := by
  simp [runs, Option.any_eq_true, Option.all_eq_true]

theorem busy_congr (h : ∀ k < n, s.runs time k = u.runs time k) : s.busy n time = u.busy n time :=
  List.countP_congr fun k hk => by rw [h k (List.mem_range.1 hk)]

theorem busy_le_busy {time' : Nat} (h : ∀ k < n, s.runs time k = true → u.runs time' k = true) :
    s.busy n time ≤ u.busy n time' :=
  List.countP_mono_left fun k hk => h k (List.mem_range.1 hk)

theorem busy_succ (s : Spans) (n time : Nat) :
    s.busy (n + 1) time = s.busy n time + if s.runs time n = true then 1 else 0 := by
  simp [busy, List.range_succ]

/-- What ends now runs until now. -/
theorem runs_leave_of_lt (hs : s.stop i = none) (ht : time < clock) (k : Nat) :
    (s.leave i clock).runs time k = s.runs time k := by
  by_cases e : k = i
  · subst e
    simp [runs, hs, ht]
  · simp [runs, stop_leave_of_ne s e]

/-- What has ended runs at no moment at which it would not have run. -/
theorem runs_of_runs_leave (hs : s.stop i = none) {k : Nat} (h : (s.leave i clock).runs time k = true) :
    s.runs time k = true := by
  by_cases e : k = i
  · subst e
    rw [runs_iff] at h ⊢
    exact ⟨h.1, by simp [hs]⟩
  · simpa [runs, stop_leave_of_ne s e] using h

/-- The first `m` spans have begun by now, in their order, each as soon as fewer of those before it ran than there are
slots. The active ones among them have not ended. -/
structure Greedy (first slots : Nat) (s : Spans) (clock m : Nat) (active : List Nat) : Prop where
  first_le : first ≤ clock
  started : ∀ i < m, ∃ a, s.start i = some a ∧ a ≤ clock
  waiting : ∀ i, m ≤ i → s.start i = none ∧ s.stop i = none
  stopped : ∀ i b, s.stop i = some b → b ≤ clock
  nodup : active.Nodup
  mem_active : ∀ i, i ∈ active ↔ i < m ∧ s.stop i = none
  ordered : ∀ i j a b, i ≤ j → s.start i = some a → s.start j = some b → a ≤ b
  least : ∀ i a, s.start i = some a → IsLeast {time | first ≤ time ∧ s.busy i time < slots} a

/-- All slots have been in use up to now. -/
def Crowded (first slots : Nat) (s : Spans) (clock m : Nat) : Prop :=
  ∀ time, first ≤ time → time < clock → slots ≤ s.busy m time

theorem greedy_idle (first slots : Nat) : Greedy first slots idle first 0 [] where
  first_le := le_rfl
  started := by simp
  waiting := by simp [idle]
  stopped := by simp [idle]
  nodup := .nil
  mem_active := by simp
  ordered := by simp [idle]
  least := by simp [idle]

theorem crowded_first (first slots : Nat) (s : Spans) (m : Nat) : Crowded first slots s first m :=
  fun _ h hlt => absurd h (by omega)

theorem Greedy.perm (h : Greedy first slots s clock m active) {active' : List Nat} (hp : active.Perm active') :
    Greedy first slots s clock m active' :=
  { h with nodup := hp.nodup_iff.1 h.nodup, mem_active := fun i => hp.mem_iff.symm.trans (h.mem_active i) }

/-- From now on the active spans run, as far as can be said today. -/
theorem Greedy.busy_eq (h : Greedy first slots s clock m active) (ht : clock ≤ time) : s.busy m time = active.length := by
  rw [busy, List.countP_eq_length_filter]
  refine ((List.perm_ext_iff_of_nodup (List.nodup_range.filter _) h.nodup).2 fun i => ?_).length_eq
  rw [List.mem_filter, List.mem_range, runs_iff, h.mem_active]
  refine and_congr_right fun hi => ⟨fun hr => ?_, fun hn => ⟨?_, by simp [hn]⟩⟩
  · rw [Option.eq_none_iff_forall_ne_some]
    intro b hb
    have := hr.2 b hb
    have := h.stopped i b hb
    omega
  · obtain ⟨a, ha, hle⟩ := h.started i hi
    exact ⟨a, ha, hle.trans ht⟩

theorem Greedy.lt_of_start (h : Greedy first slots s clock m active) {a : Nat} (ha : s.start i = some a) :
    i < m ∧ a ≤ clock := by
  have hi : i < m := by
    by_contra hge
    simp [(h.waiting i (by omega)).1] at ha
  obtain ⟨a', ha', hle⟩ := h.started i hi
  exact ⟨hi, Option.some.inj (ha'.symm.trans ha) ▸ hle⟩

/-! ### What can happen -/

/-- Time passes. -/
theorem Greedy.advance (h : Greedy first slots s clock m active) {clock' : Nat} (hc : clock ≤ clock') :
    Greedy first slots s clock' m active :=
  { h with
    first_le := h.first_le.trans hc
    started := fun i hi => (h.started i hi).imp fun _ ha => ⟨ha.1, ha.2.trans hc⟩
    stopped := fun i b hb => (h.stopped i b hb).trans hc }

theorem Crowded.advance (hc : Crowded first slots s clock m) (h : Greedy first slots s clock m active)
    (hfull : slots ≤ active.length) (clock' : Nat) : Crowded first slots s clock' m := by
  intro time hf _
  rcases Nat.lt_or_ge time clock with hlt | hge
  · exact hc time hf hlt
  · exact hfull.trans_eq (h.busy_eq hge).symm

theorem Greedy.start_of_enter (h : Greedy first slots s clock m active) {a : Nat}
    (ha : (s.enter m clock).start i = some a) : i = m ∧ a = clock ∨ i < m ∧ s.start i = some a := by
  by_cases e : i = m
  · subst e
    rw [start_enter_self] at ha
    exact .inl ⟨rfl, (Option.some.inj ha).symm⟩
  · rw [start_enter_of_ne s e] at ha
    exact .inr ⟨(h.lt_of_start ha).1, ha⟩

/-- The span that begins is no part of those before it. -/
theorem busy_enter (s : Spans) (hi : i ≤ m) (clock time : Nat) : (s.enter m clock).busy i time = s.busy i time :=
  busy_congr fun k hk => by
    have : k ≠ m := by omega
    simp [runs, start_enter_of_ne s this]

/-- The next span begins while there is a free slot. -/
theorem Greedy.enter (h : Greedy first slots s clock m active) (hfree : active.length < slots)
    (hc : Crowded first slots s clock m) : Greedy first slots (s.enter m clock) clock (m + 1) (m :: active) := by
  refine ⟨h.first_le, fun i hi => ?_, fun i hi => ?_, h.stopped, ?_, fun i => ?_, fun i j a b hij ha hb => ?_,
    fun i a ha => ?_⟩
  · by_cases e : i = m
    · exact ⟨clock, by simp [e], le_rfl⟩
    · rw [start_enter_of_ne s e]
      exact h.started i (by omega)
  · have : i ≠ m := by omega
    rw [start_enter_of_ne s this]
    exact h.waiting i (by omega)
  · exact List.nodup_cons.2 ⟨fun hmem => absurd ((h.mem_active m).1 hmem).1 (by omega), h.nodup⟩
  · rw [List.mem_cons, h.mem_active, stop_enter]
    by_cases e : i = m
    · simp [e, (h.waiting m le_rfl).2]
    · have : i < m + 1 ↔ i < m := by omega
      simp [e, this]
  · rcases h.start_of_enter ha with ⟨rfl, rfl⟩ | ⟨hi, ha'⟩
    · rcases h.start_of_enter hb with ⟨-, rfl⟩ | ⟨hj, -⟩
      · exact le_rfl
      · omega
    · rcases h.start_of_enter hb with ⟨-, rfl⟩ | ⟨-, hb'⟩
      · exact (h.lt_of_start ha').2
      · exact h.ordered i j a b hij ha' hb'
  · rcases h.start_of_enter ha with ⟨rfl, rfl⟩ | ⟨hi, ha'⟩
    · simp only [busy_enter s le_rfl]
      refine ⟨⟨h.first_le, (h.busy_eq le_rfl).trans_lt hfree⟩, fun time ⟨hf, hlt⟩ => ?_⟩
      by_contra hlt'
      have := hc time hf (by omega)
      omega
    · simp only [busy_enter s hi.le]
      exact h.least i a ha'

theorem Crowded.enter (hc : Crowded first slots s clock m) :
    Crowded first slots (s.enter m clock) clock (m + 1) := by
  intro time hf hlt
  have := hc time hf hlt
  rw [busy_succ, busy_enter s le_rfl]
  omega

/-- An active span ends. -/
theorem Greedy.leave (h : Greedy first slots s clock m (i :: active)) :
    Greedy first slots (s.leave i clock) clock m active := by
  obtain ⟨hi, hn⟩ := (h.mem_active i).1 List.mem_cons_self
  obtain ⟨hnot, hnodup⟩ := List.nodup_cons.1 h.nodup
  refine ⟨h.first_le, h.started, fun j hj => ?_, fun j b hb => ?_, hnodup, fun j => ?_, h.ordered, fun j a ha => ⟨?_, ?_⟩⟩
  · have : j ≠ i := by omega
    rw [stop_leave_of_ne s this]
    exact h.waiting j hj
  · by_cases e : j = i
    · subst e
      rw [stop_leave_self] at hb
      exact (Option.some.inj hb).ge
    · exact h.stopped j b (stop_leave_of_ne s e clock ▸ hb)
  · by_cases e : j = i
    · simp [e, hnot]
    · simpa [e, stop_leave_of_ne s e] using h.mem_active j
  · have hbusy : (s.leave i clock).busy j a ≤ s.busy j a := busy_le_busy fun k _ => runs_of_runs_leave hn
    exact ⟨(h.least j a ha).1.1, hbusy.trans_lt (h.least j a ha).1.2⟩
  · intro time ⟨hf, hlt⟩
    by_contra hlt'
    have hle : a ≤ clock := (h.lt_of_start ha).2
    have hbusy : (s.leave i clock).busy j time = s.busy j time :=
      busy_congr fun k _ => runs_leave_of_lt hn (by omega) k
    exact hlt' ((h.least j a ha).2 ⟨hf, hbusy ▸ hlt⟩)

theorem Crowded.leave (hc : Crowded first slots s clock m) (hn : s.stop i = none) :
    Crowded first slots (s.leave i clock) clock m := by
  intro time hf hlt
  have hbusy : (s.leave i clock).busy m time = s.busy m time := busy_congr fun k _ => runs_leave_of_lt hn hlt k
  exact hbusy ▸ hc time hf hlt

/-! ### What follows -/

/-- No more spans run at a time than there are slots. -/
theorem Greedy.busy_le (h : Greedy first slots s clock m active) (n time : Nat) : s.busy n time ≤ slots := by
  induction n with
  | zero => simp [busy]
  | succ n ih =>
    rw [busy_succ]
    split
    · next hr =>
      -- those that run beside the last one ran already when it began
      obtain ⟨⟨a, ha, hat⟩, -⟩ := runs_iff.1 hr
      have hle : s.busy n time ≤ s.busy n a := by
        refine busy_le_busy fun k hk hrk => runs_iff.2 ?_
        obtain ⟨⟨b, hb, -⟩, hstop⟩ := runs_iff.1 hrk
        exact ⟨⟨b, hb, h.ordered k n b a hk.le hb ha⟩, fun c hc => hat.trans_lt (hstop c hc)⟩
      have := (h.least n a ha).1.2
      omega
    · exact ih

/-- Until a span begins all slots are in use. -/
theorem Greedy.busy_eq_slots (h : Greedy first slots s clock m active) {a : Nat} (ha : s.start i = some a) (hi : i ≤ n)
    (hf : first ≤ time) (hlt : time < a) : s.busy n time = slots := by
  refine le_antisymm (h.busy_le n time) ?_
  by_contra hfew
  have hle : s.busy i time ≤ s.busy n time := (List.range_sublist.2 hi).countP_le
  have := (h.least i a ha).2 ⟨hf, by omega⟩
  omega

/-- With one slot, no span before another one runs when that begins. -/
theorem Greedy.not_runs (h : Greedy first 1 s clock m active) {a : Nat} (ha : s.start j = some a) (hij : i < j) :
    s.runs a i = false := by
  have hz : s.busy j a = 0 := Nat.lt_one_iff.1 (h.least j a ha).1.2
  simpa using List.countP_eq_zero.1 hz i (List.mem_range.2 hij)

/-- With one slot, a span begins after those before it have ended. -/
theorem Greedy.stop_le_start (h : Greedy first 1 s clock m active) {a b c : Nat} (ha : s.start i = some a)
    (hb : s.stop i = some b) (hc : s.start j = some c) (hij : i < j) : b ≤ c := by
  have hnot := h.not_runs hc hij
  have hle : a ≤ c := h.ordered i j a c hij.le ha hc
  simpa [runs, ha, hb, hle] using hnot

/-- With one slot, the active span is the last one that has begun. -/
theorem Greedy.succ_eq_of_mem (h : Greedy first 1 s clock m active) (hi : i ∈ active) : i + 1 = m := by
  obtain ⟨hlt, hn⟩ := (h.mem_active i).1 hi
  by_contra hne
  obtain ⟨a, ha, -⟩ := h.started i hlt
  obtain ⟨b, hb, -⟩ := h.started (i + 1) (by omega)
  have hr : s.runs b i = true := runs_iff.2 ⟨⟨a, ha, h.ordered i (i + 1) a b (by omega) ha hb⟩, by simp [hn]⟩
  simp [h.not_runs hb (Nat.lt_succ_self i)] at hr

end Spans

end PushDispatch
