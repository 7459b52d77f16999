import Mathlib.Algebra.GroupWithZero.Nat
import PushDispatch.Proofs.Dispatch.Tasks

/-! The permits of a dispatch, whatever the order of its steps. The free permits and the tasks that hold one make
up all permits, and a task holds one exactly from its first send to its last reply. No task is ever stuck for
good, and every step uses up some of the work that is left, so every dispatch comes to its end. -/

namespace PushDispatch

/-- How many steps a task has left at most. -/
def Stage.work (limit : Nat) : Stage → Nat
  | waiting => 2 * limit
  | sending attempt => 2 * (limit - attempt) + 1
  | sleeping attempt => 2 * (limit - attempt) + 2
  | _ => 0

theorem sum_map_set {α : Type*} {l : List α} {i : Nat} {x : α} (h : l[i]? = some x) (y : α) (f : α → Nat) :
    ((l.set i y).map f).sum + f x = (l.map f).sum + f y := by
  induction l generalizing i with
  | nil => simp at h
  | cons a l ih =>
    cases i with
    | zero =>
      obtain rfl : a = x := by simpa using h
      simp only [List.set_cons_zero, List.map_cons, List.sum_cons]
      omega
    | succ i =>
      have := ih (by simpa using h)
      simp only [List.set_cons_succ, List.map_cons, List.sum_cons]
      omega

theorem countP_set_add {α : Type*} {l : List α} {i : Nat} {x : α} (h : l[i]? = some x) (y : α) (f : α → Bool) :
    (l.set i y).countP f + (if f x then 1 else 0) = l.countP f + if f y then 1 else 0 := by
  obtain ⟨hi, rfl⟩ := List.getElem?_eq_some_iff.1 h
  have hpos : f l[i] = true → 0 < l.countP f := fun hf => List.countP_pos_iff.2 ⟨_, List.getElem_mem hi, hf⟩
  rw [List.countP_set hi]
  by_cases hf : f l[i] = true
  · have := hpos hf
    simp only [hf, if_true]
    omega
  · rw [if_neg hf]
    omega

namespace Tasks

variable {p : RetryPolicy} {permits n : Nat} {moves : List Move} {s t : Tasks} {move : Move}

/-- All permits are free or held, and exactly the running tasks hold one. -/
structure Balanced (permits : Nat) (s : Tasks) : Prop where
  total : s.free + s.holders.length = permits
  nodup : s.holders.Nodup
  holds : ∀ i, i ∈ s.holders ↔ ∃ stage, s.stages[i]? = some stage ∧ stage.isRunning = true
  running : s.stages.countP Stage.isRunning = s.holders.length

theorem balanced_start (permits n : Nat) : Balanced permits (start permits n) where
  total := by simp [start]
  nodup := by simp [start]
  holds i := by
    refine ⟨fun h => by simp [start] at h, ?_⟩
    rintro ⟨stage, hs, hr⟩
    obtain ⟨-, rfl⟩ : i < n ∧ .waiting = stage := by simpa [start, List.getElem?_replicate] using hs
    simp [Stage.isRunning] at hr
  running := by simp [start, List.countP_replicate, Stage.isRunning]

theorem Balanced.put (h : Balanced permits s) {i : Nat} {old stage : Stage} (hi : s.stages[i]? = some old)
    (hold : old.isRunning = true) (hnew : stage.isRunning = true) : Balanced permits (s.put i stage) where
  total := h.total
  nodup := h.nodup
  holds j := by
    rw [show (s.put i stage).holders = s.holders from rfl, h.holds]
    simp only [Tasks.put, getElem?_set_of_eq_some hi]
    split
    · next e => subst e; simp [hi, hold, hnew]
    · rfl
  running := by
    have := countP_set_add hi stage Stage.isRunning
    simp only [hold, hnew, if_true] at this
    exact (Nat.add_right_cancel this).trans h.running

theorem Balanced.acquire (h : Balanced permits s) {i : Nat} (hi : s.stages[i]? = some .waiting) (hf : 0 < s.free) :
    Balanced permits (s.acquire i) where
  total := by
    have := h.total
    simp only [Tasks.acquire, List.length_cons]
    omega
  nodup := by
    refine List.nodup_cons.2 ⟨fun hm => ?_, h.nodup⟩
    obtain ⟨stage, hs, hr⟩ := (h.holds i).1 hm
    obtain rfl : .waiting = stage := Option.some.inj (hi.symm.trans hs)
    simp [Stage.isRunning] at hr
  holds j := by
    simp only [Tasks.acquire, List.mem_cons, h.holds, getElem?_set_of_eq_some hi]
    split
    · next e => subst e; simp [Stage.isRunning]
    · next e => simp [Ne.symm e]
  running := by
    have := countP_set_add hi (.sending 1) Stage.isRunning
    simpa [Tasks.acquire, Stage.isRunning, h.running] using this

theorem Balanced.close (h : Balanced permits s) {i : Nat} {old stage : Stage} (hi : s.stages[i]? = some old)
    (hold : old.isRunning = true) (hnew : stage.isRunning = false) (result : Option (Outcome × Nat)) :
    Balanced permits (s.close i stage result) := by
  have hm : i ∈ s.holders := (h.holds i).2 ⟨old, hi, hold⟩
  have hl : (s.holders.erase i).length + 1 = s.holders.length := by
    have := List.length_pos_of_mem hm
    rw [List.length_erase_of_mem hm]
    omega
  constructor
  · have := h.total
    simp only [Tasks.close]
    omega
  · exact h.nodup.erase i
  · intro j
    simp only [Tasks.close, h.nodup.mem_erase_iff, h.holds, getElem?_set_of_eq_some hi]
    split
    · next e => subst e; simp [hnew]
    · next e => simp [Ne.symm e]
  · have := countP_set_add hi stage Stage.isRunning
    simp only [hold, hnew, h.running, ← hl, if_true] at this
    exact Nat.add_right_cancel this

theorem Balanced.step (h : Balanced permits s) (hs : Step p s move t) : Balanced permits t := by
  cases hs with
  | acquire hi hfree => exact h.acquire hi hfree
  | retry hi _ => exact h.put hi rfl rfl
  | finish hi _ => exact h.close hi rfl rfl _
  | abort hi _ => exact h.close hi rfl rfl _
  | wake hi => exact h.put hi rfl rfl

theorem Path.balanced (h : Path p (start permits n) moves s) : Balanced permits s := by
  induction h with
  | refl => exact balanced_start permits n
  | snoc _ step ih => exact ih.step step

/-- No more sends are under way than there are permits. -/
theorem Balanced.countP_isSending_le (h : Balanced permits s) : s.stages.countP Stage.isSending ≤ permits := by
  have hle : s.stages.countP Stage.isSending ≤ s.stages.countP Stage.isRunning :=
    List.countP_mono_left fun stage _ hs => by cases stage <;> simp_all [Stage.isSending, Stage.isRunning]
  have := h.total
  have := h.running
  omega

theorem Balanced.free_eq (h : Balanced permits s) (hs : s.IsOver) : s.free = permits := by
  have hz : s.stages.countP Stage.isRunning = 0 := by
    refine List.countP_eq_zero.2 fun stage hm hr => ?_
    have := Stage.isOver_eq_false_of_isRunning hr
    simp [hs stage hm] at this
  have := h.total
  have := h.running
  omega

/-! ### Progress -/

/-- A reply to a send under way is always taken in. -/
theorem exists_step_reply (p : RetryPolicy) {i attempt : Nat} (hi : s.stages[i]? = some (.sending attempt))
    (answer : Answer) : ∃ t, Step p s (.reply i answer) t := by
  cases hj : p.judge attempt answer with
  | finish outcome => exact ⟨_, .finish hi hj⟩
  | retry error wait => exact ⟨_, .retry hi hj⟩
  | abort => exact ⟨_, .abort hi hj⟩

/-- While there is a task left, some task can go on, whatever the replies are that come next. -/
theorem Balanced.exists_step (h : Balanced permits s) (hp : 0 < permits) (hs : ¬ s.IsOver) (p : RetryPolicy)
    (next : Nat → Answer) : ∃ move t, Step p s move t ∧ ∀ i answer, move = .reply i answer → answer = next i := by
  have running : ∀ (i : Nat) (stage : Stage), s.stages[i]? = some stage → stage.isRunning = true →
      ∃ move t, Step p s move t ∧ ∀ i answer, move = .reply i answer → answer = next i := by
    intro i stage hi hr
    cases stage with
    | sending attempt =>
      obtain ⟨t, ht⟩ := exists_step_reply p hi (next i)
      exact ⟨_, t, ht, by rintro j answer ⟨⟩; rfl⟩
    | sleeping attempt => exact ⟨_, _, .wake hi, by simp⟩
    | _ => simp [Stage.isRunning] at hr
  obtain ⟨stage, hm, ho⟩ : ∃ stage ∈ s.stages, ¬ stage.isOver = true := by simpa [IsOver] using hs
  obtain ⟨i, hi⟩ := List.mem_iff_getElem?.1 hm
  cases stage with
  | waiting =>
    rcases Nat.eq_zero_or_pos s.free with hz | hpos
    · -- all permits are held, so a task is running
      have hlen : 0 < s.holders.length := by have := h.total; omega
      obtain ⟨j, hj⟩ := List.exists_mem_of_length_pos hlen
      obtain ⟨stage, hs, hr⟩ := (h.holds j).1 hj
      exact running j stage hs hr
    · exact ⟨_, _, .acquire hi hpos, by simp⟩
  | sending attempt => exact running i _ hi rfl
  | sleeping attempt => exact running i _ hi rfl
  | _ => simp [Stage.isOver, Stage.result?] at ho

/-- How many steps a dispatch has left at most. -/
def work (limit : Nat) (s : Tasks) : Nat := (s.stages.map (Stage.work limit)).sum

theorem Step.work_lt (h : Step p s move t) : t.work p.limit < s.work p.limit := by
  have key : ∀ {i old stage}, s.stages[i]? = some old → stage.work p.limit < old.work p.limit →
      ((s.stages.set i stage).map (Stage.work p.limit)).sum < s.work p.limit := by
    intro i old stage hi hlt
    have := sum_map_set hi stage (Stage.work p.limit)
    unfold work
    omega
  have hl := p.one_le_limit
  cases h with
  | acquire hi _ => exact key hi (by simp only [Stage.work]; omega)
  | retry hi hj =>
    have := (RetryPolicy.judge_eq_retry_iff.1 hj).2.2.1
    exact key hi (by simp only [Stage.work]; omega)
  | finish hi _ => exact key hi (by simp only [Stage.work]; omega)
  | abort hi _ => exact key hi (by simp only [Stage.work]; omega)
  | wake hi => exact key hi (by simp only [Stage.work]; omega)

theorem Path.length_add_work_le (h : Path p s moves t) : moves.length + t.work p.limit ≤ s.work p.limit := by
  induction h with
  | refl => simp
  | snoc _ step ih =>
    have := step.work_lt
    simp only [List.length_append, List.length_singleton]
    omega

/-- However its steps are ordered, a dispatch is over after two steps for each send that it may make. -/
theorem Path.length_le (h : Path p (start permits n) moves s) : moves.length ≤ n * (2 * p.limit) := by
  have := h.length_add_work_le
  simp only [work, start, List.map_replicate, List.sum_replicate_nat, Stage.work] at this
  omega

end Tasks

end PushDispatch
