import PushDispatch.Proofs.Dispatch.Delivery

/-! A dispatch as tasks that take their steps in any order. A task waits for one of the permits, then sends and
sleeps in turn until it has a result or breaks off. Any waiting task may take a free permit, a reply may come to
any send that is under way, and any sleep may end. Each task gives its permit back when it ends, and leaves its
result behind. -/

namespace PushDispatch

/-- Where the task of a delivery stands. A task sleeps before the send whose number is given. -/
inductive Stage where
  | waiting
  | sending (attempt : Nat)
  | sleeping (attempt : Nat)
  | finished (outcome : Outcome) (attempts : Nat)
  | panicked
deriving DecidableEq

namespace Stage

/-- Whether a task is between its first send and its last reply. -/
def isRunning : Stage → Bool
  | sending _ => true
  | sleeping _ => true
  | _ => false

def isSending : Stage → Bool
  | sending _ => true
  | _ => false

/-- What an ended task leaves behind: its result, or the absence of one if it broke off. -/
def result? : Stage → Option (Option (Outcome × Nat))
  | finished outcome attempts => some (some (outcome, attempts))
  | panicked => some none
  | _ => none

def isOver (stage : Stage) : Bool := stage.result?.isSome

theorem isOver_eq_false_of_isRunning {stage : Stage} (h : stage.isRunning = true) : stage.isOver = false := by
  cases stage with
  | sending attempt => rfl
  | sleeping attempt => rfl
  | _ => cases h

end Stage

/-- The free permits, the tasks that hold one, the stage of each task, and the results of ended tasks, last
first. -/
structure Tasks where
  free : Nat
  holders : List Nat
  stages : List Stage
  results : List (Nat × Option (Outcome × Nat))

/-- A step of one task. -/
inductive Move where
  | acquire (task : Nat)
  | reply (task : Nat) (answer : Answer)
  | wake (task : Nat)
deriving DecidableEq

/-- The answers that a task has had, in order. -/
def answersOf (task : Nat) (moves : List Move) : List Answer :=
  moves.filterMap fun
    | .reply i answer => if i = task then some answer else none
    | _ => none

@[simp] theorem answersOf_nil (i : Nat) : answersOf i [] = [] := rfl

@[simp] theorem answersOf_append (i : Nat) (xs ys : List Move) :
    answersOf i (xs ++ ys) = answersOf i xs ++ answersOf i ys := List.filterMap_append

@[simp] theorem answersOf_acquire (i j : Nat) : answersOf i [.acquire j] = [] := rfl

@[simp] theorem answersOf_wake (i j : Nat) : answersOf i [.wake j] = [] := rfl

@[simp] theorem answersOf_reply (i j : Nat) (answer : Answer) :
    answersOf i [.reply j answer] = if j = i then [answer] else [] := by
  by_cases h : j = i <;> simp [answersOf, h]

namespace Tasks

/-- No task has begun. -/
def start (permits n : Nat) : Tasks := ⟨permits, [], List.replicate n .waiting, []⟩

def put (s : Tasks) (i : Nat) (stage : Stage) : Tasks := { s with stages := s.stages.set i stage }

theorem put_eq_self {s : Tasks} {i : Nat} {stage : Stage} (h : s.stages[i]? = some stage) : s.put i stage = s := by
  obtain ⟨hi, rfl⟩ := List.getElem?_eq_some_iff.1 h
  simp [put]

/-- A task takes a permit, and its first send begins. -/
def acquire (s : Tasks) (i : Nat) : Tasks :=
  { s with free := s.free - 1, holders := i :: s.holders, stages := s.stages.set i (.sending 1) }

/-- A task ends in a stage with a result, and its permit is free again. -/
def close (s : Tasks) (i : Nat) (stage : Stage) (result : Option (Outcome × Nat)) : Tasks :=
  ⟨s.free + 1, s.holders.erase i, s.stages.set i stage, (i, result) :: s.results⟩

/-- No task has anything left to do. -/
def IsOver (s : Tasks) : Prop := ∀ stage ∈ s.stages, stage.isOver = true

/-- One step of a dispatch under a retry policy. -/
inductive Step (p : RetryPolicy) (s : Tasks) : Move → Tasks → Prop
  | acquire {i} (hi : s.stages[i]? = some .waiting) (hfree : 0 < s.free) : Step p s (.acquire i) (s.acquire i)
  | retry {i attempt answer error wait} (hi : s.stages[i]? = some (.sending attempt))
      (hj : p.judge attempt answer = .retry error wait) :
      Step p s (.reply i answer) (s.put i (.sleeping (attempt + 1)))
  | finish {i attempt answer outcome} (hi : s.stages[i]? = some (.sending attempt))
      (hj : p.judge attempt answer = .finish outcome) :
      Step p s (.reply i answer) (s.close i (.finished outcome attempt) (some (outcome, attempt)))
  | abort {i attempt answer} (hi : s.stages[i]? = some (.sending attempt)) (hj : p.judge attempt answer = .abort) :
      Step p s (.reply i answer) (s.close i .panicked none)
  | wake {i attempt} (hi : s.stages[i]? = some (.sleeping attempt)) :
      Step p s (.wake i) (s.put i (.sending attempt))

/-- Any number of steps, with the moves that they make. -/
inductive Path (p : RetryPolicy) (s : Tasks) : List Move → Tasks → Prop
  | refl : Path p s [] s
  | snoc {moves t move u} (path : Path p s moves t) (step : Step p t move u) : Path p s (moves ++ [move]) u

theorem Path.trans {p : RetryPolicy} {s t u : Tasks} {moves moves' : List Move} (h : Path p s moves t)
    (h' : Path p t moves' u) : Path p s (moves ++ moves') u := by
  induction h' with
  | refl => simpa using h
  | snoc _ step ih => simpa using ih.snoc step

theorem Path.single {p : RetryPolicy} {s t : Tasks} {move : Move} (h : Step p s move t) : Path p s [move] t :=
  .snoc .refl h

end Tasks

/-! ### What a task has heard -/

/-- A series of answers, counted from one, begins with the entries of a list. -/
def Begins (answers : Nat → Answer) (first : List Answer) : Prop :=
  ∀ k answer, first[k]? = some answer → answers (k + 1) = answer

theorem begins_append_singleton {answers : Nat → Answer} {first : List Answer} {answer : Answer} :
    Begins answers (first ++ [answer]) ↔ Begins answers first ∧ answers (first.length + 1) = answer := by
  constructor
  · intro h
    refine ⟨fun k a hk => h k a ?_, h first.length answer (by simp)⟩
    obtain ⟨hlt, -⟩ := List.getElem?_eq_some_iff.1 hk
    rwa [List.getElem?_append_left hlt]
  · rintro ⟨h, hl⟩ k a hk
    rcases Nat.lt_or_ge k first.length with hlt | hge
    · exact h k a (by rwa [List.getElem?_append_left hlt] at hk)
    · obtain rfl : k = first.length := by
        have := (List.getElem?_eq_some_iff.1 hk).1
        simp at this
        omega
      rw [hl]
      simpa using hk

/-- What the answers that a task has had say about its delivery at a stage. -/
def Stage.Fits (p : RetryPolicy) (first : List Answer) : Stage → Prop
  | waiting => first = []
  | sending attempt | sleeping attempt =>
    first.length + 1 = attempt ∧ .aborted ∉ first ∧
      ∀ answers, Begins answers first → deliver p answers = deliverFrom p answers attempt
  | finished outcome attempts =>
    first.length = attempts ∧ .aborted ∉ first ∧
      ∀ answers, Begins answers first → deliver p answers = some (outcome, attempts)
  | panicked => .aborted ∈ first ∧ ∀ answers, Begins answers first → deliver p answers = none

theorem Stage.Fits.next {p : RetryPolicy} {first : List Answer} {attempt : Nat} {answer : Answer}
    (h : (sending attempt).Fits p first) {answers : Nat → Answer} (ha : Begins answers (first ++ [answer])) :
    answers attempt = answer ∧ deliver p answers = deliverFrom p answers attempt := by
  obtain ⟨hb, hl⟩ := begins_append_singleton.1 ha
  obtain ⟨rfl, -, hd⟩ := h
  exact ⟨hl, hd answers hb⟩

/-- A changed entry of a list. -/
theorem getElem?_set_of_eq_some {α : Type*} {l : List α} {i : Nat} {x : α} (h : l[i]? = some x) (y : α) (j : Nat) :
    (l.set i y)[j]? = if i = j then some y else l[j]? := by
  obtain ⟨hi, -⟩ := List.getElem?_eq_some_iff.1 h
  rw [List.getElem?_set]
  simp [hi]

namespace Tasks

/-- What the moves of a dispatch to `n` devices have made of its tasks. -/
structure Recorded (p : RetryPolicy) (n : Nat) (moves : List Move) (s : Tasks) : Prop where
  length : s.stages.length = n
  begun : ∀ i stage, s.stages[i]? = some stage → stage ≠ .waiting → .acquire i ∈ moves
  fits : ∀ i (stage : Stage), s.stages[i]? = some stage → stage.Fits p (answersOf i moves)
  result : ∀ i result, (i, result) ∈ s.results ↔ s.stages[i]?.bind Stage.result? = some result
  keys : (s.results.map Prod.fst).Nodup

variable {p : RetryPolicy} {n : Nat} {moves : List Move} {s t : Tasks} {move : Move}

theorem recorded_start (p : RetryPolicy) (permits n : Nat) : Recorded p n [] (start permits n) where
  length := by simp [start]
  begun i stage h hw := by simp_all [start, List.getElem?_replicate]
  fits i stage h := by
    obtain ⟨-, rfl⟩ : i < n ∧ .waiting = stage := by simpa [start, List.getElem?_replicate] using h
    rfl
  result i result := by
    by_cases h : i < n <;> simp [start, h, Stage.result?]
  keys := by simp [start]

/-- Permits have no part in what is recorded. -/
theorem Recorded.of_eq (h : Recorded p n moves s) (hs : t.stages = s.stages) (hr : t.results = s.results) :
    Recorded p n moves t := by
  obtain ⟨hl, hb, hf, hres, hk⟩ := h
  exact ⟨hs ▸ hl, hs ▸ hb, hs ▸ hf, hs ▸ hr ▸ hres, hr ▸ hk⟩

/-- A change of stage that leaves no result. -/
theorem Recorded.put (h : Recorded p n moves s) {i : Nat} {old stage : Stage} (hi : s.stages[i]? = some old)
    (hold : old.result? = none) (hnew : stage.result? = none) (hm : ∀ j ≠ i, answersOf j [move] = [])
    (hb : .acquire i ∈ moves ++ [move]) (hf : stage.Fits p (answersOf i (moves ++ [move]))) :
    Recorded p n (moves ++ [move]) (s.put i stage) where
  length := by simpa [Tasks.put] using h.length
  begun j x hx hw := by
    simp only [Tasks.put, getElem?_set_of_eq_some hi] at hx
    split at hx
    · next e => exact e ▸ hb
    · exact List.mem_append_left _ (h.begun j x hx hw)
  fits j x hx := by
    simp only [Tasks.put, getElem?_set_of_eq_some hi] at hx
    split at hx
    · next e => obtain rfl := Option.some.inj hx; exact e ▸ hf
    · next e => simpa [hm j (Ne.symm e)] using h.fits j x hx
  result j r := by
    rw [show (s.put i stage).results = s.results from rfl, h.result]
    simp only [Tasks.put, getElem?_set_of_eq_some hi]
    split
    · next e => subst e; simp [hi, hold, hnew]
    · rfl
  keys := h.keys

/-- The end of a task. -/
theorem Recorded.close (h : Recorded p n moves s) {i attempt : Nat} {answer : Answer} {stage : Stage}
    {result : Option (Outcome × Nat)} (hi : s.stages[i]? = some (.sending attempt)) (hr : stage.result? = some result)
    (hf : stage.Fits p (answersOf i moves ++ [answer])) :
    Recorded p n (moves ++ [.reply i answer]) (s.close i stage result) where
  length := by simpa [Tasks.close] using h.length
  begun j x hx hw := by
    refine List.mem_append_left _ ?_
    simp only [Tasks.close, getElem?_set_of_eq_some hi] at hx
    split at hx
    · next e => exact e ▸ h.begun i _ hi (by simp)
    · exact h.begun j x hx hw
  fits j x hx := by
    simp only [Tasks.close, getElem?_set_of_eq_some hi] at hx
    split at hx
    · next e => obtain rfl := Option.some.inj hx; simpa [e] using e ▸ hf
    · next e => simpa [e] using h.fits j x hx
  result j r := by
    have hnot : ∀ r, (i, r) ∉ s.results := fun r hr => by simpa [hi, Stage.result?] using (h.result i r).1 hr
    simp only [Tasks.close, getElem?_set_of_eq_some hi, List.mem_cons, Prod.mk.injEq]
    split
    · next e => subst e; simp [hnot, hr, eq_comm]
    · next e => simp [Ne.symm e, h.result]
  keys := by
    have hnot : i ∉ s.results.map Prod.fst := by
      rintro hm
      obtain ⟨⟨_, r⟩, hr, rfl⟩ := List.mem_map.1 hm
      simpa [hi, Stage.result?] using (h.result _ r).1 hr
    simpa [Tasks.close] using ⟨by simpa using hnot, h.keys⟩

theorem Recorded.step (h : Recorded p n moves s) (hs : Step p s move t) : Recorded p n (moves ++ [move]) t := by
  cases hs with
  | @acquire i hi hfree =>
    have hw : answersOf i moves = [] := h.fits i _ hi
    have hput : Recorded p n (moves ++ [.acquire i]) (s.put i (.sending 1)) :=
      h.put hi rfl rfl (fun _ _ => rfl) (by simp) (by simp [hw, Stage.Fits, deliver])
    exact hput.of_eq rfl rfl
  | @retry i attempt answer error wait hi hj =>
    have hf := h.fits i _ hi
    obtain ⟨rfl, -⟩ := RetryPolicy.judge_eq_retry_iff.1 hj
    refine h.put hi rfl rfl (fun j hne => by simp [Ne.symm hne]) (List.mem_append_left _ (h.begun i _ hi (by simp))) ?_
    refine ⟨by simp [hf.1], by simp [hf.2.1], fun answers ha => ?_⟩
    obtain ⟨ha, hd⟩ := hf.next (by simpa using ha)
    rw [hd, deliverFrom_of_retry (ha ▸ hj)]
  | @finish i attempt answer outcome hi hj =>
    have hf := h.fits i _ hi
    refine h.close hi rfl ⟨by simp [hf.1], ?_, fun answers ha => ?_⟩
    · have : answer ≠ .aborted := by
        rintro rfl
        simp [RetryPolicy.judge_eq_abort_iff.2 rfl] at hj
      simpa [hf.2.1] using Ne.symm this
    · obtain ⟨ha, hd⟩ := hf.next ha
      rw [hd, deliverFrom_of_finish (ha ▸ hj)]
  | @abort i attempt answer hi hj =>
    have hf := h.fits i _ hi
    refine h.close hi rfl ⟨by simp [RetryPolicy.judge_eq_abort_iff.1 hj], fun answers ha => ?_⟩
    obtain ⟨ha, hd⟩ := hf.next ha
    rw [hd, deliverFrom_of_abort (ha ▸ hj)]
  | @wake i attempt hi =>
    exact h.put hi rfl rfl (fun _ _ => rfl) (List.mem_append_left _ (h.begun i _ hi (by simp)))
      (by simpa [Stage.Fits] using h.fits i _ hi)

/-- Whatever the order of steps, each task stands where its own answers have brought it. -/
theorem Path.recorded {permits : Nat} (h : Path p (start permits n) moves s) : Recorded p n moves s := by
  induction h with
  | refl => exact recorded_start p permits n
  | snoc _ step ih => exact ih.step step

end Tasks

end PushDispatch
