import Mathlib.Data.List.Basic
import PushDispatch.CommandLine.Basic
import PushDispatch.Settings.Basic

/-! The errors of the checks. Each is about one of the settings that are checked, and critical; nothing else goes
wrong in a check. -/

namespace PushDispatch

/-- A setting is missing or unfit for use. -/
inductive PushError.IsAbout (field : String) : PushError → Prop
  | missing : IsAbout field (.missingSetting field)
  | invalid (value reason : String) : IsAbout field (.invalidSetting field value reason)

theorem PushError.IsAbout.severity {field : String} {e : PushError} (h : e.IsAbout field) : e.severity = .critical := by
  cases h <;> rfl

/-- Whatever goes wrong is about one of the given settings. -/
inductive ErrsAbout {α : Type} (fields : List String) : Except PushError α → Prop
  | ok (a : α) : ErrsAbout fields (.ok a)
  | error {field : String} {e : PushError} (mem : field ∈ fields) (about : e.IsAbout field) : ErrsAbout fields (.error e)

namespace ErrsAbout

variable {α β : Type} {fields : List String} {x : Except PushError α}

theorem missing (field : String) : ErrsAbout [field] (.error (.missingSetting field) : Except PushError α) :=
  .error (by simp) (.missing)

theorem invalid (field value reason : String) :
    ErrsAbout [field] (.error (.invalidSetting field value reason) : Except PushError α) :=
  .error (by simp) (.invalid value reason)

theorem bind (hx : ErrsAbout fields x) {f : α → Except PushError β} (hf : ∀ a, ErrsAbout fields (f a)) :
    ErrsAbout fields (x >>= f) := by
  cases hx with
  | ok a => exact hf a
  | error mem about => exact .error mem about

theorem mono (hx : ErrsAbout fields x) {more : List String} (hs : fields ⊆ more) : ErrsAbout more x := by
  cases hx with
  | ok a => exact .ok a
  | error mem about => exact .error (hs mem) about

theorem severity (hx : ErrsAbout fields x) {e : PushError} (he : x = .error e) : e.severity = .critical := by
  subst he
  cases hx with
  | error _ about => exact about.severity

end ErrsAbout

theorem exists_of_bind_eq_ok {ε α β : Type} {x : Except ε α} {f : α → Except ε β} {b : β} (h : (x >>= f) = .ok b) :
    ∃ a, x = .ok a ∧ f a = .ok b := by
  cases x with
  | error e => cases h
  | ok a => exact ⟨a, rfl, h⟩

namespace Check

theorem errsAbout_url (field value : String) : ErrsAbout [field] (url field value) := by
  unfold url
  split
  · exact .invalid ..
  · split
    · exact .invalid ..
    · split
      · exact .ok _
      · exact .ok _
      · exact .invalid ..

/-- A URL that passes is one of the web. -/
theorem exists_of_url {field value : String} (h : url field value = .ok ()) :
    ∃ u, Url.read value = .ok u ∧ (u.scheme = "http".toList ∨ u.scheme = "https".toList) := by
  unfold url at h
  split at h
  · cases h
  · split at h
    · cases h
    · next u hread =>
      refine ⟨u, hread, ?_⟩
      split at h
      · next hs => exact .inl (by rw [← hs, String.toList_ofList])
      · next hs => exact .inr (by rw [← hs, String.toList_ofList])
      · cases h

theorem errsAbout_atLeast (field : String) (min value : Nat) : ErrsAbout [field] (atLeast field min value) := by
  unfold atLeast
  split
  · exact .invalid ..
  · exact .ok _

theorem errsAbout_between (field : String) (min max value : Int) : ErrsAbout [field] (between field min max value) := by
  unfold between
  split
  · exact .invalid ..
  · exact .ok _

theorem errsAbout_required {α : Type} (field : String) (value : Option α) : ErrsAbout [field] (required field value) := by
  cases value with
  | none => exact .missing field
  | some a => exact .ok _

theorem errsAbout_nonBlank (field value : String) : ErrsAbout [field] (nonBlank field value) := by
  unfold nonBlank
  split
  · exact .invalid ..
  · exact .ok _

theorem all_of_projectId {field value : String} (h : projectId field value = .ok ()) :
    value.toList.all isProjectIdChar = true := by
  obtain ⟨_, -, h⟩ := exists_of_bind_eq_ok h
  split at h
  · assumption
  · cases h

theorem errsAbout_projectId (field value : String) : ErrsAbout [field] (projectId field value) := by
  refine (errsAbout_nonBlank field value).bind fun _ => ?_
  split
  · exact .ok _
  · exact .invalid ..

end Check

namespace Settings

theorem errsAbout_checkToken (s : Settings) : ErrsAbout ["fcm.access_token"] s.checkToken := by
  refine (Check.errsAbout_required _ _).bind fun token => ?_
  split
  · exact .invalid ..
  · exact Check.errsAbout_nonBlank ..

theorem errsAbout_checkIfPresent {α : Type} {fields : List String} {check : α → Except PushError Unit}
    (h : ∀ a, ErrsAbout fields (check a)) (value : Option α) : ErrsAbout fields (checkIfPresent check value) := by
  cases value with
  | none => exact .ok _
  | some a => exact h a

theorem errsAbout_checkConcurrency (value : Nat) :
    ErrsAbout ["dispatch.concurrent_requests"] (checkConcurrency value) :=
  (Check.errsAbout_atLeast ..).bind fun _ => Check.errsAbout_between ..

theorem errsAbout_checkDelays (p : RetryPolicy) : ErrsAbout ["dispatch.base_delay_ms"] (checkDelays p) := by
  unfold checkDelays
  split
  · exact .invalid ..
  · exact .ok _

/-- The settings that are checked. -/
def checked : List String :=
  ["fcm.project_id", "fcm.endpoint", "fcm.access_token", "fcm.timeout_seconds", "dispatch.concurrent_requests",
    "dispatch.max_attempts", "dispatch.base_delay_ms"]

theorem errsAbout_validate (s : Settings) : ErrsAbout checked s.validate := by
  refine ((Check.errsAbout_projectId ..).mono ?_).bind fun _ => ((Check.errsAbout_url ..).mono ?_).bind fun _ =>
    (s.errsAbout_checkToken.mono ?_).bind fun _ =>
    ((errsAbout_checkIfPresent (fun _ => Check.errsAbout_between ..) _).mono ?_).bind fun _ =>
    ((errsAbout_checkIfPresent errsAbout_checkConcurrency _).mono ?_).bind fun _ =>
    ((errsAbout_checkIfPresent (fun _ => Check.errsAbout_between ..) _).mono ?_).bind fun _ =>
    (errsAbout_checkDelays _).mono ?_
  all_goals decide

end Settings

namespace CommandLine

/-- The parts of a command line that are checked. -/
def checked : List String := ["title", "body", "--token or --devices", "token"]

theorem errsAbout_validate (c : CommandLine) : ErrsAbout checked c.validate := by
  refine ((Check.errsAbout_nonBlank ..).mono ?_).bind fun _ => ((Check.errsAbout_nonBlank ..).mono ?_).bind fun _ => ?_
  · decide
  · decide
  · dsimp only
    split
    · exact .error (by decide : "--token or --devices" ∈ checked) .missing
    · split
      · exact .error (by decide : "token" ∈ checked) (.invalid ..)
      · exact .ok _

end CommandLine

end PushDispatch
