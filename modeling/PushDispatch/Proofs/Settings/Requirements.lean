import Mathlib.Algebra.GroupWithZero.Nat
import PushDispatch.Proofs.Settings.Checks
import PushDispatch.Proofs.Text.Digits
import PushDispatch.Settings.Document

/-! What is required of settings. The requirements are on the values that hold, be they given or standard ones, and each
one is looked at when those before it are met. Settings are fit for use exactly if all are met, and otherwise the error is
that of the first one that fails. -/

namespace PushDispatch

/-! ### Checks in a row -/

theorem forM_eq_ok_iff {ε α : Type} {check : α → Except ε Unit} {l : List α} :
    l.forM check = .ok () ↔ ∀ x ∈ l, check x = .ok () := by
  induction l with
  | nil => exact iff_of_true rfl (by simp)
  | cons x l ih =>
    change (check x >>= fun _ => l.forM check) = _ ↔ _
    rw [List.forall_mem_cons, ← ih]
    constructor
    · intro h
      obtain ⟨_, hx, hl⟩ := exists_of_bind_eq_ok h
      exact ⟨hx, hl⟩
    · rintro ⟨hx, hl⟩
      rw [hx]
      exact hl

/-- Checks in a row give the error of the first one that fails. -/
theorem forM_eq_error_iff {ε α : Type} {check : α → Except ε Unit} {l : List α} {e : ε} :
    l.forM check = .error e ↔ ∃ before x after,
      l = before ++ x :: after ∧ (∀ y ∈ before, check y = .ok ()) ∧ check x = .error e := by
  induction l with
  | nil =>
    refine iff_of_false (fun h => by cases h) ?_
    rintro ⟨before, x, after, h, -⟩
    simp at h
  | cons x l ih =>
    change (check x >>= fun _ => l.forM check) = _ ↔ _
    simp only [List.cons_eq_append_iff]
    cases hx : check x with
    | error problem =>
      constructor
      · rintro ⟨⟩
        exact ⟨[], x, l, .inl ⟨rfl, rfl⟩, by simp, hx⟩
      · rintro ⟨before, y, after, ⟨rfl, h⟩ | ⟨rest, rfl, -⟩, hall, hy⟩
        · obtain ⟨rfl, -⟩ := List.cons.inj h
          exact hx.symm.trans hy
        · rw [hall x List.mem_cons_self] at hx
          cases hx
    | ok =>
      refine ih.trans ⟨?_, ?_⟩
      · rintro ⟨before, y, after, h, hall, hy⟩
        exact ⟨x :: before, y, after, .inr ⟨before, rfl, h⟩, List.forall_mem_cons.2 ⟨hx, hall⟩, hy⟩
      · rintro ⟨before, y, after, ⟨rfl, h⟩ | ⟨rest, rfl, h⟩, hall, hy⟩
        · obtain ⟨rfl, -⟩ := List.cons.inj h
          rw [hx] at hy
          cases hy
        · exact ⟨rest, y, after, h, fun z hz => hall z (List.mem_cons_of_mem _ hz), hy⟩

/-! ### What a check tells -/

/-- A check that passes where `met` holds, and otherwise gives an error that `fails` tells. -/
structure Tests {ε : Type} (check : Except ε Unit) (met : Prop) (fails : ε → Prop) : Prop where
  pass : met → check = .ok ()
  refuse : ∀ e, fails e → check = .error e
  total : met ∨ ∃ e, fails e

namespace Tests

variable {ε : Type} {check : Except ε Unit} {met : Prop} {fails : ε → Prop}

theorem eq_ok_iff (h : Tests check met fails) : check = .ok () ↔ met := by
  refine ⟨fun hc => h.total.resolve_right ?_, h.pass⟩
  rintro ⟨e, he⟩
  have := hc.symm.trans (h.refuse e he)
  cases this

theorem eq_error_iff (h : Tests check met fails) {e : ε} : check = .error e ↔ fails e := by
  refine ⟨fun hc => ?_, h.refuse e⟩
  obtain hm | ⟨e', he'⟩ := h.total
  · have := hc.symm.trans (h.pass hm)
    cases this
  · obtain rfl := Except.error.inj (hc.symm.trans (h.refuse e' he'))
    exact he'

theorem congr (h : Tests check met fails) {fails' : ε → Prop} (hf : ∀ e, fails e ↔ fails' e) :
    Tests check met fails' where
  pass := h.pass
  refuse e he := h.refuse e ((hf e).2 he)
  total := h.total.imp_right fun ⟨e, he⟩ => ⟨e, (hf e).1 he⟩

theorem exists_fails_iff (h : Tests check met fails) : (∃ e, fails e) ↔ ¬ met := by
  refine ⟨?_, h.total.resolve_left⟩
  rintro ⟨e, he⟩ hm
  have := (h.refuse e he).symm.trans (h.pass hm)
  cases this

end Tests

/-! ### Single checks -/

theorem Duration.nanos_ofMillis {n : Nat} (h : n < 2 ^ 64) : (ofMillis n).nanos = n * 1000000 := by
  have hmax : 2 ^ 64 * 1000000 ≤ maxNanos := by decide
  have hn : n * 1000000 ≤ 2 ^ 64 * 1000000 := Nat.mul_le_mul_right _ (Nat.le_of_lt h)
  exact Nat.min_eq_left (Nat.le_trans hn hmax)

theorem intText_natCast (n : Nat) : Text.Decimal.intText n = Text.Decimal.text n := by
  rw [Text.Decimal.intText, if_neg (by omega), Int.natAbs_natCast]

namespace Check

variable {field value : String}

theorem nonBlank_of_visible (h : ∃ c ∈ value.toList, Text.isBlank c = false) : nonBlank field value = .ok () := by
  obtain ⟨c, hc, hvisible⟩ := h
  refine if_neg fun hall => ?_
  rw [List.all_eq_true.1 hall c hc] at hvisible
  cases hvisible

theorem nonBlank_of_blank (h : ∀ c ∈ value.toList, Text.isBlank c = true) :
    nonBlank field value = .error (.invalidSetting field value "Value cannot be empty or whitespace-only") :=
  if_pos (List.all_eq_true.2 h)

theorem between_of_le {min max n : Int} (h : min ≤ n ∧ n ≤ max) : between field min max n = .ok () :=
  if_neg (by simp; omega)

theorem between_of_out {min max n : Int} (h : n < min ∨ max < n) :
    between field min max n = .error (.invalidSetting field (Text.Decimal.intText n)
      ("Value must be between " ++ Text.Decimal.intText min ++ " and " ++ Text.Decimal.intText max)) :=
  if_pos (by simpa using h)

/-- A number that may be missing is checked if it is there; its standard is in range. -/
theorem tests_ifPresent_between (field : String) {min max standard : Nat} (hs : min ≤ standard ∧ standard ≤ max)
    (value : Option Nat) {reason : String}
    (hr : "Value must be between " ++ Text.Decimal.text min ++ " and " ++ Text.Decimal.text max = reason) :
    Tests (Settings.checkIfPresent (fun n : Nat => between field min max n) value)
      (min ≤ value.getD standard ∧ value.getD standard ≤ max)
      (fun e => ∃ n, value = some n ∧ (n < min ∨ max < n) ∧
        e = .invalidSetting field (Text.Decimal.text n) reason) where
  pass := by
    intro hm
    cases value with
    | none => rfl
    | some n => exact between_of_le (by simpa using hm)
  refuse := by
    rintro _ ⟨n, rfl, hout, rfl⟩
    simp only [← hr, ← intText_natCast]
    exact between_of_out (by omega)
  total := by
    cases value with
    | none => exact .inl hs
    | some n =>
      by_cases hm : min ≤ n ∧ n ≤ max
      · exact .inl hm
      · exact .inr ⟨_, n, rfl, by omega, rfl⟩

end Check

namespace Settings

/-! ### The requirements -/

/-- The standard of the first wait is 200 milliseconds. -/
def baseMillis (s : Settings) : Nat := (s.dispatch.bind (·.baseDelayMillis)).getD 200

/-- The standard of the longest wait is five seconds, also where the first wait is given. -/
def longestMillis (s : Settings) : Nat := (s.dispatch.bind (·.maxDelayMillis)).getD 5000

/-- The waits are numbers of 64 bits. -/
structure WaitsFit (s : Settings) : Prop where
  base : s.baseMillis < 2 ^ 64
  longest : s.longestMillis < 2 ^ 64

/-- Project ids consist of small letters, digits and hyphens. -/
def FitsProjectId (c : Char) : Prop := ('a' ≤ c ∧ c ≤ 'z') ∨ ('0' ≤ c ∧ c ≤ '9') ∨ c = '-'

instance (c : Char) : Decidable (FitsProjectId c) := inferInstanceAs (Decidable (_ ∨ _ ∨ _))

/-- A text holds the beginning of a reference to a variable. -/
def Refers (text : String) : Prop := ['$', Environment.openBrace] <:+: text.toList

/-- What settings have to meet, in the order in which it is looked at. -/
inductive Requirement where
  | projectId
  | endpoint
  | accessToken
  | timeout
  | concurrency
  | attempts
  | delays

namespace Requirement

def all : List Requirement := [projectId, endpoint, accessToken, timeout, concurrency, attempts, delays]

theorem mem_all (r : Requirement) : r ∈ all := by
  cases r <;> simp [all]

/-- What is required of the values that hold. Where none is given it is the standard one. -/
def Met (s : Settings) : Requirement → Prop
  | projectId => s.service.projectId ≠ "" ∧ ∀ c ∈ s.service.projectId.toList, FitsProjectId c
  | endpoint => ∃ u, Url.read (s.service.endpoint.getD "https://fcm.googleapis.com") = .ok u ∧
    (u.scheme = "http".toList ∨ u.scheme = "https".toList)
  | accessToken => ∃ token, s.service.accessToken = some token ∧ ¬ Refers token ∧
    ∃ c ∈ token.toList, Text.isBlank c = false
  | timeout => 1 ≤ s.service.timeoutSeconds.getD 10 ∧ s.service.timeoutSeconds.getD 10 ≤ 300
  | concurrency => 1 ≤ (s.dispatch.bind (·.concurrentRequests)).getD 5 ∧
    (s.dispatch.bind (·.concurrentRequests)).getD 5 ≤ 500
  | attempts => 1 ≤ (s.dispatch.bind (·.maxAttempts)).getD 3 ∧ (s.dispatch.bind (·.maxAttempts)).getD 3 ≤ 10
  | delays => s.baseMillis ≤ s.longestMillis

/-- Which error tells that a requirement is not met. A standard value alone never fails. -/
inductive Fails (s : Settings) : Requirement → PushError → Prop
  | blankProject (h : ∀ c ∈ s.service.projectId.toList, Text.isBlank c = true) :
    Fails s projectId (.invalidSetting "fcm.project_id" s.service.projectId "Value cannot be empty or whitespace-only")
  | strangeProject {b c : Char} (hb : b ∈ s.service.projectId.toList) (visible : Text.isBlank b = false)
    (hc : c ∈ s.service.projectId.toList) (strange : ¬ FitsProjectId c) :
    Fails s projectId (.invalidSetting "fcm.project_id" s.service.projectId
      "Project id can only contain lowercase letters, numbers and hyphens")
  | emptyEndpoint (h : s.service.endpoint = some "") :
    Fails s endpoint (.invalidSetting "fcm.endpoint" "" "URL cannot be empty")
  | unreadableEndpoint {text problem} (h : s.service.endpoint = some text) (nonempty : text ≠ "")
    (read : Url.read text = .error problem) :
    Fails s endpoint (.invalidSetting "fcm.endpoint" text ("Invalid URL format: " ++ problem.message))
  | otherScheme {text u} (h : s.service.endpoint = some text) (read : Url.read text = .ok u)
    (notHttp : u.scheme ≠ "http".toList) (notHttps : u.scheme ≠ "https".toList) :
    Fails s endpoint (.invalidSetting "fcm.endpoint" text ("Unsupported URL scheme: " ++ String.ofList u.scheme))
  | noToken (h : s.service.accessToken = none) : Fails s accessToken (.missingSetting "fcm.access_token")
  | unsetVariable {token} (h : s.service.accessToken = some token) (refers : Refers token) :
    Fails s accessToken (.invalidSetting "fcm.access_token" token "Environment variable is not set")
  | blankToken {token} (h : s.service.accessToken = some token) (blank : ∀ c ∈ token.toList, Text.isBlank c = true) :
    Fails s accessToken (.invalidSetting "fcm.access_token" token "Value cannot be empty or whitespace-only")
  | timeout {n} (h : s.service.timeoutSeconds = some n) (out : n < 1 ∨ 300 < n) :
    Fails s timeout (.invalidSetting "fcm.timeout_seconds" (Text.Decimal.text n) "Value must be between 1 and 300")
  | noConcurrency (h : s.dispatch.bind (·.concurrentRequests) = some 0) :
    Fails s concurrency (.invalidSetting "dispatch.concurrent_requests" "0" "Value must be at least 1")
  | concurrency {n} (h : s.dispatch.bind (·.concurrentRequests) = some n) (out : 500 < n) :
    Fails s concurrency (.invalidSetting "dispatch.concurrent_requests" (Text.Decimal.text n)
      "Value must be between 1 and 500")
  | attempts {n} (h : s.dispatch.bind (·.maxAttempts) = some n) (out : n < 1 ∨ 10 < n) :
    Fails s attempts (.invalidSetting "dispatch.max_attempts" (Text.Decimal.text n) "Value must be between 1 and 10")
  | delays (h : s.longestMillis < s.baseMillis) :
    Fails s delays (.invalidSetting "dispatch.base_delay_ms" (Text.Decimal.text s.baseMillis)
      "Base delay cannot exceed dispatch.max_delay_ms")

/-- How a requirement is checked. -/
def check (s : Settings) : Requirement → Except PushError Unit
  | projectId => Check.projectId "fcm.project_id" s.service.projectId
  | endpoint => Check.url "fcm.endpoint" s.endpoint
  | accessToken => s.checkToken
  | timeout =>
    checkIfPresent (fun n : Nat => Check.between "fcm.timeout_seconds" 1 300 n) s.service.timeoutSeconds
  | concurrency => checkIfPresent checkConcurrency s.dispatchOrNone.concurrentRequests
  | attempts =>
    checkIfPresent (fun n : Nat => Check.between "dispatch.max_attempts" 1 10 n) s.dispatchOrNone.maxAttempts
  | delays => checkDelays s.retryPolicy

end Requirement

/-! ### Each check tells its requirement -/

theorem isProjectIdChar_iff {c : Char} : Check.isProjectIdChar c = true ↔ FitsProjectId c := by
  simp [Check.isProjectIdChar, FitsProjectId, Text.Decimal.isDigit_iff, or_assoc]

theorem FitsProjectId.isBlank_eq_false {c : Char} (h : FitsProjectId c) : Text.isBlank c = false := by
  have hc : 45 ≤ c.toNat ∧ c.toNat ≤ 122 := by
    rcases h with ⟨h1, h2⟩ | ⟨h1, h2⟩ | rfl
    · have h1 : 97 ≤ c.toNat := h1
      have h2 : c.toNat ≤ 122 := h2
      omega
    · have h1 : 48 ≤ c.toNat := h1
      have h2 : c.toNat ≤ 57 := h2
      omega
    · decide
  simp only [Text.isBlank, Bool.or_eq_false_iff, Bool.and_eq_false_iff, decide_eq_false_iff_not, beq_eq_false_iff_ne]
  omega

theorem holdsReference_iff {text : String} : holdsReference text = true ↔ Refers text := by
  rw [holdsReference, Text.occursIn_iff]
  exact ⟨fun ⟨before, after, h⟩ => ⟨before, after, h.symm⟩, fun ⟨before, after, h⟩ => ⟨before, after, h.symm⟩⟩

instance (text : String) : Decidable (Refers text) := decidable_of_iff _ holdsReference_iff

theorem checkToken_of_refers {s : Settings} {token : String} (h : s.service.accessToken = some token)
    (hr : Refers token) :
    s.checkToken = .error (.invalidSetting "fcm.access_token" token "Environment variable is not set") := by
  rw [checkToken, h, Check.required]
  dsimp only [Except.bind, bind]
  rw [if_pos (holdsReference_iff.2 hr)]
  rfl

theorem checkToken_of_not_refers {s : Settings} {token : String} (h : s.service.accessToken = some token)
    (hr : ¬ Refers token) : s.checkToken = Check.nonBlank "fcm.access_token" token := by
  rw [checkToken, h, Check.required]
  dsimp only [Except.bind, bind]
  rw [if_neg (mt holdsReference_iff.1 hr)]

theorem ne_empty_of_read {text : String} {u : Url} (h : Url.read text = .ok u) : text ≠ "" := by
  rintro rfl
  have hnone : Url.read "" = .error .noBase := rfl
  rw [hnone] at h
  cases h

/-! ### Values that are given and standard ones -/

theorem endpoint_of_given {s : Settings} {text : String} (h : s.service.endpoint = some text) : s.endpoint = text := by
  rw [endpoint, h, Option.getD_some]

theorem exists_read_defaultEndpoint :
    ∃ u, Url.read "https://fcm.googleapis.com" = .ok u ∧ u.scheme = "https".toList := by
  have h : (Url.read "https://fcm.googleapis.com").toOption.map Url.scheme = some "https".toList := by decide +kernel
  cases hread : Url.read "https://fcm.googleapis.com" with
  | error =>
    rw [hread] at h
    cases h
  | ok u =>
    rw [hread] at h
    exact ⟨u, rfl, Option.some.inj h⟩

/-- Where nothing is said about dispatching, no part of it is given. -/
theorem bind_dispatch {α : Type} (s : Settings) (field : DispatchSettings → Option α)
    (h : field ⟨none, none, none, none⟩ = none) : s.dispatch.bind field = field s.dispatchOrNone := by
  unfold dispatchOrNone
  cases s.dispatch with
  | none => exact h.symm
  | some d => rfl

theorem concurrency_eq (s : Settings) : s.concurrency = (s.dispatch.bind (·.concurrentRequests)).getD 5 := by
  rw [bind_dispatch s (·.concurrentRequests) rfl, concurrency]

theorem maxAttempts_retryPolicy (s : Settings) : s.retryPolicy.maxAttempts = (s.dispatch.bind (·.maxAttempts)).getD 3 := by
  rw [bind_dispatch s (·.maxAttempts) rfl]
  rfl

/-! ### Waits -/

namespace WaitsFit

variable {s : Settings}

theorem nanos_baseDelay (h : s.WaitsFit) : s.retryPolicy.baseDelay.nanos = s.baseMillis * 1000000 := by
  have hbase : s.retryPolicy.baseDelay = .ofMillis s.baseMillis := by
    rw [baseMillis, bind_dispatch s (·.baseDelayMillis) rfl]
    cases hn : s.dispatchOrNone.baseDelayMillis <;> simp [retryPolicy, hn, RetryPolicy.standard]
  rw [hbase, Duration.nanos_ofMillis h.base]

theorem nanos_maxDelay (h : s.WaitsFit) : s.retryPolicy.maxDelay.nanos = s.longestMillis * 1000000 := by
  have hlongest : s.retryPolicy.maxDelay = .ofMillis s.longestMillis := by
    rw [longestMillis, bind_dispatch s (·.maxDelayMillis) rfl]
    cases hn : s.dispatchOrNone.maxDelayMillis with
    | none =>
      have hstandard : Duration.ofSeconds 5 = .ofMillis 5000 := rfl
      simp [retryPolicy, hn, RetryPolicy.standard, hstandard]
    | some n => simp [retryPolicy, hn]
  rw [hlongest, Duration.nanos_ofMillis h.longest]

end WaitsFit

namespace Requirement

variable (s : Settings)

theorem tests_projectId : Tests (check s projectId) (Met s projectId) (Fails s projectId) where
  pass := by
    rintro ⟨hne, hall⟩
    obtain ⟨c, hc⟩ := List.exists_mem_of_ne_nil _ (mt String.toList_eq_nil_iff.1 hne)
    rw [check, Check.projectId, Check.nonBlank_of_visible ⟨c, hc, (hall c hc).isBlank_eq_false⟩]
    exact if_pos (List.all_eq_true.2 fun c hc => isProjectIdChar_iff.2 (hall c hc))
  refuse := by
    intro e h
    cases h with
    | blankProject h =>
      rw [check, Check.projectId, Check.nonBlank_of_blank h]
      rfl
    | strangeProject hb hvisible hc hstrange =>
      rw [check, Check.projectId, Check.nonBlank_of_visible ⟨_, hb, hvisible⟩]
      exact if_neg fun hall => hstrange (isProjectIdChar_iff.1 (List.all_eq_true.1 hall _ hc))
  total := by
    by_cases hblank : ∀ c ∈ s.service.projectId.toList, Text.isBlank c = true
    · exact .inr ⟨_, .blankProject hblank⟩
    · obtain ⟨b, hb, hvisible⟩ : ∃ b ∈ s.service.projectId.toList, Text.isBlank b = false := by simpa using hblank
      by_cases hall : ∀ c ∈ s.service.projectId.toList, FitsProjectId c
      · refine .inl ⟨fun he => ?_, hall⟩
        rw [he] at hb
        cases hb
      · simp only [not_forall] at hall
        obtain ⟨c, hc, hstrange⟩ := hall
        exact .inr ⟨_, .strangeProject hb hvisible hc hstrange⟩

theorem tests_endpoint : Tests (check s endpoint) (Met s endpoint) (Fails s endpoint) where
  pass := by
    rintro ⟨u, hread, hs⟩
    have hread : Url.read s.endpoint = .ok u := hread
    rw [check, Check.url, if_neg (by simpa using ne_empty_of_read hread), hread]
    dsimp only
    rcases hs with hs | hs <;> rw [hs] <;> rfl
  refuse := by
    intro e h
    cases h with
    | emptyEndpoint h =>
      rw [check, endpoint_of_given h]
      rfl
    | unreadableEndpoint h hne hread => rw [check, endpoint_of_given h, Check.url, if_neg (by simpa using hne), hread]
    | otherScheme h hread hhttp hhttps =>
      rw [check, endpoint_of_given h, Check.url, if_neg (by simpa using ne_empty_of_read hread), hread]
      dsimp only
      split
      · next hs => exact absurd (by rw [← hs, String.toList_ofList]) hhttp
      · next hs => exact absurd (by rw [← hs, String.toList_ofList]) hhttps
      · rfl
  total := by
    cases hn : s.service.endpoint with
    | none =>
      obtain ⟨u, hread, hs⟩ := exists_read_defaultEndpoint
      exact .inl ⟨u, by rw [hn, Option.getD_none, hread], .inr hs⟩
    | some text =>
      cases hread : Url.read text with
      | error problem =>
        by_cases hne : text = ""
        · exact .inr ⟨_, .emptyEndpoint (hne ▸ hn)⟩
        · exact .inr ⟨_, .unreadableEndpoint hn hne hread⟩
      | ok u =>
        by_cases hs : u.scheme = "http".toList ∨ u.scheme = "https".toList
        · exact .inl ⟨u, by rw [hn, Option.getD_some, hread], hs⟩
        · rw [not_or] at hs
          exact .inr ⟨_, .otherScheme hn hread hs.1 hs.2⟩

theorem tests_accessToken : Tests (check s accessToken) (Met s accessToken) (Fails s accessToken) where
  pass := by
    rintro ⟨token, hsome, hrefers, hvisible⟩
    rw [check, checkToken_of_not_refers hsome hrefers]
    exact Check.nonBlank_of_visible hvisible
  refuse := by
    intro e h
    cases h with
    | noToken h =>
      rw [check, checkToken, h]
      rfl
    | unsetVariable h hrefers => exact checkToken_of_refers h hrefers
    | blankToken h hblank =>
      -- a text of blanks has no dollar sign
      have hno : ¬ Refers _ := fun hrefers => absurd (hblank '$' (hrefers.subset (by simp))) (by decide)
      rw [check, checkToken_of_not_refers h hno]
      exact Check.nonBlank_of_blank hblank
  total := by
    cases hsome : s.service.accessToken with
    | none => exact .inr ⟨_, .noToken hsome⟩
    | some token =>
      by_cases hrefers : Refers token
      · exact .inr ⟨_, .unsetVariable hsome hrefers⟩
      · by_cases hblank : ∀ c ∈ token.toList, Text.isBlank c = true
        · exact .inr ⟨_, .blankToken hsome hblank⟩
        · exact .inl ⟨token, hsome, hrefers, by simpa using hblank⟩

theorem tests_timeout : Tests (check s timeout) (Met s timeout) (Fails s timeout) := by
  have hreason : "Value must be between " ++ Text.Decimal.text 1 ++ " and " ++ Text.Decimal.text 300 =
      "Value must be between 1 and 300" := by
    decide +kernel
  refine (Check.tests_ifPresent_between _ (by decide : 1 ≤ 10 ∧ 10 ≤ 300) _ hreason).congr fun e => ?_
  constructor
  · rintro ⟨n, hn, hout, rfl⟩
    exact Fails.timeout hn hout
  · intro h
    cases h with
    | timeout hn hout => exact ⟨_, hn, hout, rfl⟩

theorem tests_concurrency : Tests (check s concurrency) (Met s concurrency) (Fails s concurrency) where
  pass := by
    rw [check, Met, ← bind_dispatch s (·.concurrentRequests) rfl]
    rintro ⟨h1, h500⟩
    cases hn : s.dispatch.bind (·.concurrentRequests) with
    | none => rfl
    | some n =>
      rw [hn, Option.getD_some] at h1 h500
      rw [checkIfPresent, checkConcurrency, Check.atLeast, if_neg (by omega)]
      exact Check.between_of_le (by omega)
  refuse := by
    intro e h
    rw [check, ← bind_dispatch s (·.concurrentRequests) rfl]
    cases h with
    | noConcurrency hn =>
      rw [hn]
      decide +kernel
    | @concurrency n hn hout =>
      have hreason : "Value must be between " ++ Text.Decimal.intText 1 ++ " and " ++ Text.Decimal.intText 500 =
          "Value must be between 1 and 500" := by
        decide +kernel
      rw [hn, checkIfPresent, checkConcurrency, Check.atLeast, if_neg (by omega), ← intText_natCast, ← hreason]
      exact Check.between_of_out (by omega)
  total := by
    rw [Met]
    cases hn : s.dispatch.bind (·.concurrentRequests) with
    | none => exact .inl (by simp)
    | some n =>
      rw [Option.getD_some]
      rcases Nat.eq_zero_or_pos n with rfl | hpos
      · exact .inr ⟨_, .noConcurrency hn⟩
      · rcases Nat.lt_or_ge 500 n with hout | hle
        · exact .inr ⟨_, .concurrency hn hout⟩
        · exact .inl ⟨hpos, hle⟩

theorem tests_attempts : Tests (check s attempts) (Met s attempts) (Fails s attempts) := by
  have hreason : "Value must be between " ++ Text.Decimal.text 1 ++ " and " ++ Text.Decimal.text 10 =
      "Value must be between 1 and 10" := by
    decide +kernel
  rw [check, ← bind_dispatch s (·.maxAttempts) rfl]
  refine (Check.tests_ifPresent_between _ (by decide : 1 ≤ 3 ∧ 3 ≤ 10) _ hreason).congr fun e => ?_
  constructor
  · rintro ⟨n, hn, hout, rfl⟩
    exact Fails.attempts hn hout
  · intro h
    cases h with
    | attempts hn hout => exact ⟨_, hn, hout, rfl⟩

theorem tests_delays (h : s.WaitsFit) : Tests (check s delays) (Met s delays) (Fails s delays) := by
  have hnanos : s.retryPolicy.maxDelay.nanos < s.retryPolicy.baseDelay.nanos ↔ s.longestMillis < s.baseMillis := by
    rw [h.nanos_baseDelay, h.nanos_maxDelay]
    omega
  refine ⟨fun hm => ?_, fun e he => ?_, ?_⟩
  · exact if_neg fun hlt => absurd hm (by rw [Met]; omega)
  · cases he with
    | delays hlt =>
      rw [check, checkDelays, if_pos (hnanos.2 hlt), Duration.millis, h.nanos_baseDelay,
        Nat.mul_div_cancel _ (by decide)]
  · rcases Nat.lt_or_ge s.longestMillis s.baseMillis with hlt | hge
    · exact .inr ⟨_, .delays hlt⟩
    · exact .inl hge

theorem tests (h : s.WaitsFit) : ∀ r, Tests (check s r) (Met s r) (Fails s r)
  | projectId => tests_projectId s
  | endpoint => tests_endpoint s
  | accessToken => tests_accessToken s
  | timeout => tests_timeout s
  | concurrency => tests_concurrency s
  | attempts => tests_attempts s
  | delays => tests_delays s h

end Requirement

theorem validate_eq_forM (s : Settings) : s.validate = Requirement.all.forM (Requirement.check s) := by
  change _ = (Requirement.check s .projectId >>= fun _ => Requirement.check s .endpoint >>= fun _ =>
    Requirement.check s .accessToken >>= fun _ => Requirement.check s .timeout >>= fun _ =>
    Requirement.check s .concurrency >>= fun _ => Requirement.check s .attempts >>= fun _ =>
    Requirement.check s .delays >>= fun _ => pure ())
  rw [bind_pure_unit]
  rfl

variable {s : Settings}

theorem check_of_validate (h : s.validate = .ok ()) (r : Requirement) : r.check s = .ok () := by
  rw [validate_eq_forM] at h
  exact forM_eq_ok_iff.1 h r r.mem_all

theorem concurrency_le (hm : Requirement.concurrency.Met s) : s.concurrency ≤ 500 := s.concurrency_eq ▸ hm.2

/-- Settings that are fit for use ask for few sends at a time. -/
theorem concurrency_le_of_validate (h : s.validate = .ok ()) : s.concurrency ≤ 500 :=
  concurrency_le ((Requirement.tests_concurrency s).eq_ok_iff.1 (check_of_validate h .concurrency))

/-- Settings are fit for use exactly if they meet all requirements. -/
theorem validate_eq_ok_iff (h : s.WaitsFit) : s.validate = .ok () ↔ ∀ r : Requirement, r.Met s := by
  rw [validate_eq_forM, forM_eq_ok_iff]
  exact ⟨fun hall r => (Requirement.tests s h r).eq_ok_iff.1 (hall r r.mem_all),
    fun hall r _ => (Requirement.tests s h r).eq_ok_iff.2 (hall r)⟩

/-- The error is that of the first requirement that is not met. -/
theorem validate_eq_error_iff (h : s.WaitsFit) {e : PushError} : s.validate = .error e ↔ ∃ before r after,
    Requirement.all = before ++ r :: after ∧ (∀ q ∈ before, q.Met s) ∧ r.Fails s e := by
  simp only [validate_eq_forM, forM_eq_error_iff, (Requirement.tests s h _).eq_ok_iff,
    (Requirement.tests s h _).eq_error_iff]

/-- A requirement that fails makes an error, and its own one if those before it are met. -/
theorem exists_error_of_fails (h : s.WaitsFit) {r : Requirement} {e : PushError} (hf : r.Fails s e)
    {before after : List Requirement} (hall : Requirement.all = before ++ r :: after) :
    ∃ problem, s.validate = .error problem ∧ ((∀ q ∈ before, q.Met s) → problem = e) := by
  cases hv : s.validate with
  | ok =>
    have hmet := (validate_eq_ok_iff h).1 hv r
    exact absurd hmet ((Requirement.tests s h r).exists_fails_iff.1 ⟨e, hf⟩)
  | error problem =>
    refine ⟨problem, rfl, fun hbefore => ?_⟩
    have he := (validate_eq_error_iff h).2 ⟨before, r, after, hall, hbefore, hf⟩
    exact Except.error.inj (hv.symm.trans he)

/-! ### Waits of documents -/

theorem lt_of_unsigned? {bits n : Nat} {value : Toml} (h : unsigned? bits value = some n) : n < 2 ^ bits := by
  unfold unsigned? at h
  split at h
  · next i =>
    split at h
    · next hi =>
      obtain rfl := Option.some.inj h
      simp only [Bool.and_eq_true, decide_eq_true_eq, Nat.pow_eq] at hi
      omega
    · cases h
  · cases h

theorem lt_of_optional?_unsigned? {bits : Nat} {value : Option Toml} {number : Option Nat}
    (h : optional? (unsigned? bits) value = some number) {standard : Nat} (hs : standard < 2 ^ bits) :
    number.getD standard < 2 ^ bits := by
  cases value with
  | none =>
    cases h
    exact hs
  | some value =>
    obtain ⟨n, hn, rfl⟩ := Option.map_eq_some_iff.1 h
    exact lt_of_unsigned? hn

theorem lt_of_dispatch? {value : Toml} {d : DispatchSettings} (h : dispatch? value = some d) :
    d.baseDelayMillis.getD 200 < 2 ^ 64 ∧ d.maxDelayMillis.getD 5000 < 2 ^ 64 := by
  simp only [dispatch?, Option.bind_eq_bind, Option.bind_eq_some_iff] at h
  obtain ⟨values, -, h⟩ := h
  split at h
  · simp only [Option.bind_eq_some_iff] at h
    obtain ⟨_, -, _, -, base, hbase, longest, hlongest, hd⟩ := h
    cases hd
    exact ⟨lt_of_optional?_unsigned? hbase (by decide), lt_of_optional?_unsigned? hlongest (by decide)⟩
  · cases h

/-- The waits in a document are numbers of 64 bits. -/
theorem waitsFit_of_read {e : Environment} {text : String} (h : read e text = .ok s) : s.WaitsFit := by
  unfold read at h
  split at h
  · next s' hs' =>
    cases h
    simp only [Option.bind_eq_some_iff, ofEntries?, Option.bind_eq_bind] at hs'
    obtain ⟨entries, -, _, -, _, -, d, hd, _, -, hs⟩ := hs'
    cases hs
    cases hdispatch : entries.lookup "dispatch" with
    | none =>
      rw [hdispatch] at hd
      cases hd
      exact ⟨show 200 < 2 ^ 64 by decide, show 5000 < 2 ^ 64 by decide⟩
    | some value =>
      rw [hdispatch] at hd
      obtain ⟨dispatch, hvalue, rfl⟩ := Option.map_eq_some_iff.1 hd
      exact ⟨(lt_of_dispatch? hvalue).1, (lt_of_dispatch? hvalue).2⟩
  · cases h

end Settings

end PushDispatch
