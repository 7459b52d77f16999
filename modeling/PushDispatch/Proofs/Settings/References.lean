import PushDispatch.Proofs.Settings.Requirements
import PushDispatch.Proofs.Url.Extension

/-! References to variables that are not set. They stay in the text of a settings file as they are written, and so in
the settings that are read from it. The checks refuse them in the project id and in the access token wherever they
stand, but in the endpoint only in front of the colon after the scheme. -/

namespace PushDispatch

/-! ### What resolving leaves -/

namespace Environment

variable {e : Environment} {name : String} {text : String}

theorem mem_pieces_of_mem_names (h : name ∈ names text) : .reference name.toList ∈ pieces text.toList := by
  obtain ⟨piece, hp, hn⟩ := List.mem_filterMap.1 h
  cases piece with
  | char => cases hn
  | reference cs =>
    obtain rfl := Option.some.inj hn
    rwa [String.toList_ofList]

/-- A reference to a variable that is not set stays as it is written. -/
theorem written_infix_resolve (h : name ∈ names text) (hn : e.value? name = none) :
    written name.toList <:+: (e.resolve text).toList := by
  obtain ⟨before, after, hpieces⟩ := List.append_of_mem (mem_pieces_of_mem_names h)
  have hstays : e.substitute (.reference name.toList) = written name.toList := by
    rw [substitute, String.ofList_toList, hn]
  rw [resolve, String.toList_ofList, resolveChars, hpieces, List.flatMap_append, List.flatMap_cons, hstays]
  exact ⟨_, _, (List.append_assoc ..)⟩

end Environment

/-! ### Characters in front of the scheme's colon -/

theorem dropWhile_append_cons {p : Char → Bool} {c : Char} (hc : p c = false) (xs ys : List Char) :
    (xs ++ c :: ys).dropWhile p = xs.dropWhile p ++ c :: ys := by
  rw [List.dropWhile_append, List.dropWhile_cons_of_neg (by simp [hc])]
  split
  · next he => rw [List.isEmpty_iff.1 he, List.nil_append]
  · rfl

/-- Some `c` stands in front of the first `d`. -/
def Precedes (c d : Char) (cs : List Char) : Prop := ∃ before after, cs = before ++ c :: after ∧ d ∉ before

namespace Precedes

variable {c d : Char} {cs : List Char} {p : Char → Bool}

theorem dropWhile (h : Precedes c d cs) (hc : p c = false) : Precedes c d (cs.dropWhile p) := by
  obtain ⟨before, after, rfl, hd⟩ := h
  exact ⟨before.dropWhile p, after, dropWhile_append_cons hc .., fun hm => hd ((List.dropWhile_sublist p).subset hm)⟩

/-- Dropping from the end does not get past a character that stays. -/
theorem dropEndWhile (h : Precedes c d cs) (hc : p c = false) : Precedes c d (Text.dropEndWhile p cs) := by
  obtain ⟨before, after, rfl, hd⟩ := h
  refine ⟨before, Text.dropEndWhile p after, ?_, hd⟩
  have hreverse : (before ++ c :: after).reverse = after.reverse ++ c :: before.reverse := by simp
  rw [Text.dropEndWhile, hreverse, dropWhile_append_cons hc, Text.dropEndWhile]
  simp

theorem filter (h : Precedes c d cs) (hc : p c = true) : Precedes c d (cs.filter p) := by
  obtain ⟨before, after, rfl, hd⟩ := h
  refine ⟨before.filter p, after.filter p, ?_, fun hm => hd (List.mem_of_mem_filter hm)⟩
  rw [List.filter_append, List.filter_cons_of_pos hc]

theorem significant (h : Precedes c d cs) (hc : 0x20 < c.toNat) : Precedes c d (Url.significant cs) := by
  have hkept : decide (c.toNat ≤ 0x20) = false := by simpa using hc
  have hcounts : [c].filter Url.counts = [c] := Url.filter_counts_of_visible (by simpa using hc)
  rw [Url.significant_eq, Text.dropAround]
  exact ((h.dropWhile hkept).dropEndWhile hkept).filter (List.filter_eq_self.1 hcounts c List.mem_cons_self)

theorem mem_of_splitFirst (h : Precedes c d cs) (hne : c ≠ d) {front rest : List Char}
    (hcut : Text.splitFirst d cs = some (front, rest)) : c ∈ front := by
  obtain ⟨before, after, rfl, hd⟩ := h
  induction before generalizing front with
  | nil =>
    rw [List.nil_append, Text.splitFirst, if_neg hne] at hcut
    obtain ⟨cut, -, heq⟩ := Option.map_eq_some_iff.1 hcut
    cases heq
    exact List.mem_cons_self
  | cons b before ih =>
    rw [List.mem_cons, not_or] at hd
    rw [List.cons_append, Text.splitFirst, if_neg (Ne.symm hd.1)] at hcut
    obtain ⟨cut, hrest, heq⟩ := Option.map_eq_some_iff.1 hcut
    cases heq
    exact List.mem_cons_of_mem _ (ih hd.2 hrest)

/-- No scheme has a dollar sign in it, so the text is no URL. -/
theorem read_eq {text : String} (h : Precedes '$' ':' text.toList) : Url.read text = .error .noBase := by
  have hnone : Url.scheme? (Url.significant text.toList) = none := by
    cases hcut : Text.splitFirst ':' (Url.significant text.toList) with
    | none => simp [Url.scheme?, hcut]
    | some cut =>
      have hm : '$' ∈ cut.1 := (h.significant (by decide)).mem_of_splitFirst (by decide) hcut
      have hall : cut.1.all Url.isSchemeChar = false := List.all_eq_false.2 ⟨'$', hm, by decide⟩
      rw [Url.scheme?, hcut, Option.bind_eq_bind, Option.bind_some]
      exact if_neg (by rw [hall, Bool.and_false]; decide)
  rw [Url.read, Url.readChars, hnone]

end Precedes

/-! ### The settings that refer to a variable -/

namespace Settings

variable {s : Settings}

/-- A reference to a variable begins in front of the first colon, so where the scheme should stand. -/
def RefersInScheme (text : String) : Prop :=
  ∃ before after, text.toList = before ++ '$' :: Environment.openBrace :: after ∧ ':' ∉ before

theorem RefersInScheme.precedes {text : String} (h : RefersInScheme text) : Precedes '$' ':' text.toList := by
  obtain ⟨before, after, htext, hcolon⟩ := h
  exact ⟨before, _, htext, hcolon⟩

theorem RefersInScheme.refers {text : String} (h : RefersInScheme text) : Refers text := by
  obtain ⟨before, after, htext, -⟩ := h
  exact ⟨before, after, by simp [htext]⟩

theorem not_refers_endpoint (h : s.service.endpoint = none) : ¬ Refers s.endpoint := by
  rw [endpoint, h]
  decide

/-- An endpoint that is fit for use still is when a slash and a reference follow. -/
theorem met_endpoint_of_reference (hm : Requirement.endpoint.Met s) (hvisible : Url.EndsVisibly s.endpoint.toList)
    {name : String} (hname : ∀ c ∈ name.toList, 0x20 < c.toNat) :
    Requirement.endpoint.Met { s with
      service.endpoint := some (s.endpoint ++ "/" ++ String.ofList (Environment.written name.toList)) } := by
  obtain ⟨u, hread, hs⟩ := hm
  have hchars : Url.readChars (s.endpoint.toList ++ List.replicate 0 '/') = .ok u := by
    rw [List.replicate_zero, List.append_nil]
    exact hread
  obtain ⟨start, hbegins, -⟩ := Url.exists_begins hchars (Url.isSpecial_of_http hs) (by simpa using hvisible)
  have hmore : ∀ c ∈ '/' :: Environment.written name.toList, 0x20 < c.toNat := by
    simp only [Environment.written, List.cons_append, List.forall_mem_cons, List.forall_mem_append]
    exact ⟨by decide, by decide, by decide, hname, by decide, by simp⟩
  refine ⟨u.withTail (start ++ '/' :: Environment.written name.toList), ?_, hs⟩
  simpa [Url.read, endpoint] using hbegins.read _ rfl hmore

/-- What becomes of references to variables that are not set: they are still there when the settings are read. The
checks refuse each of them in the project id and in the access token, and those in front of the colon in the endpoint.
The standard endpoint has none. Behind a fit endpoint and a slash each of them passes. -/
theorem unset_references {e : Environment} {text : String} (h : read e text = .ok s) :
    (∀ name ∈ Environment.names text, e.value? name = none →
      Environment.written name.toList <:+: (e.resolve text).toList) ∧
    (Refers s.service.projectId → s.validate = .error (.invalidSetting "fcm.project_id" s.service.projectId
      "Project id can only contain lowercase letters, numbers and hyphens")) ∧
    (∀ token, s.service.accessToken = some token → Refers token → ∃ problem, s.validate = .error problem ∧
      (Requirement.projectId.Met s → Requirement.endpoint.Met s →
        problem = .invalidSetting "fcm.access_token" token "Environment variable is not set")) ∧
    (RefersInScheme s.endpoint → ∃ problem, s.validate = .error problem ∧
      (Requirement.projectId.Met s → problem = .invalidSetting "fcm.endpoint" s.endpoint
        "Invalid URL format: relative URL without a base")) ∧
    (s.service.endpoint = none → ¬ Refers s.endpoint) ∧
    (Requirement.endpoint.Met s → Url.EndsVisibly s.endpoint.toList → ∀ name : String,
      (∀ c ∈ name.toList, 0x20 < c.toNat) → Requirement.endpoint.Met { s with
        service.endpoint := some (s.endpoint ++ "/" ++ String.ofList (Environment.written name.toList)) }) := by
  have hfit := waitsFit_of_read h
  refine ⟨fun name hn hv => Environment.written_infix_resolve hn hv, fun hr => ?_, fun token ht hr => ?_,
    fun hr => ?_, fun hn => ?_, fun hm hv name hname => met_endpoint_of_reference hm hv hname⟩
  · have hvisible : '$' ∈ s.service.projectId.toList := hr.subset (by simp)
    exact (validate_eq_error_iff hfit).2 ⟨[], _, _, rfl, by simp,
      .strangeProject hvisible (by decide) hvisible (by decide)⟩
  · have hall : Requirement.all =
        [.projectId, .endpoint] ++ .accessToken :: [.timeout, .concurrency, .attempts, .delays] := rfl
    obtain ⟨problem, hv, hproblem⟩ := exists_error_of_fails hfit (.unsetVariable ht hr) hall
    exact ⟨problem, hv, fun hp he => hproblem (by simp [hp, he])⟩
  · have hgiven : s.service.endpoint = some s.endpoint := by
      cases hn : s.service.endpoint with
      | none => exact absurd hr.refers (not_refers_endpoint hn)
      | some text => rw [endpoint_of_given hn]
    have hne : s.endpoint ≠ "" := by
      intro hempty
      have := hr.refers
      rw [hempty] at this
      exact absurd this (by decide)
    have hall : Requirement.all =
        [.projectId] ++ .endpoint :: [.accessToken, .timeout, .concurrency, .attempts, .delays] := rfl
    obtain ⟨problem, hv, hproblem⟩ :=
      exists_error_of_fails hfit (.unreadableEndpoint hgiven hne hr.precedes.read_eq) hall
    exact ⟨problem, hv, fun hp => hproblem (by simp [hp])⟩
  · exact not_refers_endpoint hn

/-- The variable in the access token is not set. -/
theorem unset_references_in_token :
    let text := "[fcm]\nproject_id = \"p\"\naccess_token = \"$\x7bX\x7d\"\n"
    let s : Settings := ⟨⟨"p", none, some "$\x7bX\x7d", none⟩, none, none⟩
    read (.ofList []) text = .ok s ∧ "X" ∈ Environment.names text ∧
      Environment.written "X".toList <:+: ((Environment.ofList []).resolve text).toList ∧
      Refers "$\x7bX\x7d" ∧ s.validate = .error (.invalidSetting "fcm.access_token" "$\x7bX\x7d"
        "Environment variable is not set") := by
  intro text s
  have hread : read (.ofList []) text = .ok s := by decide +kernel
  have hname : "X" ∈ Environment.names text := by decide +kernel
  have hrefers : Refers "$\x7bX\x7d" := by decide
  have hproject : Requirement.projectId.Met s := (Requirement.tests_projectId s).eq_ok_iff.1 (by decide +kernel)
  have hendpoint : Requirement.endpoint.Met s := (Requirement.tests_endpoint s).eq_ok_iff.1 (by decide +kernel)
  obtain ⟨hstays, -, htoken, -⟩ := unset_references hread
  obtain ⟨problem, hv, hproblem⟩ := htoken _ rfl hrefers
  rw [hproblem hproject hendpoint] at hv
  exact ⟨hread, hname, hstays _ hname rfl, hrefers, hv⟩

/-- Behind the colon a reference passes: these settings are fit for use, and still refer to a variable that is not
set. -/
theorem unset_reference_in_endpoint :
    let text := "[fcm]\nproject_id = \"p\"\nendpoint = \"http://h/$\x7bX\x7d\"\naccess_token = \"t\"\n"
    let s : Settings := ⟨⟨"p", some "http://h/$\x7bX\x7d", some "t", none⟩, none, none⟩
    read (.ofList []) text = .ok s ∧ s.validate = .ok () ∧ "X" ∈ Environment.names text ∧
      (Environment.ofList []).value? "X" = none ∧ Environment.written "X".toList <:+: s.endpoint.toList := by
  intro text s
  have hread : read (.ofList []) text = .ok s := by decide +kernel
  have hvalid : s.validate = .ok () := by decide +kernel
  have hname : "X" ∈ Environment.names text := by decide +kernel
  exact ⟨hread, hvalid, hname, rfl, "http://h/".toList, [], by decide⟩

end Settings

end PushDispatch
