import PushDispatch.Proofs.Settings.Checks
import PushDispatch.Proofs.Text.Cut
import PushDispatch.Proofs.Url.Path

/-!
URLs of the web with more text after them. A text that reads as such a URL still names the same server when a
slash and more follow: the authority ends where it ended before, and what follows is read after it.
-/

namespace PushDispatch

namespace Url

/-! ### The characters that count -/

/-- Whether a character inside a URL counts. -/
def counts (c : Char) : Bool := !(['\t', '\n', '\r'].contains c)

/-- The last character that counts is neither a blank nor a control character. -/
def EndsVisibly (cs : List Char) : Prop := ∀ c ∈ (cs.filter counts).getLast?, 0x20 < c.toNat

instance (cs : List Char) : Decidable (EndsVisibly cs) :=
  decidable_of_iff ((cs.filter counts).getLast?.all fun c => 0x20 < c.toNat) (by simp [EndsVisibly, Option.all_eq_true])

/-- What the beginning of a text amounts to when visible characters follow. -/
def lead (cs : List Char) : List Char := (cs.dropWhile (·.toNat ≤ 0x20)).filter counts

theorem significant_eq (cs : List Char) :
    significant cs = (Text.dropAround (·.toNat ≤ 0x20) cs).filter counts := rfl

theorem filter_counts_of_visible {cs : List Char} (h : ∀ c ∈ cs, 0x20 < c.toNat) : cs.filter counts = cs := by
  refine List.filter_eq_self.mpr fun c hc => ?_
  have hv := h c hc
  simp only [counts, Bool.not_eq_true', List.contains_eq_mem, decide_eq_false_iff_not, List.mem_cons,
    List.not_mem_nil, or_false]
  rintro (rfl | rfl | rfl) <;> exact absurd hv (by decide)

theorem dropWhile_append_of_visible {cs more : List Char} (hv : ∀ c ∈ more, 0x20 < c.toNat) :
    (cs ++ more).dropWhile (·.toNat ≤ 0x20) = cs.dropWhile (·.toNat ≤ 0x20) ++ more := by
  have hmore : more.dropWhile (·.toNat ≤ 0x20) = more :=
    List.dropWhile_eq_self_iff.mpr fun hl => by simpa using hv _ (List.getElem_mem hl)
  rw [List.dropWhile_append]
  split
  · next h => rw [hmore, List.isEmpty_iff.mp h, List.nil_append]
  · rfl

theorem significant_append {more : List Char} (hne : more ≠ []) (hv : ∀ c ∈ more, 0x20 < c.toNat) (cs : List Char) :
    significant (cs ++ more) = lead cs ++ more := by
  have hvis : ∀ c ∈ more, ¬decide (c.toNat ≤ 0x20) = true := fun c hc => by simpa using hv c hc
  rw [significant_eq, Text.dropAround, dropWhile_append_of_visible hv, Text.dropEndWhile_append_of_neg hne hvis,
    List.filter_append, filter_counts_of_visible hv, lead]

/-- At a visible end nothing is lost but characters that do not count. -/
theorem significant_of_endsVisibly {cs : List Char} (h : EndsVisibly cs) : significant cs = lead cs := by
  obtain ⟨tail, hcut, hblank⟩ :=
    Text.exists_eq_dropEndWhile_append (·.toNat ≤ 0x20) (cs.dropWhile (·.toNat ≤ 0x20))
  have hall : cs.filter counts = (cs.takeWhile (·.toNat ≤ 0x20)).filter counts ++
      (Text.dropAround (·.toNat ≤ 0x20) cs).filter counts ++ tail.filter counts := by
    rw [← List.filter_append, ← List.filter_append, Text.dropAround, List.append_assoc, ← hcut,
      List.takeWhile_append_dropWhile]
  -- a blank that counts would be the last character that counts
  have htail : tail.filter counts = [] := by
    by_contra hne
    have hlast : (tail.filter counts).getLast hne ∈ (cs.filter counts).getLast? := by
      rw [hall, List.getLast?_append, List.getLast?_eq_some_getLast hne]
      rfl
    have hlow := hblank _ (List.mem_of_mem_filter (List.getLast_mem hne))
    rw [decide_eq_true_eq] at hlow
    exact absurd (h _ hlast) (by omega)
  rw [significant_eq, lead, hcut, List.filter_append, htail, List.append_nil, Text.dropAround]

/-! ### Scheme and authority -/

theorem scheme?_append {cs scheme rest : List Char} (h : scheme? cs = some (scheme, rest)) (more : List Char) :
    scheme? (cs ++ more) = some (scheme, rest ++ more) := by
  simp only [scheme?, Option.bind_eq_bind, Option.bind_eq_some_iff] at h ⊢
  obtain ⟨⟨before, after⟩, hcut, hs⟩ := h
  refine ⟨(before, after ++ more), Text.splitFirst_append_of_eq_some hcut more, ?_⟩
  simp only [Option.ite_none_right_eq_some, Option.some.injEq, Prod.mk.injEq] at hs ⊢
  exact ⟨hs.1, hs.2.1, by rw [hs.2.2]⟩

theorem exists_scheme?_of_append {cs more scheme rest : List Char} (h : scheme? (cs ++ more) = some (scheme, rest))
    (hm : ':' ∉ more) : ∃ after, scheme? cs = some (scheme, after) ∧ rest = after ++ more := by
  cases hcut : Text.splitFirst ':' cs with
  | none =>
    have : Text.splitFirst ':' (cs ++ more) = none :=
      Text.splitFirst_eq_none_iff.mpr (by simp [Text.splitFirst_eq_none_iff.mp hcut, hm])
    simp [scheme?, this] at h
  | some cut =>
    obtain ⟨before, after⟩ := cut
    have hs : scheme? cs = (scheme? (cs ++ more)).map fun found => (found.1, after) := by
      simp only [scheme?, hcut, Text.splitFirst_append_of_eq_some hcut, Option.bind_eq_bind, Option.bind_some]
      split <;> rfl
    rw [h] at hs
    have hwhole := scheme?_append hs more
    rw [h] at hwhole
    exact ⟨after, hs, by simpa using hwhole⟩

theorem isSpecial_of_http {scheme : List Char} (h : scheme = "http".toList ∨ scheme = "https".toList) :
    isSpecial scheme = true := by
  rcases h with rfl | rfl
  · decide +kernel
  · decide +kernel

/-- The URL with what the text after its authority says in place of its path, query and fragment. -/
def withTail (u : Url) (cs : List Char) : Url :=
  let tail := splitTail (isSpecial u.scheme) cs
  { u with path := readPath (isSpecial u.scheme) tail.1, query := tail.2.1, fragment := tail.2.2 }

theorem withTail_withTail (u : Url) (xs ys : List Char) : (u.withTail xs).withTail ys = u.withTail ys := rfl

/-- The authority of a URL of the web and the text after it are read apart. -/
theorem readAuthority_eq_map {scheme : List Char} (web : isSpecial scheme = true) (cs : List Char) :
    readAuthority scheme cs =
      (readAuthority scheme (cs.takeWhile (!endsAuthority true ·))).map
        (·.withTail (cs.dropWhile (!endsAuthority true ·))) := by
  unfold readAuthority
  simp only [web, List.takeWhile_idem, if_true]
  cases splitUserinfo (cs.takeWhile (!endsAuthority true ·)) with
  | mk userinfo hostport =>
    cases splitPort false hostport with
    | mk hostChars portChars =>
      dsimp only
      split
      · rfl
      · cases Host.read hostChars with
        | error problem => rfl
        | ok host =>
          cases readPort scheme (portChars.getD []) with
          | error problem => rfl
          | ok port => simp [Except.map, withTail, web, bind, Except.bind, pure, Except.pure]

/-- Text after the authority does not change what the authority says if it begins with a slash. -/
theorem readAuthority_append {scheme : List Char} (web : isSpecial scheme = true) (cs : List Char) {more : List Char}
    (hm : ∀ c ∈ more.head?, c = '/') :
    readAuthority scheme (cs ++ more) =
      (readAuthority scheme (cs.takeWhile (!endsAuthority true ·))).map
        (·.withTail (cs.dropWhile (!endsAuthority true ·) ++ more)) := by
  have hmore : more.takeWhile (!endsAuthority true ·) = [] ∧ more.dropWhile (!endsAuthority true ·) = more := by
    cases more with
    | nil => simp
    | cons c more =>
      obtain rfl : c = '/' := hm c rfl
      exact ⟨rfl, rfl⟩
  have htake : (cs ++ more).takeWhile (!endsAuthority true ·) = cs.takeWhile (!endsAuthority true ·) := by
    rw [List.takeWhile_append, hmore.1]
    split
    · next h => rw [List.append_nil, (List.takeWhile_prefix _).eq_of_length h]
    · rfl
  have hdrop : (cs ++ more).dropWhile (!endsAuthority true ·) = cs.dropWhile (!endsAuthority true ·) ++ more := by
    rw [List.dropWhile_append, hmore.2]
    split
    · next h => rw [List.isEmpty_iff.mp h, List.nil_append]
    · rfl
  rw [readAuthority_eq_map web, htake, hdrop]

theorem readAuthority_nil {scheme : List Char} (web : isSpecial scheme = true) :
    readAuthority scheme [] = .error .emptyHost := by
  simp [readAuthority, web, splitUserinfo, splitPort]
  rfl

theorem scheme_of_readAuthority {scheme cs : List Char} {u : Url} (h : readAuthority scheme cs = .ok u) :
    u.scheme = scheme := by
  unfold readAuthority at h
  dsimp only at h
  split at h
  · cases h
  · split at h
    all_goals
      obtain ⟨host, -, h⟩ := exists_of_bind_eq_ok h
      obtain ⟨port, -, h⟩ := exists_of_bind_eq_ok h
      cases h
      rfl

theorem host_of_readAuthority {scheme cs : List Char} {u : Url} (web : isSpecial scheme = true)
    (h : readAuthority scheme cs = .ok u) : ∃ chars host, Host.read chars = .ok host ∧ u.host = some host := by
  unfold readAuthority at h
  simp only [web, if_true] at h
  split at h
  · cases h
  · obtain ⟨host, hread, h⟩ := exists_of_bind_eq_ok h
    obtain ⟨port, -, h⟩ := exists_of_bind_eq_ok h
    cases h
    exact ⟨_, host, hread, rfl⟩

theorem scheme_of_readFile {scheme cs : List Char} {u : Url} (h : readFile scheme cs = .ok u) : u.scheme = scheme := by
  unfold readFile at h
  dsimp only at h
  split at h
  · split at h
    · cases h; rfl
    · split at h
      · cases h; rfl
      · obtain ⟨host, -, h⟩ := exists_of_bind_eq_ok h
        cases h; rfl
  · cases h; rfl

/-- Whether a character separates scheme and authority on the web. -/
def isSlash (c : Char) : Bool := c == '/' || c == '\\'

/-- A URL of the web is its scheme, any slashes, and an authority with the text after it. -/
theorem exists_of_readChars {cs : List Char} {u : Url} (h : readChars cs = .ok u) (web : isSpecial u.scheme = true) :
    ∃ rest, scheme? (significant cs) = some (u.scheme, rest) ∧
      readAuthority u.scheme (rest.dropWhile isSlash) = .ok u := by
  unfold readChars at h
  split at h
  · cases h
  · next scheme rest hs =>
    split at h
    · obtain rfl := scheme_of_readAuthority h
      exact ⟨rest, hs, h⟩
    · next hn =>
      have hscheme : u.scheme = scheme := by
        split at h
        · exact scheme_of_readFile h
        · split at h
          · exact scheme_of_readAuthority h
          · cases h; rfl
          · cases h; rfl
      rw [hscheme] at web
      exact absurd web hn

theorem Host.text_ne_nil {chars : List Char} {host : Host} (h : Host.read chars = .ok host) : host.text ≠ [] := by
  cases host with
  | ipv4 address => simp [Host.text, ipv4Text, Domain.join]
  | ipv6 pieces => simp [Host.text]
  | domain name =>
    unfold Host.read at h
    split at h
    · unfold Host.bracketed at h
      split at h
      · split at h <;> cases h
      · cases h
    · split at h
      · cases h
      · cases h
      · next name' hne _ =>
        split at h
        · split at h <;> cases h
        · cases h
          exact fun hnil => hne hnil

theorem hasHost_of_readChars {cs : List Char} {u : Url} (h : readChars cs = .ok u) (web : isSpecial u.scheme = true) :
    u.hasHost = true := by
  obtain ⟨rest, -, hread⟩ := exists_of_readChars h web
  obtain ⟨chars, host, hhost, heq⟩ := host_of_readAuthority web hread
  simp [hasHost, hostText, heq, Host.text_ne_nil hhost]

/-! ### The text after the authority -/

theorem splitTail_of_notMem {cs : List Char} (hq : '?' ∉ cs) (hf : '#' ∉ cs) (special : Bool) :
    splitTail special cs = (cs, none, none) := by
  unfold splitTail
  rw [Text.splitFirst_eq_none_iff.mpr hf]
  dsimp only
  rw [Text.splitFirst_eq_none_iff.mpr hq]

theorem notMem_of_splitTail {special : Bool} {cs : List Char} (hq : (splitTail special cs).2.1 = none)
    (hf : (splitTail special cs).2.2 = none) : '?' ∉ cs ∧ '#' ∉ cs := by
  unfold splitTail at hq hf
  cases hh : Text.splitFirst '#' cs with
  | some cut =>
    rw [hh] at hf
    dsimp only at hf
    split at hf <;> cases hf
  | none =>
    rw [hh] at hq
    dsimp only at hq
    cases hs : Text.splitFirst '?' cs with
    | some cut => rw [hs] at hq; cases hq
    | none => exact ⟨Text.splitFirst_eq_none_iff.mp hs, Text.splitFirst_eq_none_iff.mp hh⟩

/-- Neither a query nor a fragment begins in a text. -/
def HasNoTail (cs : List Char) : Prop := '?' ∉ cs ∧ '#' ∉ cs

theorem hasNoTail_append {xs ys : List Char} : HasNoTail (xs ++ ys) ↔ HasNoTail xs ∧ HasNoTail ys := by
  simp only [HasNoTail, List.mem_append, not_or]
  tauto

theorem hasNoTail_slashes (k : ℕ) : HasNoTail (List.replicate k '/') := by
  simp [HasNoTail, List.mem_replicate]

theorem withTail_noTail_iff (u : Url) (cs : List Char) :
    ((u.withTail cs).query = none ∧ (u.withTail cs).fragment = none) ↔ HasNoTail cs := by
  constructor
  · exact fun ⟨hq, hf⟩ => notMem_of_splitTail hq hf
  · rintro ⟨hq, hf⟩
    simp [withTail, splitTail_of_notMem hq hf]

theorem withTail_path {u : Url} (web : isSpecial u.scheme = true) {cs : List Char} (h : HasNoTail cs) :
    (u.withTail cs).path = readPath true cs := by
  simp [withTail, splitTail_of_notMem h.1 h.2, web]

section Paths

variable {u : Url} {start : List Char} (web : isSpecial u.scheme = true) (hs : ∀ c ∈ start.head?, c = '/' ∨ c = '\\')
  (hstart : HasNoTail start)

include web hs hstart

theorem withTail_text_of_names {more : List Char} (hmore : HasNoTail ('/' :: more))
    (names : ∀ s ∈ pieces more, IsName s) :
    (u.withTail (start ++ '/' :: more)).path.text =
      (Path.segments (directory start)).text ++ (Path.segments (pieces more)).text := by
  rw [withTail_path web (hasNoTail_append.mpr ⟨hstart, hmore⟩), readPath_append_text hs names]

theorem withTail_text_slash :
    (u.withTail (start ++ ['/'])).path.text = (Path.segments (directory start)).text ++ ['/'] :=
  withTail_text_of_names web hs hstart (hasNoTail_slashes 1) (by simp [pieces_nil, isName_nil])

theorem exists_withTail_text_slashes (k : ℕ) :
    ∃ j, (u.withTail (start ++ List.replicate k '/')).path.text =
      (Path.segments (directory start)).text ++ List.replicate j '/' := by
  rw [withTail_path web (hasNoTail_append.mpr ⟨hstart, hasNoTail_slashes k⟩)]
  exact readPath_slashes hs k

end Paths

/-! ### A text that URLs begin with -/

/-- With a slash and more after it the text `base` reads as a URL with the authority of `u`; what `base` itself
says after the authority is `start`. -/
structure Begins (base : List Char) (u : Url) (start : List Char) : Prop where
  head : ∀ c ∈ start.head?, endsAuthority true c = true
  read (more : List Char) (slash : more.head? = some '/') (visible : ∀ c ∈ more, 0x20 < c.toNat) :
    readChars (base ++ more) = .ok (u.withTail (start ++ more))

/-- Without a query or a fragment a slash comes first after the authority. -/
theorem Begins.slash_head {base start : List Char} {u : Url} (h : Begins base u start) (hstart : HasNoTail start) :
    ∀ c ∈ start.head?, c = '/' ∨ c = '\\' := by
  intro c hc
  have hmem := List.mem_of_mem_head? hc
  have hq : c ≠ '?' := fun heq => hstart.1 (heq ▸ hmem)
  have hf : c ≠ '#' := fun heq => hstart.2 (heq ▸ hmem)
  simpa [endsAuthority, hq, hf] using h.head c hc

theorem dropWhile_append_of_ne_nil {p : Char → Bool} {cs : List Char} (h : cs.dropWhile p ≠ []) (more : List Char) :
    (cs ++ more).dropWhile p = cs.dropWhile p ++ more := by
  rw [List.dropWhile_append, if_neg (by simpa using h)]

/-- The text of a URL of the web is such a beginning, also without slashes at its end. -/
theorem exists_begins {base : List Char} {k : ℕ} {u : Url} (h : readChars (base ++ List.replicate k '/') = .ok u)
    (web : isSpecial u.scheme = true) (visible : EndsVisibly (base ++ List.replicate k '/')) :
    ∃ start, Begins base u start ∧ u = u.withTail (start ++ List.replicate k '/') := by
  have hsig : significant (base ++ List.replicate k '/') = lead base ++ List.replicate k '/' := by
    cases k with
    | zero => simpa using significant_of_endsVisibly visible
    | succ k => exact significant_append (by simp) (fun c hc => by rw [List.eq_of_mem_replicate hc]; decide) base
  obtain ⟨rest, hscheme, hread⟩ := exists_of_readChars h web
  rw [hsig] at hscheme
  obtain ⟨after, hafter, rfl⟩ := exists_scheme?_of_append hscheme (by simp [List.mem_replicate])
  -- the authority begins before the slashes at the end, or there would be none
  have hne : after.dropWhile isSlash ≠ [] := by
    intro hnil
    have hslashes : (List.replicate k '/').dropWhile isSlash = [] :=
      List.dropWhile_eq_nil_iff.mpr fun c hc => by rw [List.eq_of_mem_replicate hc]; decide
    rw [List.dropWhile_append, hnil, List.isEmpty_nil, if_pos rfl, hslashes, readAuthority_nil web] at hread
    cases hread
  rw [dropWhile_append_of_ne_nil hne,
    readAuthority_append web _ (fun c hc => List.eq_of_mem_replicate (List.mem_of_mem_head? hc))] at hread
  cases hserver : readAuthority u.scheme ((after.dropWhile isSlash).takeWhile (!endsAuthority true ·)) with
  | error problem => rw [hserver] at hread; cases hread
  | ok server =>
    rw [hserver] at hread
    obtain rfl : server.withTail _ = u := Except.ok.inj hread
    refine ⟨_, ⟨fun c hc => ?_, fun more hm hv => ?_⟩, (withTail_withTail server _ _).symm⟩
    · have hend := List.head?_dropWhile_not (!endsAuthority true ·) (after.dropWhile isSlash)
      rw [Option.mem_def.mp hc] at hend
      simpa using hend
    · have hmore : more ≠ [] := by rintro rfl; cases hm
      rw [readChars, significant_append hmore hv, scheme?_append hafter]
      change (if _ then readAuthority _ ((after ++ more).dropWhile isSlash) else _) = _
      rw [if_pos web, dropWhile_append_of_ne_nil hne, readAuthority_append web _ (by simp [hm]), hserver]
      rfl

end Url

end PushDispatch
