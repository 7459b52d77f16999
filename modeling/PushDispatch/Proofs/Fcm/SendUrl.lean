import PushDispatch.Program
import PushDispatch.Proofs.Url.Extension

/-!
The URL that requests are sent to. The endpoint is checked on its own, while requests are sent to its text with the
path of the project after it. If the endpoint ends visibly, this names the same server, and without a query or a
fragment in the endpoint the project lies under the path of the endpoint. All requests that HTTP can carry go there.
-/

namespace PushDispatch

namespace Fcm

open Url (EndsVisibly IsName IsPlain directory isSpecial pieces)

/-! ### The text of the URL -/

/-- The path of a project below an endpoint. -/
def projectPath (projectId : String) : String := "v1/projects/" ++ projectId ++ "/messages:send"

/-- The endpoint with exactly one slash at its end. -/
def withSlash (endpoint : String) : String :=
  String.ofList (Text.dropEndWhile (· == '/') endpoint.toList) ++ "/"

theorem sendUrl_eq (endpoint projectId : String) :
    sendUrl endpoint projectId = withSlash endpoint ++ projectPath projectId := by
  have hslash : "/v1/projects/" = "/" ++ "v1/projects/" := by decide
  rw [sendUrl, hslash, withSlash, projectPath]
  simp only [String.append_assoc]

theorem withSlash_toList (endpoint : String) :
    (withSlash endpoint).toList = Text.dropEndWhile (· == '/') endpoint.toList ++ ['/'] := by
  rw [withSlash, String.toList_append, String.toList_ofList]
  rfl

theorem sendUrl_toList (endpoint projectId : String) :
    (sendUrl endpoint projectId).toList =
      Text.dropEndWhile (· == '/') endpoint.toList ++ '/' :: (projectPath projectId).toList := by
  rw [sendUrl_eq, String.toList_append, withSlash_toList, List.append_assoc, List.singleton_append]

theorem exists_slashes (endpoint : String) :
    ∃ k, endpoint.toList = Text.dropEndWhile (· == '/') endpoint.toList ++ List.replicate k '/' := by
  obtain ⟨tail, hcut, htail⟩ := Text.exists_eq_dropEndWhile_append (· == '/') endpoint.toList
  refine ⟨tail.length, ?_⟩
  rw [← List.eq_replicate_of_mem fun c hc => by simpa using htail c hc]
  exact hcut

/-! ### The segments of the project -/

/-- A character of names, which stand for themselves in a path. -/
def IsNameChar (c : Char) : Prop := IsPlain c ∧ c.toLower ≠ '.' ∧ c.toLower ≠ '%'

instance (c : Char) : Decidable (IsNameChar c) := inferInstanceAs (Decidable (_ ∧ _ ∧ _))

theorem isName_of_isNameChar {name : List Char} (h : ∀ c ∈ name, IsNameChar c) : IsName name :=
  Url.isName_of_head fun c hc => (h c (List.mem_of_mem_head? hc)).2

theorem isNameChar_of_isProjectIdChar {c : Char} (h : Check.isProjectIdChar c = true) : IsNameChar c := by
  have hascii : c.toNat < 128 := by
    simp only [Check.isProjectIdChar, Text.Decimal.isDigit, Bool.or_eq_true, Bool.and_eq_true, decide_eq_true_eq,
      beq_iff_eq] at h
    rcases h with (⟨-, hz⟩ | ⟨-, h9⟩) | rfl
    · exact lt_of_le_of_lt (show c.toNat ≤ 'z'.toNat from hz) (by decide)
    · omega
    · decide
  have hall : ∀ n < 128, Check.isProjectIdChar (Char.ofNat n) = true → IsNameChar (Char.ofNat n) := by decide +kernel
  have hc := hall c.toNat hascii
  rw [Char.ofNat_toNat] at hc
  exact hc h

/-- The segments of the path of a project. -/
def projectNames (projectId : String) : List (List Char) :=
  ["v1".toList, "projects".toList, projectId.toList, "messages:send".toList]

theorem projectPath_toList (projectId : String) :
    (projectPath projectId).toList = "v1".toList ++ '/' :: ("projects".toList ++ '/' ::
      (projectId.toList ++ '/' :: "messages:send".toList)) := by
  have hv1 : "v1/projects/".toList = "v1".toList ++ '/' :: ("projects".toList ++ ['/']) := by decide +kernel
  have hsend : "/messages:send".toList = '/' :: "messages:send".toList := by decide +kernel
  have hjoin (a b c d : List Char) :
      a ++ '/' :: (b ++ ['/']) ++ c ++ '/' :: d = a ++ '/' :: (b ++ '/' :: (c ++ '/' :: d)) := by
    simp
  rw [projectPath, String.toList_append, String.toList_append, hv1, hsend, hjoin]

theorem text_projectNames (projectId : String) :
    (Url.Path.segments (projectNames projectId)).text = '/' :: (projectPath projectId).toList := by
  have hjoin (a b c d : List Char) :
      (Url.Path.segments [a, b, c, d]).text = '/' :: (a ++ '/' :: (b ++ '/' :: (c ++ '/' :: d))) := by
    simp [Url.Path.text]
  rw [projectPath_toList]
  exact hjoin _ _ _ _

section Project

variable {projectId : String} (hid : projectId.toList.all Check.isProjectIdChar = true)

include hid

theorem isNameChar_of_mem_projectNames : ∀ name ∈ projectNames projectId, ∀ c ∈ name, IsNameChar c := by
  have hproject : ∀ c ∈ projectId.toList, IsNameChar c := fun c hc =>
    isNameChar_of_isProjectIdChar (List.all_eq_true.mp hid c hc)
  have hfixed (name : String) (h : (name.toList.all fun c => IsNameChar c) = true) : ∀ c ∈ name.toList, IsNameChar c :=
    fun c hc => of_decide_eq_true (List.all_eq_true.mp h c hc)
  simp only [projectNames, List.forall_mem_cons]
  exact ⟨hfixed "v1" (by decide +kernel), hfixed "projects" (by decide +kernel), hproject,
    hfixed "messages:send" (by decide +kernel), by simp⟩

theorem mem_projectPath {c : Char} (hc : c ∈ (projectPath projectId).toList) : IsNameChar c ∨ c = '/' := by
  have hmem : c ∈ (Url.Path.segments (projectNames projectId)).text := by
    rw [text_projectNames]
    exact List.mem_cons_of_mem _ hc
  obtain ⟨name, hname, hc⟩ := List.mem_flatMap.mp hmem
  rcases List.mem_cons.mp hc with rfl | hc
  · exact .inr rfl
  · exact .inl (isNameChar_of_mem_projectNames hid name hname c hc)

theorem pieces_projectPath : pieces (projectPath projectId).toList = projectNames projectId := by
  have hplain : ∀ name ∈ projectNames projectId, pieces name = [name] := fun name hname =>
    Url.pieces_of_isPlain fun c hc => (isNameChar_of_mem_projectNames hid name hname c hc).1
  simp only [projectNames, List.forall_mem_cons] at hplain
  obtain ⟨hversion, hprojects, hproject, hsend, -⟩ := hplain
  rw [projectPath_toList, Url.pieces_append, Url.pieces_append, Url.pieces_append, hversion, hprojects, hproject, hsend]
  rfl

theorem visible_projectPath : ∀ c ∈ '/' :: (projectPath projectId).toList, 0x20 < c.toNat := by
  refine List.forall_mem_cons.mpr ⟨by decide, fun c hc => ?_⟩
  rcases mem_projectPath hid hc with hname | rfl
  · exact hname.1.1
  · decide

theorem hasNoTail_projectPath : Url.HasNoTail ('/' :: (projectPath projectId).toList) := by
  have hencoded {c : Char} (hset : c ∈ Url.Part.path.encodes) (hc : c ≠ '/') :
      c ∉ '/' :: (projectPath projectId).toList := by
    intro hmem
    rcases List.mem_cons.mp hmem with rfl | hmem
    · exact hc rfl
    · rcases mem_projectPath hid hmem with hname | rfl
      · exact hname.1.2.2.1 hset
      · exact hc rfl
  exact ⟨hencoded (by decide) (by decide), hencoded (by decide) (by decide)⟩

theorem isName_of_mem_pieces : ∀ name ∈ pieces (projectPath projectId).toList, IsName name := by
  rw [pieces_projectPath hid]
  exact fun name hname => isName_of_isNameChar (isNameChar_of_mem_projectNames hid name hname)

end Project

/-! ### The URL under the endpoint -/

/-- `v` is a URL of the server that `u` names, and lies under the path of the endpoint, whose URL is `u`. -/
structure IsUnder (endpoint projectId : String) (u v : Url) : Prop where
  scheme : v.scheme = u.scheme
  host : v.host = u.host
  port : v.port = u.port
  /-- A query or a fragment can only come from the endpoint, and is never lost. -/
  plain : (v.query = none ∧ v.fragment = none) ↔ u.query = none ∧ u.fragment = none
  /-- The path of the project comes after that of the endpoint with one slash at its end. The endpoint itself has this
  path, up to slashes at the end, unless other characters leave an empty segment there: a backslash, a line end
  between slashes, or dots after two slashes. -/
  path : u.query = none → u.fragment = none → ∃ base, Url.read (withSlash endpoint) = .ok base ∧
    v.path.text = base.path.text ++ (projectPath projectId).toList ∧
    (v.path.text = Text.dropEndWhile (· == '/') u.path.text ++ '/' :: (projectPath projectId).toList ↔
      ¬['/', '/'] <:+ base.path.text)

theorem eq_dropEndWhile_append_iff (own rest : List Char) (k : ℕ) :
    own ++ rest = Text.dropEndWhile (· == '/') (own ++ List.replicate k '/') ++ rest ↔
      ¬['/', '/'] <:+ own ++ ['/'] := by
  rw [Text.dropEndWhile_append_of_pos fun c hc => by simp [List.eq_of_mem_replicate hc], List.append_left_inj, eq_comm]
  cases own using List.reverseRecOn with
  | nil => simpa [Text.dropEndWhile] using fun h : ['/', '/'] <:+ ['/'] => absurd h.length_le (by decide)
  | append_singleton own c =>
    have hsuffix : ['/', '/'] <:+ own ++ [c] ++ ['/'] ↔ c = '/' := by
      rw [← List.reverse_prefix]
      simp [eq_comm]
    rw [hsuffix]
    by_cases hc : c = '/'
    · have hdrop : Text.dropEndWhile (· == '/') (own ++ [c]) = Text.dropEndWhile (· == '/') own :=
        List.rdropWhile_concat_pos _ _ _ (by simpa using hc)
      have hlength := (List.rdropWhile_prefix (· == '/') own).length_le
      refine iff_of_false (fun h => ?_) (not_not.mpr hc)
      rw [hdrop] at h
      have := congrArg List.length h
      simp only [List.length_append, List.length_singleton] at this
      change (Text.dropEndWhile (· == '/') own).length ≤ _ at hlength
      omega
    · exact iff_of_true (List.rdropWhile_concat_neg _ _ _ (by simpa using hc)) hc

/-- Whatever endpoint of the web ends visibly, the URL for sends lies under it. -/
theorem isUnder_of_read {endpoint projectId : String} {u : Url}
    (hid : projectId.toList.all Check.isProjectIdChar = true) (hu : Url.read endpoint = .ok u)
    (web : isSpecial u.scheme = true) (visible : EndsVisibly endpoint.toList) :
    ∃ v, Url.read (sendUrl endpoint projectId) = .ok v ∧ IsUnder endpoint projectId u v := by
  obtain ⟨k, hk⟩ := exists_slashes endpoint
  rw [Url.read, hk] at hu
  rw [hk] at visible
  obtain ⟨start, hbegins, hself⟩ := Url.exists_begins hu web visible
  have htail : (u.query = none ∧ u.fragment = none) ↔ Url.HasNoTail start := by
    rw [hself, Url.withTail_noTail_iff, Url.hasNoTail_append, and_iff_left (Url.hasNoTail_slashes k)]
  refine ⟨u.withTail (start ++ '/' :: (projectPath projectId).toList), ?_, rfl, rfl, rfl, ?_,
    fun hquery hfragment => ?_⟩
  · rw [Url.read, sendUrl_toList]
    exact hbegins.read _ rfl (visible_projectPath hid)
  · rw [Url.withTail_noTail_iff, Url.hasNoTail_append, and_iff_left (hasNoTail_projectPath hid), htail]
  · have hstart := htail.mp ⟨hquery, hfragment⟩
    have hslash := hbegins.slash_head hstart
    have hproject : (u.withTail (start ++ '/' :: (projectPath projectId).toList)).path.text =
        (Url.Path.segments (directory start)).text ++ '/' :: (projectPath projectId).toList := by
      rw [Url.withTail_text_of_names web hslash hstart (hasNoTail_projectPath hid) (isName_of_mem_pieces hid),
        pieces_projectPath hid, text_projectNames]
    have hbase := Url.withTail_text_slash web hslash hstart
    obtain ⟨j, hown⟩ := Url.exists_withTail_text_slashes web hslash hstart k
    rw [← hself] at hown
    refine ⟨u.withTail (start ++ ['/']), ?_, ?_, ?_⟩
    · rw [Url.read, withSlash_toList]
      exact hbegins.read _ rfl (by simp)
    · rw [hproject, hbase, List.append_assoc, List.singleton_append]
    · rw [hproject, hbase, hown]
      exact eq_dropEndWhile_append_iff _ _ j

/-! ### Posts -/

/-- What HTTP asks for: an access token that can be a header, a host whose characters it knows, and a URL that is not
too long. -/
structure FitsHttp (c : Client) (v : Url) : Prop where
  header : (c.accessToken.all fun token => token.toList.all isHeaderChar) = true
  host : v.hostText.any isStrangeToHttp = false
  length : (takeUser v).2.chars.length ≤ maxUrlLength

theorem takeUser_withoutUser (v : Url) : (takeUser v).2.withoutUser = v.withoutUser := by
  unfold takeUser
  dsimp only
  split
  · rfl
  · split
    · rfl
    · split <;> rfl

theorem takeUser_scheme (v : Url) : (takeUser v).2.scheme = v.scheme :=
  show (takeUser v).2.withoutUser.scheme = v.withoutUser.scheme by rw [takeUser_withoutUser]

theorem takeUser_hostText (v : Url) : (takeUser v).2.hostText = v.hostText :=
  show (takeUser v).2.withoutUser.hostText = v.withoutUser.hostText by rw [takeUser_withoutUser]

theorem isReachable_takeUser_iff {v : Url} (web : v.scheme = "http".toList ∨ v.scheme = "https".toList) :
    isReachable (takeUser v).2 = true ↔
      v.hostText.any isStrangeToHttp = false ∧ (takeUser v).2.chars.length ≤ maxUrlLength := by
  have hscheme : (v.scheme == "http".toList || v.scheme == "https".toList) = true := by
    rwa [Bool.or_eq_true, beq_iff_eq, beq_iff_eq]
  rw [isReachable, takeUser_scheme, takeUser_hostText, hscheme]
  simp

namespace Client

variable {c : Client} {v : Url} (hv : Url.read c.sendUrl = .ok v)

include hv

/-- The post of a request, for a URL that names a host. -/
theorem post_eq_ite (hasHost : v.hasHost = true) (request : Request) :
    c.post request =
      if ¬(c.accessToken.all fun token => token.toList.all isHeaderChar) = true then .error .malformedRequest
      else if isReachable (takeUser v).2 then
        .ok ⟨(takeUser v).2, (takeUser v).1 ++ ((c.accessToken.map String.toList).map Credentials.bearer).toList,
          request⟩
      else .error (.unsupportedUrl (takeUser v).2.text) := by
  have htoken : ((c.accessToken.map String.toList).any fun token => !token.all isHeaderChar) = true ↔
      ¬(c.accessToken.all fun token => token.toList.all isHeaderChar) = true := by
    cases c.accessToken <;> simp
  unfold Client.post
  simp only [hv, hasHost, htoken, Bool.not_true, Bool.false_eq_true, if_false, Bool.not_eq_true', ← Bool.not_eq_true,
    ite_not]

/-- A request is posted to a URL of the web exactly if it fits HTTP; which request it is does not matter. -/
theorem exists_post_iff (web : v.scheme = "http".toList ∨ v.scheme = "https".toList) (hasHost : v.hasHost = true)
    (request : Request) : (∃ post, c.post request = .ok post) ↔ FitsHttp c v := by
  have hreachable := isReachable_takeUser_iff web
  constructor
  · rintro ⟨post, h⟩
    rw [post_eq_ite hv hasHost] at h
    split at h
    · cases h
    · next header =>
      split at h
      · next hr =>
        obtain ⟨host, length⟩ := hreachable.mp hr
        exact ⟨not_not.mp header, host, length⟩
      · cases h
  · intro h
    rw [post_eq_ite hv hasHost, if_neg (not_not.mpr h.header), if_pos (hreachable.mpr ⟨h.host, h.length⟩)]
    exact ⟨_, rfl⟩

theorem post_url {request : Request} {post : Post} (hasHost : v.hasHost = true) (h : c.post request = .ok post) :
    post.url.withoutUser = v.withoutUser := by
  rw [post_eq_ite hv hasHost] at h
  split at h
  · cases h
  · split at h
    · cases h
      exact takeUser_withoutUser v
    · cases h

end Client

end Fcm

namespace Program

/-- Settings that are fit for use, with an endpoint that ends visibly, have all requests posted to the server of the
endpoint and to the path of the project under it. -/
theorem sends_under_endpoint (s : Settings) (valid : s.validate = .ok ())
    (visible : Url.EndsVisibly s.endpoint.toList) :
    ∃ u v, Url.read s.endpoint = .ok u ∧ Url.read (client s).sendUrl = .ok v ∧
      (v.scheme = "http".toList ∨ v.scheme = "https".toList) ∧ Fcm.IsUnder s.endpoint s.service.projectId u v ∧
      ∀ request, ((∃ post, (client s).post request = .ok post) ↔ Fcm.FitsHttp (client s) v) ∧
        ∀ post, (client s).post request = .ok post → post.url.withoutUser = v.withoutUser := by
  obtain ⟨_, hproject, hrest⟩ := exists_of_bind_eq_ok valid
  obtain ⟨_, hendpoint, -⟩ := exists_of_bind_eq_ok hrest
  obtain ⟨u, hu, hscheme⟩ := Check.exists_of_url hendpoint
  obtain ⟨v, hv, hunder⟩ :=
    Fcm.isUnder_of_read (Check.all_of_projectId hproject) hu (Url.isSpecial_of_http hscheme) visible
  change Url.read (client s).sendUrl = .ok v at hv
  rw [← hunder.scheme] at hscheme
  have hasHost := Url.hasHost_of_readChars hv (Url.isSpecial_of_http hscheme)
  exact ⟨u, v, hu, hv, hscheme, hunder, fun request =>
    ⟨Fcm.Client.exists_post_iff hv hscheme hasHost request, fun post => Fcm.Client.post_url hv hasHost⟩⟩

/-- Settings with a given endpoint and nothing else that can be left out. -/
def settingsAt (endpoint : String) : Settings := ⟨⟨"p", some endpoint, some "t", none⟩, none, none⟩

theorem sends_under_endpoint_two_slashes :
    let s := settingsAt "http://h:8080/a//"
    s.validate = .ok () ∧ Url.EndsVisibly s.endpoint.toList ∧
      ∀ request, ∃ post, (client s).post request = .ok post ∧ post.url.hostText = "h:8080".toList ∧
        post.url.target = "/a/v1/projects/p/messages:send" := by
  intro s
  have valid : s.validate = .ok () := by decide +kernel
  have visible : Url.EndsVisibly s.endpoint.toList := by decide +kernel
  obtain ⟨u, v, -, hv, -, -, hposts⟩ := sends_under_endpoint s valid visible
  let sent : Url := ⟨"http".toList, [], none, some (.domain ['h']), some 8080,
    .segments (['a'] :: Fcm.projectNames "p"), none, none⟩
  have hsent : Url.read (client s).sendUrl = .ok sent := by decide +kernel
  obtain rfl : v = sent := Except.ok.inj (hv.symm.trans hsent)
  have fits : Fcm.FitsHttp (client s) sent := ⟨by decide +kernel, by decide +kernel, by decide +kernel⟩
  refine ⟨valid, visible, fun request => ?_⟩
  obtain ⟨post, hpost⟩ := (hposts request).1.mpr fits
  have hurl := (hposts request).2 post hpost
  refine ⟨post, hpost, ?_, ?_⟩
  · change post.url.withoutUser.hostText = _
    rw [hurl]
    decide +kernel
  · change post.url.withoutUser.target = _
    rw [hurl]
    decide +kernel

/-- A query or a fragment takes in the path of the project, after a blank at the end the whole is no URL, a backslash at
the end leaves an empty segment, and HTTP knows no braces in a host. -/
theorem sends_beside_endpoint :
    ((settingsAt "http://h/?v=1").validate = .ok () ∧
      (Url.read (client (settingsAt "http://h/?v=1")).sendUrl).map (fun v => (v.path.text, v.query)) =
        .ok (['/'], some "v=1/v1/projects/p/messages:send".toList)) ∧
    ((settingsAt "http://h/#").validate = .ok () ∧
      (Url.read (client (settingsAt "http://h/#")).sendUrl).map (fun v => (v.path.text, v.fragment)) =
        .ok (['/'], some "/v1/projects/p/messages:send".toList)) ∧
    ((settingsAt "http://h ").validate = .ok () ∧
      Url.read (client (settingsAt "http://h ")).sendUrl = .error .invalidDomain) ∧
    ((settingsAt "http://h/a\\").validate = .ok () ∧
      (Url.read "http://h/a\\").map (·.path.text) = .ok "/a/".toList ∧
        (Url.read (client (settingsAt "http://h/a\\")).sendUrl).map (·.path.text) =
          .ok "/a//v1/projects/p/messages:send".toList) ∧
    ((settingsAt "http://\x7bh\x7d").validate = .ok () ∧
      (Url.read (client (settingsAt "http://\x7bh\x7d")).sendUrl).map Fcm.isReachable = .ok false) := by
  refine ⟨⟨?_, ?_⟩, ⟨?_, ?_⟩, ⟨?_, ?_⟩, ⟨?_, ?_, ?_⟩, ?_, ?_⟩
  all_goals decide +kernel

end Program

end PushDispatch
