import PushDispatch.Proofs.Fcm.Refusals
import PushDispatch.Proofs.Fcm.SendUrl
import PushDispatch.Proofs.Program.Run
import PushDispatch.Proofs.Settings.Requirements

/-! The access token as the value of a header. A header takes no control characters but tabs, while the checks of the
settings ask of the token only that it is there, refers to no variable and has a character that is not blank. A token
that fits a header never stands in the way of a post. With any other one no post is made: each send fails at once. -/

namespace PushDispatch

/-! ### The bytes of a header -/

/-- The bytes of a character beyond ASCII are beyond ASCII, all of them. -/
theorem Text.Utf8.le_of_mem_encodeChar {c : Char} (hc : 128 ≤ c.toNat) : ∀ b ∈ encodeChar c, 128 ≤ b.toNat := by
  have hc : 128 ≤ c.val.toNat := hc
  have hmax : c.val.toNat < 0x110000 := by
    have := c.valid
    omega
  unfold encodeChar String.utf8EncodeChar
  dsimp only
  generalize c.val.toNat = n at *
  split_ifs
  · omega
  all_goals
    simp only [List.forall_mem_cons, List.not_mem_nil, false_imp_iff, implies_true, and_true, UInt8.toNat_ofNat']
    omega

theorem Text.Utf8.encodeChar_of_lt {c : Char} (hc : c.toNat < 128) : encodeChar c = [UInt8.ofNat c.toNat] := by
  have hc : c.val.toNat ≤ 127 := Nat.le_of_lt_succ hc
  unfold encodeChar String.utf8EncodeChar
  dsimp only
  rw [if_pos hc]
  rfl

namespace Fcm

/-- A byte that the value of a header may hold: a tab, or whatever is no control code. -/
def IsHeaderByte (b : UInt8) : Prop := b.toNat = 9 ∨ 32 ≤ b.toNat ∧ b.toNat ≠ 127

/-- All bytes of the header that carries a token may stand there. -/
def FitsHeader (token : String) : Prop := ∀ b ∈ Text.Utf8.encode (Credentials.bearer token.toList).text, IsHeaderByte b

theorem isHeaderByte_encodeChar_iff {c : Char} :
    (∀ b ∈ Text.Utf8.encodeChar c, IsHeaderByte b) ↔ isHeaderChar c = true := by
  have hchar : isHeaderChar c = true ↔ c.toNat = 9 ∨ 32 ≤ c.toNat ∧ c.toNat ≠ 127 := by
    have htab : c = '\t' ↔ c.toNat = 9 := Char.toNat_inj.symm
    simp [isHeaderChar, htab]
  rw [hchar]
  rcases Nat.lt_or_ge c.toNat 128 with hc | hc
  · rw [Text.Utf8.encodeChar_of_lt hc, List.forall_mem_singleton, IsHeaderByte, UInt8.toNat_ofNat',
      Nat.mod_eq_of_lt (by omega)]
  · refine iff_of_true (fun b hb => .inr ?_) (.inr (by omega))
    have hhigh := Text.Utf8.le_of_mem_encodeChar hc b hb
    omega

theorem isHeaderByte_encode_iff {cs : List Char} :
    (∀ b ∈ Text.Utf8.encode cs, IsHeaderByte b) ↔ cs.all isHeaderChar = true := by
  rw [Text.Utf8.encode, List.forall_mem_flatMap, List.all_eq_true]
  exact forall₂_congr fun c _ => isHeaderByte_encodeChar_iff

theorem fitsHeader_iff_all {token : String} : FitsHeader token ↔ token.toList.all isHeaderChar = true := by
  have hscheme : "Bearer ".toList.all isHeaderChar = true := by decide +kernel
  have htext : (Credentials.bearer token.toList).text = "Bearer ".toList ++ token.toList := rfl
  rw [FitsHeader, htext, isHeaderByte_encode_iff, List.all_append, hscheme, Bool.true_and]

/-- A token fits a header exactly if tabs are its only control characters. -/
theorem fitsHeader_iff {token : String} :
    FitsHeader token ↔ ∀ c ∈ token.toList, c = '\t' ∨ 32 ≤ c.toNat ∧ c.toNat ≠ 127 := by
  simp [fitsHeader_iff_all, isHeaderChar]

instance (token : String) : Decidable (FitsHeader token) := decidable_of_iff _ fitsHeader_iff_all.symm

end Fcm

/-! ### The host of the URL -/

namespace Url

theorem lead_append {more : List Char} (hv : ∀ c ∈ more, 0x20 < c.toNat) (cs : List Char) :
    lead (cs ++ more) = lead cs ++ more := by
  rw [lead, dropWhile_append_of_visible hv, List.filter_append, filter_counts_of_visible hv, lead]

theorem exists_lead_eq (cs : List Char) : ∃ tail, lead cs = significant cs ++ tail := by
  obtain ⟨tail, hcut, -⟩ :=
    Text.exists_eq_dropEndWhile_append (·.toNat ≤ 0x20) (cs.dropWhile (·.toNat ≤ 0x20))
  refine ⟨tail.filter counts, ?_⟩
  rw [significant_eq, Text.dropAround, ← List.filter_append, ← hcut, lead]

/-- A URL of the web keeps its scheme, whatever visible text takes the place of the slashes at its end. -/
theorem scheme_of_readChars_append {cs more : List Char} {k : Nat} {u v : Url}
    (hu : readChars (cs ++ List.replicate k '/') = .ok u) (web : isSpecial u.scheme = true)
    (hv : readChars (cs ++ '/' :: more) = .ok v) (hmore : ∀ c ∈ '/' :: more, 0x20 < c.toNat) : v.scheme = u.scheme := by
  obtain ⟨rest, hs, -⟩ := exists_of_readChars hu web
  obtain ⟨tail, hlead⟩ := exists_lead_eq (cs ++ List.replicate k '/')
  have hslashes : ∀ c ∈ List.replicate k '/', 0x20 < c.toNat := fun c hc => by
    rw [List.eq_of_mem_replicate hc]
    decide
  -- the colon stands before the slashes
  have hwhole := scheme?_append hs tail
  rw [← hlead, lead_append hslashes] at hwhole
  obtain ⟨after, hscheme, -⟩ := exists_scheme?_of_append hwhole fun hc => by
    cases List.eq_of_mem_replicate hc
  have hread := scheme?_append hscheme ('/' :: more)
  rw [← significant_append (by simp) hmore] at hread
  rw [readChars, hread] at hv
  dsimp only at hv
  rw [if_pos web] at hv
  exact scheme_of_readAuthority hv

end Url

/-- Where the settings are fit for use, the URL for sends has a host, if it is one at all. -/
theorem Settings.hasHost_of_read {s : Settings} (valid : s.validate = .ok ()) {v : Url}
    (hv : Url.read (Program.client s).sendUrl = .ok v) : v.hasHost = true := by
  obtain ⟨-, hid⟩ := (Requirement.tests_projectId s).eq_ok_iff.1 (check_of_validate valid .projectId)
  obtain ⟨u, hu, hscheme⟩ := (Requirement.tests_endpoint s).eq_ok_iff.1 (check_of_validate valid .endpoint)
  have hu : Url.read s.endpoint = .ok u := hu
  have web := Url.isSpecial_of_http hscheme
  obtain ⟨k, hk⟩ := Fcm.exists_slashes s.endpoint
  have hvisible := Fcm.visible_projectPath (List.all_eq_true.2 fun c hc => isProjectIdChar_iff.2 (hid c hc))
  rw [Url.read, hk] at hu
  have hread := hv
  rw [Program.client, Url.read, Fcm.sendUrl_toList] at hread
  exact Url.hasHost_of_readChars hv (Url.scheme_of_readChars_append hu web hread hvisible ▸ web)

/-- Of a token the checks ask no more than that it refers to no variable and is not blank. -/
theorem Settings.validate_withToken_iff {s : Settings} (valid : s.validate = .ok ()) (token : String) :
    ({ s with service := { s.service with accessToken := some token } } : Settings).validate = .ok () ↔
      ¬ Refers token ∧ ∃ c ∈ token.toList, Text.isBlank c = false := by
  have htoken := (Requirement.tests_accessToken { s with service := { s.service with accessToken := some token } })
  rw [validate_eq_forM, forM_eq_ok_iff]
  constructor
  · intro hall
    obtain ⟨_, ⟨rfl⟩, hmet⟩ := htoken.eq_ok_iff.1 (hall .accessToken (Requirement.mem_all _))
    exact hmet
  · intro hmet r _
    cases r with
    | accessToken => exact htoken.eq_ok_iff.2 ⟨token, rfl, hmet⟩
    | projectId => exact check_of_validate valid .projectId
    | endpoint => exact check_of_validate valid .endpoint
    | timeout => exact check_of_validate valid .timeout
    | concurrency => exact check_of_validate valid .concurrency
    | attempts => exact check_of_validate valid .attempts
    | delays => exact check_of_validate valid .delays

/-! ### Posts with and without a token -/

namespace Fcm

/-- The post with one more header, which carries a token. -/
def Post.withToken (p : Post) (token : String) : Post :=
  { p with credentials := p.credentials ++ [.bearer token.toList] }

namespace Client

variable {c : Client} {token : String}

/-- A token that fits a header changes nothing but this header. -/
theorem post_of_fitsHeader (htoken : c.accessToken = some token) (fits : FitsHeader token) (request : Request) :
    c.post request = (({ c with accessToken := none } : Client).post request).map (·.withToken token) := by
  have hbad : ((c.accessToken.map String.toList).any fun cs => !cs.all isHeaderChar) = false := by
    rw [htoken, Option.map_some, Option.any_some, fitsHeader_iff_all.1 fits, Bool.not_true]
  unfold post
  cases Url.read c.sendUrl with
  | error problem => rfl
  | ok url =>
    simp only [hbad, Option.map_none, Option.any_none, Bool.false_eq_true, if_false]
    split_ifs
    · rfl
    · rfl
    · simp [Except.map, Post.withToken, htoken]

/-- With any other token no request can be made. -/
theorem post_of_not_fitsHeader (htoken : c.accessToken = some token) (unfit : ¬ FitsHeader token)
    (hasHost : ∀ v, Url.read c.sendUrl = .ok v → v.hasHost = true) (request : Request) :
    c.post request = .error .malformedRequest := by
  cases hv : Url.read c.sendUrl with
  | error problem => simp [post, hv]
  | ok v =>
    rw [post_eq_ite hv (hasHost v hv), htoken, Option.all_some, if_pos (mt fitsHeader_iff_all.2 unfit)]

end Client

end Fcm

/-! ### Dispatches that make no posts -/

namespace Dispatcher

/-- Where each answer is one and the same that ends a delivery, each delivery ends with its first send. -/
theorem reports_of_same_answer {p : RetryPolicy} {devices : List Device} {answers : Nat → List Answer}
    {reports : List Report} (h : Complete p devices answers reports) {last : Answer}
    (hall : ∀ i, ∀ answer ∈ answers i, answer = last) (hends : last.mayRetry = false) {outcome : Outcome}
    (ho : last.outcome? = some outcome) : reports = devices.map fun device => ⟨device, outcome, 1⟩ := by
  have hleast : IsLeast {k | p.EndsAt (fun _ => last) k} 1 := ⟨⟨le_rfl, .inr hends⟩, fun _ hk => hk.1⟩
  have hdeliver : deliver p (fun _ => last) = some (outcome, 1) := by rw [deliver_eq hleast, ho, Option.map_some]
  refine List.ext_getElem? fun i => ?_
  rw [List.getElem?_map]
  cases hd : devices[i]? with
  | none => simpa [h.1] using hd
  | some device =>
    obtain ⟨r, hr, htells⟩ := h.2 i device hd
    have hbegins : Begins (fun _ => last) (answers i) := fun k answer hk => (hall i answer (List.mem_of_getElem? hk)).symm
    rw [hr, htells.result _ hbegins, hdeliver]
    rfl

/-- Where no request can be made, the network is left alone and each delivery fails at its first send. -/
theorem dispatch_of_post_error {σ : Type} (d : Dispatcher) (hp : d.permits ≤ maxPermits) {c : Fcm.Client}
    {problem : HttpProblem} (hpost : ∀ request, c.post request = .error problem) (hends : problem.retryable = false)
    (network : Fcm.Network σ) (state : σ) (clock : Nat) (devices : List Device) (message : Message) :
    ∃ x, d.dispatch (c.transport network) state clock devices message = some x ∧ x.service = state ∧
      x.summary.reports =
        devices.map fun device => ⟨device, .failed (PushError.http problem).message false, 1⟩ := by
  obtain ⟨x, hx, hcomplete, -, hstate⟩ := d.exists_complete hp (c.transport network) state clock devices message
  have hnone : ∀ request, ∃ problem, c.post request = .error problem := fun request => ⟨problem, hpost request⟩
  have hanswers : ∀ i, ∀ answer ∈ answersAt i ((c.transport network).performed state x.trace),
      answer = .refused (.http problem) := by
    intro i answer hm
    obtain ⟨request, other, hother, rfl⟩ := Fcm.Client.exists_error_of_mem_answersAt network hnone hm
    rw [hpost] at hother
    cases hother
    rfl
  refine ⟨x, hx, ?_, reports_of_same_answer hcomplete hanswers hends ?_⟩
  · rw [hstate, Fcm.Client.transport_after_of_error network hnone]
  · simp [Answer.outcome?, PushError.retryable, hends]

end Dispatcher

namespace Program

open Fcm (FitsHeader)

/-- Settings that are fit for use have a token. Its header can be made exactly if tabs are the only control characters
of the token. Then a request is posted wherever it would be posted without a token, and the header comes with it. With
any other token no request can be made: whatever the devices and the network, nothing is posted and each push fails at
once. The checks tell no such token from any other one. -/
theorem credentials_exact (s : Settings) (valid : s.validate = .ok ()) :
    ∃ token, s.service.accessToken = some token ∧
      (FitsHeader token ↔ ∀ c ∈ token.toList, c = '\t' ∨ 32 ≤ c.toNat ∧ c.toNat ≠ 127) ∧
      (FitsHeader token → ∀ request, (client s).post request =
        (({ client s with accessToken := none } : Fcm.Client).post request).map (·.withToken token)) ∧
      (¬ FitsHeader token → (∀ request, (client s).post request = .error .malformedRequest) ∧
        ∀ (σ : Type) (network : Fcm.Network σ) (state : σ) (clock : Nat) (devices : List Device) (message : Message),
          ∃ x, (dispatcher s).dispatch ((client s).transport network.recording) (state, []) clock devices message =
              some x ∧ x.service = (state, []) ∧
            x.summary.reports =
              devices.map fun device => ⟨device, .failed "FCM request failed: builder error" false, 1⟩) ∧
      ∀ other, ({ s with service := { s.service with accessToken := some other } } : Settings).validate = .ok () ↔
        ¬ Settings.Refers other ∧ ∃ c ∈ other.toList, Text.isBlank c = false := by
  obtain ⟨token, htoken, -⟩ :=
    (Settings.Requirement.tests_accessToken s).eq_ok_iff.1 (Settings.check_of_validate valid .accessToken)
  have htext : (PushError.http .malformedRequest).message = "FCM request failed: builder error" := by decide +kernel
  refine ⟨token, htoken, Fcm.fitsHeader_iff, fun fits request => Fcm.Client.post_of_fitsHeader htoken fits request,
    fun unfit => ?_, Settings.validate_withToken_iff valid⟩
  have hpost := Fcm.Client.post_of_not_fitsHeader (c := client s) htoken unfit fun v => Settings.hasHost_of_read valid
  refine ⟨hpost, fun σ network state clock devices message => ?_⟩
  have h := (dispatcher s).dispatch_of_post_error (permits_dispatcher_le valid) hpost rfl network.recording (state, [])
    clock devices message
  rwa [htext] at h

/-- Settings with a given token and nothing else that can be left out. -/
def settingsWithToken (token : String) : Settings := ⟨⟨"p", some "http://h", some token, none⟩, none, none⟩

/-- A tab inside a token does no harm. With a line end in it each push fails. -/
theorem credentials_exact_tab_and_line_end :
    let device : Device := ⟨"d", .web⟩
    let message : Message := .ofText "t" "b"
    let request : Fcm.Request := .build .standard device message
    let network := Fcm.Network.ofScript (fun _ _ => .refused) 1
    (settingsWithToken "a\tb").validate = .ok () ∧ (settingsWithToken "a\nb").validate = .ok () ∧
      FitsHeader "a\tb" ∧ ¬ FitsHeader "a\nb" ∧
      ((client (settingsWithToken "a\tb")).post request).map Fcm.Post.credentials = .ok [.bearer "a\tb".toList] ∧
      ∃ x, (dispatcher (settingsWithToken "a\nb")).dispatch
          ((client (settingsWithToken "a\nb")).transport network.recording) ([], []) 0 [device] message = some x ∧
        x.service.2 = [] ∧
        x.summary.reports = [⟨device, .failed "FCM request failed: builder error" false, 1⟩] := by
  intro device message request network
  have hvalid : (settingsWithToken "a\tb").validate = .ok () := by decide +kernel
  have hvalid' : (settingsWithToken "a\nb").validate = .ok () := by decide +kernel
  have hfits : FitsHeader "a\tb" := by decide +kernel
  have hunfit : ¬ FitsHeader "a\nb" := by decide +kernel
  obtain ⟨_, ⟨rfl⟩, -, hposts, -⟩ := credentials_exact _ hvalid
  obtain ⟨_, ⟨rfl⟩, -, -, hfails, -⟩ := credentials_exact _ hvalid'
  obtain ⟨x, hx, hservice, hreports⟩ := (hfails hunfit).2 _ network [] 0 [device] message
  refine ⟨hvalid, hvalid', hfits, hunfit, ?_, x, hx, by rw [hservice], hreports⟩
  rw [hposts hfits request]
  decide +kernel

/-- A document can write a line end into the token. The settings are fit for use, and the token alone makes the request
impossible. -/
theorem token_with_line_end :
    let text := "[fcm]\nproject_id = \"p\"\nendpoint = \"http://h\"\naccess_token = \"a\\nb\"\n"
    let s := settingsWithToken "a\nb"
    let request : Fcm.Request := .build .standard ⟨"d", .web⟩ (.ofText "t" "b")
    Settings.read (.ofList []) text = .ok s ∧ s.validate = .ok () ∧ ¬ FitsHeader "a\nb" ∧
      (client s).post request = .error .malformedRequest ∧ HttpProblem.malformedRequest.message = "builder error" ∧
      (({ client s with accessToken := none } : Fcm.Client).post request).isOk = true := by
  refine ⟨?_, ?_, ?_, ?_, ?_, ?_⟩
  all_goals decide +kernel

end Program

end PushDispatch
