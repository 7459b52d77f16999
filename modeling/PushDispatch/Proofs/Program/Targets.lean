import PushDispatch.Proofs.Fcm.Refusals
import PushDispatch.Proofs.Program.Run

/-! The devices that a run sends to. A token on the command line has a character that is not blank, or no send is made.
The tokens in a devices file are not looked at: they are taken as they stand, and each of them gets its push. So pushes
go to blank tokens, but only to those that a devices file lists. -/

namespace PushDispatch

/-! ### What the checks of a command line ask for -/

/-- A text has a character that is not blank. -/
def Text.NotBlank (text : String) : Prop := ∃ c ∈ text.toList, isBlank c = false

theorem Text.notBlank_iff {text : String} : NotBlank text ↔ isAllBlank text = false := by
  simp [NotBlank, isAllBlank]

instance (text : String) : Decidable (Text.NotBlank text) := decidable_of_iff _ Text.notBlank_iff.symm

theorem Check.nonBlank_eq_ok_iff {field value : String} : nonBlank field value = .ok () ↔ Text.NotBlank value := by
  rw [Text.notBlank_iff, nonBlank]
  cases Text.isAllBlank value <;> simp

theorem bind_eq_ok_iff {ε β : Type} {x : Except ε Unit} {f : Unit → Except ε β} {b : β} :
    (x >>= f) = .ok b ↔ x = .ok () ∧ f () = .ok b := by
  refine ⟨fun h => ?_, fun ⟨hx, hf⟩ => by rw [hx]; exact hf⟩
  obtain ⟨_, hx, hf⟩ := exists_of_bind_eq_ok h
  exact ⟨hx, hf⟩

namespace CommandLine

variable {c : CommandLine} {readText : String → Except FileProblem String}

/-- A command line is fit for use if it says something to somebody, and none of its own tokens is blank. -/
theorem validate_eq_ok_iff : c.validate = .ok () ↔
    Text.NotBlank c.title ∧ Text.NotBlank c.body ∧ (c.tokens ≠ [] ∨ c.devices ≠ none) ∧
      ∀ token ∈ c.tokens, Text.NotBlank token := by
  unfold validate
  rw [bind_eq_ok_iff, bind_eq_ok_iff, Check.nonBlank_eq_ok_iff, Check.nonBlank_eq_ok_iff]
  refine and_congr_right fun _ => and_congr_right fun _ => ?_
  simp only [Text.notBlank_iff]
  split
  · next hnobody =>
    obtain ⟨htokens, hdevices⟩ : c.tokens = [] ∧ c.devices = none := by simpa using hnobody
    exact iff_of_false (fun h => by cases h) fun ⟨hsomebody, _⟩ => hsomebody.elim (· htokens) (· hdevices)
  · next hsomebody =>
    have hsomebody : c.tokens ≠ [] ∨ c.devices ≠ none := by
      rw [← not_and_or]
      simpa using hsomebody
    rw [and_iff_right hsomebody]
    cases hfind : c.tokens.find? Text.isAllBlank with
    | none => exact iff_of_true rfl (by simpa using hfind)
    | some token =>
      refine iff_of_false (fun h => by cases h) fun hall => ?_
      have hblank := List.find?_some hfind
      rw [hall token (List.mem_of_find?_eq_some hfind)] at hblank
      cases hblank

/-- The devices of a command line are those that its file lists, as they stand there, and then those of its own
tokens. -/
theorem targets_eq_ok_iff {targets : List Device} : c.targets readText = .ok targets ↔
    ∃ devices, c.Names readText devices ∧ targets = devices ++ c.tokens.map fun token => ⟨token, c.platform⟩ := by
  constructor
  · intro h
    unfold CommandLine.targets at h
    split at h
    · next hnone =>
      cases h
      exact ⟨[], .noFile hnone, rfl⟩
    · next path hsome =>
      split at h
      · cases h
      · next text hread =>
        cases hdevices : readDevices text with
        | error problem =>
          rw [hdevices] at h
          cases h
        | ok devices =>
          rw [hdevices] at h
          cases h
          exact ⟨devices, .file hsome hread (readDevices_eq_ok_iff.1 hdevices), rfl⟩
  · rintro ⟨devices, hnames, rfl⟩
    exact hnames.targets

end CommandLine

/-! ### Every device is sent to -/

/-- A delivery that has been reported on has had an answer. -/
theorem Tells.ne_nil {p : RetryPolicy} {device : Device} {first : List Answer} {r : Report} (h : Tells p device first r) :
    first ≠ [] := by
  rintro rfl
  obtain ⟨answers, ha⟩ := exists_begins []
  have := (h.isLeast_length ha (by simp)).1.1
  simp at this

/-- Where all devices have been reported on, something has been sent to each. -/
theorem Complete.exists_send {p : RetryPolicy} {devices : List Device} {message : Message} {sends : List Performed}
    {reports : List Report} (h : Complete p devices (fun i => answersAt i sends) reports)
    (hs : Dispatcher.SendsTo devices message sends) {device : Device} (hd : device ∈ devices) :
    ∃ x ∈ sends, x.request = .build .standard device message := by
  obtain ⟨i, hi⟩ := List.mem_iff_getElem?.1 hd
  obtain ⟨r, -, htells⟩ := h.2 i device hi
  obtain ⟨answer, hanswer⟩ := List.exists_mem_of_ne_nil _ htells.ne_nil
  obtain ⟨x, hx, -⟩ := List.mem_map.1 hanswer
  obtain ⟨hx, hindex⟩ := List.mem_filter.1 hx
  obtain ⟨other, ho, hr⟩ := hs x hx
  rw [of_decide_eq_true hindex, hi] at ho
  cases ho
  exact ⟨x, hx, hr⟩

namespace Program

variable {σ : Type} {around : Surroundings} {c : CommandLine} {settings : Settings}

theorem Ready.run_eq (h : Ready around c settings) {arguments : List String} (hread : CommandLine.read arguments = .ok c)
    (network : Fcm.Network σ) (state : σ) : run network state around arguments = runWith network state around c settings := by
  simp only [run, hread, runCommand, h.load]

/-- The posts of a run are those of its devices: each of them gets one, unless no post can be made at all. -/
theorem posts_of_run (h : Ready around c settings) {arguments : List String} (hread : CommandLine.read arguments = .ok c)
    {targets : List Device} (ht : c.targets around.readText = .ok targets) (network : Fcm.Network σ) (state : σ) :
    let posts := (run network.recording (state, []) around arguments).network.2
    (∀ post ∈ posts, ∃ device ∈ targets, post.request = .build .standard device c.message) ∧
      ((∃ request post, (client settings).post request = .ok post) →
        ∀ device ∈ targets, ∃ post ∈ posts, post.request = .build .standard device c.message) := by
  intro posts
  have hprepare : prepare around c settings = .ok targets := by rw [h.prepare_eq, ht]
  obtain ⟨x, hx, hcomplete, hsends, hstate⟩ := (dispatcher settings).exists_complete (permits_dispatcher_le h.settings)
    ((client settings).transport network.recording) (state, []) 0 targets c.message
  have hposts : posts = x.service.2 := by
    change (run network.recording (state, []) around arguments).network.2 = _
    rw [h.run_eq hread, (concludes_of_prepare hprepare hx).network]
  rw [hposts, hstate]
  rcases (client settings).post_cases with ⟨url, hpost⟩ | hnone
  · obtain ⟨sent, hsent, -⟩ := hpost (.build .standard ⟨"", .web⟩ c.message)
    rw [Fcm.Client.transport_after hsent, List.nil_append, List.map_map]
    refine ⟨fun post hm => ?_, fun _ device hd => ?_⟩
    · obtain ⟨y, hy, rfl⟩ := List.mem_map.1 hm
      obtain ⟨device, hd, hr⟩ := hsends y hy
      exact ⟨device, List.mem_of_getElem? hd, hr⟩
    · obtain ⟨y, hy, hr⟩ := hcomplete.exists_send hsends hd
      exact ⟨_, List.mem_map_of_mem hy, hr⟩
  · rw [Fcm.Client.transport_after_of_error _ hnone]
    refine ⟨by simp, fun ⟨request, post, hsent⟩ => ?_⟩
    obtain ⟨problem, hp⟩ := hnone request
    rw [hsent] at hp
    cases hp

/-- Of the devices that a run sends to, those of the command line's own tokens have tokens that are not blank. The others
are those that the devices file lists, with tokens that are not looked at: one of them may be blank, and is sent to
nevertheless, with whatever network. -/
theorem blank_tokens_listed {readText : String → Except FileProblem String} {targets : List Device}
    (valid : c.validate = .ok ()) (ht : c.targets readText = .ok targets) :
    ∃ devices, c.Names readText devices ∧ targets = devices ++ c.tokens.map (fun token => ⟨token, c.platform⟩) ∧
      (∀ token ∈ c.tokens, Text.NotBlank token) ∧
      ((∀ device ∈ targets, Text.NotBlank device.token) ↔ ∀ device ∈ devices, Text.NotBlank device.token) ∧
      ∀ (σ : Type) (network : Fcm.Network σ) (state : σ) (around : Surroundings) (arguments : List String)
        (settings : Settings), around.readText = readText → CommandLine.read arguments = .ok c →
        Ready around c settings →
          let posts := (run network.recording (state, []) around arguments).network.2
          (∀ post ∈ posts, Text.NotBlank post.request.token ∨ ∃ device ∈ devices, device.token = post.request.token) ∧
            ((∃ request post, (client settings).post request = .ok post) →
              ∀ device ∈ devices, ∃ post ∈ posts, post.request.token = device.token) := by
  obtain ⟨devices, hnames, rfl⟩ := CommandLine.targets_eq_ok_iff.1 ht
  have htokens : ∀ token ∈ c.tokens, Text.NotBlank token := (CommandLine.validate_eq_ok_iff.1 valid).2.2.2
  refine ⟨devices, hnames, rfl, htokens, ?_, fun σ network state around arguments settings hr hread ready => ?_⟩
  · rw [List.forall_mem_append, List.forall_mem_map]
    exact and_iff_left htokens
  · subst hr
    obtain ⟨hposts, hall⟩ := posts_of_run ready hread ht network state
    refine ⟨fun post hm => ?_, fun hsome device hd => ?_⟩
    · obtain ⟨device, hd, hr⟩ := hposts post hm
      rw [hr, Fcm.Request.token_build]
      rcases List.mem_append.1 hd with hd | hd
      · exact .inr ⟨device, hd, rfl⟩
      · obtain ⟨token, htoken, rfl⟩ := List.mem_map.1 hd
        exact .inl (htokens token htoken)
    · obtain ⟨post, hm, hr⟩ := hall hsome device (List.mem_append_left _ hd)
      exact ⟨post, hm, by rw [hr, Fcm.Request.token_build]⟩

/-- Settings and a devices file that lists one device, whose token is a blank. -/
def blankListed : Surroundings where
  environment := .ofList []
  readText path :=
    if path = "s.toml" then .ok "[fcm]\nproject_id = \"p\"\nendpoint = \"http://h\"\naccess_token = \"x\"\n"
    else if path = "d.json" then .ok "[\x7b\"token\":\" \",\"platform\":\"web\"\x7d]"
    else .error .notFound

/-- The connection is refused, so each of the two devices is sent to three times. -/
theorem blank_tokens_listed_with_another :
    let c : CommandLine := ⟨"s.toml", ["b"], .ios, some "d.json", "t", "u", [], none, false, false⟩
    let arguments := ["-c", "s.toml", "--devices", "d.json", "--token", "b", "--platform", "ios", "--title", "t",
      "--body", "u"]
    let settings : Settings := ⟨⟨"p", some "http://h", some "x", none⟩, none, none⟩
    let network := Fcm.Network.ofScript (fun _ _ => .refused) 1
    let posts := (run network.recording ([], []) blankListed arguments).network.2
    c.validate = .ok () ∧ c.targets blankListed.readText = .ok [⟨" ", .web⟩, ⟨"b", .ios⟩] ∧
      CommandLine.read arguments = .ok c ∧ Ready blankListed c settings ∧
      (∃ request post, (client settings).post request = .ok post) ∧
      Text.NotBlank "b" ∧ (∃ post ∈ posts, post.request.token = " ") := by
  intro c arguments settings network posts
  have valid : c.validate = .ok () := by decide +kernel
  have ht : c.targets blankListed.readText = .ok [⟨" ", .web⟩, ⟨"b", .ios⟩] := by decide +kernel
  have hread : CommandLine.read arguments = .ok c := by decide +kernel
  have hready : Ready blankListed c settings := ⟨by decide +kernel, by decide +kernel, valid⟩
  have hpost : ((client settings).post (.build .standard ⟨" ", .web⟩ c.message)).isOk = true := by decide +kernel
  have hsome : ∃ request post, (client settings).post request = .ok post := by
    cases h : (client settings).post (.build .standard ⟨" ", .web⟩ c.message) with
    | ok post => exact ⟨_, post, h⟩
    | error problem => simp [h, Except.isOk, Except.toBool] at hpost
  obtain ⟨devices, -, htargets, htokens, -, hruns⟩ := blank_tokens_listed valid ht
  have htargets : devices ++ [⟨"b", .ios⟩] = [⟨" ", .web⟩] ++ [⟨"b", .ios⟩] := htargets.symm
  obtain rfl : devices = [⟨" ", .web⟩] := List.append_cancel_right htargets
  exact ⟨valid, ht, hread, hready, hsome, htokens "b" (by decide),
    (hruns _ network [] blankListed arguments settings rfl hread hready).2 hsome ⟨" ", .web⟩ (by decide)⟩

/-- The checks pass, and a push goes to a blank token. -/
theorem blank_token_sent_to :
    let c : CommandLine := ⟨"s.toml", [], .android, some "d.json", "t", "u", [], none, false, false⟩
    let arguments := ["-c", "s.toml", "--devices", "d.json", "--title", "t", "--body", "u"]
    let network := Fcm.Network.ofScript (fun _ _ => .refused) 1
    CommandLine.read arguments = .ok c ∧ c.validate = .ok () ∧
      c.targets blankListed.readText = .ok [⟨" ", .web⟩] ∧ ¬ Text.NotBlank " " ∧
      (run network.recording ([], []) blankListed arguments).network.2.map (·.request.token) = [" ", " ", " "] := by
  refine ⟨?_, ?_, ?_, ?_, ?_⟩
  all_goals decide +kernel

end Program

end PushDispatch
