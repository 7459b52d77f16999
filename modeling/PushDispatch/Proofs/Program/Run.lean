import PushDispatch.Program
import PushDispatch.Proofs.Dispatch.Counts
import PushDispatch.Proofs.Dispatch.Reports
import PushDispatch.Proofs.Fcm.Posts
import PushDispatch.Proofs.Json.Records
import PushDispatch.Proofs.Settings.Requirements

/-! Whole runs of the program. Its stages come in a fixed order, and none makes a post before settings, command line
and devices have been found fit for use. What a run prints, and its exit code, are drawn from the reports of the one
dispatch that it makes. -/

namespace PushDispatch

/-! ### The devices of a command line -/

namespace CommandLine

/-- The text of a devices file lists devices, in their order. -/
def Lists (text : String) (devices : List Device) : Prop :=
  ∃ items, Json.read? text = some (.array items) ∧
    List.Forall₂ (fun item device => Device.ofJson? item = some device) items devices

/-- The devices in the devices file of a command line, if there is such a file. -/
inductive Names (readText : String → Except FileProblem String) (c : CommandLine) : List Device → Prop
  | noFile (absent : c.devices = none) : Names readText c []
  | file {path text devices} (given : c.devices = some path) (read : readText path = .ok text)
    (lists : Lists text devices) : Names readText c devices

theorem readDevices_eq_ok_iff {text : String} {devices : List Device} :
    readDevices text = .ok devices ↔ Lists text devices := by
  have hread : (Json.read? text).bind Device.listOfJson? = some devices ↔ Lists text devices := by
    rw [Option.bind_eq_some_iff]
    simp only [Device.listOfJson?, Json.list?_eq_some_iff fun _ _ => Iff.rfl]
    exact ⟨fun ⟨_, hr, items, he, hi⟩ => ⟨items, he ▸ hr, hi⟩, fun ⟨items, hr, hi⟩ => ⟨_, hr, items, rfl, hi⟩⟩
  rw [← hread, readDevices]
  cases (Json.read? text).bind Device.listOfJson? <;> simp

/-- A text that lists no devices is no JSON of the kind that is asked for. -/
theorem readDevices_of_not_lists {text : String} (h : ∀ devices, ¬ Lists text devices) :
    readDevices text = .error (.serialization none) := by
  unfold readDevices
  cases hr : (Json.read? text).bind Device.listOfJson? with
  | none => rfl
  | some devices => exact absurd (readDevices_eq_ok_iff.1 (by rw [readDevices, hr])) (h devices)

theorem Names.targets {readText : String → Except FileProblem String} {c : CommandLine} {devices : List Device}
    (h : c.Names readText devices) : c.targets readText = .ok (devices ++ c.tokens.map fun token => ⟨token, c.platform⟩) := by
  unfold CommandLine.targets
  cases h with
  | noFile hn => rw [hn]; rfl
  | file hs hr hl =>
    simp only [hs, hr, readDevices_eq_ok_iff.2 hl]
    rfl

end CommandLine

/-! ### Output and exit code -/

/-- A line on standard output. -/
def Output.line? : Output → Option String
  | .line text => some text
  | _ => none

/-- The run has made no post and ends with the given exit code. -/
structure Ended.Quits {σ : Type} (ended : Ended (σ × List Fcm.Post)) (state : σ) (code : Nat) : Prop where
  network : ended.network = (state, [])
  code : ended.exitCode = code

/-- The run has made a dispatch and tells what became of it. -/
structure Ended.Concludes {σ : Type} (ended : Ended σ) (x : Dispatched σ) : Prop where
  network : ended.network = x.service
  lines : ended.outputs.filterMap Output.line? =
    ("✅ Delivered " ++ Text.Decimal.text (x.summary.reports.countP Report.isDelivered) ++ "/" ++
      Text.Decimal.text x.summary.reports.length ++ " notification(s)") ::
    (x.summary.reports.filter fun r => r.outcome = .unregistered).map fun r => "🗑️ Unregistered token: " ++ r.device.token
  code : (ended.exitCode = 0 ∨ ended.exitCode = 2) ∧ (ended.exitCode = 0 ↔ ∀ r ∈ x.summary.reports,
    (∃ messageId, r.outcome = .delivered messageId) ∨ r.outcome = .unregistered)
  counts : x.summary.staleTokens.length ≤ x.summary.failed

namespace Program

theorem filterMap_line?_logs (logger : Log.Logger) (events : List Log.Event) :
    (logs logger events).filterMap Output.line? = [] := by
  simp [logs, List.filterMap_eq_nil_iff, Output.line?]

theorem filterMap_line?_conclusion (s : Summary) : (conclusion s).filterMap Output.line? =
    ("✅ Delivered " ++ Text.Decimal.text (s.reports.countP Report.isDelivered) ++ "/" ++
      Text.Decimal.text s.reports.length ++ " notification(s)") ::
    (s.reports.filter fun r => r.outcome = .unregistered).map fun r => "🗑️ Unregistered token: " ++ r.device.token := by
  have hhard : ∀ o : List Output, o = [] ∨ (∃ text, o = [.errorLine text]) → o.filterMap Output.line? = [] := by
    rintro _ (rfl | ⟨text, rfl⟩) <;> rfl
  have hstale : ∀ tokens : List String, (tokens.map fun token => Output.line ("🗑️ Unregistered token: " ++ token)).filterMap
      Output.line? = tokens.map ("🗑️ Unregistered token: " ++ ·) := by
    simp [List.filterMap_map, Function.comp_def, Output.line?]
  rw [conclusion, List.filterMap_append, List.filterMap_cons, hstale, hhard, List.append_nil, Summary.staleTokens,
    List.map_map]
  · rfl
  · split
    · exact .inr ⟨_, rfl⟩
    · exact .inl rfl

/-- Settings that can be read and are fit for use, with a command line that is fit for use. -/
structure Ready (around : Surroundings) (c : CommandLine) (settings : Settings) : Prop where
  load : Settings.load around.readText around.environment c.config = .ok settings
  settings : settings.validate = .ok ()
  command : c.validate = .ok ()

/-- What a run comes to, stage by stage. -/
structure Settles {σ : Type} (network : Fcm.Network σ) (state : σ) (around : Surroundings) (c : CommandLine)
    (ended : Ended (σ × List Fcm.Post)) : Prop where
  noSettings : ∀ e, Settings.load around.readText around.environment c.config = .error e → ended.Quits state 3
  unfitSettings : ∀ settings e, Settings.load around.readText around.environment c.config = .ok settings →
    settings.validate = .error e → ended.Quits state 3
  unfitCommand : ∀ settings e, Settings.load around.readText around.environment c.config = .ok settings →
    settings.validate = .ok () → c.validate = .error e → ended.Quits state 3
  noFile : ∀ settings path problem, Ready around c settings → c.devices = some path →
    around.readText path = .error problem → ended.Quits state 3
  unfitFile : ∀ settings path text, Ready around c settings → c.devices = some path →
    around.readText path = .ok text → (∀ devices, ¬ CommandLine.Lists text devices) → ended.Quits state 1
  dispatch : ∀ settings devices, Ready around c settings → c.Names around.readText devices →
    ∃ x, (dispatcher settings).dispatch ((client settings).transport network.recording) (state, []) 0
        (devices ++ c.tokens.map fun token => ⟨token, c.platform⟩) c.message = some x ∧
      x.summary.reports.map Report.device = devices ++ c.tokens.map (fun token => ⟨token, c.platform⟩) ∧
      ended.Concludes x

theorem failureCode_of_critical {e : PushError} (h : e.severity = .critical) : failureCode e = 3 := by
  rw [failureCode, h]
  rfl

theorem severity_of_load {readText : String → Except FileProblem String} {environment : Environment} {path : String}
    {e : PushError} (h : Settings.load readText environment path = .error e) : e.severity = .critical := by
  unfold Settings.load at h
  split at h
  · unfold Settings.read at h
    split at h <;> cases h
    rfl
  · cases h
    rfl

section

variable {σ : Type} {network : Fcm.Network σ} {state : σ} {around : Surroundings} {c : CommandLine}
  {settings : Settings}

theorem prepare_of_unfitSettings {e : PushError} (h : settings.validate = .error e) :
    prepare around c settings = .error ([.invalidConfiguration e], e) := by
  unfold prepare
  rw [h]
  rfl

theorem prepare_of_unfitCommand {e : PushError} (hs : settings.validate = .ok ()) (hc : c.validate = .error e) :
    prepare around c settings = .error ([.invalidConfiguration e], e) := by
  unfold prepare
  rw [hs, hc]
  rfl

theorem Ready.prepare_eq (h : Ready around c settings) : prepare around c settings =
    match c.targets around.readText with
    | .error e => .error ([], e)
    | .ok devices => .ok devices := by
  unfold prepare
  rw [h.settings, h.command]
  rfl

/-- A stage that fails ends the run before the first post. -/
theorem quits_of_prepare {events : List Log.Event} {e : PushError}
    (h : prepare around c settings = .error (events, e)) :
    (runWith network.recording (state, []) around c settings).Quits state (failureCode e) := by
  unfold runWith
  rw [h]
  exact ⟨rfl, rfl⟩

/-- Settings that are fit for use never ask for more permits than there can be. -/
theorem permits_dispatcher_le (h : settings.validate = .ok ()) : (dispatcher settings).permits ≤ maxPermits := by
  have hc : settings.concurrency ≤ 500 := Settings.concurrency_le_of_validate h
  have hmax : 500 ≤ maxPermits := by decide
  exact (max_le hc (by decide)).trans hmax

theorem concludes_of_prepare {devices : List Device} (h : prepare around c settings = .ok devices)
    {σ : Type} {network : Fcm.Network σ} {state : σ} {x : Dispatched σ}
    (hx : (dispatcher settings).dispatch ((client settings).transport network) state 0 devices c.message = some x) :
    (runWith network state around c settings).Concludes x := by
  unfold runWith
  rw [h]
  simp only [hx]
  refine ⟨rfl, ?_, ?_, x.summary.length_staleTokens_le_failed⟩
  · rw [List.filterMap_append, List.filterMap_append, filterMap_line?_logs, filterMap_line?_logs,
      filterMap_line?_conclusion]
    rfl
  · rw [← Summary.hardFailures_eq_zero_iff]
    unfold dispatchCode
    split
    · next hpos => exact ⟨.inr rfl, iff_of_false (show exitCodeOf .medium ≠ 0 by decide) hpos.ne'⟩
    · next hz => exact ⟨.inl rfl, iff_of_true rfl (by omega)⟩

/-- Whatever files, environment and network a run meets: a stage that fails ends it before the first post, with exit code
1 for a devices file without a list of devices and with 3 in every other case. Otherwise it dispatches to the devices of
the file and then to those whose tokens are given, prints how many pushes went through and each stale token in the order
of the reports, and ends with 0 exactly if every device got the push or is no longer known, and else with 2. -/
theorem run_settles (network : Fcm.Network σ) (state : σ) (around : Surroundings) {arguments : List String}
    {c : CommandLine} (hread : CommandLine.read arguments = .ok c) :
    Settles network state around c (run network.recording (state, []) around arguments) := by
  have hrun : run network.recording (state, []) around arguments =
      runCommand network.recording (state, []) around c := by
    simp only [run, hread]
  have hwith : ∀ {settings}, Settings.load around.readText around.environment c.config = .ok settings →
      runCommand network.recording (state, []) around c = runWith network.recording (state, []) around c settings := by
    intro settings hl
    simp only [runCommand, hl]
  rw [hrun]
  constructor
  · intro e he
    simp only [runCommand, he]
    exact ⟨rfl, failureCode_of_critical (severity_of_load he)⟩
  · intro settings e hl he
    rw [hwith hl, ← failureCode_of_critical (settings.errsAbout_validate.severity he)]
    exact quits_of_prepare (prepare_of_unfitSettings he)
  · intro settings e hl hs he
    rw [hwith hl, ← failureCode_of_critical (c.errsAbout_validate.severity he)]
    exact quits_of_prepare (prepare_of_unfitCommand hs he)
  · intro settings path problem h hd hr
    have hprepare : prepare around c settings = .error ([], .file problem) := by
      simp only [h.prepare_eq, CommandLine.targets, hd, hr]
    rw [hwith h.load]
    exact quits_of_prepare hprepare
  · intro settings path text h hd hr hl
    have hprepare : prepare around c settings = .error ([], .serialization none) := by
      simp only [h.prepare_eq, CommandLine.targets, hd, hr, CommandLine.readDevices_of_not_lists hl]
      rfl
    rw [hwith h.load]
    exact quits_of_prepare hprepare
  · intro settings devices h hn
    have hprepare : prepare around c settings = .ok (devices ++ c.tokens.map fun token => ⟨token, c.platform⟩) := by
      rw [h.prepare_eq, hn.targets]
    obtain ⟨x, hx, hcomplete, -⟩ := (dispatcher settings).exists_complete (permits_dispatcher_le h.settings)
      ((client settings).transport network.recording) (state, []) 0
      (devices ++ c.tokens.map fun token => ⟨token, c.platform⟩) c.message
    refine ⟨x, hx, hcomplete.map_device, ?_⟩
    rw [hwith h.load]
    exact concludes_of_prepare hprepare hx

end

/-- The device of the file is no longer known, and the connection for the other one ends without a reply. -/
theorem run_settles_one_stale :
    let c : CommandLine := ⟨"s.toml", ["b"], .ios, some "d.json", "t", "u", [], none, false, false⟩
    let settings : Settings := ⟨⟨"p", some "http://h", some "x", none⟩, none, none⟩
    let around : Surroundings := ⟨.ofList [], fun path =>
      if path = "s.toml" then .ok "[fcm]\nproject_id = \"p\"\nendpoint = \"http://h\"\naccess_token = \"x\"\n"
      else if path = "d.json" then .ok "[\x7b\"token\":\"a\",\"platform\":\"web\"\x7d]"
      else .error .notFound⟩
    let gone := "\x7b\"error\":\x7b\"details\":[\x7b\"errorCode\":\"UNREGISTERED\"\x7d]\x7d\x7d"
    let network := Fcm.Network.ofScript (fun token _ =>
      if token = "a" then .replied ⟨404, [], Text.Utf8.encode gone.toList, true⟩ else .closed) 1
    let ended := run network.recording ([], []) around
      ["-c", "s.toml", "--devices", "d.json", "--token", "b", "--platform", "ios", "--title", "t", "--body", "u"]
    Ready around c settings ∧ c.Names around.readText [⟨"a", .web⟩] ∧
      (∃ x, ended.Concludes x ∧ x.summary.reports.map Report.device = [⟨"a", .web⟩, ⟨"b", .ios⟩]) ∧
      ended.exitCode = 2 ∧
      ended.outputs.filterMap Output.line? = ["✅ Delivered 0/2 notification(s)", "🗑️ Unregistered token: a"] := by
  intro c settings around gone network ended
  have hread : CommandLine.read
      ["-c", "s.toml", "--devices", "d.json", "--token", "b", "--platform", "ios", "--title", "t", "--body", "u"] =
      .ok c := by
    decide +kernel
  have hready : Ready around c settings := ⟨by decide +kernel, by decide +kernel, by decide +kernel⟩
  have hnames : c.Names around.readText [⟨"a", .web⟩] :=
    .file rfl rfl (CommandLine.readDevices_eq_ok_iff.1 (by decide +kernel))
  obtain ⟨x, -, hdevices, hx⟩ := (run_settles network [] around hread).dispatch settings [⟨"a", .web⟩] hready hnames
  have hended : (ended.exitCode, ended.outputs.filterMap Output.line?) =
      (2, ["✅ Delivered 0/2 notification(s)", "🗑️ Unregistered token: a"]) := by
    decide +kernel
  exact ⟨hready, hnames, ⟨x, hx, hdevices⟩, Prod.mk.inj hended⟩

end Program

end PushDispatch
