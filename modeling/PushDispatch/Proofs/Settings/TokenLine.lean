import PushDispatch.Proofs.Environment.Pieces
import PushDispatch.Proofs.Toml.Apart
import PushDispatch.Proofs.Toml.Scanning
import PushDispatch.Settings.Document

/-! The value of a variable in the place of an access token. It is put into the text of the document before the text is
read, so it is the access token as long as it needs no escape, and then nothing else depends on it. With a quote or a
backslash in it, or a control character, it is read as something else. -/

namespace PushDispatch

/-! ### Setting a variable -/

namespace Environment

variable {e : Environment} {name value : String}

/-- The environment with one variable set. -/
def assign (e : Environment) (name value : String) : Environment :=
  ⟨fun other => if other = name then some value else e.value? other⟩

theorem value?_assign (other : String) :
    (e.assign name value).value? other = if other = name then some value else e.value? other := rfl

theorem substitute_assign : (e.assign name value).substitute (.reference name.toList) = value.toList := by
  rw [substitute_reference, value?_assign, if_pos rfl, Option.getD_some]

/-- Setting a variable that a text does not refer to. -/
theorem resolveChars_assign {text : String} (h : name ∉ names text) :
    (e.assign name value).resolveChars text.toList = e.resolveChars text.toList := by
  refine List.flatMap_congr fun piece hp => ?_
  cases piece with
  | char => rfl
  | reference other =>
    have hother : String.ofList other ≠ name := by
      rintro rfl
      exact h (List.mem_filterMap.2 ⟨_, hp, rfl⟩)
    rw [substitute, substitute, value?_assign, if_neg hother]

end Environment

namespace Toml

variable {key v w : String} {cs : List Char}

theorem Reading.run_append (r : Reading) (xs ys : List Token) :
    r.run (xs ++ ys) = (xs.foldlM Reading.step r).bind (·.run ys) := by
  induction xs generalizing r with
  | nil => rfl
  | cons token xs ih =>
    rw [List.cons_append, Reading.run, List.foldlM_cons]
    cases r.step token with
    | none => rfl
    | some r => exact ih r

/-- The characters are the beginning of a document, and what comes next is a line in the table with the given key. -/
def LeadsTo (key : String) (cs : List Char) : Prop := ∃ tokens document kind entries,
  Scan.between.through (withoutMark cs) = some (tokens, .between) ∧
  tokens.foldlM Reading.step Reading.start = some ⟨document, [key], [], .line⟩ ∧
  document.lookup key = some (.table kind entries)

theorem LeadsTo.ne_nil (h : LeadsTo key cs) : cs ≠ [] := by
  rintro rfl
  obtain ⟨tokens, document, kind, entries, hthrough, hread, -⟩ := h
  obtain rfl : tokens = [] := by simpa [Scan.through, withoutMark] using hthrough.symm
  cases hread

/-- A line that gives the access token, up to the first quote of its value. -/
def tokenStart : String := "access_token = \""

theorem readChars?_of_leadsTo (h : LeadsTo key cs) : ∃ document kind entries,
    document.lookup key = some (.table kind entries) ∧ ∀ rest, readChars? (cs ++ tokenStart.toList ++ rest) =
      if hasWholeLineEnds (withoutMark cs ++ tokenStart.toList) && hasWholeLineEnds rest then
        (Token.scanFrom (.opening '"' false) rest).bind
          (Reading.run ⟨document, [key], [.entry ["access_token"]], .value⟩)
      else none := by
  obtain ⟨tokens, document, kind, entries, hthrough, hread, hlookup⟩ := h
  refine ⟨document, kind, entries, hlookup, fun rest => ?_⟩
  have hne := LeadsTo.ne_nil ⟨tokens, document, kind, entries, hthrough, hread, hlookup⟩
  have hstart : Scan.between.through tokenStart.toList =
      some ([.word "access_token".toList, .blank ' ', .equals, .blank ' '], .opening '"' false) := by rfl
  have hopen : List.foldlM Reading.step ⟨document, [key], [], .line⟩
      [.word "access_token".toList, .blank ' ', .equals, .blank ' '] =
        some ⟨document, [key], [.entry ["access_token"]], .value⟩ := by rfl
  -- a quote is no part of a line end, so the text in front of it and the text behind it are looked at apart
  have hends : hasWholeLineEnds (withoutMark cs ++ (tokenStart.toList ++ rest)) =
      (hasWholeLineEnds (withoutMark cs ++ tokenStart.toList) && hasWholeLineEnds rest) := by
    have hquote : tokenStart.toList = "access_token = ".toList ++ ['"'] := by decide
    rw [hquote, List.append_assoc, List.singleton_append, ← List.append_assoc, ← List.append_assoc,
      hasWholeLineEnds_append_cons (by decide)]
  rw [readChars?, Token.scan_eq, List.append_assoc, withoutMark_append hne, hends]
  split
  · rw [Token.scanFrom_append, hthrough, Option.bind_some, Token.scanFrom_append, hstart, Option.bind_some]
    cases Token.scanFrom (.opening '"' false) rest with
    | none => rfl
    | some more =>
      rw [Option.map_some, Option.map_some, Option.bind_some, Reading.run_append, hread, Option.bind_some,
        Reading.run_append, hopen, Option.bind_some, Option.bind_some]
  · rfl

/-- A string that is given for a new key. -/
theorem addEntry_string (name value : String) (kind : TableKind) (entries : Entries) :
    addEntry [] name (.string value) kind entries =
      if (entries.lookup name).isSome then none else some (kind, entries ++ [(name, .string value)]) := by
  rw [addEntry, changeAt]
  cases (entries.lookup name).isSome <;> rfl

theorem agreeBut_append {entries : Entries} {name : String} (h : entries.lookup name = none) :
    AgreeBut name (Apart v w []) (entries ++ [(name, .string v)]) (entries ++ [(name, .string w)]) := by
  refine ⟨fun k hk => ?_, .string v, .string w, ?_, ?_, rfl, rfl⟩
  · simp [List.lookup_append, lookup_cons_ite, hk]
  · simp [List.lookup_append, h]
  · simp [List.lookup_append, h]

theorem changeAt_string {document : Entries} {kind : TableKind} {entries : Entries}
    (h : document.lookup key = some (.table kind entries)) (name value : String) :
    changeAt false (addEntry [] name (.string value)) [key] .headed document =
      if kind.isOpen false && (entries.lookup name).isNone then
        some (.headed, replace key (.table kind (entries ++ [(name, .string value)])) document)
      else none := by
  rw [changeAt, h]
  simp only [changeAt, addEntry_string]
  cases kind.isOpen false <;> cases entries.lookup name <;> rfl

/-- Reading a string for a new entry, and another one in its place. -/
theorem rel_put_string {document : Entries} {kind : TableKind} {entries : Entries}
    (h : document.lookup key = some (.table kind entries)) (name : String) :
    Option.Rel (Beside v w key [name]) (Reading.put ⟨document, [key], [.entry [name]], .value⟩ (.string v))
      (Reading.put ⟨document, [key], [.entry [name]], .value⟩ (.string w)) := by
  have hdocument : Option.Rel (TablesApart v w key [name])
      (changeAt false (addEntry [] name (.string v)) [key] .headed document)
      (changeAt false (addEntry [] name (.string w)) [key] .headed document) := by
    rw [changeAt_string h, changeAt_string h]
    split
    · next hnew =>
      have hname : entries.lookup name = none := Option.isNone_iff_eq_none.1 (Bool.and_eq_true_iff.1 hnew).2
      refine .some ⟨rfl, fun k hk => ?_, _, _, ?_, ?_, kind, _, _, rfl, rfl, agreeBut_append hname⟩
      · rw [lookup_replace, lookup_replace, if_neg hk, if_neg hk]
      · rw [lookup_replace, if_pos rfl, h, Option.map_some]
      · rw [lookup_replace, if_pos rfl, h, Option.map_some]
    · exact .none
  exact rel_bind hdocument fun r s hrs => .some ⟨rfl, rfl, rfl, hrs.2⟩

/-- The documents that are read with one string and with another in its place. -/
theorem rel_run_string {document : Entries} {kind : TableKind} {entries : Entries}
    (h : document.lookup key = some (.table kind entries)) (name : String) (a b : Bool) (more : List Token) :
    Option.Rel (AgreeBut key (Apart v w [name]))
      (Reading.run ⟨document, [key], [.entry [name]], .value⟩ (.string v a :: more))
      (Reading.run ⟨document, [key], [.entry [name]], .value⟩ (.string w b :: more)) := by
  have hput := rel_put_string (v := v) (w := w) h name
  have hstep : ∀ (text : String) (isMultiline : Bool),
      Reading.step ⟨document, [key], [.entry [name]], .value⟩ (.string text isMultiline) =
        Reading.put ⟨document, [key], [.entry [name]], .value⟩ (.string text) := fun _ _ => rfl
  rw [Reading.run, Reading.run, hstep, hstep]
  generalize Reading.put _ (.string v) = r, Reading.put _ (.string w) = s at hput
  cases hput with
  | none => exact .none
  | some hbeside => exact hbeside.run more

theorem IsPlain.notMem {value : List Char} (h : IsPlain value) : '\r' ∉ value := fun hm =>
  absurd (h _ hm).2.2 (by decide)

/-- Two texts that need no escape, between quotes at the end of the same line. -/
theorem rel_readChars? (h : LeadsTo key cs) (hv : IsPlain v.toList) (hw : IsPlain w.toList) (rest : List Char) :
    Option.Rel (AgreeBut key (Apart v w ["access_token"]))
      (readChars? (cs ++ tokenStart.toList ++ (v.toList ++ '"' :: '\n' :: rest)))
      (readChars? (cs ++ tokenStart.toList ++ (w.toList ++ '"' :: '\n' :: rest))) := by
  obtain ⟨document, kind, entries, hlookup, hread⟩ := readChars?_of_leadsTo h
  rw [hread, hread, hasWholeLineEnds_append_of_notMem hv.notMem, hasWholeLineEnds_append_of_notMem hw.notMem]
  split
  · rw [scanFrom_plain hv, scanFrom_plain hw, String.ofList_toList, String.ofList_toList]
    cases Token.scanFrom .between rest with
    | none => exact .none
    | some tokens => exact rel_run_string hlookup ..
  · exact .none

/-- Whatever text is read from between the quotes at the end of a document, the document gives it for the token. When the
characters between them need an escape it is shorter than they are. -/
theorem exists_shorter_of_readChars? (h : LeadsTo key cs) {value : List Char} (hvalue : ¬ IsPlain value)
    {document : Entries} (hread : readChars? (cs ++ tokenStart.toList ++ (value ++ ['"', '\n'])) = some document) :
    ∃ text : String, text.length < value.length ∧
      AgreeBut key (Apart text text ["access_token"]) document document := by
  obtain ⟨front, kind, entries, hlookup, hreads⟩ := readChars?_of_leadsTo h
  rw [hreads] at hread
  split at hread
  · obtain ⟨tokens, htokens, hrun⟩ := Option.bind_eq_some_iff.1 hread
    obtain ⟨text, isMultiline, more, rfl, hlength⟩ := beginsShorter_of_not_isPlain hvalue htokens
    have hrel := rel_run_string (v := text) (w := text) hlookup "access_token" isMultiline isMultiline more
    rw [hrun] at hrel
    cases hrel with
    | some hagree => exact ⟨text, hlength, hagree⟩
  · cases hread

end Toml

namespace Settings

variable {v w : String}

/-- The same settings with another access token. -/
def withToken (s : Settings) (token : String) : Settings := { s with service.accessToken := some token }

/-- Documents that differ in the access token give settings that do. -/
theorem rel_ofEntries? {xs ys : Toml.Entries} (h : Toml.AgreeBut "fcm" (Toml.Apart v w ["access_token"]) xs ys) :
    Option.Rel (fun s t : Settings => s.service.accessToken = some v ∧ t = s.withToken w)
      (ofEntries? xs) (ofEntries? ys) := by
  obtain ⟨_, _, hx, hy, kind, entries, entries', rfl, rfl, hservice⟩ := h.differ
  obtain ⟨_, _, htoken, htoken', rfl, rfl⟩ := hservice.differ
  have hfcm : Option.Rel (fun s t : ServiceSettings => s.accessToken = some v ∧ t = { s with accessToken := some w })
      (service? (.table kind entries)) (service? (.table kind entries')) := by
    simp only [service?, group?, List.map_cons, List.map_nil, Option.bind_eq_bind, Option.bind_some, htoken, htoken',
      hservice.same "project_id" (by decide), hservice.same "endpoint" (by decide),
      hservice.same "timeout_seconds" (by decide), optional?, Toml.string?, Option.pure_def]
    cases entries'.lookup "project_id" with
    | none => exact .none
    | some projectId =>
      exact Toml.rel_bind_self _ fun _ => Toml.rel_bind_self _ fun _ => Toml.rel_bind_self _ fun _ => .some ⟨rfl, rfl⟩
  simp only [ofEntries?, hx, hy, h.same "dispatch" (by decide), h.same "logging" (by decide), Option.bind_eq_bind,
    Option.bind_some]
  refine Toml.rel_bind hfcm ?_
  rintro s _ ⟨hs, rfl⟩
  exact Toml.rel_bind_self _ fun _ => Toml.rel_bind_self _ fun _ => .some ⟨hs, rfl⟩

/-- A line that gives the value of a variable as the access token. -/
def tokenLine (name : String) : String := Toml.tokenStart ++ Environment.reference name ++ "\"\n"

theorem resolve_tokenLine {e : Environment} {name head tail : String} (hn : Environment.IsName name.toList)
    (ho : ¬ Environment.LeavesOpen head.toList) (hhead : name ∉ Environment.names head)
    (htail : name ∉ Environment.names tail) (v : String) :
    ((e.assign name v).resolve (head ++ tokenLine name ++ tail)).toList =
      (e.resolve head).toList ++ Toml.tokenStart.toList ++ (v.toList ++ '"' :: '\n' :: (e.resolve tail).toList) := by
  have htext : (head ++ tokenLine name ++ tail).toList = head.toList ++
      (Toml.tokenStart.toList ++ ([] ++ Environment.written name.toList ++ (['"', '\n'] ++ tail.toList))) := by
    have hend : "\"\n".toList = ['"', '\n'] := by decide
    simp only [tokenLine, Environment.reference, hend, String.toList_append, String.toList_ofList, List.append_assoc,
      List.nil_append]
  -- no brace follows the text in front, so a dollar sign at its end begins no reference
  have hstart : ∀ rest, Toml.tokenStart.toList ++ rest = 'a' :: ("ccess_token = \"".toList ++ rest) := by
    have hfirst : Toml.tokenStart.toList = 'a' :: "ccess_token = \"".toList := by decide
    intro rest
    rw [hfirst, List.cons_append]
  have hnothing : ¬ Environment.LeavesOpen [] := by decide
  rw [Environment.resolve, String.toList_ofList, htext, hstart, Environment.resolveChars_append _ (by decide) ho,
    ← hstart, Environment.resolveChars_append_of_notMem (by decide), Environment.resolveChars_reference hnothing hn,
    Environment.resolveChars_append_of_notMem (by decide), Environment.substitute_assign,
    Environment.resolveChars_assign hhead, Environment.resolveChars_assign htail]
  simp [Environment.resolve, Environment.resolveChars, Environment.pieces, Environment.piecesFrom]

theorem read_eq_ok_iff {e : Environment} {text : String} {s : Settings} :
    read e text = .ok s ↔ ∃ document, Toml.read? (e.resolve text) = some document ∧ ofEntries? document = some s := by
  rw [read]
  cases Toml.read? (e.resolve text) with
  | none => simp
  | some document => cases h : ofEntries? document <;> simp [h]

/-- Settings that are read, or not, with one value of the variable and with another. -/
theorem read_of_rel {e f : Environment} {text : String}
    (h : Option.Rel (Toml.AgreeBut "fcm" (Toml.Apart v w ["access_token"])) (Toml.read? (e.resolve text))
      (Toml.read? (f.resolve text))) :
    read f text = (read e text).map (·.withToken w) ∧ ∀ s, read e text = .ok s → s.service.accessToken = some v := by
  have hrel := Toml.rel_bind h fun _ _ => rel_ofEntries?
  rw [read, read]
  generalize (Toml.read? (e.resolve text)).bind ofEntries? = a, (Toml.read? (f.resolve text)).bind ofEntries? = b at hrel
  cases hrel with
  | none => exact ⟨rfl, fun s hs => by cases hs⟩
  | some hst =>
    obtain ⟨hs, rfl⟩ := hst
    exact ⟨rfl, fun _ heq => Except.ok.inj heq ▸ hs⟩

/-- The table of the push service with a project. -/
def project : String := "[fcm]\nproject_id = \"retreat-app\"\n"

theorem leadsTo_project : Toml.LeadsTo "fcm" project.toList := ⟨_, _, _, _, rfl, rfl, rfl⟩

theorem resolve_project (e : Environment) : e.resolve project = project := by
  have hnone : '$' ∉ project.toList := by decide
  have hchars := Environment.resolveChars_append_of_notMem (e := e) hnone []
  rw [List.append_nil] at hchars
  rw [Environment.resolve, hchars]
  simp [Environment.resolveChars, Environment.pieces, Environment.piecesFrom]

section
variable {e : Environment} {name head tail : String} (hn : Environment.IsName name.toList)
include hn

/-- The documents that are read with one value of the variable and with another. -/
theorem rel_read? (ho : ¬ Environment.LeavesOpen head.toList) (hhead : name ∉ Environment.names head)
    (hl : Toml.LeadsTo "fcm" (e.resolve head).toList) (htail : name ∉ Environment.names tail)
    (hv : Toml.IsPlain v.toList) (hw : Toml.IsPlain w.toList) :
    Option.Rel (Toml.AgreeBut "fcm" (Toml.Apart v w ["access_token"]))
      (Toml.read? ((e.assign name v).resolve (head ++ tokenLine name ++ tail)))
      (Toml.read? ((e.assign name w).resolve (head ++ tokenLine name ++ tail))) := by
  rw [Toml.read?, Toml.read?, resolve_tokenLine hn ho hhead htail, resolve_tokenLine hn ho hhead htail]
  exact Toml.rel_readChars? hl hv hw _

/-- At the end of a document a value that needs an escape is not what is read. -/
theorem exists_shorter_of_read (ho : ¬ Environment.LeavesOpen head.toList) (hhead : name ∉ Environment.names head)
    (hl : Toml.LeadsTo "fcm" (e.resolve head).toList) (hv : ¬ Toml.IsPlain v.toList) {s : Settings}
    (hs : read (e.assign name v) (head ++ tokenLine name) = .ok s) :
    ∃ token, s.service.accessToken = some token ∧ token.length < v.length := by
  obtain ⟨document, hdocument, hentries⟩ := read_eq_ok_iff.1 hs
  have hempty : name ∉ Environment.names "" := List.not_mem_nil
  rw [← String.append_empty (s := head ++ tokenLine name), Toml.read?,
    resolve_tokenLine hn ho hhead hempty] at hdocument
  obtain ⟨token, hlength, hagree⟩ := Toml.exists_shorter_of_readChars? hl hv hdocument
  have hrel := rel_ofEntries? hagree
  rw [hentries] at hrel
  cases hrel with
  | some htoken => exact ⟨token, htoken.1, hlength⟩

/-- A project and an access token are enough. -/
theorem read_project_tokenLine (hv : Toml.IsPlain v.toList) :
    read (e.assign name v) (project ++ tokenLine name) = .ok ⟨⟨"retreat-app", none, some v, none⟩, none, none⟩ := by
  have hopen : ¬ Environment.LeavesOpen project.toList := by decide
  have hproject : name ∉ Environment.names project := by
    have hnames : Environment.names project = [] := by decide +kernel
    exact hnames ▸ List.not_mem_nil
  have hnothing : name ∉ Environment.names "" := List.not_mem_nil
  have hleads : Toml.LeadsTo "fcm" (e.resolve project).toList := (resolve_project e).symm ▸ leadsTo_project
  have hblank : read (e.assign name "") (project ++ tokenLine name) =
      .ok ⟨⟨"retreat-app", none, some "", none⟩, none, none⟩ := by
    have htext := resolve_tokenLine (e := e) hn hopen hproject hnothing ""
    have hempty : (e.resolve "").toList = [] := String.toList_ofList
    rw [String.append_empty, resolve_project, hempty] at htext
    rw [read, Toml.read?, htext]
    decide +kernel
  have hempty : Toml.IsPlain "".toList := by decide
  have hread := (read_of_rel (rel_read? hn hopen hproject hleads hnothing hempty hv)).1
  rwa [String.append_empty, hblank] at hread

end

/-- The value of a variable as the access token, in a line of the table `fcm` between texts that do not refer to this
variable. The values that need no escape are read as they are, in documents that are alike but for the token; what is
accepted with one of them is accepted with each, and so is the shortest document of this kind. At the end of a document
any other value makes it unreadable, or the token shorter than the value. -/
theorem read_tokenLine (e : Environment) {name head : String} (hn : Environment.IsName name.toList)
    (ho : ¬ Environment.LeavesOpen head.toList) (hhead : name ∉ Environment.names head)
    (hl : Toml.LeadsTo "fcm" (e.resolve head).toList) :
    (∀ v : String, Toml.IsPlain v.toList → read (e.assign name v) (project ++ tokenLine name) =
      .ok ⟨⟨"retreat-app", none, some v, none⟩, none, none⟩) ∧
    (∀ tail v w : String, name ∉ Environment.names tail → Toml.IsPlain v.toList → Toml.IsPlain w.toList →
      let text := head ++ tokenLine name ++ tail
      read (e.assign name w) text = (read (e.assign name v) text).map (·.withToken w) ∧
        ∀ s, read (e.assign name v) text = .ok s → s.service.accessToken = some v) ∧
    (∀ v s, ¬ Toml.IsPlain v.toList → read (e.assign name v) (head ++ tokenLine name) = .ok s →
      ∃ token, s.service.accessToken = some token ∧ token.length < v.length) :=
  ⟨fun _ => read_project_tokenLine hn, fun _ _ _ htail hv hw => read_of_rel (rel_read? hn ho hhead hl htail hv hw),
    fun _ _ hv hs => exists_shorter_of_read hn ho hhead hl hv hs⟩

/-- Another variable stands in front of the line, and a value with a backslash is read as a shorter one. -/
theorem read_tokenLine_behind_reference :
    let e := Environment.ofList [("P", "retreat-app")]
    let head := "[fcm]\nproject_id = \"$\x7bP\x7d\"\n"
    let text := head ++ tokenLine "T" ++ "[dispatch]\nmax_attempts = 2\n"
    Environment.IsName "T".toList ∧ ¬ Environment.LeavesOpen head.toList ∧ "T" ∉ Environment.names head ∧
      Toml.LeadsTo "fcm" (e.resolve head).toList ∧
      read (e.assign "T" "") (project ++ tokenLine "T") = .ok ⟨⟨"retreat-app", none, some "", none⟩, none, none⟩ ∧
      "T" ∉ Environment.names "[dispatch]\nmax_attempts = 2\n" ∧
      Toml.IsPlain "ya29.a".toList ∧ Toml.IsPlain "# é".toList ∧
      read (e.assign "T" "ya29.a") text =
        .ok ⟨⟨"retreat-app", none, some "ya29.a", none⟩, some ⟨none, some 2, none, none⟩, none⟩ ∧
      read (e.assign "T" "# é") text = (read (e.assign "T" "ya29.a") text).map (·.withToken "# é") ∧
      ¬ Toml.IsPlain "a\\tb".toList ∧
      ∃ s token, read (e.assign "T" "a\\tb") (head ++ tokenLine "T") = .ok s ∧
        s.service.accessToken = some token ∧ token.length < "a\\tb".length := by
  intro e head text
  have hn : Environment.IsName "T".toList := by decide
  have ho : ¬ Environment.LeavesOpen head.toList := by decide +kernel
  have hhead : "T" ∉ Environment.names head := by decide +kernel
  have htail : "T" ∉ Environment.names "[dispatch]\nmax_attempts = 2\n" := by decide +kernel
  have hl : Toml.LeadsTo "fcm" (e.resolve head).toList := by
    have hresolve : e.resolve head = project := by decide +kernel
    exact hresolve ▸ leadsTo_project
  have hread : read (e.assign "T" "ya29.a") text =
      .ok ⟨⟨"retreat-app", none, some "ya29.a", none⟩, some ⟨none, some 2, none, none⟩, none⟩ := by decide +kernel
  have hescape : read (e.assign "T" "a\\tb") (head ++ tokenLine "T") =
      .ok ⟨⟨"retreat-app", none, some "a\tb", none⟩, none, none⟩ := by decide +kernel
  have hv : Toml.IsPlain "ya29.a".toList := by decide
  have hw : Toml.IsPlain "# é".toList := by decide
  have hnot : ¬ Toml.IsPlain "a\\tb".toList := by decide
  obtain ⟨hproject, hvalues, hothers⟩ := read_tokenLine e hn ho hhead hl
  obtain ⟨token, htoken, hshorter⟩ := hothers _ _ hnot hescape
  exact ⟨hn, ho, hhead, hl, hproject "" (by decide), htail, hv, hw, hread, (hvalues _ _ _ htail hv hw).1, hnot, _, token,
    hescape, htoken, hshorter⟩

/-- A value with a quote in it ends the token, and gives the endpoint, which nothing else in the document does. -/
theorem endpoint_from_value :
    let e := Environment.ofList [("X", "t\"\nendpoint = \"http://evil.example")]
    let s : Settings := ⟨⟨"retreat-app", some "http://evil.example", some "t", none⟩, none, none⟩
    read e (project ++ tokenLine "X") = .ok s ∧ s.service.accessToken ≠ e.value? "X" := by
  decide +kernel

end Settings

end PushDispatch
