import PushDispatch.Proofs.Fcm.Refusals

/-! Error codes in the body of a refusal. A body may carry the code of an unknown device in one of its details and
still not be understood: of several codes the first one counts, and a body that is not a complaint down to its last
detail says nothing. A body that is one, with no other code in front of this one, makes the device unknown. -/

namespace PushDispatch.Fcm

namespace Complaint

/-- A body is a JSON object whose member `error` is an object with details, one of which has the code. Nothing is said
of the other details and members. -/
def CarriesCode (code : String) (body : List Char) : Prop :=
  ∃ members fields items entry, Json.readChars? body = some (.object members) ∧
    (some "error", .object fields) ∈ members ∧ (some "details", .array items) ∈ fields ∧ .object entry ∈ items ∧
      (some "errorCode", .text code) ∈ entry

/-- Another code comes only after this one. -/
def ComesFirst (code : String) (codes : List (Option String)) : Prop :=
  ∀ before other after, codes = before ++ some other :: after → other ≠ code → some code ∈ before

/-! ### The codes of a complaint -/

/-- A member with the name of a field is this field. -/
theorem eq_some_of_mem {names : List String} {members : List (Option String × Json)} {values : List (Option Json)}
    (h : Json.Holds names (.object members) values) {k : Nat} {name : String} {value : Json} {field : Option Json}
    (hn : names[k]? = some name) (hv : values[k]? = some field) (hm : (some name, value) ∈ members) :
    field = some value := by
  cases h with
  | byName texts fields =>
    have hnamed : value ∈ Json.named members name :=
      List.mem_map.2 ⟨(some name, value), List.mem_filter.2 ⟨hm, by simp⟩, rfl⟩
    obtain ⟨hle, rfl⟩ := Json.forall₂_named_iff.1 fields
    rw [List.getElem?_map, hn, Option.map_some, Option.some.injEq] at hv
    have hlen := hle name (List.mem_of_getElem? hn)
    rw [← hv]
    cases hall : Json.named members name with
    | nil => simp [hall] at hnamed
    | cons first rest =>
      obtain rfl : rest = [] := by simpa [hall] using hlen
      rw [hall, List.mem_singleton] at hnamed
      rw [hnamed, List.head?_cons]

theorem code_of_mem {entry : List (Option String × Json)} {code : String} {found : Option String}
    (h : DetailIs (.object entry) found) (hm : (some "errorCode", .text code) ∈ entry) : found = some code := by
  cases h with
  | code holds => simpa [Json.text] using eq_some_of_mem holds (k := 0) rfl rfl hm
  | null holds => simpa [Json.text] using eq_some_of_mem holds (k := 0) rfl rfl hm
  | missing _ holds => simpa using eq_some_of_mem holds (k := 0) rfl rfl hm

/-- A code that stands in a complaint is one of its codes. -/
theorem mem_details_of_carriesCode {code : String} {body : List Char} {c : Complaint} (h : CarriesCode code body)
    (hc : StandsIn body c) : some code ∈ c.details := by
  obtain ⟨members, fields, items, entry, hread, herror, hdetails, hentry, hcode⟩ := h
  obtain ⟨json, hread', hbody, hcomplaint⟩ := hc
  obtain rfl : .object members = json := Option.some.inj (hread.symm.trans hread')
  obtain rfl := eq_some_of_mem hbody (k := 0) rfl rfl herror
  cases hcomplaint with
  | given his =>
    obtain ⟨hfields, -, -, hcodes⟩ := his
    obtain rfl := eq_some_of_mem hfields (k := 2) rfl rfl hdetails
    cases hcodes with
    | given hlist =>
      obtain ⟨items', heq, hall⟩ := hlist
      obtain rfl := Json.array.inj heq
      obtain ⟨hlen, hget⟩ := List.forall₂_iff_get.1 hall
      obtain ⟨k, hk, hitem⟩ := List.mem_iff_getElem.1 hentry
      have hdetail := hget k hk (hlen ▸ hk)
      rw [List.get_eq_getElem, hitem] at hdetail
      rw [← code_of_mem hdetail hcode]
      exact List.get_mem ..

theorem errorCode?_of_comesFirst {code : String} {c : Complaint} (hm : some code ∈ c.details)
    (hfirst : ComesFirst code c.details) : c.errorCode? = some code := by
  cases hfound : c.errorCode? with
  | none =>
    have := List.findSome?_eq_none_iff.1 hfound _ hm
    cases this
  | some other =>
    obtain ⟨before, found, after, hcodes, heq, hnone⟩ := List.findSome?_eq_some_iff.1 hfound
    obtain rfl : found = some other := heq
    by_contra hne
    have hin : some code ∈ before := hfirst before other after hcodes fun e => hne (by rw [e])
    have := hnone _ hin
    cases this

end Complaint

/-! ### Refusals for an unknown device -/

/-- A complaint that carries the code of an unknown device, and no other code in front of it, makes the device unknown:
whatever the status and the headers are, and whatever else the body says. -/
theorem unregistered_by_code {body : List Char} {c : Complaint} (hcode : Complaint.CarriesCode "UNREGISTERED" body)
    (hc : Complaint.StandsIn body c) (hfirst : Complaint.ComesFirst "UNREGISTERED" c.details) :
    (∀ status wait, refusal status wait body = .unregisteredDevice) ∧
      ∀ r : Reply, r.isSuccess = false → r.contentText = body → r.answer = .refused .unregisteredDevice := by
  have hfound : c.errorCode? = some "UNREGISTERED" :=
    Complaint.errorCode?_of_comesFirst (Complaint.mem_details_of_carriesCode hcode hc) hfirst
  have hstale : (Complaint.read body).namesStaleDevice = true := by
    rw [hc.read_eq, Complaint.namesStaleDevice, hfound]
    rfl
  refine ⟨fun status wait => refusal_of_stale hstale, fun r hs hb => ?_⟩
  rw [Reply.answer_of_not_isSuccess hs, hb, refusal_of_stale hstale]

/-- Details without a code stand in front of the code, another code after it. -/
theorem unregistered_by_code_of_third_detail :
    let body := ("\x7b\"error\":\x7b\"details\":[\x7b\x7d,[null],\x7b\"errorCode\":\"UNREGISTERED\"\x7d," ++
      "\x7b\"errorCode\":\"INTERNAL\"\x7d]\x7d\x7d").toList
    let c : Complaint := ⟨"", "", [none, none, some "UNREGISTERED", some "INTERNAL"]⟩
    let r : Reply := ⟨500, [], Text.Utf8.encode body, true⟩
    Complaint.CarriesCode "UNREGISTERED" body ∧ Complaint.StandsIn body c ∧
      Complaint.ComesFirst "UNREGISTERED" c.details ∧ refusal 404 none body = .unregisteredDevice ∧
      r.isSuccess = false ∧ r.contentText = body ∧ r.answer = .refused .unregisteredDevice := by
  intro body c r
  have hcode : Complaint.CarriesCode "UNREGISTERED" body :=
    ⟨_, _, _, _, rfl, .head _, .head _, .tail _ (.tail _ (.head _)), .head _⟩
  have hc : Complaint.StandsIn body c := Complaint.standsIn_iff.2 (by decide +kernel)
  have hfirst : Complaint.ComesFirst "UNREGISTERED" c.details := by
    intro before other after h hne
    rcases before with _ | ⟨_, _ | ⟨_, _ | ⟨_, before⟩⟩⟩ <;> simp_all [c]
  have htext : r.contentText = body := by decide +kernel
  obtain ⟨hrefusal, hanswer⟩ := unregistered_by_code hcode hc hfirst
  exact ⟨hcode, hc, hfirst, hrefusal 404 none, rfl, htext, hanswer r rfl htext⟩

/-- The code alone is not enough: another code may stand in front of it, another detail may be a number, the message may
be `null`, and the field of the code may stand twice. -/
theorem carried_code_overlooked :
    let overlooked (body : String) : Prop :=
      Complaint.CarriesCode "UNREGISTERED" body.toList ∧ refusal 404 none body.toList ≠ .unregisteredDevice
    overlooked
        "\x7b\"error\":\x7b\"details\":[\x7b\"errorCode\":\"X\"\x7d,\x7b\"errorCode\":\"UNREGISTERED\"\x7d]\x7d\x7d" ∧
      overlooked "\x7b\"error\":\x7b\"details\":[1,\x7b\"errorCode\":\"UNREGISTERED\"\x7d]\x7d\x7d" ∧
      overlooked "\x7b\"error\":\x7b\"message\":null,\"details\":[\x7b\"errorCode\":\"UNREGISTERED\"\x7d]\x7d\x7d" ∧
      overlooked "\x7b\"error\":\x7b\"details\":[\x7b\"errorCode\":\"UNREGISTERED\",\"errorCode\":null\x7d]\x7d\x7d" :=
  ⟨⟨⟨_, _, _, _, rfl, .head _, .head _, .tail _ (.head _), .head _⟩, by decide +kernel⟩,
    ⟨⟨_, _, _, _, rfl, .head _, .head _, .tail _ (.head _), .head _⟩, by decide +kernel⟩,
    ⟨⟨_, _, _, _, rfl, .head _, .tail _ (.head _), .head _, .head _⟩, by decide +kernel⟩,
    ⟨_, _, _, _, rfl, .head _, .head _, .head _, .head _⟩, by decide +kernel⟩

end PushDispatch.Fcm
