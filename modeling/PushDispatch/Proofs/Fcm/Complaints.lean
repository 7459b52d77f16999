import PushDispatch.Fcm.Reply
import PushDispatch.Proofs.Json.Records

/-! What the body of a refusal says, told as a relation between JSON values and complaints. A body that is no JSON,
or whose JSON is not such a record down to its last detail, says nothing. The main statement is that a body which
makes the service's client take a device for unknown says so, by an error code or by naming the token. -/

namespace PushDispatch

namespace Fcm.Complaint

/-! ### Bodies -/

/-- What a detail says: its error code. `null` stands for no code, and an object may leave the code out. -/
inductive DetailIs (json : Json) : Option String → Prop
  | code {code} (holds : json.Holds ["errorCode"] [some (.text code)]) : DetailIs json (some code)
  | null (holds : json.Holds ["errorCode"] [some .null]) : DetailIs json none
  | missing {members} (hj : json = .object members) (holds : json.Holds ["errorCode"] [none]) : DetailIs json none

/-- A value is a complaint. Each of its fields may be missing, but not be something else than it should. -/
inductive Is (json : Json) (c : Complaint) : Prop
  | intro {message status details} (holds : json.Holds ["message", "status", "details"] [message, status, details])
      (message : Json.FieldIs "" (fun value s => value = .text s) message c.message)
      (status : Json.FieldIs "" (fun value s => value = .text s) status c.status)
      (details : Json.FieldIs [] (fun value codes => ∃ items, value = .array items ∧ List.Forall₂ DetailIs items codes)
        details c.details)

/-- A body holds a complaint in its field `error`; a body without it holds the empty complaint. -/
inductive InBody (json : Json) (c : Complaint) : Prop
  | intro {error} (holds : json.Holds ["error"] [error]) (error : Json.FieldIs empty Is error c)

/-- The text of a body is JSON that holds a complaint. -/
def StandsIn (body : List Char) (c : Complaint) : Prop :=
  ∃ json, Json.readChars? body = some json ∧ InBody json c

theorem detail?_eq_some_iff {json : Json} {code : Option String} : detail? json = some code ↔ DetailIs json code := by
  constructor
  · simp only [detail?, Option.bind_eq_bind, Option.bind_eq_some_iff, Json.fields?_eq_some_iff]
    rintro ⟨⟨byPosition, values⟩, ⟨holds, hp⟩, h⟩
    dsimp only at holds hp h
    split at h
    · next value =>
      cases value with
      | null => cases h; exact .null holds
      | string value =>
        obtain ⟨s, hs, rfl⟩ := Option.map_eq_some_iff.1 h
        obtain rfl : value = some s := hs
        exact .code holds
      | _ => simp [Json.nullable?, Json.text?] at h
    · next hne =>
      cases byPosition with
      | true => cases h
      | false =>
        cases h
        cases holds with
        | @byName members _ texts fields =>
          obtain ⟨value, _, hv, ht, rfl⟩ := List.forall₂_cons_left_iff.1 fields
          obtain rfl := List.forall₂_nil_left_iff.1 ht
          cases value with
          | none => exact .missing rfl (.byName texts fields)
          | some value => exact absurd rfl (hne value)
        | byPlace => simp at hp
  · intro h
    cases h with
    | code holds =>
      obtain ⟨_, hf, -⟩ := holds.exists_fields
      simp [detail?, hf, Json.text, Json.nullable?, Json.text?]
    | null holds =>
      obtain ⟨_, hf, -⟩ := holds.exists_fields
      simp [detail?, hf, Json.nullable?]
    | missing hj holds =>
      obtain ⟨_, hf, hp⟩ := holds.exists_fields
      simp only [hj, reduceCtorEq, exists_false, iff_false, Bool.not_eq_true] at hp
      simp [detail?, hf, hp]

theorem ofJson?_eq_some_iff {json : Json} {c : Complaint} : ofJson? json = some c ↔ Is json c := by
  have htext : ∀ json s, Json.text? json = some s ↔ json = .text s := fun _ _ => Json.text?_eq_some_iff
  have hdetails : ∀ json codes, Json.list? detail? json = some codes ↔
      ∃ items, json = .array items ∧ List.Forall₂ DetailIs items codes := fun _ _ =>
    Json.list?_eq_some_iff fun _ _ => detail?_eq_some_iff
  constructor
  · simp only [ofJson?, Option.bind_eq_bind, Option.bind_eq_some_iff, Json.fields?_eq_some_iff]
    rintro ⟨⟨byPosition, values⟩, ⟨holds, -⟩, h⟩
    dsimp only at holds h
    split at h
    · next message status details =>
      simp only [Option.bind_eq_some_iff, Option.pure_def, Option.some.injEq] at h
      obtain ⟨m, hm, s, hs, codes, hc, rfl⟩ := h
      exact ⟨holds, (Json.fieldOr_eq_some_iff htext).1 hm, (Json.fieldOr_eq_some_iff htext).1 hs,
        (Json.fieldOr_eq_some_iff hdetails).1 hc⟩
    · cases h
  · rintro ⟨holds, message, status, details⟩
    obtain ⟨_, hf, -⟩ := holds.exists_fields
    simp [ofJson?, hf, (Json.fieldOr_eq_some_iff htext).2 message, (Json.fieldOr_eq_some_iff htext).2 status,
      (Json.fieldOr_eq_some_iff hdetails).2 details]

theorem ofBody?_eq_some_iff {json : Json} {c : Complaint} : ofBody? json = some c ↔ InBody json c := by
  constructor
  · simp only [ofBody?, Option.bind_eq_bind, Option.bind_eq_some_iff, Json.fields?_eq_some_iff]
    rintro ⟨⟨byPosition, values⟩, ⟨holds, -⟩, h⟩
    dsimp only at holds h
    split at h
    · next error => exact ⟨holds, (Json.fieldOr_eq_some_iff fun _ _ => ofJson?_eq_some_iff).1 h⟩
    · cases h
  · rintro ⟨holds, error⟩
    obtain ⟨_, hf, -⟩ := holds.exists_fields
    simp [ofBody?, hf, (Json.fieldOr_eq_some_iff fun _ _ => ofJson?_eq_some_iff).2 error]

theorem standsIn_iff {body : List Char} {c : Complaint} :
    StandsIn body c ↔ (Json.readChars? body).bind ofBody? = some c := by
  simp [StandsIn, Option.bind_eq_some_iff, ofBody?_eq_some_iff]

/-- A body holds one complaint at most. -/
theorem StandsIn.read_eq {body : List Char} {c : Complaint} (h : StandsIn body c) : read body = c := by
  rw [read, standsIn_iff.1 h]
  rfl

theorem read_eq_empty {body : List Char} (h : ∀ c, ¬ StandsIn body c) : read body = empty := by
  rw [read, Option.eq_none_iff_forall_ne_some.2 fun c hc => h c (standsIn_iff.2 hc)]
  rfl

/-! ### What a complaint says about the device -/

/-- A text contains the words in capitals, small letters or both. -/
def Mentions (words text : String) : Prop :=
  ∃ before found after, text.toList = before ++ found ++ after ∧ found.map Char.toLower = words.toList

/-- A body makes the device unknown: the first of the error codes says so, or the status says that an argument is invalid
and the message names the token. -/
def NamesStale (body : List Char) : Prop :=
  ∃ c, StandsIn body c ∧ ((c.details.filterMap id).head? = some "UNREGISTERED" ∨
    c.status = "INVALID_ARGUMENT" ∧ Mentions "registration token" c.message)

/-- A body says that the device is no longer known: one of the details has the code for that, or the status says
that an argument is invalid and the message names the token. -/
def SaysStale (body : List Char) : Prop :=
  ∃ c, StandsIn body c ∧
    (some "UNREGISTERED" ∈ c.details ∨ c.status = "INVALID_ARGUMENT" ∧ Mentions "registration token" c.message)

theorem mentions_iff {words text : String} :
    Text.occursIn words.toList (Text.lowerAscii text).toList = true ↔ Mentions words text := by
  rw [Text.occursIn_iff, Text.lowerAscii, String.toList_ofList]
  constructor
  · rintro ⟨before, after, h⟩
    obtain ⟨front, last, ht, hf, -⟩ := List.map_eq_append_iff.1 h
    obtain ⟨first, found, rfl, -, hw⟩ := List.map_eq_append_iff.1 hf
    exact ⟨first, found, last, ht, hw⟩
  · rintro ⟨before, found, after, h, hw⟩
    exact ⟨before.map Char.toLower, after.map Char.toLower, by simp [h, hw]⟩

/-- Of several error codes the first one counts. -/
theorem namesStaleDevice_iff {c : Complaint} :
    c.namesStaleDevice = true ↔ (c.details.filterMap id).head? = some "UNREGISTERED" ∨
      c.status = "INVALID_ARGUMENT" ∧ Mentions "registration token" c.message := by
  rw [namesStaleDevice, Bool.or_eq_true, Bool.and_eq_true, beq_iff_eq, beq_iff_eq, mentions_iff, errorCode?,
    List.head?_filterMap]

theorem namesStale_iff {body : List Char} : NamesStale body ↔ (read body).namesStaleDevice = true := by
  constructor
  · rintro ⟨c, hc, h⟩
    exact hc.read_eq ▸ namesStaleDevice_iff.2 h
  · intro h
    have hstands : StandsIn body (read body) := by
      by_contra hn
      have he : read body = empty := read_eq_empty fun c hc => hn (hc.read_eq.symm ▸ hc)
      rw [he] at h
      exact absurd h (by decide)
    exact ⟨_, hstands, namesStaleDevice_iff.1 h⟩

theorem saysStale_of_namesStaleDevice {body : List Char} (h : (read body).namesStaleDevice = true) : SaysStale body := by
  obtain ⟨c, hstands, h⟩ := namesStale_iff.2 h
  refine ⟨c, hstands, ?_⟩
  rcases h with h | h
  · have hm := List.mem_of_head? h
    rw [List.mem_filterMap] at hm
    obtain ⟨code, hc, rfl⟩ := hm
    exact .inl hc
  · exact .inr h

end Fcm.Complaint

end PushDispatch
