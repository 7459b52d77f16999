import Mathlib.Data.Option.Basic
import PushDispatch.Proofs.Fcm.Requests
import PushDispatch.Proofs.Json.RoundTrip

/-! The body of a send, as whoever receives it reads it. The text of a request reads back as the tree of the request,
with every text in it character for character, so the text determines the request. Texts fill the tree and never shape
it: which members there are follows from the platform, the policy and the keys of the data alone. -/

namespace PushDispatch

theorem Text.Decimal.write_injective : Function.Injective write := fun m n h => by
  have := congrArg read? h
  rwa [read?_write, read?_write, Option.some.injEq] at this

/-! ### Outlines -/

namespace Json

mutual

/-- A value with all its texts left blank. Names of members stay. -/
def outline : Json → Json
  | .string _ => .text ""
  | .array items => .array (outlineItems items)
  | .object members => .object (outlineMembers members)
  | json => json

def outlineItems : List Json → List Json
  | [] => []
  | item :: items => item.outline :: outlineItems items

def outlineMembers : List (Option String × Json) → List (Option String × Json)
  | [] => []
  | (name, value) :: members => (name, value.outline) :: outlineMembers members

end

theorem outline_record (members : List (String × Json)) :
    (record members).outline = record (members.map fun member => (member.1, member.2.outline)) := by
  rw [record, outline, record, Json.object.injEq]
  induction members with
  | nil => rfl
  | cons member members ih => rw [List.map_cons, outlineMembers, ih]; rfl

theorem outline_text (s : String) : (text s).outline = text "" := rfl

theorem outline_ofTextMap (m : TextMap) :
    (ofTextMap m).outline = record ((m.entries.map Prod.fst).map fun key => (key, text "")) := by
  rw [ofTextMap, outline_record, List.map_map, List.map_map]
  rfl

end Json

namespace Fcm

/-! ### Members that may be left out -/

section Member

variable {α : Type} {name : String} {toJson : α → Json}

theorem proper_member (h : ∀ a, (toJson a).Proper) (value : Option α) :
    ∀ m ∈ member name toJson value, m.2.Proper := by
  cases value with
  | none => simp [member]
  | some a => simp [member, h a]

theorem lookup_member (value : Option α) (other : String) :
    (member name toJson value).lookup other = if other = name then value.map toJson else none := by
  cases value with
  | none => simp [member]
  | some a => exact lookup_cons_ite ..

theorem member_inj (h : Function.Injective toJson) {value other : Option α} :
    member name toJson value = member name toJson other ↔ value = other := by
  cases value <;> cases other <;> simp [member, h.eq_iff]

end Member

/-! ### Trees -/

theorem Alert.proper_toJson (a : Alert) : a.toJson.Proper :=
  .record (by simp [Json.text, Json.Proper.string])

theorem Alert.toJson_injective : Function.Injective Alert.toJson := by
  rintro ⟨title, body⟩ ⟨title', body'⟩ h
  simpa [toJson, Json.record_inj, Json.text_inj] using h

theorem AndroidBlock.proper_toJson (b : AndroidBlock) : b.toJson.Proper :=
  .record (List.forall_mem_cons.2 ⟨.string _, proper_member Alert.proper_toJson _⟩)

theorem AndroidPriority.name_injective : Function.Injective AndroidPriority.name := by
  rintro ⟨⟩ ⟨⟩ h <;> first | rfl | exact absurd h (by decide)

theorem AndroidBlock.toJson_injective : Function.Injective AndroidBlock.toJson := by
  rintro ⟨priority, notification⟩ ⟨priority', notification'⟩ h
  obtain ⟨hp, hn⟩ := List.cons.inj (Json.record_inj.1 h)
  rw [member_inj Alert.toJson_injective] at hn
  rw [Prod.mk.injEq, Json.text_inj, AndroidPriority.name_injective.eq_iff] at hp
  exact congrArg₂ AndroidBlock.mk hp.2 hn

theorem ApnsBlock.proper_toJson (b : ApnsBlock) : b.toJson.Proper := by
  have hflag : (Json.number (Text.Decimal.write b.mutableFlag)).Proper := .number (Json.isNumber_write _)
  refine .record ?_
  simp only [List.forall_mem_cons, List.not_mem_nil, false_implies, implies_true, and_true]
  refine ⟨.ofTextMap _, .record ?_⟩
  simp only [List.forall_mem_cons, List.not_mem_nil, false_implies, implies_true, and_true]
  refine .record ?_
  simp [b.alert.proper_toJson, hflag]

theorem ApnsBlock.toJson_injective : Function.Injective ApnsBlock.toJson := by
  rintro ⟨headers, alert, flag⟩ ⟨headers', alert', flag'⟩ h
  simpa [toJson, Json.record_inj, Json.ofTextMap_inj, Alert.toJson_injective.eq_iff,
    Text.Decimal.write_injective.eq_iff] using h

namespace Request

/-- The members of the one object that a request holds. -/
def members (r : Request) : List (String × Json) :=
  ("token", .text r.token) :: ((if r.data.isEmpty then [] else [("data", .ofTextMap r.data)]) ++
    member "notification" Alert.toJson r.notification ++ member "android" AndroidBlock.toJson r.android ++
    member "apns" ApnsBlock.toJson r.apns)

theorem toJson_eq (r : Request) : r.toJson = .record [("message", .record r.members)] := rfl

theorem proper_toJson (r : Request) : r.toJson.Proper := by
  have hdata : ∀ m ∈ (if r.data.isEmpty then [] else [("data", Json.ofTextMap r.data)]), m.2.Proper := by
    split
    · simp
    · simp [Json.Proper.ofTextMap]
  have hmembers : ∀ m ∈ r.members, m.2.Proper := by
    simp only [members, List.forall_mem_cons, List.forall_mem_append]
    exact ⟨.string _, ⟨⟨hdata, proper_member Alert.proper_toJson _⟩, proper_member AndroidBlock.proper_toJson _⟩,
      proper_member ApnsBlock.proper_toJson _⟩
  rw [toJson_eq]
  exact .record (List.forall_mem_singleton.2 (.record hmembers))

theorem lookup_members (r : Request) (name : String) : r.members.lookup name =
    if name = "token" then some (.text r.token)
    else if name = "data" then (if r.data.isEmpty then none else some (.ofTextMap r.data))
    else if name = "notification" then r.notification.map Alert.toJson
    else if name = "android" then r.android.map AndroidBlock.toJson
    else if name = "apns" then r.apns.map ApnsBlock.toJson
    else none := by
  have hdata : (if r.data.isEmpty then [] else [("data", Json.ofTextMap r.data)]).lookup name =
      if name = "data" then (if r.data.isEmpty then none else some (.ofTextMap r.data)) else none := by
    split
    · simp
    · exact lookup_cons_ite ..
  rw [members, lookup_cons_ite, List.lookup_append, List.lookup_append, List.lookup_append, lookup_member,
    lookup_member, lookup_member, hdata]
  grind

theorem toJson_injective : Function.Injective Request.toJson := by
  intro r s h
  have hmembers : r.members = s.members := by simpa [toJson_eq, Json.record_inj] using h
  have hlookup : ∀ name, r.members.lookup name = s.members.lookup name := fun name => by rw [hmembers]
  have htoken := hlookup "token"
  have hdata := hlookup "data"
  have hnotification := hlookup "notification"
  have handroid := hlookup "android"
  have hapns := hlookup "apns"
  simp only [lookup_members, String.reduceEq, if_true, if_false, Option.some.injEq, Json.text_inj]
    at htoken hdata hnotification handroid hapns
  rw [(Option.map_injective Alert.toJson_injective).eq_iff] at hnotification
  rw [(Option.map_injective AndroidBlock.toJson_injective).eq_iff] at handroid
  rw [(Option.map_injective ApnsBlock.toJson_injective).eq_iff] at hapns
  have hdata : r.data = s.data := by
    split_ifs at hdata with hr hs
    · rw [TextMap.isEmpty_iff.1 hr, TextMap.isEmpty_iff.1 hs]
    · exact Json.ofTextMap_inj.1 (Option.some.inj hdata)
  cases r
  cases s
  cases htoken
  cases hdata
  cases hnotification
  cases handroid
  cases hapns
  rfl

theorem read?_body (r : Request) : Json.read? r.body = some r.toJson := Json.read?_renderText r.proper_toJson

/-- The text of a request determines the request. -/
theorem body_injective : Function.Injective Request.body := fun r s h =>
  toJson_injective (Json.renderText_inj r.proper_toJson s.proper_toJson h)

/-! ### Requests for a device -/

/-- What is shown of a message. -/
def alertTree (message : Message) : Json := .record [("title", .text message.title), ("body", .text message.body)]

/-- The member for the platform of a device. -/
def blockTree (policy : Policy) (message : Message) : Platform → String × Json
  | .web => ("notification", alertTree message)
  | .android => ("android", .record (("priority", .text policy.android.priority.name) ::
      if policy.android.display then [("notification", alertTree message)] else []))
  | .ios => ("apns", .record [
      ("headers", .record [("apns-priority", .text (Text.Decimal.text policy.apns.priority.toNat)),
        ("apns-push-type", .text policy.apns.pushType.name)]),
      ("payload", .record [("aps", .record [("alert", alertTree message),
        ("mutable-content", .number [if policy.apns.mutableContent then '1' else '0'])])])])

/-- The tree of a request with the given data. -/
def tree (policy : Policy) (device : Device) (message : Message) (data : TextMap) : Json :=
  .record [("message", .record (("token", .text device.token) ::
    (if data.isEmpty then [] else [("data", .record (data.entries.map fun entry => (entry.1, .text entry.2)))]) ++
      [blockTree policy message device.platform]))]

theorem entries_headers (p : ApnsPolicy) : p.headers.entries =
    [("apns-priority", Text.Decimal.text p.priority.toNat), ("apns-push-type", p.pushType.name)] := by
  have hlt : "apns-priority" < "apns-push-type" := by decide
  simp [ApnsPolicy.headers, TextMap.ofList, TextMap.insert, TextMap.empty, TextMap.insertEntry, hlt]

theorem write_mutableFlag (p : ApnsPolicy) :
    Text.Decimal.write p.mutableFlag = [if p.mutableContent then '1' else '0'] := by
  unfold ApnsPolicy.mutableFlag
  cases p.mutableContent <;> simp [Text.Decimal.write] <;> rfl

theorem toJson_build (policy : Policy) (device : Device) (message : Message) :
    (build policy device message).toJson = tree policy device message (build policy device message).data := by
  have hmap : ∀ data : TextMap, Json.ofTextMap data = .record (data.entries.map fun entry => (entry.1, .text entry.2)) :=
    fun data => rfl
  rcases drawnByApp_or policy device with hd | ⟨hp, hd⟩ | hp | hp
  · rw [build_of_drawnByApp policy device message hd]
    simp [toJson_eq, members, tree, blockTree, member, hmap, hd.1, hd.2, AndroidBlock.toJson]
  · rw [build_of_displayed policy device message hp hd]
    simp [toJson_eq, members, tree, blockTree, member, hmap, hp, hd, AndroidBlock.toJson, Alert.toJson, alertTree]
  · rw [build_of_ios policy device message hp]
    simp [toJson_eq, members, tree, blockTree, member, hmap, hp, ApnsBlock.toJson, Alert.toJson, alertTree,
      entries_headers, write_mutableFlag]
  · rw [build_of_web policy device message hp]
    simp [toJson_eq, members, tree, blockTree, member, hmap, hp, Alert.toJson, alertTree]

/-- The texts of a message leave no mark on the outline of what is shown. -/
theorem outline_blockTree (policy : Policy) (m n : Message) (platform : Platform) :
    (blockTree policy m platform).1 = (blockTree policy n platform).1 ∧
      (blockTree policy m platform).2.outline = (blockTree policy n platform).2.outline := by
  have halert : ∀ m n, (alertTree m).outline = (alertTree n).outline := fun m n => by
    simp [alertTree, Json.outline_record, Json.outline_text]
  cases platform with
  | web => exact ⟨rfl, halert m n⟩
  | ios => exact ⟨rfl, by simp [blockTree, Json.outline_record, halert m n]⟩
  | android =>
    refine ⟨rfl, ?_⟩
    cases hd : policy.android.display <;> simp [blockTree, hd, Json.outline_record, halert m n]

theorem outline_tree_eq {policy : Policy} {device device' : Device} {m m' : Message} {data data' : TextMap}
    (hp : device.platform = device'.platform) (hk : data.entries.map Prod.fst = data'.entries.map Prod.fst) :
    (tree policy device m data).outline = (tree policy device' m' data').outline := by
  have hempty : ∀ data : TextMap, data.isEmpty = (data.entries.map Prod.fst).isEmpty := fun data => by
    rw [TextMap.isEmpty, List.isEmpty_map]
  have hdata : ∀ data : TextMap,
      (Json.record (data.entries.map fun entry => (entry.1, .text entry.2))).outline =
        .record ((data.entries.map Prod.fst).map fun key => (key, .text "")) := Json.outline_ofTextMap
  obtain ⟨hname, hvalue⟩ := outline_blockTree policy m m' device'.platform
  simp only [tree, Json.outline_record, List.map_cons, List.map_append, List.map_nil, Json.outline_text, hp, hempty, hk,
    hname, hvalue]
  split
  · rfl
  · simp only [List.map_cons, List.map_nil, hdata, hk]

/-- The body of a request reads back as its tree, with all texts as they were; keys stand in the order of their bytes;
no other request has this body; and texts that change change no member. -/
theorem body_reads_back (policy : Policy) (device : Device) (message : Message) :
    Json.read? (build policy device message).body =
        some (tree policy device message (build policy device message).data) ∧
      (∀ m ∈ [(build policy device message).data, policy.apns.headers],
        m.entries.Pairwise fun a b => Text.Utf8.encode a.1.toList < Text.Utf8.encode b.1.toList) ∧
      (∀ other : Request, other.body = (build policy device message).body → other = build policy device message) ∧
      ∀ device' message', device'.platform = device.platform →
        (build policy device' message').data.entries.map Prod.fst =
          (build policy device message).data.entries.map Prod.fst →
        (Json.read? (build policy device' message').body).map Json.outline =
          (Json.read? (build policy device message).body).map Json.outline := by
  have hread : ∀ device message, Json.read? (build policy device message).body =
      some (tree policy device message (build policy device message).data) := fun device message => by
    rw [read?_body, toJson_build]
  refine ⟨hread device message, fun m _ => m.sorted_bytes, fun other h => body_injective h, ?_⟩
  intro device' message' hp hk
  rw [hread, hread, Option.map_some, Option.map_some, outline_tree_eq hp hk]

end Request

end Fcm

end PushDispatch
