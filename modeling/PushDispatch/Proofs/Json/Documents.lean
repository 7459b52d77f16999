import PushDispatch.CommandLine.Basic
import PushDispatch.Message.Json
import PushDispatch.Proofs.Json.RoundTrip
import PushDispatch.Proofs.TextMap

/-! Messages and lists of devices as JSON documents. What is written as a document is read back from its text: every
text character for character, a map of data with the same entries, a missing category as missing, and the devices of a
list one by one in their order. -/

namespace PushDispatch

namespace Json

/-- Reading undoes writing item by item. -/
theorem mapM_map_eq_some {α β : Type} (write : α → β) (read? : β → Option α) (h : ∀ a, read? (write a) = some a)
    (items : List α) : (items.map write).mapM read? = some items := by
  induction items with
  | nil => rfl
  | cons item items ih => simp [h, ih]

theorem textMap?_ofTextMap (m : TextMap) : textMap? (ofTextMap m) = some m := by
  have hmembers := mapM_map_eq_some (fun entry : String × String => (some entry.1, text entry.2)) textMember?
    (fun _ => rfl) m.entries
  rw [ofTextMap, record, List.map_map, textMap?]
  refine (congrArg (Option.map TextMap.ofList) hmembers).trans ?_
  rw [Option.map_some, TextMap.ofList_entries]

end Json

/-! ### Messages -/

namespace Message

theorem fields?_toJson (m : Message) : ∃ category, m.toJson.fields? ["title", "body", "data", "category"] =
      some ⟨false, [some (.text m.title), some (.text m.body), some (.ofTextMap m.data), some category]⟩ ∧
    Json.nullable? Json.text? category = some m.category := by
  obtain ⟨title, body, data, category⟩ := m
  cases category with
  | none => exact ⟨.null, by simp [toJson, Json.fields?, Json.record, Json.named], rfl⟩
  | some category => exact ⟨.text category, by simp [toJson, Json.fields?, Json.record, Json.named], rfl⟩

theorem ofJson?_toJson (m : Message) : ofJson? m.toJson = some m := by
  obtain ⟨category, hfields, hcategory⟩ := m.fields?_toJson
  rw [ofJson?, hfields]
  simp [Json.text?, Json.text, Json.fieldOr, Json.textMap?_ofTextMap, hcategory]

theorem proper_toJson (m : Message) : m.toJson.Proper := by
  refine .record ?_
  cases m.category <;> simp [Json.text, Json.Proper.string, Json.Proper.null, Json.Proper.ofTextMap]

end Message

/-! ### Devices -/

namespace Device

theorem ofName?_name (p : Platform) : Platform.ofName? p.name = some p := by
  cases p <;> rfl

theorem fields?_toJson (d : Device) :
    d.toJson.fields? ["token", "platform"] = some ⟨false, [some (.text d.token), some (.text d.platform.name)]⟩ := by
  simp [toJson, Json.fields?, Json.record, Json.named]

theorem ofJson?_toJson (d : Device) : ofJson? d.toJson = some d := by
  rw [ofJson?, fields?_toJson]
  simp [Json.text?, Json.text, Platform.ofJson?, ofName?_name]

theorem listOfJson?_listToJson (devices : List Device) : listOfJson? (listToJson devices) = some devices :=
  Json.mapM_map_eq_some toJson ofJson? ofJson?_toJson devices

theorem proper_listToJson (devices : List Device) : (listToJson devices).Proper := by
  refine .array fun item hi => ?_
  obtain ⟨device, -, rfl⟩ := List.mem_map.1 hi
  exact .record (by simp [Json.text, Json.Proper.string])

end Device

/-- A message and a list of devices of any length are what their documents are read as. -/
theorem documents_read_back :
    (∀ message : Message, (Json.read? message.toJson.renderText).bind Message.ofJson? = some message) ∧
      ∀ devices : List Device, CommandLine.readDevices (Device.listToJson devices).renderText = .ok devices := by
  refine ⟨fun message => ?_, fun devices => ?_⟩
  · rw [Json.read?_renderText message.proper_toJson]
    exact message.ofJson?_toJson
  · have hread : (Json.read? (Device.listToJson devices).renderText).bind Device.listOfJson? = some devices := by
      rw [Json.read?_renderText (Device.proper_listToJson devices)]
      exact Device.listOfJson?_listToJson devices
    rw [CommandLine.readDevices, hread]

end PushDispatch
