import PushDispatch.Fcm.Request
import PushDispatch.Proofs.TextMap

/-! What a request shows on the device, and what it leaves to the app. A request has the block of the device's platform
and no other one. Title and body stand in that block, or in the data if the app is to draw the notification itself.
Besides them only the category is written into the data, and it goes before an entry of its name. Two messages make the
same request exactly if they agree in all that a request can show. -/

namespace PushDispatch.Fcm.Request

/-- The app gets title and body among its data, and nothing is shown without it. -/
def IsDrawnByApp (policy : Policy) (device : Device) : Prop :=
  device.platform = .android ∧ policy.android.display = false

instance (policy : Policy) (device : Device) : Decidable (IsDrawnByApp policy device) :=
  inferInstanceAs (Decidable (_ ∧ _))

/-- The notifications of a request, on each of its levels. -/
def alerts (r : Request) : List Alert :=
  r.notification.toList ++ (r.android.bind (·.notification)).toList ++ (r.apns.map (·.alert)).toList

/-- What the data of a request holds at a key. -/
def dataAt? (policy : Policy) (device : Device) (message : Message) (key : String) : Option String :=
  if key = "category" ∧ message.category.isSome then message.category
  else if IsDrawnByApp policy device ∧ key = "title" then some message.title
  else if IsDrawnByApp policy device ∧ key = "body" then some message.body
  else message.data.get? key

/-- A request shows a message on a device as the policy wants it. -/
structure Presents (policy : Policy) (device : Device) (message : Message) (r : Request) : Prop where
  token : r.token = device.token
  notification_iff : r.notification.isSome ↔ device.platform = .web
  android_iff : r.android.isSome ↔ device.platform = .android
  apns_iff : r.apns.isSome ↔ device.platform = .ios
  web : device.platform = .web → r.notification = some ⟨message.title, message.body⟩
  ios : device.platform = .ios →
    r.apns = some ⟨.ofList [("apns-push-type", policy.apns.pushType.name),
      ("apns-priority", Text.Decimal.text policy.apns.priority.toNat)], ⟨message.title, message.body⟩,
        if policy.apns.mutableContent then 1 else 0⟩
  displayed : device.platform = .android → policy.android.display = true →
    r.android = some ⟨policy.android.priority, some ⟨message.title, message.body⟩⟩
  drawnByApp : IsDrawnByApp policy device →
    r.android = some ⟨policy.android.priority, none⟩ ∧ r.alerts = [] ∧
      r.data.get? "title" = some message.title ∧ r.data.get? "body" = some message.body
  shownOnce : ¬ IsDrawnByApp policy device → r.alerts = [⟨message.title, message.body⟩]
  data : ∀ key, r.data.get? key = dataAt? policy device message key

/-- The keys at which a request may hold something else than the data of the message. -/
def IsReserved (policy : Policy) (device : Device) (key : String) : Prop :=
  key = "category" ∨ IsDrawnByApp policy device ∧ (key = "title" ∨ key = "body")

/-- Two messages differ in nothing that a request can show. -/
structure Alike (policy : Policy) (device : Device) (m n : Message) : Prop where
  title : m.title = n.title
  body : m.body = n.body
  category : m.category.or (m.data.get? "category") = n.category.or (n.data.get? "category")
  data : ∀ key, ¬ IsReserved policy device key → m.data.get? key = n.data.get? key

/-- The data of a message with its category. -/
def dataWithCategory (message : Message) : TextMap :=
  match message.category with
  | some category => message.data.insert "category" category
  | none => message.data

theorem get?_dataWithCategory (message : Message) (key : String) : (dataWithCategory message).get? key =
    if key = "category" ∧ message.category.isSome then message.category else message.data.get? key := by
  unfold dataWithCategory
  cases message.category with
  | none => simp
  | some category => simp [TextMap.get?_insert]

section Build

variable (policy : Policy) (device : Device) (message : Message)

theorem token_build : (build policy device message).token = device.token := by
  unfold build
  cases device.platform with
  | android => dsimp only; split <;> rfl
  | ios => rfl
  | web => rfl

theorem build_of_drawnByApp (h : IsDrawnByApp policy device) : build policy device message =
    ⟨device.token, ((dataWithCategory message).insert "title" message.title).insert "body" message.body, none,
      some ⟨policy.android.priority, none⟩, none⟩ := by
  simp only [build, AndroidPolicy.isDataOnly, h.1, h.2, Bool.not_false, if_true]
  rfl

theorem build_of_displayed (h : device.platform = .android) (hd : policy.android.display = true) :
    build policy device message = ⟨device.token, dataWithCategory message, none,
      some ⟨policy.android.priority, some ⟨message.title, message.body⟩⟩, none⟩ := by
  simp only [build, AndroidPolicy.isDataOnly, h, hd, Bool.not_true, Bool.false_eq_true, if_false]
  rfl

theorem build_of_ios (h : device.platform = .ios) : build policy device message =
    ⟨device.token, dataWithCategory message, none, none,
      some ⟨policy.apns.headers, ⟨message.title, message.body⟩, policy.apns.mutableFlag⟩⟩ := by
  simp only [build, h]
  rfl

theorem build_of_web (h : device.platform = .web) : build policy device message =
    ⟨device.token, dataWithCategory message, some ⟨message.title, message.body⟩, none, none⟩ := by
  simp only [build, h]
  rfl

theorem drawnByApp_or : IsDrawnByApp policy device ∨
    (device.platform = .android ∧ policy.android.display = true) ∨ device.platform = .ios ∨
      device.platform = .web := by
  unfold IsDrawnByApp
  cases device.platform <;> cases policy.android.display <;> simp

/-! ### The data -/

theorem data_build_of_not_drawnByApp (h : ¬ IsDrawnByApp policy device) :
    (build policy device message).data = dataWithCategory message := by
  rcases drawnByApp_or policy device with hd | ⟨hp, hd⟩ | hp | hp
  · exact absurd hd h
  · rw [build_of_displayed policy device message hp hd]
  · rw [build_of_ios policy device message hp]
  · rw [build_of_web policy device message hp]

theorem get?_data_build (key : String) :
    (build policy device message).data.get? key = dataAt? policy device message key := by
  unfold dataAt?
  by_cases hd : IsDrawnByApp policy device
  · rw [build_of_drawnByApp policy device message hd]
    simp only [TextMap.get?_insert, get?_dataWithCategory, hd, true_and]
    by_cases hb : key = "body"
    · simp [hb]
    · by_cases ht : key = "title"
      · simp [ht]
      · simp [hb, ht]
  · rw [data_build_of_not_drawnByApp policy device message hd, get?_dataWithCategory]
    simp [hd]

/-! ### The blocks -/

theorem presents_build : Presents policy device message (build policy device message) := by
  have hdata := get?_data_build policy device message
  rcases drawnByApp_or policy device with hd | ⟨hp, hd⟩ | hp | hp
  · have hb := build_of_drawnByApp policy device message hd
    refine ⟨token_build .., ?_, ?_, ?_, ?_, ?_, ?_, ?_, ?_, hdata⟩
    all_goals simp [hb, hd, hd.1, hd.2, alerts, TextMap.get?_insert]
  · have hb := build_of_displayed policy device message hp hd
    refine ⟨token_build .., ?_, ?_, ?_, ?_, ?_, ?_, ?_, ?_, hdata⟩
    all_goals simp [hb, hp, hd, IsDrawnByApp, alerts]
  · have hb := build_of_ios policy device message hp
    refine ⟨token_build .., ?_, ?_, ?_, ?_, ?_, ?_, ?_, ?_, hdata⟩
    all_goals simp [hb, hp, IsDrawnByApp, alerts, ApnsPolicy.headers, ApnsPolicy.mutableFlag]
  · have hb := build_of_web policy device message hp
    refine ⟨token_build .., ?_, ?_, ?_, ?_, ?_, ?_, ?_, ?_, hdata⟩
    all_goals simp [hb, hp, IsDrawnByApp, alerts]

end Build

/-! ### Messages with the same request -/

variable {policy : Policy} {device : Device} {m n : Message}

theorem dataAt?_category (policy : Policy) (device : Device) (m : Message) :
    dataAt? policy device m "category" = m.category.or (m.data.get? "category") := by
  unfold dataAt?
  cases m.category <;> simp

theorem dataAt?_of_not_reserved {key : String} (h : ¬ IsReserved policy device key) :
    dataAt? policy device m key = m.data.get? key := by
  unfold IsReserved at h
  unfold dataAt?
  grind

/-- Title and body can be read off a request, wherever they stand in it. -/
theorem Presents.text_eq {r : Request} (hm : Presents policy device m r) (hn : Presents policy device n r) :
    m.title = n.title ∧ m.body = n.body := by
  by_cases hd : IsDrawnByApp policy device
  · obtain ⟨-, -, ht, hb⟩ := hm.drawnByApp hd
    obtain ⟨-, -, ht', hb'⟩ := hn.drawnByApp hd
    exact ⟨Option.some.inj (ht.symm.trans ht'), Option.some.inj (hb.symm.trans hb')⟩
  · have h := (hm.shownOnce hd).symm.trans (hn.shownOnce hd)
    simpa using h

theorem Presents.alike {r : Request} (hm : Presents policy device m r) (hn : Presents policy device n r) :
    Alike policy device m n := by
  obtain ⟨title, body⟩ := hm.text_eq hn
  have hentry : ∀ key, dataAt? policy device m key = dataAt? policy device n key := fun key =>
    (hm.data key).symm.trans (hn.data key)
  refine ⟨title, body, ?_, fun key hk => ?_⟩
  · rw [← dataAt?_category policy device m, hentry, dataAt?_category]
  · rw [← dataAt?_of_not_reserved hk, hentry, dataAt?_of_not_reserved hk]

theorem Alike.dataAt?_eq (h : Alike policy device m n) (key : String) :
    dataAt? policy device m key = dataAt? policy device n key := by
  by_cases hk : IsReserved policy device key
  · rcases hk with rfl | ⟨hd, rfl | rfl⟩
    · rw [dataAt?_category, dataAt?_category, h.category]
    · simp [dataAt?, hd, h.title]
    · simp [dataAt?, hd, h.body]
  · rw [dataAt?_of_not_reserved hk, dataAt?_of_not_reserved hk, h.data key hk]

theorem Alike.build_eq (h : Alike policy device m n) : build policy device m = build policy device n := by
  have hdata : (build policy device m).data = (build policy device n).data := TextMap.ext_get? fun key => by
    rw [get?_data_build, get?_data_build, h.dataAt?_eq]
  rcases drawnByApp_or policy device with hd | ⟨hp, hd⟩ | hp | hp
  · rw [build_of_drawnByApp policy device m hd, build_of_drawnByApp policy device n hd] at hdata ⊢
    dsimp only at hdata
    rw [hdata]
  · rw [build_of_displayed policy device m hp hd, build_of_displayed policy device n hp hd] at hdata ⊢
    dsimp only at hdata
    rw [hdata, h.title, h.body]
  · rw [build_of_ios policy device m hp, build_of_ios policy device n hp] at hdata ⊢
    dsimp only at hdata
    rw [hdata, h.title, h.body]
  · rw [build_of_web policy device m hp, build_of_web policy device n hp] at hdata ⊢
    dsimp only at hdata
    rw [hdata, h.title, h.body]

/-- A request presents its message as the platform renders it, and tells two messages apart exactly if they differ in
something that it can show. -/
theorem message_presented (policy : Policy) (device : Device) (message : Message) :
    Presents policy device message (build policy device message) ∧
      ∀ other, build policy device other = build policy device message ↔ Alike policy device other message := by
  refine ⟨presents_build policy device message, fun other => ⟨fun h => ?_, Alike.build_eq⟩⟩
  have hother := presents_build policy device other
  rw [h] at hother
  exact hother.alike (presents_build policy device message)

end PushDispatch.Fcm.Request
