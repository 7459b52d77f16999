import Mathlib.Data.List.Forall2
import PushDispatch.Json.Record

/-! Records in JSON, said without a reader. A record is told by the values of its fields, in the order of the
fields: in an object each field stands under its name, once or not at all, and in an array the fields stand one
after the other, where the last ones may be missing. The readers of records accept exactly these. -/

namespace PushDispatch.Json

/-- A value is a record with fields of the given names, which have the given values. Members with other names may
stand in an object too, as long as their names are texts. -/
inductive Holds (names : List String) : Json → List (Option Json) → Prop
  | byName {members values} (texts : ∀ member ∈ members, member.1 ≠ none)
      (fields : List.Forall₂ (fun name value => named members name = value.toList) names values) :
      Holds names (.object members) values
  | byPlace {items missing} (fits : items.length + missing = names.length) :
      Holds names (.array items) (items.map some ++ List.replicate missing none)

/-- A field that may be missing, and then has a value of its own. -/
inductive FieldIs {α : Type} (missing : α) (Reads : Json → α → Prop) : Option Json → α → Prop
  | missing : FieldIs missing Reads none missing
  | given {json x} (h : Reads json x) : FieldIs missing Reads (some json) x

theorem eq_toList_iff {α : Type} {l : List α} {o : Option α} : l = o.toList ↔ l.length ≤ 1 ∧ l.head? = o := by
  cases l with
  | nil => cases o <;> simp
  | cons a l =>
    cases o with
    | none => simp
    | some b => simp [and_comm]

/-- A list of fields in an object: each name stands there once at most. -/
theorem forall₂_named_iff {members : List (Option String × Json)} {names : List String} {values : List (Option Json)} :
    List.Forall₂ (fun name value => named members name = value.toList) names values ↔
      (∀ name ∈ names, (named members name).length ≤ 1) ∧ values = names.map fun name => (named members name).head? := by
  induction names generalizing values with
  | nil => cases values <;> simp
  | cons name names ih =>
    cases values with
    | nil => simp
    | cons value values =>
      rw [List.forall₂_cons, eq_toList_iff, ih]
      simp only [List.forall_mem_cons, List.map_cons, List.cons.injEq]
      grind

theorem fields?_eq_some_iff {names : List String} {json : Json} {fields : Fields} :
    json.fields? names = some fields ↔
      json.Holds names fields.values ∧ (fields.byPosition = true ↔ ∃ items, json = .array items) := by
  obtain ⟨byPosition, values⟩ := fields
  cases json with
  | array items =>
    simp only [fields?, Json.array.injEq, exists_eq', iff_true]
    constructor
    · intro h
      split at h
      · next hle =>
        cases h
        exact ⟨.byPlace (by omega), rfl⟩
      · cases h
    · rintro ⟨h, rfl⟩
      cases h with
      | @byPlace _ missing fits =>
        have hm : names.length - items.length = missing := by omega
        rw [if_pos (by omega), hm]
  | object members =>
    simp only [fields?, reduceCtorEq, exists_false, iff_false, Bool.not_eq_true]
    constructor
    · intro h
      split at h
      · next hall =>
        cases h
        simp only [Bool.and_eq_true, List.all_eq_true, decide_eq_true_eq] at hall
        exact ⟨.byName (fun member hm => Option.isSome_iff_ne_none.1 (hall.1 member hm))
          (forall₂_named_iff.2 ⟨hall.2, rfl⟩), rfl⟩
      · cases h
    · rintro ⟨h, rfl⟩
      cases h with
      | byName texts fields =>
        obtain ⟨hle, rfl⟩ := forall₂_named_iff.1 fields
        rw [if_pos]
        simp only [Bool.and_eq_true, List.all_eq_true, decide_eq_true_eq]
        exact ⟨fun member hm => Option.isSome_iff_ne_none.2 (texts member hm), hle⟩
  | null | bool | number | string =>
    simp only [fields?, reduceCtorEq, false_iff]
    rintro ⟨h, -⟩
    cases h

theorem Holds.exists_fields {names : List String} {json : Json} {values : List (Option Json)}
    (h : json.Holds names values) :
    ∃ byPosition, json.fields? names = some ⟨byPosition, values⟩ ∧ (byPosition = true ↔ ∃ items, json = .array items) := by
  cases h with
  | byName texts fields => exact ⟨false, fields?_eq_some_iff.2 ⟨.byName texts fields, by simp⟩, by simp⟩
  | byPlace fits => exact ⟨true, fields?_eq_some_iff.2 ⟨.byPlace fits, by simp⟩, by simp⟩

/-! ### Values of fields -/

section Readers

variable {α : Type} {read? : Json → Option α} {Reads : Json → α → Prop}

theorem text?_eq_some_iff {json : Json} {s : String} : json.text? = some s ↔ json = .text s := by
  cases json <;> simp [text?, text]

theorem fieldOr_eq_some_iff (h : ∀ json x, read? json = some x ↔ Reads json x) {missing x : α}
    {value : Option Json} : fieldOr missing read? value = some x ↔ FieldIs missing Reads value x := by
  cases value with
  | none =>
    refine ⟨fun he => ?_, fun hf => ?_⟩
    · cases he
      exact .missing
    · cases hf
      rfl
  | some json =>
    refine ⟨fun he => .given ((h json x).1 he), fun hf => ?_⟩
    cases hf with
    | given hr => exact (h json x).2 hr

theorem mapM_eq_some_iff_forall₂ (h : ∀ json x, read? json = some x ↔ Reads json x) {items : List Json} {xs : List α} :
    items.mapM read? = some xs ↔ List.Forall₂ Reads items xs := by
  induction items generalizing xs with
  | nil => cases xs <;> simp
  | cons item items ih =>
    simp only [List.mapM_cons, Option.bind_eq_bind, Option.bind_eq_some_iff, Option.pure_def, Option.some.injEq, ih, h]
    rw [List.forall₂_cons_left_iff]
    grind

theorem list?_eq_some_iff (h : ∀ json x, read? json = some x ↔ Reads json x) {json : Json} {xs : List α} :
    list? read? json = some xs ↔ ∃ items, json = .array items ∧ List.Forall₂ Reads items xs := by
  cases json <;> simp [list?, mapM_eq_some_iff_forall₂ h]

end Readers

end PushDispatch.Json
