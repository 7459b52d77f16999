import PushDispatch.Proofs.TextMap
import PushDispatch.Toml.Reader

/-! Documents that are alike but for one string. Reading goes on in the same way on both, for nothing that is done to a
document depends on the text of a string in it: both take the same tokens, and the documents that they end in are again
alike but for this string. -/

namespace PushDispatch.Toml

/-! ### Results that go together -/

theorem rel_bind {α β γ δ : Type} {r : α → β → Prop} {s : γ → δ → Prop} {a : Option α} {b : Option β}
    {f : α → Option γ} {g : β → Option δ} (h : Option.Rel r a b) (hf : ∀ x y, r x y → Option.Rel s (f x) (g y)) :
    Option.Rel s (a.bind f) (b.bind g) := by
  cases h with
  | none => exact .none
  | some h => exact hf _ _ h

/-- What follows the same result. -/
theorem rel_bind_self {α γ δ : Type} {s : γ → δ → Prop} (a : Option α) {f : α → Option γ} {g : α → Option δ}
    (hf : ∀ x, Option.Rel s (f x) (g x)) : Option.Rel s (a.bind f) (a.bind g) := by
  cases a with
  | none => exact .none
  | some x => exact hf x

theorem rel_map_self {α β γ : Type} {s : β → γ → Prop} (a : Option α) {f : α → β} {g : α → γ}
    (hf : ∀ x, s (f x) (g x)) : Option.Rel s (a.map f) (a.map g) := by
  cases a with
  | none => exact .none
  | some x => exact .some (hf x)

/-! ### Entries of a table -/

theorem lookup_replace (key : String) (value : Toml) (entries : Entries) (k : String) :
    (replace key value entries).lookup k =
      if k = key then (entries.lookup k).map fun _ => value else entries.lookup k := by
  induction entries with
  | nil => simp [replace]
  | cons entry entries ih =>
    rw [replace] at ih
    rw [replace, List.map_cons, lookup_cons_ite, lookup_cons_ite, ih]
    by_cases hentry : entry.1 = key
    · rw [if_pos hentry, hentry]
      by_cases hk : k = key <;> simp [hk]
    · rw [if_neg hentry]
      by_cases hk : k = entry.1
      · rw [if_pos hk, if_pos hk, if_neg (hk ▸ hentry)]
      · rw [if_neg hk, if_neg hk]

/-- The same keys with the same values, but for one key, whose values are related. -/
structure AgreeBut (key : String) (related : Toml → Toml → Prop) (xs ys : Entries) : Prop where
  same : ∀ k ≠ key, xs.lookup k = ys.lookup k
  differ : ∃ a b, xs.lookup key = some a ∧ ys.lookup key = some b ∧ related a b

namespace AgreeBut

variable {key k : String} {related : Toml → Toml → Prop} {xs ys : Entries} {a b : Toml}

theorem isSome_lookup (h : AgreeBut key related xs ys) (k : String) :
    (xs.lookup k).isSome = (ys.lookup k).isSome := by
  by_cases hk : k = key
  · obtain ⟨a, b, ha, hb, -⟩ := h.differ
    rw [hk, ha, hb]
    rfl
  · rw [h.same k hk]

theorem append (h : AgreeBut key related xs ys) (entry : String × Toml) :
    AgreeBut key related (xs ++ [entry]) (ys ++ [entry]) := by
  obtain ⟨a, b, ha, hb, hab⟩ := h.differ
  refine ⟨fun k hk => ?_, a, b, ?_, ?_, hab⟩
  · rw [List.lookup_append, List.lookup_append, h.same k hk]
  · rw [List.lookup_append, ha, Option.some_or]
  · rw [List.lookup_append, hb, Option.some_or]

theorem replace_of_ne (h : AgreeBut key related xs ys) (hk : k ≠ key) (value : Toml) :
    AgreeBut key related (replace k value xs) (replace k value ys) := by
  obtain ⟨a, b, ha, hb, hab⟩ := h.differ
  refine ⟨fun k' hk' => ?_, a, b, ?_, ?_, hab⟩
  · rw [lookup_replace, lookup_replace, h.same k' hk']
  · rw [lookup_replace, if_neg hk.symm, ha]
  · rw [lookup_replace, if_neg hk.symm, hb]

theorem replace_self (h : AgreeBut key related xs ys) (hab : related a b) :
    AgreeBut key related (replace key a xs) (replace key b ys) := by
  obtain ⟨a', b', ha, hb, -⟩ := h.differ
  refine ⟨fun k hk => ?_, a, b, ?_, ?_, hab⟩
  · rw [lookup_replace, lookup_replace, if_neg hk, if_neg hk, h.same k hk]
  · rw [lookup_replace, if_pos rfl, ha, Option.map_some]
  · rw [lookup_replace, if_pos rfl, hb, Option.map_some]

end AgreeBut

/-- Two values that are alike but for the string at the end of a path. -/
def Apart (v w : String) : List String → Toml → Toml → Prop
  | [], x, y => x = .string v ∧ y = .string w
  | key :: path, x, y => ∃ kind xs ys, x = .table kind xs ∧ y = .table kind ys ∧ AgreeBut key (Apart v w path) xs ys

/-! ### Changes -/

section
variable {v w : String}

/-- Tables of the same kind that are alike but for the string at the end of a path. -/
def TablesApart (v w key : String) (path : List String) (r s : TableKind × Entries) : Prop :=
  r.1 = s.1 ∧ AgreeBut key (Apart v w path) r.2 s.2

/-- A change that does not depend on the string in which two tables differ. -/
def Respects (v w : String) (change : TableKind → Entries → Option (TableKind × Entries)) : Prop :=
  ∀ ⦃key path xs ys⦄ kind, AgreeBut key (Apart v w path) xs ys →
    Option.Rel (TablesApart v w key path) (change kind xs) (change kind ys)

theorem Respects.changeAt {change : TableKind → Entries → Option (TableKind × Entries)} (h : Respects v w change)
    (byDottedKey : Bool) (way : List String) : Respects v w (changeAt byDottedKey change way) := by
  induction way with
  | nil => exact h
  | cons k way ih =>
    intro key path xs ys kind hagree
    by_cases hk : k = key
    · -- the way leads towards the string, and ends before it if it gets there
      subst hk
      obtain ⟨a, b, ha, hb, hab⟩ := hagree.differ
      rw [Toml.changeAt, Toml.changeAt, ha, hb]
      cases path with
      | nil =>
        obtain ⟨rfl, rfl⟩ := hab
        exact .none
      | cons key path =>
        obtain ⟨inner, xs', ys', rfl, rfl, hinner⟩ := hab
        cases hopen : inner.isOpen byDottedKey with
        | false => simp [hopen]
        | true =>
          simp only [hopen, if_true]
          refine rel_bind (ih inner hinner) ?_
          rintro ⟨k1, es1⟩ ⟨k2, es2⟩ ⟨rfl, hes⟩
          exact .some ⟨rfl, hagree.replace_self ⟨_, _, _, rfl, rfl, hes⟩⟩
    · -- the way leads elsewhere, where both are the same
      rw [Toml.changeAt, Toml.changeAt, hagree.same k hk]
      split
      · exact rel_bind_self _ fun _ => .some ⟨rfl, hagree.append _⟩
      · split
        · exact rel_bind_self _ fun _ => .some ⟨rfl, hagree.replace_of_ne hk _⟩
        · exact .none
      · split
        · exact rel_bind_self _ fun _ => .some ⟨rfl, hagree.replace_of_ne hk _⟩
        · exact .none
      · exact .none

theorem respects_addEntry (way : List String) (key : String) (value : Toml) :
    Respects v w (addEntry way key value) := by
  refine Respects.changeAt (fun k path xs ys kind h => ?_) true way
  rw [h.isSome_lookup]
  split
  · exact .none
  · exact .some ⟨rfl, h.append _⟩

theorem respects_addTable (key : String) : Respects v w (addTable key) := by
  intro k path xs ys kind h
  rw [addTable, addTable]
  by_cases hk : key = k
  · subst hk
    obtain ⟨a, b, ha, hb, hab⟩ := h.differ
    rw [ha, hb]
    cases path with
    | nil =>
      obtain ⟨rfl, rfl⟩ := hab
      exact .none
    | cons next path =>
      obtain ⟨inner, xs', ys', rfl, rfl, hinner⟩ := hab
      cases inner with
      | implied => exact .some ⟨rfl, h.replace_self ⟨_, _, _, rfl, rfl, hinner⟩⟩
      | _ => exact .none
  · rw [h.same key hk]
    split
    · exact .some ⟨rfl, h.append _⟩
    · exact .some ⟨rfl, h.replace_of_ne hk _⟩
    · exact .none

theorem respects_addToTables (key : String) : Respects v w (addToTables key) := by
  intro k path xs ys kind h
  rw [addToTables, addToTables]
  by_cases hk : key = k
  · subst hk
    obtain ⟨a, b, ha, hb, hab⟩ := h.differ
    rw [ha, hb]
    cases path with
    | nil =>
      obtain ⟨rfl, rfl⟩ := hab
      exact .none
    | cons next path =>
      obtain ⟨inner, xs', ys', rfl, rfl, -⟩ := hab
      exact .none
  · rw [h.same key hk]
    split
    · exact .some ⟨rfl, h.append _⟩
    · exact .some ⟨rfl, h.replace_of_ne hk _⟩
    · exact .none

/-! ### Readings -/

/-- Two readings at the same point whose documents are alike but for one string. -/
structure Beside (v w key : String) (path : List String) (r s : Reading) : Prop where
  table : r.table = s.table
  stack : r.stack = s.stack
  expect : r.expect = s.expect
  document : AgreeBut key (Apart v w path) r.document s.document

namespace Beside

variable {key : String} {path : List String} {r s : Reading}

theorem exists_eq (h : Beside v w key path r s) : ∃ document, s = { r with document := document } := by
  obtain ⟨document, _, _, _⟩ := s
  obtain ⟨rfl, rfl, rfl, -⟩ := h
  exact ⟨document, rfl⟩

theorem with_expect (h : Beside v w key path r s) (expect : Expect) :
    Beside v w key path { r with expect := expect } { s with expect := expect } :=
  ⟨h.table, h.stack, rfl, h.document⟩

theorem with_stack (h : Beside v w key path r s) (stack : List Open) :
    Beside v w key path { r with stack := stack } { s with stack := stack } :=
  ⟨h.table, rfl, h.expect, h.document⟩

theorem put (h : Beside v w key path r s) (value : Toml) : Option.Rel (Beside v w key path) (r.put value) (s.put value) := by
  obtain ⟨document', rfl⟩ := h.exists_eq
  simp only [Reading.put]
  split
  · refine rel_bind ((respects_addEntry _ _ value).changeAt false r.table .headed h.document) ?_
    rintro ⟨k1, es1⟩ ⟨k2, es2⟩ ⟨rfl, hes⟩
    exact .some ⟨rfl, rfl, rfl, hes⟩
  · exact .some ⟨rfl, rfl, rfl, h.document⟩
  · exact rel_bind_self _ fun _ => .some ⟨rfl, rfl, rfl, h.document⟩
  · exact .none

theorem push (h : Beside v w key path r s) (container : Open) (expect : Expect) :
    Option.Rel (Beside v w key path) (r.push container expect) (s.push container expect) := by
  rw [Reading.push, Reading.push, h.stack]
  split
  · exact .some ⟨h.table, rfl, rfl, h.document⟩
  · exact .none

theorem pop (h : Beside v w key path r s) : Option.Rel (Beside v w key path) r.pop s.pop := by
  rw [Reading.pop, Reading.pop, h.stack]
  split
  · exact (h.with_stack _).put _
  · exact (h.with_stack _).put _
  · exact .none

theorem stepValue (h : Beside v w key path r s) (token : Token) :
    Option.Rel (Beside v w key path) (r.stepValue token) (s.stepValue token) := by
  cases token with
  | blank => exact .some h
  | openSquare => exact h.push ..
  | openCurly => exact h.push ..
  | string => exact h.put _
  | word => exact .some (h.with_expect _)
  | _ => exact .none

theorem stepKey (h : Beside v w key path r s) (target : Target) (way : List String) (token : Token) :
    Option.Rel (Beside v w key path) (r.stepKey target way token) (s.stepKey target way token) := by
  unfold Reading.stepKey
  split
  · exact .some (h.with_expect _)
  · exact rel_map_self _ fun _ => h.with_expect _

theorem openTable (h : Beside v w key path r s) {add : String → TableKind → Entries → Option (TableKind × Entries)}
    (hadd : ∀ k, Respects v w (add k)) (way : List String) :
    Option.Rel (Beside v w key path) (r.openTable add way) (s.openTable add way) := by
  cases way with
  | nil => exact .none
  | cons k way =>
    refine rel_bind ((hadd k).changeAt false way.reverse .headed h.document) ?_
    rintro ⟨k1, es1⟩ ⟨k2, es2⟩ ⟨rfl, hes⟩
    exact .some ⟨rfl, h.stack, rfl, hes⟩

theorem stepAfterKey (h : Beside v w key path r s) (target : Target) (way : List String) (token : Token) :
    Option.Rel (Beside v w key path) (r.stepAfterKey target way token) (s.stepAfterKey target way token) := by
  obtain ⟨document', rfl⟩ := h.exists_eq
  obtain ⟨document, table, stack, expect⟩ := r
  cases token with
  | blank => exact .some h
  | dot => exact .some (h.with_expect _)
  | closeSquare =>
    cases target with
    | table => exact h.openTable respects_addTable way
    | tables => exact .some (h.with_expect _)
    | entry => exact .none
  | equals =>
    cases target with
    | entry =>
      cases stack with
      | nil => exact .some ⟨rfl, rfl, rfl, h.document⟩
      | cons container stack => cases container <;> exact .some ⟨rfl, rfl, rfl, h.document⟩
    | _ => exact .none
  | _ => exact .none

theorem stepAfter (h : Beside v w key path r s) (token : Token) :
    Option.Rel (Beside v w key path) (r.stepAfter token) (s.stepAfter token) := by
  obtain ⟨document', rfl⟩ := h.exists_eq
  obtain ⟨document, table, stack, expect⟩ := r
  cases expect with
  | endOfLine =>
    cases token with
    | blank => exact .some h
    | newline => exact .some (h.with_expect _)
    | _ => exact .none
  | afterItem =>
    cases token with
    | blank => exact .some h
    | newline => exact .some h
    | comma => exact .some (h.with_expect _)
    | closeSquare => exact h.pop
    | _ => exact .none
  | afterMember =>
    cases token with
    | blank => exact .some h
    | newline => exact .some h
    | comma => exact .some (h.with_expect _)
    | closeCurly => exact h.pop
    | _ => exact .none
  | _ =>
    cases token with
    | blank => exact .some h
    | _ => exact .none

theorem putScalar (h : Beside v w key path r s) (chars : List Char) :
    Option.Rel (Beside v w key path) (r.putScalar chars) (s.putScalar chars) :=
  rel_bind_self _ h.put

/-- A blank ends a value, but for a space that may stand in front of a time. -/
theorem step_scalar_blank (document : Entries) (table : List String) (stack : List Open) (chars : List Char) (c : Char) :
    Reading.step ⟨document, table, stack, .scalar chars⟩ (.blank c) =
      if c == ' ' && afterDate? chars == some [] then some ⟨document, table, stack, .afterDate chars⟩
      else Reading.putScalar ⟨document, table, stack, .scalar chars⟩ chars := rfl

theorem step (h : Beside v w key path r s) (token : Token) :
    Option.Rel (Beside v w key path) (r.step token) (s.step token) := by
  obtain ⟨document', rfl⟩ := h.exists_eq
  obtain ⟨document, table, stack, expect⟩ := r
  have hends (chars : List Char) := rel_bind (h.putScalar chars) fun _ _ hput => hput.stepAfter token
  cases expect with
  | line =>
    have hkey := h.stepKey .entry [] token
    cases token with
    | newline => exact .some h
    | blank => exact .some h
    | openSquare => exact .some (h.with_expect _)
    | _ => exact hkey
  | endOfLine => exact h.stepAfter token
  | header =>
    have hkey := h.stepKey .table [] token
    cases token with
    | openSquare => exact .some (h.with_expect _)
    | _ => exact hkey
  | key target way => exact h.stepKey target way token
  | afterKey target way => exact h.stepAfterKey target way token
  | headerEnd way =>
    cases token with
    | closeSquare => exact h.openTable respects_addToTables way
    | _ => exact .none
  | value => exact h.stepValue token
  | scalar chars =>
    cases token with
    | word => exact .some (h.with_expect _)
    | dot => exact .some (h.with_expect _)
    | blank c =>
      rw [step_scalar_blank, step_scalar_blank]
      split
      · exact .some (h.with_expect _)
      · exact h.putScalar chars
    | _ => exact hends chars
  | afterDate chars =>
    cases token with
    | word => exact .some (h.with_expect _)
    | _ => exact hends chars
  | item =>
    have hvalue := h.stepValue token
    cases token with
    | newline => exact .some h
    | closeSquare => exact h.pop
    | _ => exact hvalue
  | afterItem => exact h.stepAfter token
  | member =>
    have hkey := h.stepKey .entry [] token
    cases token with
    | newline => exact .some h
    | blank => exact .some h
    | closeCurly => exact h.pop
    | _ => exact hkey
  | afterMember => exact h.stepAfter token

theorem finish (h : Beside v w key path r s) :
    Option.Rel (AgreeBut key (Apart v w path)) r.finish s.finish := by
  have hends : ∀ chars, Option.Rel (AgreeBut key (Apart v w path)) (Reading.finish.endsWith r chars)
      (Reading.finish.endsWith s chars) := by
    refine fun chars => rel_bind (h.putScalar chars) fun r s hput => ?_
    rw [hput.expect]
    split
    · exact .some hput.document
    · exact .none
  unfold Reading.finish
  rw [h.expect]
  split
  · exact .some h.document
  · exact .some h.document
  · exact hends _
  · exact hends _
  · exact .none

theorem run (h : Beside v w key path r s) (tokens : List Token) :
    Option.Rel (AgreeBut key (Apart v w path)) (r.run tokens) (s.run tokens) := by
  induction tokens generalizing r s with
  | nil => exact h.finish
  | cons token tokens ih =>
    have hstep := h.step token
    rw [Reading.run, Reading.run]
    generalize r.step token = next, s.step token = next' at hstep
    cases hstep with
    | none => exact .none
    | some hnext => exact ih hnext

end Beside

end

end PushDispatch.Toml
