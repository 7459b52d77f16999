import Mathlib.Data.List.Basic
import PushDispatch.Json.Printer
import PushDispatch.Json.Reader
import PushDispatch.Json.Record
import PushDispatch.Proofs.Json.Tokens

/-! Reading back what has been written as JSON. Tokens and trees are compared in two steps: the compact text of a value
is scanned into the tokens of the value, and these are read as the value by the machine that takes one token at a time,
wherever a value may begin. So two values with the same text are the same. -/

namespace PushDispatch.Json

/-! ### Values -/

/-- Induction over the items of arrays and the values of members. -/
@[elab_as_elim]
theorem induct {motive : Json → Prop} (null : motive .null) (bool : ∀ value, motive (.bool value))
    (number : ∀ literal, motive (.number literal)) (string : ∀ value, motive (.string value))
    (array : ∀ items, (∀ item ∈ items, motive item) → motive (.array items))
    (object : ∀ members, (∀ member ∈ members, motive member.2) → motive (.object members)) : ∀ json, motive json
  | .null => null
  | .bool value => bool value
  | .number literal => number literal
  | .string value => string value
  | .array items => array items fun item _ => induct null bool number string array object item
  | .object members => object members fun (_, value) _ => induct null bool number string array object value
decreasing_by
  · have := List.sizeOf_lt_of_mem ‹item ∈ items›
    simp only [Json.array.sizeOf_spec]
    omega
  · have := List.sizeOf_lt_of_mem ‹_ ∈ members›
    simp only [Prod.mk.sizeOf_spec, Json.object.sizeOf_spec] at this ⊢
    omega

/-- Every number literal in a value is a number. -/
inductive Proper : Json → Prop
  | null : Proper .null
  | bool (value : Bool) : Proper (.bool value)
  | number {literal : List Char} (h : isNumber literal = true) : Proper (.number literal)
  | string (value : Option String) : Proper (.string value)
  | array {items : List Json} (h : ∀ item ∈ items, Proper item) : Proper (.array items)
  | object {members : List (Option String × Json)} (h : ∀ member ∈ members, Proper member.2) : Proper (.object members)

/-- The tokens of one member. -/
def oneMemberTokens (member : Option String × Json) : List Token := .string member.1 :: .colon :: member.2.tokens

theorem itemTokens_cons (item : Json) (items : List Json) :
    itemTokens (item :: items) = item.tokens ++ items.flatMap fun item => .comma :: item.tokens := by
  induction items generalizing item with
  | nil => simp [itemTokens]
  | cons next items ih => rw [itemTokens, ih next, List.flatMap_cons, List.cons_append]

theorem memberTokens_cons (member : Option String × Json) (members : List (Option String × Json)) :
    memberTokens (member :: members) =
      oneMemberTokens member ++ members.flatMap fun member => .comma :: oneMemberTokens member := by
  induction members generalizing member with
  | nil => simp [memberTokens, oneMemberTokens]
  | cons next members ih =>
    rw [memberTokens, ih next, List.flatMap_cons, List.cons_append]
    rfl

/-! ### Scanning what has been written -/

theorem Token.breaks_cons {c : Char} (hn : isNumberChar c = false) (hl : ¬ ('a' ≤ c ∧ c ≤ 'z')) (cs : List Char) :
    Breaks (c :: cs) := by
  rintro _ ⟨⟩
  exact ⟨hn, hl⟩

/-- The text of the tokens, followed by the rest, is scanned into the tokens and what the rest is scanned into. -/
def Scans (tokens : List Token) (rest : List Char) : Prop :=
  Token.scanFrom .between (tokens.flatMap Token.write ++ rest) = (Token.scanFrom .between rest).map (tokens ++ ·)

namespace Scans

theorem nil (rest : List Char) : Scans [] rest := by
  simp [Scans]

theorem append {first last : List Token} {rest : List Char} (hf : Scans first (last.flatMap Token.write ++ rest))
    (hl : Scans last rest) : Scans (first ++ last) rest := by
  unfold Scans at hf hl ⊢
  rw [List.flatMap_append, List.append_assoc, hf, hl, Option.map_map]
  simp [Function.comp_def]

theorem singleton {token : Token} {rest : List Char} (h : token.EndsBefore rest) : Scans [token] rest := by
  rw [Scans, List.flatMap_singleton, Token.scanFrom_write h]
  rfl

theorem cons {token : Token} {tokens : List Token} {rest : List Char}
    (ht : token.EndsBefore (tokens.flatMap Token.write ++ rest)) (h : Scans tokens rest) : Scans (token :: tokens) rest :=
  append (singleton ht) h

/-- Parts with a comma in front of each. -/
theorem flatMap_comma {α : Type} {part : α → List Token} {parts : List α} {rest : List Char} (hr : Token.Breaks rest)
    (h : ∀ p ∈ parts, ∀ rest, Token.Breaks rest → Scans (part p) rest) :
    Scans (parts.flatMap fun p => .comma :: part p) rest ∧
      Token.Breaks ((parts.flatMap fun p => .comma :: part p).flatMap Token.write ++ rest) := by
  induction parts with
  | nil => exact ⟨nil rest, hr⟩
  | cons p parts ih =>
    rw [List.forall_mem_cons] at h
    obtain ⟨hs, hb⟩ := ih h.2
    exact ⟨append (cons trivial (h.1 _ hb)) hs, Token.breaks_cons (by decide) (by decide) _⟩

end Scans

theorem scans_tokens {json : Json} (h : json.Proper) : ∀ rest, Token.Breaks rest → Scans json.tokens rest := by
  induction h with
  | null => exact fun rest hr => .singleton hr
  | bool value => exact fun rest hr => .singleton hr
  | number h => exact fun rest hr => .singleton ⟨h, hr⟩
  | string value => exact fun rest hr => .singleton trivial
  | @array items h ih =>
    intro rest hr
    refine .cons trivial (.append ?_ (.singleton trivial))
    cases items with
    | nil => exact .nil _
    | cons item items =>
      rw [List.forall_mem_cons] at ih
      obtain ⟨hs, hb⟩ := Scans.flatMap_comma (Token.breaks_cons (c := ']') (by decide) (by decide) rest) ih.2
      rw [itemTokens_cons]
      exact .append (ih.1 _ hb) hs
  | @object members h ih =>
    intro rest hr
    refine .cons trivial (.append ?_ (.singleton trivial))
    cases members with
    | nil => exact .nil _
    | cons member members =>
      have hone : ∀ m ∈ member :: members, ∀ rest, Token.Breaks rest → Scans (oneMemberTokens m) rest :=
        fun m hm rest hr => .cons trivial (.cons trivial (ih m hm rest hr))
      rw [List.forall_mem_cons] at hone
      obtain ⟨hs, hb⟩ := Scans.flatMap_comma
        (Token.breaks_cons (c := Char.ofNat 125) (by decide) (by decide) rest) hone.2
      rw [memberTokens_cons]
      exact .append (hone.1 _ hb) hs

/-! ### Reading what has been scanned -/

namespace Reading

theorem run_cons {r : Reading} {token : Token} (next : Reading) (h : r.step token = some next) (tokens : List Token) :
    r.run (token :: tokens) = next.run tokens := by
  rw [run, h]

/-- Where a value may begin: each token but a closing bracket is taken for the first one of a value. -/
def AwaitsValue (r : Reading) (stack : List Open) : Prop :=
  ∀ token, token ≠ .closeSquare → r.step token = startValue stack token

theorem awaitsValue_value (stack : List Open) : AwaitsValue ⟨.value, stack⟩ stack := fun token _ => by
  cases token <;> rfl

theorem awaitsValue_firstItem (stack : List Open) : AwaitsValue ⟨.firstItem, stack⟩ stack := fun token h => by
  cases token with
  | closeSquare => exact absurd rfl h
  | _ => rfl

/-- Reads the tokens of a value wherever one may begin, and gives the value to the innermost open container. -/
def Reads (json : Json) : Prop :=
  ∀ r stack rest, AwaitsValue r stack → r.run (json.tokens ++ rest) = (put json stack).run rest

theorem run_items {items : List Json} (h : ∀ item ∈ items, Reads item) (before : List Json) (stack : List Open)
    (rest : List Token) :
    run ⟨.afterItem before, stack⟩ ((items.flatMap fun item => .comma :: item.tokens) ++ .closeSquare :: rest) =
      (put (.array (before.reverse ++ items)) stack).run rest := by
  induction items generalizing before with
  | nil =>
    rw [List.append_nil]
    exact run_cons _ rfl rest
  | cons item items ih =>
    rw [List.forall_mem_cons] at h
    rw [List.flatMap_cons, List.cons_append, List.cons_append, List.append_assoc,
      run_cons ⟨.value, .array before :: stack⟩ rfl, h.1 _ _ _ (awaitsValue_value _), put, ih h.2,
      List.reverse_cons, List.append_assoc, List.singleton_append]

theorem run_members {members : List (Option String × Json)} (h : ∀ member ∈ members, Reads member.2)
    (before : List (Option String × Json)) (stack : List Open) (rest : List Token) :
    run ⟨.afterMember before, stack⟩
        ((members.flatMap fun member => .comma :: oneMemberTokens member) ++ .closeCurly :: rest) =
      (put (.object (before.reverse ++ members)) stack).run rest := by
  induction members generalizing before with
  | nil =>
    rw [List.append_nil]
    exact run_cons _ rfl rest
  | cons member members ih =>
    rw [List.forall_mem_cons] at h
    simp only [List.flatMap_cons, oneMemberTokens, List.cons_append, List.append_assoc]
    rw [run_cons ⟨.name before, stack⟩ rfl, run_cons ⟨.colon before member.1, stack⟩ rfl,
      run_cons ⟨.value, .object before member.1 :: stack⟩ rfl, h.1 _ _ _ (awaitsValue_value _), put]
    exact (ih h.2 _).trans (by simp)

theorem reads (json : Json) : Reads json := by
  induction json using Json.induct with
  | null | bool | number | string => exact fun r stack rest h => run_cons _ (h _ (by simp)) rest
  | array items ih =>
    intro r stack rest h
    rw [tokens, List.cons_append, List.cons_append, List.append_assoc, run_cons _ (h .openSquare (by simp)),
      List.singleton_append]
    cases items with
    | nil => exact run_cons _ rfl rest
    | cons item items =>
      rw [List.forall_mem_cons] at ih
      rw [itemTokens_cons, List.append_assoc, ih.1 _ _ _ (awaitsValue_firstItem _)]
      exact run_items ih.2 [item] stack rest
  | object members ih =>
    intro r stack rest h
    rw [tokens, List.cons_append, List.cons_append, List.append_assoc, run_cons _ (h .openCurly (by simp)),
      List.singleton_append]
    cases members with
    | nil => exact run_cons _ rfl rest
    | cons member members =>
      rw [List.forall_mem_cons] at ih
      rw [memberTokens_cons, oneMemberTokens]
      simp only [List.cons_append, List.append_assoc]
      rw [run_cons ⟨.colon [] member.1, stack⟩ rfl,
        run_cons ⟨.value, .object [] member.1 :: stack⟩ rfl, ih.1 _ _ _ (awaitsValue_value _)]
      exact run_members ih.2 [member] stack rest

end Reading

/-! ### Round trip -/

theorem ofTokens?_tokens (json : Json) : ofTokens? json.tokens = some json := by
  have h := Reading.reads json .start [] [] (Reading.awaitsValue_value [])
  rw [List.append_nil] at h
  exact h

theorem readChars?_render {json : Json} (h : json.Proper) : readChars? json.render = some json := by
  have hs : Token.scanFrom .between (json.render ++ []) = (Token.scanFrom .between []).map (json.tokens ++ ·) :=
    scans_tokens h [] (by simp [Token.Breaks])
  rw [List.append_nil] at hs
  rw [readChars?, Token.scan, hs]
  simp [Token.scanFrom, Scan.finish, ofTokens?_tokens]

theorem read?_renderText {json : Json} (h : json.Proper) : read? json.renderText = some json := by
  rw [read?, renderText, String.toList_ofList, readChars?_render h]

/-- Values with one text are the same. -/
theorem renderText_inj {a b : Json} (ha : a.Proper) (hb : b.Proper) (h : a.renderText = b.renderText) : a = b := by
  rw [← Option.some.injEq, ← read?_renderText ha, ← read?_renderText hb, h]

/-! ### Records -/

theorem Proper.record {members : List (String × Json)} (h : ∀ member ∈ members, member.2.Proper) :
    (record members).Proper := by
  refine .object fun member hm => ?_
  obtain ⟨⟨name, value⟩, hv, rfl⟩ := List.mem_map.1 hm
  exact h _ hv

theorem Proper.ofTextMap (m : TextMap) : (ofTextMap m).Proper := by
  refine .record fun member hm => ?_
  obtain ⟨entry, -, rfl⟩ := List.mem_map.1 hm
  exact .string _

theorem record_inj {a b : List (String × Json)} : record a = record b ↔ a = b := by
  refine ⟨fun h => List.map_injective_iff.2 (fun _ _ he => ?_) (Json.object.inj h), congrArg record⟩
  simpa [Prod.ext_iff] using he

theorem text_inj {s t : String} : text s = text t ↔ s = t := by
  simp [text]

theorem ofTextMap_inj {m n : TextMap} : ofTextMap m = ofTextMap n ↔ m = n := by
  refine ⟨fun h => ?_, congrArg ofTextMap⟩
  have hentries : m.entries = n.entries :=
    List.map_injective_iff.2 (fun _ _ he => by simpa [Prod.ext_iff, text] using he) (record_inj.1 h)
  cases m
  cases n
  cases hentries
  rfl

end PushDispatch.Json
