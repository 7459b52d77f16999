import PushDispatch.Proofs.Environment.Pieces

/-! Resolving as one pass over the text. The pass looks for the leftmost place where a reference begins, puts the value
of the variable there or copies the reference, and goes on behind it; values are not looked at again. From this it
follows that a text stays as it is if none of its variables is set, and that resolving again changes nothing if the
values can neither begin a reference nor end one that a character in front of them begins. -/

namespace PushDispatch.Environment

variable {e : Environment} {cs before after result : List Char} {found : List String} {name value : String}

/-! ### Where references begin -/

def BeginsWithReference (cs : List Char) : Prop := ∃ name rest, IsName name ∧ cs = written name ++ rest

/-- No reference begins in the first characters when the others follow; it may end in them. -/
def NoneBegins (cs after : List Char) : Prop :=
  ∀ rest, rest ≠ [] → rest <:+ cs → ¬ BeginsWithReference (rest ++ after)

theorem NoneBegins.of_append (before : List Char) (h : NoneBegins (before ++ cs) after) : NoneBegins cs after :=
  fun rest hne hs => h rest hne (hs.trans (List.suffix_append before cs))

theorem NoneBegins.nil (h : NoneBegins cs after) : NoneBegins cs [] := by
  rintro rest hne hs ⟨name, more, hn, heq⟩
  rw [List.append_nil] at heq
  exact h rest hne hs ⟨name, more ++ after, hn, by rw [heq, List.append_assoc]⟩

/-- In front of the first reference none is left open. -/
theorem NoneBegins.not_leavesOpen (hn : IsName name.toList)
    (h : NoneBegins cs (written name.toList ++ after)) : ¬ LeavesOpen cs := by
  rintro ⟨before, more, rfl, hm⟩
  refine h _ (by simp) (List.suffix_append before _) ⟨_, after, hn.append_open hm, ?_⟩
  rw [written_append_open, List.append_assoc]

/-- A text has no reference, or a first one. -/
theorem exists_first (cs : List Char) : NoneBegins cs [] ∨ ∃ (before : List Char) (name : String) (after : List Char),
    cs = before ++ written name.toList ++ after ∧ IsName name.toList ∧
      NoneBegins before (written name.toList ++ after) := by
  induction cs with
  | nil => exact .inl fun rest hne hs => absurd (List.suffix_nil.1 hs) hne
  | cons c cs ih =>
    by_cases hb : BeginsWithReference (c :: cs)
    · obtain ⟨name, rest, hn, heq⟩ := hb
      refine .inr ⟨[], String.ofList name, rest, ?_, ?_, fun rest hne hs => absurd (List.suffix_nil.1 hs) hne⟩
      · simpa using heq
      · rwa [String.toList_ofList]
    have hcons : ∀ {front back : List Char}, front ++ back = cs → NoneBegins front back → NoneBegins (c :: front) back := by
      rintro front back rfl hf rest hne hs
      obtain rfl | hs := List.suffix_cons_iff.1 hs
      · exact hb
      · exact hf rest hne hs
    obtain hnone | ⟨before, name, after, rfl, hn, hf⟩ := ih
    · exact .inl (hcons (List.append_nil cs) hnone)
    · exact .inr ⟨c :: before, name, after, rfl, hn, hcons (List.append_assoc ..).symm hf⟩

theorem piecesFrom_of_noneBegins {place : Place} (hp : closeBrace ∉ place.held) (h : NoneBegins (place.held ++ cs) []) :
    piecesFrom place cs = (place.held ++ cs).map .char := by
  fun_induction piecesFrom place cs with
  | case1 => rfl
  | case2 => rfl
  | case3 name => rw [Place.held, List.append_nil]
  | case4 cs ih => exact ih (by decide) h
  | case5 c cs hc ih => rw [ih hp (NoneBegins.of_append [c] h)]; rfl
  | case6 cs ih => exact ih (by decide) h
  | case7 cs hc ih => rw [ih hp (NoneBegins.of_append ['$'] h)]; rfl
  | case8 c cs hb hc ih => rw [ih List.not_mem_nil (NoneBegins.of_append ['$', c] h)]; rfl
  | case9 name c cs hc ih =>
    have hheld : (Place.inName (c :: name)).held ++ cs = (Place.inName name).held ++ c :: cs := by simp [Place.held]
    rw [ih, hheld]
    · simpa [Place.held, Ne.symm hc] using hp
    · rwa [hheld]
  | case10 name c cs hc he ih =>
    obtain rfl : c = closeBrace := Classical.not_not.1 hc
    obtain rfl : name = [] := List.isEmpty_iff.1 he
    rw [ih List.not_mem_nil (NoneBegins.of_append (written []) h), ← List.map_append]
    rfl
  | case11 name c cs hc he ih =>
    -- the brace closes a name, so a reference does begin
    obtain rfl : c = closeBrace := Classical.not_not.1 hc
    rw [Place.held, List.mem_cons, List.mem_cons, not_or, not_or] at hp
    refine absurd ⟨name.reverse, cs, ⟨by simpa using he, hp.2.2⟩, ?_⟩ (h _ (by simp) (List.suffix_refl _))
    simp [Place.held, written]

theorem pieces_of_noneBegins (h : NoneBegins cs []) : pieces cs = cs.map .char :=
  piecesFrom_of_noneBegins List.not_mem_nil h

theorem resolveChars_of_noneBegins (h : NoneBegins cs []) : e.resolveChars cs = cs := by
  rw [resolveChars, pieces_of_noneBegins h, List.flatMap_map]
  simp [substitute]

/-! ### The pass -/

/-- One pass from left to right over a text: the references that it finds, and what the text becomes. -/
inductive OnePass (e : Environment) : List Char → List String → List Char → Prop
  | rest {cs : List Char} (h : NoneBegins cs []) : OnePass e cs [] cs
  | set {before after result : List Char} {found : List String} {name value : String} (hn : IsName name.toList)
      (h : NoneBegins before (written name.toList ++ after)) (hv : e.value? name = some value)
      (hrest : OnePass e after found result) :
      OnePass e (before ++ written name.toList ++ after) (name :: found) (before ++ value.toList ++ result)
  | unset {before after result : List Char} {found : List String} {name : String} (hn : IsName name.toList)
      (h : NoneBegins before (written name.toList ++ after)) (hv : e.value? name = none)
      (hrest : OnePass e after found result) :
      OnePass e (before ++ written name.toList ++ after) (name :: found) (before ++ written name.toList ++ result)

theorem exists_onePass (e : Environment) (cs : List Char) : ∃ found result, OnePass e cs found result := by
  induction hlen : cs.length using Nat.strongRecOn generalizing cs with
  | _ n ih =>
    obtain h | ⟨before, name, after, rfl, hn, h⟩ := exists_first cs
    · exact ⟨[], cs, .rest h⟩
    · have hshorter : after.length < n := by
        rw [← hlen]
        simp only [written, List.length_append, List.length_cons]
        omega
      obtain ⟨found, result, hrest⟩ := ih _ hshorter after rfl
      cases hv : e.value? name with
      | some value => exact ⟨_, _, .set hn h hv hrest⟩
      | none => exact ⟨_, _, .unset hn h hv hrest⟩

/-- What the pass over the text up to and including its first reference finds and leaves. -/
theorem names_and_resolveChars_of_first (hn : IsName name.toList)
    (h : NoneBegins before (written name.toList ++ after)) :
    names (String.ofList (before ++ written name.toList ++ after)) = name :: names (String.ofList after) ∧
      e.resolveChars (before ++ written name.toList ++ after) =
        before ++ e.substitute (.reference name.toList) ++ e.resolveChars after := by
  have hopen := h.not_leavesOpen hn
  constructor
  · rw [names, String.toList_ofList, pieces_reference hopen hn, pieces_of_noneBegins h.nil, List.filterMap_append,
      List.filterMap_cons, names, String.toList_ofList, List.filterMap_map]
    simp
  · rw [resolveChars_reference hopen hn, resolveChars_of_noneBegins h.nil]

theorem OnePass.eq (h : OnePass e cs found result) :
    found = names (String.ofList cs) ∧ result = e.resolveChars cs := by
  induction h with
  | rest h =>
    refine ⟨?_, (resolveChars_of_noneBegins h).symm⟩
    rw [names, String.toList_ofList, pieces_of_noneBegins h, List.filterMap_map]
    simp
  | set hn h hv _ ih =>
    obtain ⟨hnames, hresolve⟩ := names_and_resolveChars_of_first (e := e) hn h
    rw [hnames, hresolve, substitute_reference, hv, ← ih.1, ← ih.2]
    exact ⟨rfl, rfl⟩
  | unset hn h hv _ ih =>
    obtain ⟨hnames, hresolve⟩ := names_and_resolveChars_of_first (e := e) hn h
    rw [hnames, hresolve, substitute_reference, hv, ← ih.1, ← ih.2, Option.getD_none, reference, String.toList_ofList]
    exact ⟨rfl, rfl⟩

theorem onePass_iff (e : Environment) (cs : List Char) (found : List String) (result : List Char) :
    OnePass e cs found result ↔ found = names (String.ofList cs) ∧ result = e.resolveChars cs := by
  refine ⟨OnePass.eq, ?_⟩
  rintro ⟨rfl, rfl⟩
  obtain ⟨found, result, h⟩ := exists_onePass e cs
  obtain ⟨rfl, rfl⟩ := h.eq
  exact h

theorem OnePass.eq_self (h : OnePass e cs found result) (hunset : ∀ name ∈ found, e.value? name = none) :
    result = cs := by
  induction h with
  | rest => rfl
  | set _ _ hv => rw [hunset _ List.mem_cons_self] at hv; cases hv
  | unset _ _ _ _ ih => rw [ih fun name hm => hunset name (List.mem_cons_of_mem _ hm)]

/-! ### Resolving again -/

/-- A value that neither begins a reference nor goes on with one that a dollar sign in front of it begins. -/
def IsInert (value : List Char) : Prop := value ≠ [] ∧ '$' ∉ value ∧ openBrace ∉ value

instance (value : List Char) : Decidable (IsInert value) := inferInstanceAs (Decidable (_ ∧ _))

theorem resolveChars_inert_append (hopen : ¬ LeavesOpen cs) {value : List Char} (h : IsInert value)
    (rest : List Char) : e.resolveChars (cs ++ value ++ rest) = e.resolveChars cs ++ value ++ e.resolveChars rest := by
  obtain ⟨c, value, rfl⟩ := List.exists_cons_of_ne_nil h.1
  have hc : c ≠ openBrace := fun heq => h.2.2 (heq ▸ List.mem_cons_self)
  rw [List.append_assoc, List.cons_append, resolveChars_append _ hc hopen, ← List.cons_append,
    resolveChars_append_of_notMem h.2.1, List.append_assoc]

/-- No reference comes into being where a value meets what stands around it. -/
theorem OnePass.resolveChars_eq (h : OnePass e cs found result)
    (hinert : ∀ name ∈ found, ∀ value, e.value? name = some value → IsInert value.toList) :
    e.resolveChars result = result := by
  induction h with
  | rest h => exact resolveChars_of_noneBegins h
  | set hn h hv _ ih =>
    rw [resolveChars_inert_append (h.not_leavesOpen hn) (hinert _ List.mem_cons_self _ hv),
      resolveChars_of_noneBegins h.nil, ih fun name hm => hinert name (List.mem_cons_of_mem _ hm)]
  | unset hn h hv _ ih =>
    rw [resolveChars_reference (h.not_leavesOpen hn) hn, resolveChars_of_noneBegins h.nil, substitute_reference, hv,
      ih fun name hm => hinert name (List.mem_cons_of_mem _ hm), Option.getD_none, reference, String.toList_ofList]

/-- Resolving is one pass over the text, which finds the text's references. If none of their variables is set, the
text stays as it is; if their values are neither empty nor hold a dollar sign or an opening brace, resolving again
changes nothing. -/
theorem resolve_one_pass (e : Environment) (text : String) :
    (∀ found result, OnePass e text.toList found result ↔ found = names text ∧ result = (e.resolve text).toList) ∧
    ((∀ name ∈ names text, e.value? name = none) → e.resolve text = text) ∧
    ((∀ name ∈ names text, ∀ value, e.value? name = some value → IsInert value.toList) →
      e.resolve (e.resolve text) = e.resolve text) := by
  have hpass : ∀ found result, OnePass e text.toList found result ↔
      found = names text ∧ result = (e.resolve text).toList := by
    intro found result
    rw [onePass_iff, String.ofList_toList, resolve, String.toList_ofList]
  have h : OnePass e text.toList (names text) (e.resolve text).toList := (hpass _ _).2 ⟨rfl, rfl⟩
  refine ⟨hpass, fun hunset => ?_, fun hinert => ?_⟩
  · exact String.toList_inj.1 (h.eq_self hunset)
  · rw [resolve, h.resolveChars_eq hinert, String.ofList_toList]

/-- A value with a closing brace, between characters that could be part of references; one variable is not set. -/
theorem resolve_one_pass_seams :
    let e := ofList [("A", "v\x7d")]
    let text := "$$\x7bA\x7d\x7b$\x7bB\n$\x7bC\x7d$\x7b\x7d$\x7bA\x7d$\x7b"
    names text = ["A", "B\n$\x7bC", "A"] ∧
      e.resolve text = "$v\x7d\x7b$\x7bB\n$\x7bC\x7d$\x7b\x7dv\x7d$\x7b" ∧
      OnePass e text.toList (names text) (e.resolve text).toList ∧
      (∀ name ∈ names text, ∀ value, e.value? name = some value → IsInert value.toList) ∧
      e.resolve (e.resolve text) = e.resolve text ∧
      (∀ name ∈ names text, (ofList []).value? name = none) ∧ (ofList []).resolve text = text := by
  intro e text
  have hnames : names text = ["A", "B\n$\x7bC", "A"] := by decide +kernel
  have hinert : ∀ name ∈ names text, ∀ value, e.value? name = some value → IsInert value.toList := by
    rw [hnames]
    intro name hm value hv
    have hvalue : ∀ name ∈ ["A", "B\n$\x7bC", "A"], ∀ value ∈ e.value? name, IsInert value.toList := by decide +kernel
    exact hvalue name hm value hv
  obtain ⟨hpass, -, htwice⟩ := resolve_one_pass e text
  exact ⟨hnames, by decide +kernel, (hpass _ _).2 ⟨rfl, rfl⟩, hinert, htwice hinert, fun _ _ => rfl,
    (resolve_one_pass (ofList []) text).2.1 fun _ _ => rfl⟩

end PushDispatch.Environment
