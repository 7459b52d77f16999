import Mathlib.Data.List.Infix
import PushDispatch.Environment

/-! Texts put together. What a part leaves closed is read on its own, whatever stands behind it, so resolving goes part
by part. A reference that a part leaves open takes in what follows up to the next closing brace, and with it the
beginning of the next reference. -/

namespace PushDispatch.Environment

variable {e : Environment} {cs name more : List Char}

/-! ### The pass, character by character -/

theorem piecesFrom_dollar (cs : List Char) : piecesFrom .outside ('$' :: cs) = piecesFrom .afterDollar cs :=
  if_pos rfl

theorem piecesFrom_of_ne_dollar {c : Char} (h : c ≠ '$') (cs : List Char) :
    piecesFrom .outside (c :: cs) = .char c :: piecesFrom .outside cs := if_neg h

theorem piecesFrom_open (cs : List Char) : piecesFrom .afterDollar (openBrace :: cs) = piecesFrom (.inName []) cs :=
  if_pos rfl

/-- The dollar sign begins no reference. -/
theorem piecesFrom_of_ne_open {c : Char} (h : c ≠ openBrace) (cs : List Char) :
    piecesFrom .afterDollar (c :: cs) = .char '$' :: piecesFrom .outside (c :: cs) := by
  by_cases hd : c = '$'
  · rw [hd, piecesFrom_dollar]
    exact (if_neg (by decide)).trans (if_pos rfl)
  · rw [piecesFrom_of_ne_dollar hd]
    exact (if_neg h).trans (if_neg hd)

theorem piecesFrom_of_ne_close {c : Char} (h : c ≠ closeBrace) (name cs : List Char) :
    piecesFrom (.inName name) (c :: cs) = piecesFrom (.inName (c :: name)) cs := if_pos h

theorem piecesFrom_inName_append (read rest : List Char) (hm : closeBrace ∉ more) :
    piecesFrom (.inName read) (more ++ rest) = piecesFrom (.inName (more.reverse ++ read)) rest := by
  induction more generalizing read with
  | nil => rfl
  | cons c more ih =>
    rw [List.mem_cons, not_or] at hm
    rw [List.cons_append, piecesFrom_of_ne_close (Ne.symm hm.1), ih _ hm.2, List.reverse_cons, List.append_assoc,
      List.singleton_append]

theorem piecesFrom_nameless (cs : List Char) :
    piecesFrom (.inName []) (closeBrace :: cs) = (written []).map .char ++ piecesFrom .outside cs :=
  (if_neg (not_not_intro rfl)).trans (if_pos rfl)

theorem piecesFrom_close (h : name ≠ []) (cs : List Char) :
    piecesFrom (.inName name) (closeBrace :: cs) = .reference name.reverse :: piecesFrom .outside cs :=
  (if_neg (not_not_intro rfl)).trans (if_neg (by simpa using h))

/-! ### References that are left open -/

/-- What may stand between the braces of a reference. -/
def IsName (name : List Char) : Prop := name ≠ [] ∧ closeBrace ∉ name

instance (name : List Char) : Decidable (IsName name) := inferInstanceAs (Decidable (_ ∧ _))

/-- A reference begins in the characters and does not end in them. -/
def LeavesOpen (cs : List Char) : Prop := ∃ before name, cs = before ++ '$' :: openBrace :: name ∧ closeBrace ∉ name

instance (cs : List Char) : Decidable (LeavesOpen cs) :=
  decidable_of_iff (∃ rest ∈ cs.tails, ['$', openBrace] <+: rest ∧ closeBrace ∉ rest) (by
    constructor
    · rintro ⟨rest, hrest, ⟨name, rfl⟩, hn⟩
      obtain ⟨before, rfl⟩ := (List.mem_tails ..).1 hrest
      exact ⟨before, name, rfl, fun hm => hn (by simp [hm])⟩
    · rintro ⟨before, name, rfl, hn⟩
      refine ⟨'$' :: openBrace :: name, (List.mem_tails ..).2 ⟨before, rfl⟩, ⟨name, rfl⟩, ?_⟩
      rw [List.mem_cons, List.mem_cons, not_or, not_or]
      exact ⟨by decide, by decide, hn⟩)

/-- Of the references that are left open the first takes in all others. -/
theorem exists_of_leavesOpen (h : LeavesOpen cs) :
    ∃ before name, cs = before ++ '$' :: openBrace :: name ∧ ¬ LeavesOpen before ∧ closeBrace ∉ name := by
  obtain ⟨before, name, rfl, hn⟩ := h
  induction hlen : before.length using Nat.strongRecOn generalizing before name with
  | _ n ih =>
    by_cases hb : LeavesOpen before
    · obtain ⟨front, more, rfl, hm⟩ := hb
      rw [List.append_assoc]
      refine ih front.length ?_ front (more ++ '$' :: openBrace :: name) ?_ rfl
      · rw [← hlen, List.length_append, List.length_cons]; omega
      · rw [List.mem_append, List.mem_cons, List.mem_cons, not_or]
        exact ⟨hm, by simp [hn]; decide⟩
    · exact ⟨before, name, rfl, hb, hn⟩

/-- A name that takes in the beginning of another reference. -/
theorem written_append_open (more name : List Char) :
    written (more ++ '$' :: openBrace :: name) = '$' :: openBrace :: more ++ written name := by
  simp [written]

theorem IsName.append_open (hm : closeBrace ∉ more) (hn : IsName name) : IsName (more ++ '$' :: openBrace :: name) := by
  refine ⟨by simp, ?_⟩
  rw [List.mem_append, List.mem_cons, List.mem_cons, not_or, not_or, not_or]
  exact ⟨hm, by decide, by decide, hn.2⟩

/-! ### Reading on after a part -/

/-- The characters that have been read while it is open what becomes of them. -/
def Place.held : Place → List Char
  | outside => []
  | afterDollar => ['$']
  | inName name => '$' :: openBrace :: name.reverse

theorem piecesFrom_append {place : Place} {c : Char} (rest : List Char) (hc : c ≠ openBrace)
    (hp : closeBrace ∉ place.held) (h : ¬ LeavesOpen (place.held ++ cs)) :
    piecesFrom place (cs ++ c :: rest) = piecesFrom place cs ++ piecesFrom .outside (c :: rest) := by
  have hback : ∀ {xs ys : List Char} (b : List Char), xs = b ++ ys → ¬ LeavesOpen xs → ¬ LeavesOpen ys := by
    rintro _ _ b rfl hn ⟨before, name, rfl, hm⟩
    exact hn ⟨b ++ before, name, (List.append_assoc ..).symm, hm⟩
  fun_induction piecesFrom place cs with
  | case1 => rfl
  | case2 => rw [List.nil_append, piecesFrom_of_ne_open hc, List.singleton_append]
  | case3 name =>
    -- the name that is being read is left open
    rw [Place.held, List.mem_cons, List.mem_cons, not_or, not_or] at hp
    exact absurd ⟨[], name.reverse, List.append_nil _, hp.2.2⟩ h
  | case4 cs ih => rw [List.cons_append, piecesFrom_dollar, ih (by decide) h]
  | case5 d cs hd ih =>
    rw [List.cons_append, piecesFrom_of_ne_dollar hd, ih hp (hback [d] rfl h), List.cons_append]
  | case6 cs ih => rw [List.cons_append, piecesFrom_open, ih (by decide) h]
  | case7 cs hd ih =>
    rw [List.cons_append, piecesFrom_of_ne_open hd, piecesFrom_dollar, ih hp (hback ['$'] rfl h), List.cons_append]
  | case8 d cs hb hd ih =>
    rw [List.cons_append, piecesFrom_of_ne_open hb, piecesFrom_of_ne_dollar hd,
      ih List.not_mem_nil (hback ['$', d] rfl h)]
    rfl
  | case9 name d cs hd ih =>
    have hheld : (Place.inName (d :: name)).held = (Place.inName name).held ++ [d] := by simp [Place.held]
    rw [List.cons_append, piecesFrom_of_ne_close hd, ih]
    · rw [hheld, List.mem_append]
      simpa [Ne.symm hd] using hp
    · rwa [hheld, List.append_assoc]
  | case10 name d cs hd he ih =>
    obtain rfl : d = closeBrace := Classical.not_not.1 hd
    obtain rfl : name = [] := List.isEmpty_iff.1 he
    rw [List.cons_append, piecesFrom_nameless, ih List.not_mem_nil (hback (written []) rfl h), List.append_assoc]
  | case11 name d cs hd he ih =>
    obtain rfl : d = closeBrace := Classical.not_not.1 hd
    have hrest : ¬ LeavesOpen cs :=
      hback ((Place.inName name).held ++ [closeBrace]) (List.append_assoc ..).symm h
    rw [List.cons_append, piecesFrom_close (by simpa using he), ih List.not_mem_nil hrest, List.cons_append]

/-- Behind characters that leave no reference open the pass starts anew, unless a brace follows. -/
theorem pieces_append {c : Char} (rest : List Char) (hc : c ≠ openBrace) (h : ¬ LeavesOpen cs) :
    pieces (cs ++ c :: rest) = pieces cs ++ pieces (c :: rest) :=
  piecesFrom_append rest hc List.not_mem_nil h

theorem pieces_append_of_notMem (h : '$' ∉ cs) (rest : List Char) :
    pieces (cs ++ rest) = cs.map .char ++ pieces rest := by
  induction cs with
  | nil => rfl
  | cons c cs ih =>
    rw [List.mem_cons, not_or] at h
    rw [List.cons_append, pieces, piecesFrom_of_ne_dollar (Ne.symm h.1), ← pieces, ih h.2, List.map_cons,
      List.cons_append]

theorem pieces_written_append (h : IsName name) (rest : List Char) :
    pieces (written name ++ rest) = .reference name :: pieces rest := by
  have hne : name.reverse ≠ [] := by simpa using h.1
  rw [written, pieces, List.append_assoc, List.cons_append, List.cons_append, piecesFrom_dollar, piecesFrom_open,
    piecesFrom_inName_append _ _ h.2, List.append_nil, List.singleton_append, piecesFrom_close hne, List.reverse_reverse,
    pieces]

theorem pieces_reference (h : ¬ LeavesOpen cs) (hn : IsName name) (rest : List Char) :
    pieces (cs ++ written name ++ rest) = pieces cs ++ .reference name :: pieces rest := by
  rw [List.append_assoc, ← pieces_written_append hn]
  exact pieces_append _ (by decide) h

/-! ### Resolving part by part -/

/-- A reference as it is written. -/
def reference (name : String) : String := String.ofList (written name.toList)

theorem substitute_reference (name : String) :
    e.substitute (.reference name.toList) = ((e.value? name).getD (reference name)).toList := by
  rw [substitute, String.ofList_toList]
  cases e.value? name with
  | none => rw [Option.getD_none, reference, String.toList_ofList]
  | some value => rfl

theorem resolveChars_append {c : Char} (rest : List Char) (hc : c ≠ openBrace) (h : ¬ LeavesOpen cs) :
    e.resolveChars (cs ++ c :: rest) = e.resolveChars cs ++ e.resolveChars (c :: rest) := by
  rw [resolveChars, pieces_append rest hc h, List.flatMap_append, resolveChars, resolveChars]

theorem resolveChars_append_of_notMem (h : '$' ∉ cs) (rest : List Char) :
    e.resolveChars (cs ++ rest) = cs ++ e.resolveChars rest := by
  rw [resolveChars, pieces_append_of_notMem h, List.flatMap_append, List.flatMap_map]
  simp [substitute, resolveChars]

theorem resolveChars_reference (h : ¬ LeavesOpen cs) (hn : IsName name) (rest : List Char) :
    e.resolveChars (cs ++ written name ++ rest) =
      e.resolveChars cs ++ e.substitute (.reference name) ++ e.resolveChars rest := by
  rw [resolveChars, pieces_reference h hn, List.flatMap_append, List.flatMap_cons, ← List.append_assoc, resolveChars,
    resolveChars]

/-- A reference to a variable that is set, between any two texts. If the text in front of it leaves no reference open,
the value stands between the two texts, each of them resolved. Otherwise the first reference that is left open, behind
which no brace closes it, ends where this one does, and takes in its beginning. -/
theorem resolve_between {name value : String} (hv : e.value? name = some value) (hn : IsName name.toList)
    (front back : String) :
    (¬ LeavesOpen front.toList →
      e.resolve (front ++ reference name ++ back) = e.resolve front ++ value ++ e.resolve back) ∧
    (LeavesOpen front.toList → ∃ before more : String, front = before ++ "$\x7b" ++ more ∧
      ¬ LeavesOpen before.toList ∧ closeBrace ∉ more.toList ∧
      e.resolve (front ++ reference name ++ back) = e.resolve before ++
        (e.value? (more ++ "$\x7b" ++ name)).getD (reference (more ++ "$\x7b" ++ name)) ++ e.resolve back) := by
  have hopen : "$\x7b".toList = ['$', openBrace] := by decide
  constructor
  · intro h
    rw [← String.toList_inj]
    simp only [resolve, reference, String.toList_append, String.toList_ofList, resolveChars_reference h hn,
      substitute_reference, hv, Option.getD_some]
  · intro h
    obtain ⟨before, more, hfront, hb, hm⟩ := exists_of_leavesOpen h
    have hlong : (String.ofList more ++ "$\x7b" ++ name).toList = more ++ '$' :: openBrace :: name.toList := by
      simp [hopen]
    have htext : (front ++ reference name ++ back).toList =
        before ++ written (more ++ '$' :: openBrace :: name.toList) ++ back.toList := by
      simp [hfront, reference, written_append_open]
    refine ⟨String.ofList before, String.ofList more, ?_, by rwa [String.toList_ofList], by rwa [String.toList_ofList], ?_⟩
    · rw [← String.toList_inj]
      simp [hfront, hopen]
    · rw [← String.toList_inj, resolve, htext, resolveChars_reference hb (hn.append_open hm), ← hlong,
        substitute_reference]
      simp [resolve]

/-- The same variable behind a text that leaves nothing open, and behind one that does. -/
theorem resolve_between_closed_and_open :
    let e := ofList [("A", "v")]
    e.value? "A" = some "v" ∧ IsName "A".toList ∧ ¬ LeavesOpen "$\x7b\x7d $\x7bB\x7d $".toList ∧
      e.resolve ("$\x7b\x7d $\x7bB\x7d $" ++ reference "A" ++ "!") = "$\x7b\x7d $\x7bB\x7d $v!" ∧
      LeavesOpen "# $\x7b\n".toList ∧
      ∃ before more : String, "# $\x7b\n" = before ++ "$\x7b" ++ more ∧ ¬ LeavesOpen before.toList ∧
        closeBrace ∉ more.toList ∧ e.resolve ("# $\x7b\n" ++ reference "A" ++ "!") = e.resolve before ++
          (e.value? (more ++ "$\x7b" ++ "A")).getD (reference (more ++ "$\x7b" ++ "A")) ++ e.resolve "!" := by
  intro e
  have hv : e.value? "A" = some "v" := by decide
  have hn : IsName "A".toList := by decide
  have hclosed : ¬ LeavesOpen "$\x7b\x7d $\x7bB\x7d $".toList := by decide
  have hopen : LeavesOpen "# $\x7b\n".toList := by decide
  refine ⟨hv, hn, hclosed, ?_, hopen, (resolve_between hv hn _ "!").2 hopen⟩
  rw [(resolve_between hv hn _ "!").1 hclosed]
  decide +kernel

/-- What stands in front of a reference can keep it from being read: it is taken in by one that is left open. -/
theorem reference_taken_in :
    let e := ofList [("A", "v")]
    e.value? "A" = some "v" ∧
      e.resolve ("$\x7b" ++ reference "A" ++ "") ≠ e.resolve "$\x7b" ++ "v" ++ e.resolve "" := by
  decide +kernel

end PushDispatch.Environment
