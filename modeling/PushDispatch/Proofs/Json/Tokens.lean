import PushDispatch.Json.Token

/-! Scanning what has been written as tokens. The text of a token is scanned into that token, whatever follows, if
the text of the token shows where it ends: a string and a sign always do, a word and a number do before a character
that could not go on with them. -/

namespace PushDispatch.Json

namespace Token

/-! ### Strings -/

theorem scanFrom_cons (scan : Scan) {c : Char} (tokens : List Token) (next : Scan)
    (h : scan.step c = some (tokens, next)) (cs : List Char) :
    scanFrom scan (c :: cs) = (scanFrom next cs).map (tokens ++ ·) := by
  rw [scanFrom, h]

/-- A character that completes no token. -/
theorem scanFrom_within (scan : Scan) {c : Char} (next : Scan) (h : scan.step c = some ([], next)) (cs : List Char) :
    scanFrom scan (c :: cs) = scanFrom next cs := by
  rw [scanFrom_cons scan [] next h]
  simp

theorem scanFrom_unit {l : Literal} {high low : Nat} (hh : high < 16) (hl : low < 16) (cs : List Char) :
    scanFrom (.afterBackslash l) ('u' :: '0' :: '0' :: Text.Hex.digit high :: Text.Hex.digit low :: cs) =
      scanFrom (.inString (l.pushUnit (16 * high + low))) cs := by
  have hz : Text.Hex.value? '0' = some 0 := by decide
  rw [scanFrom_within _ (.inUnit l 4 0) rfl, scanFrom_within _ (.inUnit l 3 0) (by simp [Scan.step, hz]),
    scanFrom_within _ (.inUnit l 2 0) (by simp [Scan.step, hz]),
    scanFrom_within _ (.inUnit l 1 high) (by simp [Scan.step, Text.Hex.value?_digit hh]),
    scanFrom_within _ (.inString (l.pushUnit (16 * high + low)))
      (by simp [Scan.step, Text.Hex.value?_digit hl])]

theorem scanFrom_escape (chars : List Char) (c : Char) (cs : List Char) :
    scanFrom (.inString ⟨chars, true, none⟩) (escape c ++ cs) = scanFrom (.inString ⟨c :: chars, true, none⟩) cs := by
  have hshort : ∀ letter, letter ≠ 'u' → shortEscape? letter = some c →
      scanFrom (.inString ⟨chars, true, none⟩) ('\\' :: letter :: cs) =
        scanFrom (.inString ⟨c :: chars, true, none⟩) cs := by
    intro letter hu hs
    rw [scanFrom_within _ (.afterBackslash ⟨chars, true, none⟩) (by simp [Scan.step]),
      scanFrom_within _ (.inString ⟨c :: chars, true, none⟩)
        (by simp [Scan.step, hu, hs, Literal.push, Literal.settle])]
  unfold escape
  split
  · next h => exact hshort '"' (by decide) (by rw [h]; rfl)
  split
  · next h => exact hshort '\\' (by decide) (by rw [h]; rfl)
  split
  · next h => exact hshort 'n' (by decide) (by rw [h]; rfl)
  split
  · next h => exact hshort 'r' (by decide) (by rw [h]; rfl)
  split
  · next h => exact hshort 't' (by decide) (by rw [h]; rfl)
  split
  · next h => exact hshort 'b' (by decide) (by rw [← Char.ofNat_toNat c, h]; rfl)
  split
  · next h => exact hshort 'f' (by decide) (by rw [← Char.ofNat_toNat c, h]; rfl)
  split
  · next h =>
    rw [List.cons_append, scanFrom_within _ (.afterBackslash ⟨chars, true, none⟩) (by simp [Scan.step])]
    simp only [List.cons_append, List.nil_append]
    rw [scanFrom_unit (by omega) (by omega), Nat.div_add_mod]
    congr 2
    have hc : Char.ofNat c.toNat = c := Char.ofNat_toNat c
    simp [Literal.pushUnit, Literal.push, Literal.settle, hc, show ¬ 55296 ≤ c.toNat by omega,
      show ¬ 56320 ≤ c.toNat by omega]
  · next h1 h2 _ _ _ _ _ h3 =>
    rw [List.singleton_append, scanFrom_within _ (.inString ⟨c :: chars, true, none⟩)]
    simp [Scan.step, h1, h2, h3, Literal.push, Literal.settle]

theorem scanFrom_inString (chars cs rest : List Char) :
    scanFrom (.inString ⟨chars, true, none⟩) (cs.flatMap escape ++ rest) =
      scanFrom (.inString ⟨cs.reverse ++ chars, true, none⟩) rest := by
  induction cs generalizing chars with
  | nil => rfl
  | cons c cs ih => rw [List.flatMap_cons, List.append_assoc, scanFrom_escape, ih, List.reverse_cons, List.append_assoc,
      List.singleton_append]

theorem scanFrom_quote (value : Option String) (rest : List Char) :
    scanFrom .between (quote value ++ rest) = (scanFrom .between rest).map (.string value :: ·) := by
  cases value with
  | none =>
    -- the digits make the number 0xD800, a first half without a second one
    rw [quote, List.cons_append, scanFrom_within _ (.inString .empty) rfl]
    simp only [List.cons_append, List.nil_append]
    rw [scanFrom_within _ (.afterBackslash .empty) rfl, scanFrom_within _ (.inUnit .empty 4 0) rfl,
      scanFrom_within _ (.inUnit .empty 3 13) rfl, scanFrom_within _ (.inUnit .empty 2 216) rfl,
      scanFrom_within _ (.inUnit .empty 1 3456) rfl,
      scanFrom_within _ (.inString ⟨[], true, some 0xD800⟩) rfl,
      scanFrom_cons _ [.string none] .between rfl]
    rfl
  | some s =>
    rw [quote, List.cons_append, List.cons_append, List.append_assoc,
      scanFrom_within _ (.inString ⟨[], true, none⟩) rfl, scanFrom_inString, List.singleton_append,
      scanFrom_cons _ [.string (some s)] .between]
    · rfl
    · simp [Scan.step, Literal.value, Literal.settle]

/-! ### Words and numbers -/

/-- The text may follow a word or a number, which does not go on into it. -/
def Breaks (cs : List Char) : Prop :=
  ∀ c ∈ cs.head?, isNumberChar c = false ∧ ¬ ('a' ≤ c ∧ c ≤ 'z')

theorem scanFrom_closeBefore {scan : Scan} {token? : Option Token} {token : Token} {cs : List Char}
    (hstep : ∀ c ∈ cs.head?, scan.step c = Scan.closeBefore token? c) (hfinish : scan.finish = token?.map ([·]))
    (ht : token? = some token) : scanFrom scan cs = (scanFrom .between cs).map (token :: ·) := by
  subst ht
  cases cs with
  | nil => simpa [scanFrom, Scan.finish] using hfinish
  | cons c cs =>
    cases hs : Scan.start c with
    | none =>
      have h : scan.step c = none := by simp only [hstep c rfl, Scan.closeBefore, hs]
      have hb : Scan.between.step c = none := hs
      rw [scanFrom, scanFrom, h, hb]
      rfl
    | some next =>
      obtain ⟨tokens, next⟩ := next
      have h : scan.step c = some (token :: tokens, next) := by simp only [hstep c rfl, Scan.closeBefore, hs]
      rw [scanFrom_cons scan _ next h, scanFrom_cons .between tokens next hs, Option.map_map]
      rfl

theorem scanFrom_word {chars : List Char} {token : Token} (h : Scan.wordToken? chars = some token) {cs : List Char}
    (hb : Breaks cs) : scanFrom (.word chars) cs = (scanFrom .between cs).map (token :: ·) := by
  refine scanFrom_closeBefore (fun c hc => ?_) rfl h
  have := (hb c hc).2
  simp only [Scan.step, Bool.and_eq_true, decide_eq_true_eq, this, if_false]

theorem scanFrom_number {chars : List Char} {token : Token} (h : Scan.numberToken? chars = some token)
    {cs : List Char} (hb : Breaks cs) : scanFrom (.number chars) cs = (scanFrom .between cs).map (token :: ·) := by
  refine scanFrom_closeBefore (fun c hc => ?_) rfl h
  simp [Scan.step, (hb c hc).1]

theorem scanFrom_letters (chars : List Char) {cs : List Char} (h : ∀ c ∈ cs, 'a' ≤ c ∧ c ≤ 'z') (rest : List Char) :
    scanFrom (.word chars) (cs ++ rest) = scanFrom (.word (cs.reverse ++ chars)) rest := by
  induction cs generalizing chars with
  | nil => rfl
  | cons c cs ih =>
    rw [List.forall_mem_cons] at h
    rw [List.cons_append, scanFrom_within _ (.word (c :: chars)) (by simp [Scan.step, h.1]), ih _ h.2,
      List.reverse_cons, List.append_assoc, List.singleton_append]

theorem scanFrom_wholeWord (c : Char) (cs : List Char) {token : Token} (hc : Scan.start c = some ([], .word [c]))
    (hl : ∀ c ∈ cs, 'a' ≤ c ∧ c ≤ 'z') (ht : Scan.wordToken? (cs.reverse ++ [c]) = some token) {rest : List Char}
    (hb : Breaks rest) : scanFrom .between (c :: cs ++ rest) = (scanFrom .between rest).map (token :: ·) := by
  rw [List.cons_append, scanFrom_within .between (.word [c]) hc, scanFrom_letters [c] hl, scanFrom_word ht hb]

theorem scanFrom_numberChars (chars : List Char) {cs : List Char} (h : cs.all isNumberChar = true) (rest : List Char) :
    scanFrom (.number chars) (cs ++ rest) = scanFrom (.number (cs.reverse ++ chars)) rest := by
  induction cs generalizing chars with
  | nil => rfl
  | cons c cs ih =>
    rw [List.all_cons, Bool.and_eq_true] at h
    rw [List.cons_append, scanFrom_within _ (.number (c :: chars)) (by simp [Scan.step, h.1]), ih _ h.2,
      List.reverse_cons, List.append_assoc, List.singleton_append]

end Token

/-! ### Number literals -/

theorem isNumberChar_of_isDigit {c : Char} (h : Text.Decimal.isDigit c = true) : isNumberChar c = true := by
  simp [isNumberChar, h]

theorem all_isNumberChar_cons {c : Char} {cs : List Char} (hc : isNumberChar c = true) (h : cs.all isNumberChar = true) :
    (c :: cs).all isNumberChar = true := by
  rw [List.all_cons, hc, h, Bool.and_self]

theorem eq_append_of_afterDigits? {cs rest : List Char} (h : afterDigits? cs = some rest) :
    ∃ c digits, cs = c :: digits ++ rest ∧ Text.Decimal.isDigit c = true ∧ digits.all Text.Decimal.isDigit = true := by
  cases cs with
  | nil => cases h
  | cons c cs =>
    rw [afterDigits?] at h
    split at h
    · next hc =>
      cases h
      refine ⟨c, cs.takeWhile Text.Decimal.isDigit, by simp [List.takeWhile_append_dropWhile], hc, ?_⟩
      exact List.all_takeWhile
    · cases h

theorem all_isNumberChar_of_afterDigits? {cs rest : List Char} (h : afterDigits? cs = some rest)
    (hr : rest.all isNumberChar = true) : cs.all isNumberChar = true := by
  obtain ⟨c, digits, rfl, hc, hd⟩ := eq_append_of_afterDigits? h
  simp only [List.cons_append, List.all_cons, List.all_append, hr, Bool.and_true, Bool.and_eq_true,
    isNumberChar_of_isDigit hc, true_and]
  exact List.all_eq_true.2 fun d h => isNumberChar_of_isDigit (List.all_eq_true.1 hd d h)

theorem all_isNumberChar_of_isExponent {cs : List Char} (h : isExponent cs = true) : cs.all isNumberChar = true := by
  cases cs with
  | nil => rfl
  | cons c cs =>
    obtain ⟨hc, h⟩ := Bool.and_eq_true_iff.1 h
    have hc : isNumberChar c = true := by
      rw [Bool.or_eq_true, beq_iff_eq, beq_iff_eq] at hc
      rcases hc with rfl | rfl <;> rfl
    rw [List.all_cons, hc, Bool.true_and]
    split at h
    · exact all_isNumberChar_cons rfl (all_isNumberChar_of_afterDigits? (beq_iff_eq.1 h) rfl)
    · exact all_isNumberChar_cons rfl (all_isNumberChar_of_afterDigits? (beq_iff_eq.1 h) rfl)
    · exact all_isNumberChar_of_afterDigits? (beq_iff_eq.1 h) rfl

theorem all_isNumberChar_of_isFraction {cs : List Char} (h : isFraction cs = true) : cs.all isNumberChar = true := by
  unfold isFraction at h
  split at h
  · next digits =>
    split at h
    · next rest hd =>
      exact all_isNumberChar_cons rfl (all_isNumberChar_of_afterDigits? hd (all_isNumberChar_of_isExponent h))
    · cases h
  · exact all_isNumberChar_of_isExponent h

theorem isUnsigned_cases {cs : List Char} (h : isUnsigned cs = true) :
    ∃ c rest, cs = c :: rest ∧ Text.Decimal.isDigit c = true ∧ rest.all isNumberChar = true := by
  unfold isUnsigned at h
  split at h
  · next rest => exact ⟨'0', rest, rfl, rfl, all_isNumberChar_of_isFraction h⟩
  · split at h
    · next rest hd =>
      obtain ⟨c, digits, rfl, hc, hdigits⟩ := eq_append_of_afterDigits? hd
      have := all_isNumberChar_of_afterDigits? hd (all_isNumberChar_of_isFraction h)
      rw [List.cons_append, List.all_cons, Bool.and_eq_true] at this
      exact ⟨c, digits ++ rest, rfl, hc, this.2⟩
    · cases h

theorem isNumber_cases {cs : List Char} (h : isNumber cs = true) :
    ∃ c rest, cs = c :: rest ∧ (Text.Decimal.isDigit c = true ∨ c = '-') ∧ rest.all isNumberChar = true := by
  unfold isNumber at h
  split at h
  · next rest =>
    obtain ⟨c, digits, rfl, hc, hd⟩ := isUnsigned_cases h
    exact ⟨'-', _, rfl, .inr rfl, all_isNumberChar_cons (isNumberChar_of_isDigit hc) hd⟩
  · obtain ⟨c, rest, rfl, hc, hr⟩ := isUnsigned_cases h
    exact ⟨c, rest, rfl, .inl hc, hr⟩

theorem head?_write {n : Nat} (h : n ≠ 0) : (Text.Decimal.write n).head? ≠ some '0' := by
  induction n using Nat.strongRecOn with
  | ind n ih =>
    rw [Text.Decimal.write]
    split
    · next hlt =>
      have hall : ∀ m : Fin 10, m.val ≠ 0 → [Text.Decimal.digit m].head? ≠ some '0' := by decide
      exact hall ⟨n, hlt⟩ h
    · obtain ⟨c, cs, hw⟩ := List.exists_cons_of_ne_nil (Text.Decimal.write_ne_nil (n / 10))
      have := ih (n / 10) (by omega) (by omega)
      rw [hw] at this ⊢
      exact this

/-- The decimal digits of a natural number are a number. -/
theorem isNumber_write (n : Nat) : isNumber (Text.Decimal.write n) = true := by
  by_cases hn : n = 0
  · subst hn
    rw [Text.Decimal.write]
    decide
  have hdigits := Text.Decimal.all_isDigit_write n
  have hhead := head?_write hn
  obtain ⟨c, cs, hw⟩ := List.exists_cons_of_ne_nil (Text.Decimal.write_ne_nil n)
  rw [hw] at hdigits hhead ⊢
  obtain ⟨hc, hcs⟩ := Bool.and_eq_true_iff.1 hdigits
  have hafter : afterDigits? (c :: cs) = some [] := by
    have hdrop : (cs ++ []).dropWhile Text.Decimal.isDigit = [] :=
      List.dropWhile_append_of_pos (List.all_eq_true.1 hcs)
    rw [List.append_nil] at hdrop
    rw [afterDigits?, if_pos hc, hdrop]
  have hsign : c ≠ '-' := by
    rintro rfl
    cases hc
  have hzero : c ≠ '0' := by
    rintro rfl
    exact hhead rfl
  unfold isNumber isUnsigned
  split
  · next h => exact absurd (List.cons.inj h).1 hsign
  · split
    · next h => exact absurd (List.cons.inj h).1 hzero
    · rw [hafter]
      rfl

namespace Token

/-! ### Tokens -/

/-- A token whose text ends by itself, or whose text the given text does not go on. -/
def EndsBefore (token : Token) (cs : List Char) : Prop :=
  match token with
  | .null | .bool _ => Breaks cs
  | .number literal => isNumber literal = true ∧ Breaks cs
  | _ => True

theorem start_of_isDigit {c : Char} (h : Text.Decimal.isDigit c = true) : Scan.start c = some ([], .number [c]) := by
  have hne : ∀ d, Text.Decimal.isDigit d = false → c ≠ d := by
    rintro d hd rfl
    rw [h] at hd
    cases hd
  have hcurly : c.toNat ≠ 123 ∧ c.toNat ≠ 125 := by
    simp only [Text.Decimal.isDigit, Bool.and_eq_true, decide_eq_true_eq] at h
    omega
  simp [Scan.start, h, hcurly, hne '"' rfl, hne ' ' rfl, hne '\t' rfl, hne '\n' rfl, hne '\r' rfl, hne '[' rfl,
    hne ']' rfl, hne ',' rfl, hne ':' rfl]

theorem scanFrom_write {token : Token} {cs : List Char} (h : token.EndsBefore cs) :
    scanFrom .between (token.write ++ cs) = (scanFrom .between cs).map (token :: ·) := by
  cases token with
  | openSquare | closeSquare | openCurly | closeCurly | comma | colon =>
    exact scanFrom_cons .between [_] .between (by rfl) cs
  | null => exact scanFrom_wholeWord 'n' ['u', 'l', 'l'] rfl (by simp) rfl h
  | bool value =>
    cases value with
    | true => exact scanFrom_wholeWord 't' ['r', 'u', 'e'] rfl (by simp) rfl h
    | false => exact scanFrom_wholeWord 'f' ['a', 'l', 's', 'e'] rfl (by simp) rfl h
  | string value => exact scanFrom_quote value cs
  | number literal =>
    obtain ⟨hn, hb⟩ := h
    obtain ⟨c, rest, hl, hc, hr⟩ := isNumber_cases hn
    have hstart : Scan.between.step c = some ([], .number [c]) := by
      rcases hc with hc | rfl
      · exact start_of_isDigit hc
      · rfl
    have htoken : Scan.numberToken? (rest.reverse ++ [c]) = some (.number literal) := by
      simp [Scan.numberToken?, ← hl, hn]
    rw [Token.write, hl, List.cons_append, scanFrom_within .between _ hstart, scanFrom_numberChars _ hr,
      scanFrom_number htoken hb, hl]

end Token

end PushDispatch.Json
