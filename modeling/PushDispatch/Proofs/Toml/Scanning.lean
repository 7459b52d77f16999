import Mathlib.Data.List.Basic
import PushDispatch.Toml.Token

/-! Scanning the strings of TOML. A string of characters that need no escape is scanned as it is written, whatever
stands around it, and any string is shorter than what it is written as; on a single line it does not reach beyond the
end of the line. -/

namespace PushDispatch.Toml

/-! ### Text after text -/

/-- The tokens that the characters complete, and where the reader stands behind them. -/
def Scan.through (scan : Scan) : List Char → Option (List Token × Scan)
  | [] => some ([], scan)
  | c :: cs => (scan.step c).bind fun first => (first.2.through cs).map fun rest => (first.1 ++ rest.1, rest.2)

theorem Token.scanFrom_cons (scan : Scan) (c : Char) (cs : List Char) :
    scanFrom scan (c :: cs) = (scan.step c).bind fun first => (scanFrom first.2 cs).map (first.1 ++ ·) := by
  rw [scanFrom]
  cases scan.step c <;> rfl

theorem Token.scanFrom_of_step {scan next : Scan} {c : Char} {tokens : List Token}
    (h : scan.step c = some (tokens, next)) (cs : List Char) :
    scanFrom scan (c :: cs) = (scanFrom next cs).map (tokens ++ ·) := by
  rw [scanFrom_cons, h, Option.bind_some]

/-- A character that completes no token. -/
theorem Token.scanFrom_within {scan next : Scan} {c : Char} (h : scan.step c = some ([], next)) (cs : List Char) :
    scanFrom scan (c :: cs) = scanFrom next cs := by
  rw [scanFrom_of_step h]
  simp

theorem Token.scanFrom_append (scan : Scan) (xs ys : List Char) :
    scanFrom scan (xs ++ ys) = (scan.through xs).bind fun first => (scanFrom first.2 ys).map (first.1 ++ ·) := by
  induction xs generalizing scan with
  | nil => simp [Scan.through]
  | cons c xs ih =>
    rw [List.cons_append, Scan.through, scanFrom_cons]
    cases scan.step c with
    | none => rfl
    | some first =>
      rw [Option.bind_some, ih, Option.bind_some]
      cases first.2.through xs with
      | none => rfl
      | some rest => simp [Option.map_map, Function.comp_def]

/-- The characters without a mark of byte order at their beginning. -/
def withoutMark : List Char → List Char
  | c :: cs => if c.toNat = 0xFEFF then cs else c :: cs
  | [] => []

theorem withoutMark_append {xs : List Char} (h : xs ≠ []) (ys : List Char) :
    withoutMark (xs ++ ys) = withoutMark xs ++ ys := by
  obtain ⟨c, cs, rfl⟩ := List.exists_cons_of_ne_nil h
  rw [List.cons_append, withoutMark, withoutMark]
  split <;> rfl

theorem Token.scan_eq (cs : List Char) : scan cs =
    if hasWholeLineEnds (withoutMark cs) then scanFrom .between (withoutMark cs) else none := by
  cases cs <;> rfl

/-- No line end reaches over a character that is no carriage return. -/
theorem hasWholeLineEnds_append_cons {c : Char} (hr : c ≠ '\r') (xs ys : List Char) :
    hasWholeLineEnds (xs ++ c :: ys) = (hasWholeLineEnds (xs ++ [c]) && hasWholeLineEnds ys) := by
  induction xs with
  | nil => simp [hasWholeLineEnds, hr]
  | cons d xs ih =>
    have hhead : (xs ++ c :: ys).head? = (xs ++ [c]).head? := by cases xs <;> rfl
    rw [List.cons_append, hasWholeLineEnds, ih, List.cons_append, hasWholeLineEnds, hhead, Bool.and_assoc]

theorem hasWholeLineEnds_append_of_notMem {xs : List Char} (h : '\r' ∉ xs) (ys : List Char) :
    hasWholeLineEnds (xs ++ ys) = hasWholeLineEnds ys := by
  induction xs with
  | nil => rfl
  | cons c xs ih =>
    rw [List.mem_cons, not_or] at h
    rw [List.cons_append, hasWholeLineEnds, ih h.2]
    simp [Ne.symm h.1]

/-! ### Characters that need no escape -/

/-- The characters stand for themselves in a string of one line. -/
def IsPlain (cs : List Char) : Prop := ∀ c ∈ cs, c ≠ '"' ∧ c ≠ '\\' ∧ isControl c = false

instance (cs : List Char) : Decidable (IsPlain cs) := List.decidableBAll _ cs

/-- A string of one line that is being read. -/
def lineLiteral (chars : List Char) : Literal := ⟨'"', false, chars, 0⟩

theorem stepString_of_plain {c : Char} (h : c ≠ '"' ∧ c ≠ '\\' ∧ isControl c = false) (chars : List Char) :
    Scan.stepString (lineLiteral chars) c = some ([], .inString (lineLiteral (c :: chars))) := by
  obtain ⟨hquote, hslash, hcontrol⟩ := h
  simp [Scan.stepString, lineLiteral, hquote, hslash, hcontrol, Literal.push]

theorem through_plain {value : List Char} (h : IsPlain value) (chars : List Char) :
    Scan.through (.inString (lineLiteral chars)) value = some ([], .inString (lineLiteral (value.reverse ++ chars))) := by
  induction value generalizing chars with
  | nil => rfl
  | cons c value ih =>
    have hstep : Scan.step (.inString (lineLiteral chars)) c = some ([], .inString (lineLiteral (c :: chars))) :=
      stepString_of_plain (h c List.mem_cons_self) chars
    rw [Scan.through, hstep, Option.bind_some, ih fun d hd => h d (List.mem_cons_of_mem _ hd)]
    simp

/-- Behind its first quote and characters without escapes a string goes on, unless another quote follows the first. -/
theorem scanFrom_plain_append {value : List Char} (h : IsPlain value) {c : Char} (hc : value ≠ [] ∨ c ≠ '"')
    (rest : List Char) : Token.scanFrom (.opening '"' false) (value ++ c :: rest) =
      (Scan.stepString (lineLiteral value.reverse) c).bind fun r => (Token.scanFrom r.2 rest).map (r.1 ++ ·) := by
  cases value with
  | nil =>
    have hc : c ≠ '"' := hc.resolve_left (by simp)
    rw [List.nil_append, Token.scanFrom_cons, Scan.step, if_neg hc]
    rfl
  | cons d value =>
    have hd := h d List.mem_cons_self
    have hfirst : Scan.step (.opening '"' false) d = some ([], .inString (lineLiteral [d])) := by
      rw [Scan.step, if_neg hd.1]
      exact stepString_of_plain hd []
    rw [List.cons_append, Token.scanFrom_within hfirst, Token.scanFrom_append,
      through_plain fun e he => h e (List.mem_cons_of_mem _ he)]
    simp [Token.scanFrom_cons, Scan.step, Function.comp_def]

theorem scanFrom_newline (cs : List Char) :
    Token.scanFrom .between ('\n' :: cs) = (Token.scanFrom .between cs).map (.newline :: ·) := by
  have hstep : Scan.step .between '\n' = some ([.newline], .between) := rfl
  exact Token.scanFrom_of_step hstep cs

/-- A second quote may be the end of a string, or part of the quotes before a string of several lines. -/
theorem scanFrom_opening_quote (cs : List Char) :
    Token.scanFrom (.opening '"' false) ('"' :: cs) = Token.scanFrom (.opening '"' true) cs :=
  Token.scanFrom_within rfl cs

/-- A string without escapes at the end of a line, behind its first quote. -/
theorem scanFrom_plain {value : List Char} (h : IsPlain value) (rest : List Char) :
    Token.scanFrom (.opening '"' false) (value ++ '"' :: '\n' :: rest) =
      (Token.scanFrom .between rest).map (.string (String.ofList value) false :: .newline :: ·) := by
  by_cases hvalue : value = []
  · -- one more quote would have begun a string of several lines
    have hclose : Scan.step (.opening '"' true) '\n' = some ([.string "" false, .newline], .between) := rfl
    rw [hvalue, List.nil_append, scanFrom_opening_quote, Token.scanFrom_of_step hclose]
    rfl
  · have hclose : Scan.stepString (lineLiteral value.reverse) '"' =
        some ([.string (String.ofList value) false], .between) := by
      simp [Scan.stepString, lineLiteral, Literal.token, Literal.value]
    rw [scanFrom_plain_append h (.inl hvalue), hclose, Option.bind_some, scanFrom_newline]
    simp [Option.map_map, Function.comp_def]

/-! ### The length of a string -/

namespace Literal

variable {l : Literal}

/-- How many characters the string has if no quote at its end closes it. -/
def size (l : Literal) : Nat := l.chars.length + l.quotes

/-- How many quotes close the string. -/
def closing (l : Literal) : Nat := if l.isMultiline then 3 else 1

/-- A basic string; on one line the first quote that is not escaped ends it. -/
structure IsBasic (l : Literal) : Prop where
  quote : l.quote = '"'
  quotes : l.isMultiline = false → l.quotes = 0

theorem size_push (l : Literal) (c : Char) : (l.push c).size = l.size + 1 := by
  simp [size, push]; omega

theorem size_settle (l : Literal) : l.settle.size = l.size := by
  simp [size, settle]; omega

theorem length_value (l : Literal) : l.value.length = l.chars.length + (l.quotes - 3) := by
  simp [value]

theorem IsBasic.push (h : l.IsBasic) (c : Char) : (l.push c).IsBasic := ⟨h.quote, fun _ => rfl⟩

theorem IsBasic.settle (h : l.IsBasic) : l.settle.IsBasic := ⟨h.quote, fun _ => rfl⟩

theorem IsBasic.isMultiline_of_quotes (h : l.IsBasic) (hq : l.quotes ≠ 0) : l.isMultiline = true := by
  by_contra hm
  exact hq (h.quotes (Bool.eq_false_iff.2 hm))

theorem closing_of_isMultiline (h : l.isMultiline = true) : l.closing = 3 := by simp [closing, h]

end Literal

/-- The reader stands in a string. -/
inductive Scan.IsIn (l : Literal) : Scan → Prop
  | opened (hm : l.isMultiline = true) : IsIn l (.opened l)
  | inString : IsIn l (.inString l)
  | afterBackslash : IsIn l (.afterBackslash l)
  | inCode (digitsLeft value : Nat) : IsIn l (.inCode l digitsLeft value)
  | lineEnd (hm : l.isMultiline = true) (isPast : Bool) : IsIn l (.lineEnd l isPast)

/-- The character does not end the line, or the string may have several. -/
def StaysInLine (l : Literal) (c : Char) : Prop := l.isMultiline = false → c ≠ '\n'

theorem StaysInLine.of_isMultiline {l : Literal} (hm : l.isMultiline = true) (c : Char) : StaysInLine l c :=
  fun hf => absurd (hm.symm.trans hf) (by decide)

/-- What a character in a string brings: it ends the string, or the string goes on, no longer by more than this
character. -/
inductive Takes (l : Literal) (c : Char) : List Token × Scan → Prop
  | close (value : String) (more : List Token) (next : Scan)
      (h : value.length + l.closing ≤ l.size + 1) (hline : StaysInLine l c) :
      Takes l c (.string value l.isMultiline :: more, next)
  | goOn (l' : Literal) (next : Scan) (hin : next.IsIn l') (hbasic : l'.IsBasic) (hm : l'.isMultiline = l.isMultiline)
      (hsize : l'.size ≤ l.size + 1) (hline : StaysInLine l c) : Takes l c ([], next)

namespace Takes

variable {l : Literal} {c : Char} {next : Scan} {r : List Token × Scan}

theorem push (h : l.IsBasic) (d : Char) (hline : StaysInLine l c) : Takes l c ([], .inString (l.push d)) :=
  .goOn _ _ .inString (h.push d) rfl (Nat.le_of_eq (Literal.size_push ..)) hline

/-- The character adds nothing to the string. -/
theorem stay (h : l.IsBasic) (hin : next.IsIn l) (hline : StaysInLine l c) : Takes l c ([], next) :=
  .goOn _ _ hin h rfl (Nat.le_succ _) hline

theorem of_stepString (h : l.IsBasic) (hr : Scan.stepString l c = some r) : Takes l c r := by
  unfold Scan.stepString at hr
  split at hr
  · next hc =>
    have hline : StaysInLine l c := fun _ => by rw [hc, h.quote]; decide
    split at hr
    · next hm =>
      have hm : l.isMultiline = false := by simpa using hm
      obtain rfl := Option.some.inj hr
      refine .close _ _ _ ?_ hline
      rw [Literal.length_value, Literal.size, h.quotes hm, Literal.closing, hm]
      simp
    split at hr
    · next hq =>
      have hm := h.isMultiline_of_quotes (by omega)
      obtain rfl := Option.some.inj hr
      refine .close _ _ _ ?_ hline
      rw [Literal.length_value, Literal.size, Literal.closing_of_isMultiline hm]
      simp only
      omega
    · next hm _ =>
      have hm : l.isMultiline = true := by simpa using hm
      have hbasic : Literal.IsBasic { l with quotes := l.quotes + 1 } :=
        ⟨h.quote, fun hf => absurd (hm.symm.trans hf) (by decide)⟩
      obtain rfl := Option.some.inj hr
      exact .goOn _ _ .inString hbasic rfl (by simp [Literal.size]; omega) hline
  split at hr
  · next hq =>
    have hm := h.isMultiline_of_quotes (by omega)
    obtain rfl := Option.some.inj hr
    refine .close _ _ _ ?_ (.of_isMultiline hm c)
    rw [Literal.length_value, Literal.size, Literal.closing_of_isMultiline hm]
    omega
  split at hr
  · next hc =>
    have hline : StaysInLine l c := by
      rintro - rfl
      simp at hc
    obtain rfl := Option.some.inj hr
    exact .goOn _ _ .afterBackslash h.settle rfl (by rw [Literal.size_settle]; omega) hline
  split at hr
  · next hc =>
    obtain rfl := Option.some.inj hr
    exact push h c (.of_isMultiline (Bool.and_eq_true_iff.1 hc).2 c)
  split at hr
  · cases hr
  · next hc =>
    have hline : StaysInLine l c := by
      rintro - rfl
      exact hc (by decide)
    obtain rfl := Option.some.inj hr
    exact push h c hline

theorem of_stepEscape (h : l.IsBasic) (hr : Scan.stepEscape l c = some r) : Takes l c r := by
  unfold Scan.stepEscape at hr
  split at hr
  · next hshort =>
    have hline : StaysInLine l c := by
      rintro - rfl
      simp [shortEscape?] at hshort
    obtain rfl := Option.some.inj hr
    exact push h _ hline
  · next hlength =>
    have hline : StaysInLine l c := by
      rintro - rfl
      simp [codeLength?] at hlength
    obtain rfl := Option.some.inj hr
    exact stay h (.inCode ..) hline
  split at hr
  · cases hr
  · next hm =>
    have hm : l.isMultiline = true := by simpa using hm
    split at hr
    · obtain rfl := Option.some.inj hr
      exact stay h (.lineEnd hm _) (.of_isMultiline hm c)
    split at hr
    · obtain rfl := Option.some.inj hr
      exact stay h (.lineEnd hm _) (.of_isMultiline hm c)
    · cases hr

theorem of_step (h : l.IsBasic) {scan : Scan} (hin : scan.IsIn l) (hr : scan.step c = some r) : Takes l c r := by
  cases hin with
  | opened hm =>
    rw [Scan.step] at hr
    split at hr
    · obtain rfl := Option.some.inj hr
      exact stay h (.opened hm) (.of_isMultiline hm c)
    split at hr
    · obtain rfl := Option.some.inj hr
      exact stay h .inString (.of_isMultiline hm c)
    · exact of_stepString h hr
  | inString => exact of_stepString h hr
  | afterBackslash => exact of_stepEscape h hr
  | inCode digitsLeft value =>
    obtain ⟨digit, hdigit, hr⟩ := Option.bind_eq_some_iff.1 hr
    have hline : StaysInLine l c := by
      rintro - rfl
      simp [Text.Hex.value?] at hdigit
    split at hr
    · obtain ⟨d, -, hr⟩ := Option.bind_eq_some_iff.1 hr
      obtain rfl := Option.some.inj hr
      exact push h d hline
    · obtain rfl := Option.some.inj hr
      exact stay h (.inCode ..) hline
  | lineEnd hm isPast =>
    rw [Scan.step] at hr
    split at hr
    · obtain rfl := Option.some.inj hr
      exact stay h (.lineEnd hm _) (.of_isMultiline hm c)
    split at hr
    · obtain rfl := Option.some.inj hr
      exact stay h (.lineEnd hm _) (.of_isMultiline hm c)
    split at hr
    · exact of_stepString h hr
    · cases hr

end Takes

/-- The string that is being read comes first, and is shorter than what is read for it by its closing quotes at least. -/
theorem exists_read_of_scanFrom {l : Literal} (h : l.IsBasic) {scan : Scan} (hin : scan.IsIn l) {cs : List Char}
    {tokens : List Token} (hscan : Token.scanFrom scan cs = some tokens) :
    ∃ read rest value more, cs = read ++ rest ∧ tokens = .string value l.isMultiline :: more ∧
      value.length + l.closing ≤ l.size + read.length ∧ (l.isMultiline = false → '\n' ∉ read) := by
  induction cs generalizing l scan tokens with
  | nil =>
    -- at its end the text closes strings of several lines only, whose quotes have been read
    cases hin with
    | inString =>
      rw [Token.scanFrom, Scan.finish] at hscan
      split at hscan
      · next hq =>
        have hm := h.isMultiline_of_quotes (by omega)
        obtain rfl := Option.some.inj hscan
        refine ⟨[], [], l.value, [], rfl, rfl, ?_, fun _ => List.not_mem_nil⟩
        rw [Literal.length_value, Literal.size, Literal.closing_of_isMultiline hm, List.length_nil]
        omega
      · cases hscan
    | _ => cases hscan
  | cons c cs ih =>
    cases hstep : scan.step c with
    | none => rw [Token.scanFrom_cons, hstep] at hscan; cases hscan
    | some r =>
      have htakes := Takes.of_step h hin hstep
      cases htakes with
      | close value more next hlen hline =>
        rw [Token.scanFrom_of_step hstep, Option.map_eq_some_iff] at hscan
        obtain ⟨later, -, rfl⟩ := hscan
        exact ⟨[c], cs, value, more ++ later, rfl, rfl, hlen, fun hf => by simpa using (hline hf).symm⟩
      | goOn l' next hnext hbasic hm hsize hline =>
        rw [Token.scanFrom_within hstep] at hscan
        obtain ⟨read, rest, value, more, rfl, rfl, hlen, hnone⟩ := ih hbasic hnext hscan
        refine ⟨c :: read, rest, value, more, rfl, by rw [hm], ?_, fun hf => ?_⟩
        · rw [Literal.closing, hm] at hlen
          rw [Literal.closing, List.length_cons]
          omega
        · rw [List.mem_cons, not_or]
          exact ⟨(hline hf).symm, hnone (hm.trans hf)⟩

/-! ### Characters that need an escape -/

theorem exists_of_not_isPlain {value : List Char} (h : ¬ IsPlain value) :
    ∃ front c back, value = front ++ c :: back ∧ IsPlain front ∧ ¬ IsPlain [c] := by
  induction value with
  | nil => exact absurd (by simp [IsPlain]) h
  | cons c value ih =>
    by_cases hc : IsPlain [c]
    · have hvalue : ¬ IsPlain value := fun hv => h (List.forall_mem_cons.2 ⟨hc c List.mem_cons_self, hv⟩)
      obtain ⟨front, d, back, rfl, hfront, hd⟩ := ih hvalue
      exact ⟨c :: front, d, back, rfl, List.forall_mem_cons.2 ⟨hc c List.mem_cons_self, hfront⟩, hd⟩
    · exact ⟨[], c, value, rfl, by simp [IsPlain], hc⟩

/-- The tokens begin with a string of less than so many characters. -/
def BeginsShorter (n : Nat) (tokens : List Token) : Prop :=
  ∃ text isMultiline more, tokens = .string text isMultiline :: more ∧ text.length < n

section
variable {front back cs : List Char} {tokens : List Token}

/-- A backslash stands for no character of its own, and the line ends behind the quote that follows the value. -/
theorem beginsShorter_of_backslash
    (hscan : Token.scanFrom (.afterBackslash (lineLiteral front.reverse)) (back ++ ['"', '\n']) = some tokens) :
    BeginsShorter (front ++ '\\' :: back).length tokens := by
  have hbasic : (lineLiteral front.reverse).IsBasic := ⟨rfl, fun _ => rfl⟩
  obtain ⟨read, rest, text, more, hread, rfl, hlength, hline⟩ := exists_read_of_scanFrom hbasic .afterBackslash hscan
  have hrest : rest ≠ [] := by
    rintro rfl
    rw [List.append_nil] at hread
    exact hline rfl (hread ▸ by simp)
  have hpos := List.length_pos_of_ne_nil hrest
  have hchars := congrArg List.length hread
  simp only [lineLiteral, Literal.size, Literal.closing, List.length_reverse] at hlength
  simp only [List.length_append, List.length_cons, List.length_nil] at hchars
  refine ⟨text, false, more, rfl, ?_⟩
  simp only [List.length_append, List.length_cons]
  simp at hlength
  omega

/-- A string of several lines. -/
theorem beginsShorter_of_opened (hscan : Token.scanFrom (.opened ⟨'"', true, [], 0⟩) cs = some tokens) {n : Nat}
    (hn : cs.length < n + 3) : BeginsShorter n tokens := by
  have hbasic : Literal.IsBasic ⟨'"', true, [], 0⟩ := ⟨rfl, fun hf => by cases hf⟩
  obtain ⟨read, rest, text, more, rfl, rfl, hlength, -⟩ := exists_read_of_scanFrom hbasic (.opened rfl) hscan
  refine ⟨text, true, more, rfl, ?_⟩
  simp [Literal.size, Literal.closing] at hlength
  rw [List.length_append] at hn
  omega

/-- Two quotes are an empty string, or with a third one the beginning of a string of several lines. -/
theorem beginsShorter_of_quote
    (hscan : Token.scanFrom (.opening '"' true) (back ++ ['"', '\n']) = some tokens) :
    BeginsShorter ('"' :: back).length tokens := by
  have hthird : Scan.step (.opening '"' true) '"' = some ([], .opened ⟨'"', true, [], 0⟩) := rfl
  cases back with
  | nil =>
    rw [List.nil_append, Token.scanFrom_within hthird] at hscan
    exact beginsShorter_of_opened hscan (by simp)
  | cons d back =>
    rw [List.cons_append] at hscan
    by_cases hd : d = '"'
    · rw [hd, Token.scanFrom_within hthird] at hscan
      exact beginsShorter_of_opened hscan (by simp)
    · have hempty : Scan.step (.opening '"' true) d = some (.string "" false :: (Scan.start d).1, (Scan.start d).2) := by
        rw [Scan.step, if_neg hd, Scan.closeBefore]
      rw [Token.scanFrom_of_step hempty, Option.map_eq_some_iff] at hscan
      obtain ⟨rest, -, rfl⟩ := hscan
      exact ⟨"", false, _, rfl, by simp⟩

/-- Between quotes at the end of a text, characters of which one needs an escape are read as a shorter string, if as
one at all. -/
theorem beginsShorter_of_not_isPlain {value : List Char} (h : ¬ IsPlain value)
    (hscan : Token.scanFrom (.opening '"' false) (value ++ ['"', '\n']) = some tokens) :
    BeginsShorter value.length tokens := by
  obtain ⟨front, c, back, rfl, hfront, hc⟩ := exists_of_not_isPlain h
  rw [List.append_assoc, List.cons_append] at hscan
  by_cases hquotes : front ≠ [] ∨ c ≠ '"'
  · rw [scanFrom_plain_append hfront hquotes] at hscan
    obtain ⟨r, hr, hscan⟩ := Option.bind_eq_some_iff.1 hscan
    obtain ⟨rest, hrest, rfl⟩ := Option.map_eq_some_iff.1 hscan
    by_cases hquote : c = '"'
    · -- the string ends in front of this quote
      obtain rfl : ([(lineLiteral front.reverse).token], .between) = r := by
        simpa [Scan.stepString, hquote, lineLiteral] using hr
      refine ⟨String.ofList front, false, rest, ?_, by simp⟩
      simp [lineLiteral, Literal.token, Literal.value]
    by_cases hslash : c = '\\'
    · obtain rfl : ([], .afterBackslash (lineLiteral front.reverse)) = r := by
        simpa [Scan.stepString, hquote, hslash, lineLiteral, Literal.hasEscapes, Literal.settle] using hr
      rw [hslash]
      exact beginsShorter_of_backslash hrest
    · have hcontrol : isControl c = true := by
        by_contra hn
        exact hc fun d hd => by simp_all
      simp [Scan.stepString, hquote, hslash, hcontrol, lineLiteral] at hr
  · obtain ⟨rfl, rfl⟩ : front = [] ∧ c = '"' := by simpa using hquotes
    rw [List.nil_append, scanFrom_opening_quote] at hscan
    exact beginsShorter_of_quote hscan

end

end PushDispatch.Toml
