import PushDispatch.Fcm.Reply
import PushDispatch.Proofs.Duration.Words
import PushDispatch.Proofs.Text.Cut
import PushDispatch.Proofs.Text.Digits

/-! The wait that the headers of a refusal ask for. Only a number of seconds counts, written in digits, and a number that
is too large for 64 bits is no wait at all. Read digit by digit into a machine word, with a stop where the next digit
does not fit, the number comes out the same. -/

namespace PushDispatch

/-! ### Digits in a machine word -/

namespace Text.Decimal

open Duration.Words (add? add?_eq_some_iff mul? mul?_eq_some_iff)

variable {word next : UInt64} {c : Char} {cs : List Char}

theorem le_valueFrom (v : Nat) (cs : List Char) : v ≤ valueFrom v cs := by
  induction cs generalizing v with
  | nil => exact Nat.le_refl v
  | cons c cs ih =>
    rw [valueFrom_cons]
    exact Nat.le_trans (by omega) (ih _)

/-- One more digit of a number, if it is a digit and the number still fits into a word. -/
def pushDigit? (word : UInt64) (c : Char) : Option UInt64 :=
  if isDigit c then (mul? 10 word).bind (add? · (UInt64.ofNat (c.toNat - 48))) else none

/-- Reads one or more digits into a word, one after the other. -/
def readWord? (cs : List Char) : Option UInt64 := if cs.isEmpty then none else cs.foldlM pushDigit? 0

theorem pushDigit?_eq_some_iff :
    pushDigit? word c = some next ↔ isDigit c = true ∧ next.toNat = 10 * word.toNat + (c.toNat - 48) := by
  rw [pushDigit?, Option.ite_none_right_eq_some, Option.bind_eq_some_iff]
  refine and_congr_right fun hc => ?_
  have hdigit : (UInt64.ofNat (c.toNat - 48)).toNat = c.toNat - 48 := by
    have := toNat_of_isDigit hc
    rw [UInt64.toNat_ofNat', Nat.mod_eq_of_lt (by omega)]
  simp only [mul?_eq_some_iff, add?_eq_some_iff, hdigit]
  constructor
  · rintro ⟨ten, hten, hnext⟩
    rw [hnext, hten]
    rfl
  · intro hnext
    have hlt : 10 * word.toNat < 2 ^ 64 := by
      have := next.toNat_lt
      omega
    have hten : (UInt64.ofNat (10 * word.toNat)).toNat = 10 * word.toNat := by
      rw [UInt64.toNat_ofNat', Nat.mod_eq_of_lt hlt]
    exact ⟨_, hten, by rw [hten, hnext]⟩

/-- No digit is lost on the way: the word overflows as soon as the number can no longer fit. -/
theorem foldlM_pushDigit?_eq_some_iff :
    cs.foldlM pushDigit? word = some next ↔ cs.all isDigit = true ∧ next.toNat = valueFrom word.toNat cs := by
  induction cs generalizing word with
  | nil => simp [valueFrom_nil, ← UInt64.toNat_inj, eq_comm]
  | cons c cs ih =>
    rw [List.foldlM_cons, Option.bind_eq_bind, Option.bind_eq_some_iff]
    simp only [pushDigit?_eq_some_iff, ih, valueFrom_cons, List.all_cons, Bool.and_eq_true]
    constructor
    · rintro ⟨first, ⟨hc, hfirst⟩, hcs, hnext⟩
      exact ⟨⟨hc, hcs⟩, hfirst ▸ hnext⟩
    · rintro ⟨⟨hc, hcs⟩, hnext⟩
      have hlt : 10 * word.toNat + (c.toNat - 48) < 2 ^ 64 :=
        (hnext ▸ le_valueFrom _ cs).trans_lt next.toNat_lt
      have hfirst : (UInt64.ofNat (10 * word.toNat + (c.toNat - 48))).toNat = 10 * word.toNat + (c.toNat - 48) := by
        rw [UInt64.toNat_ofNat', Nat.mod_eq_of_lt hlt]
      exact ⟨_, ⟨hc, hfirst⟩, hcs, by rw [hfirst, hnext]⟩

/-- A word is read exactly from the digits of its number. -/
theorem readWord?_eq_some_iff : readWord? cs = some word ↔ read? cs = some word.toNat := by
  rw [readWord?, read?_eq_some_iff]
  cases cs with
  | nil => simp
  | cons c cs =>
    rw [if_neg (by simp), foldlM_pushDigit?_eq_some_iff]
    exact ⟨fun ⟨hall, hword⟩ => ⟨List.cons_ne_nil c cs, hall, hword.symm⟩, fun ⟨_, hall, hword⟩ => ⟨hall, hword.symm⟩⟩

end Text.Decimal

namespace Fcm.Reply

open Text (TrimsTo dropAround dropAround_eq_iff isBlank)
open Text.Decimal (Denotes readWord?)

/-! ### The text of the header -/

/-- The first of the values that headers give to a name, which is written in small letters. -/
def FirstValue (name : String) (headers : List (String × List UInt8)) (value : List UInt8) : Prop :=
  ∃ before own after, headers = before ++ (own, value) :: after ∧ Text.lowerAscii own = name ∧
    ∀ earlier ∈ before, Text.lowerAscii earlier.1 ≠ name

/-- The bytes of a text of visible ASCII characters, blanks and tabs. -/
def IsVisibleText (value : List UInt8) (cs : List Char) : Prop :=
  value = cs.map (fun c => UInt8.ofNat c.toNat) ∧ ∀ c ∈ cs, c = '\t' ∨ ' ' ≤ c ∧ c ≤ '~'

/-- Between blanks, a text writes a number of seconds: digits, with or without a plus sign in front of them. -/
def WritesSeconds (cs : List Char) (n : Nat) : Prop :=
  ∃ sign digits, TrimsTo isBlank cs (sign ++ digits) ∧ (sign = [] ∨ sign = ['+']) ∧ Denotes digits n

/-- Headers ask for a wait of so many seconds, which are a number of 64 bits. -/
def AsksFor (headers : List (String × List UInt8)) (n : Nat) : Prop :=
  ∃ value cs, FirstValue "retry-after" headers value ∧ IsVisibleText value cs ∧ WritesSeconds cs n ∧ n < 2 ^ 64

theorem header?_eq_some_iff {name : String} {r : Reply} {value : List UInt8} :
    r.header? name = some value ↔ FirstValue name r.headers value := by
  simp only [header?, Option.map_eq_some_iff, List.find?_eq_some_iff_append, FirstValue]
  constructor
  · rintro ⟨⟨own, _⟩, ⟨hown, before, after, hheaders, hbefore⟩, rfl⟩
    exact ⟨before, own, after, hheaders, by simpa using hown, fun earlier hm => by simpa using hbefore earlier hm⟩
  · rintro ⟨before, own, after, hheaders, hown, hbefore⟩
    exact ⟨(own, value), ⟨by simpa using hown, before, after, hheaders,
      fun earlier hm => by simpa using hbefore earlier hm⟩, rfl⟩

/-- The characters of ASCII that may stand in a text that is understood. -/
theorem visible_ofNat : ∀ n < 127, n = 9 ∨ 32 ≤ n →
    (Char.ofNat n).toNat = n ∧ (Char.ofNat n = '\t' ∨ ' ' ≤ Char.ofNat n ∧ Char.ofNat n ≤ '~') := by
  decide

theorem toNat_of_visible {c : Char} (h : c = '\t' ∨ ' ' ≤ c ∧ c ≤ '~') :
    (UInt8.ofNat c.toNat).toNat = c.toNat ∧ (c.toNat = 9 ∨ 32 ≤ c.toNat ∧ c.toNat < 127) := by
  have hrange : c.toNat = 9 ∨ 32 ≤ c.toNat ∧ c.toNat < 127 := by
    rcases h with rfl | ⟨hfirst, hlast⟩
    · exact .inl rfl
    · have hfirst : 32 ≤ c.toNat := hfirst
      have hlast : c.toNat ≤ 126 := hlast
      exact .inr (by omega)
  exact ⟨by rw [UInt8.toNat_ofNat', Nat.mod_eq_of_lt (by omega)], hrange⟩

theorem visibleText?_eq_some_iff {value : List UInt8} {cs : List Char} :
    visibleText? value = some cs ↔ IsVisibleText value cs := by
  simp only [visibleText?, Option.ite_none_right_eq_some, Option.some_inj, List.all_eq_true, Bool.or_eq_true,
    Bool.and_eq_true, decide_eq_true_eq]
  constructor
  · rintro ⟨hall, rfl⟩
    have hbyte : ∀ b ∈ value, (Char.ofNat b.toNat).toNat = b.toNat ∧ _ := fun b hb => by
      have := hall b hb
      exact visible_ofNat b.toNat (by omega) (by omega)
    refine ⟨?_, fun c hc => ?_⟩
    · rw [List.map_map]
      refine ((List.map_congr_left fun b hb => ?_).trans (List.map_id value)).symm
      rw [Function.comp_apply, (hbyte b hb).1, UInt8.ofNat_toNat]
      rfl
    · obtain ⟨b, hb, rfl⟩ := List.mem_map.1 hc
      exact (hbyte b hb).2
  · rintro ⟨rfl, hall⟩
    refine ⟨fun b hb => ?_, ?_⟩
    · obtain ⟨c, hc, rfl⟩ := List.mem_map.1 hb
      obtain ⟨hnat, hrange⟩ := toNat_of_visible (hall c hc)
      rw [hnat]
      omega
    · rw [List.map_map]
      refine (List.map_congr_left fun c hc => ?_).trans (List.map_id cs)
      rw [Function.comp_apply, (toNat_of_visible (hall c hc)).1, Char.ofNat_toNat]
      rfl

/-! ### The number in it -/

/-- What follows a plus sign in front. -/
def afterPlus : List Char → List Char
  | '+' :: cs => cs
  | cs => cs

theorem exists_sign (cs : List Char) : ∃ sign, cs = sign ++ afterPlus cs ∧ (sign = [] ∨ sign = ['+']) := by
  unfold afterPlus
  split
  · exact ⟨['+'], rfl, .inr rfl⟩
  · exact ⟨[], rfl, .inl rfl⟩

/-- Reads the seconds into a machine word. -/
def wordSeconds? (cs : List Char) : Option UInt64 := readWord? (afterPlus (dropAround isBlank cs))

theorem readSeconds?_eq_bind (cs : List Char) :
    readSeconds? cs = (Text.Decimal.read? (afterPlus (dropAround isBlank cs))).bind
      fun seconds => if seconds < Nat.pow 2 64 then some seconds else none := by
  unfold readSeconds?
  dsimp only
  split
  · next seconds hread =>
    have hread : Text.Decimal.read? (afterPlus (dropAround isBlank cs)) = some seconds := hread
    rw [hread, Option.bind_some]
  · next hread =>
    have hread : Text.Decimal.read? (afterPlus (dropAround isBlank cs)) = none := hread
    rw [hread, Option.bind_none]

theorem readSeconds?_eq_some_iff {cs : List Char} {n : Nat} :
    readSeconds? cs = some n ↔ Text.Decimal.read? (afterPlus (dropAround isBlank cs)) = some n ∧ n < 2 ^ 64 := by
  rw [readSeconds?_eq_bind, Option.bind_eq_some_iff]
  simp only [Option.ite_none_right_eq_some, Option.some_inj]
  exact ⟨fun ⟨_, hread, hlt, he⟩ => he ▸ ⟨hread, hlt⟩, fun ⟨hread, hlt⟩ => ⟨n, hread, hlt, rfl⟩⟩

/-- In a machine word the number comes out the same. -/
theorem readSeconds?_eq_map (cs : List Char) : readSeconds? cs = (wordSeconds? cs).map UInt64.toNat := by
  refine Option.ext fun n => ?_
  rw [readSeconds?_eq_some_iff, Option.map_eq_some_iff]
  simp only [wordSeconds?, Text.Decimal.readWord?_eq_some_iff]
  constructor
  · rintro ⟨hread, hlt⟩
    have hword : (UInt64.ofNat n).toNat = n := by rw [UInt64.toNat_ofNat', Nat.mod_eq_of_lt hlt]
    exact ⟨UInt64.ofNat n, by rw [hword, hread], hword⟩
  · rintro ⟨word, hread, rfl⟩
    exact ⟨hread, word.toNat_lt⟩

theorem writesSeconds_iff {cs : List Char} {n : Nat} :
    WritesSeconds cs n ↔ Text.Decimal.read? (afterPlus (dropAround isBlank cs)) = some n := by
  simp only [WritesSeconds, ← dropAround_eq_iff, Text.Decimal.read?_eq_some_iff_denotes]
  constructor
  · rintro ⟨sign, digits, hkey, rfl | rfl, hdigits⟩
    · -- digits do not begin with a plus sign
      have hplus : afterPlus digits = digits := by
        unfold afterPlus
        split
        · exact absurd (hdigits.2.1 '+' List.mem_cons_self).1 (by decide)
        · rfl
      rwa [hkey, List.nil_append, hplus]
    · rwa [hkey]
  · intro hdigits
    obtain ⟨sign, hkey, hsign⟩ := exists_sign (dropAround isBlank cs)
    exact ⟨sign, _, hkey, hsign, hdigits⟩

/-! ### The wait -/

theorem nanos_ofSeconds {n : Nat} (h : n < 2 ^ 64) : (Duration.ofSeconds n).nanos = n * 1000000000 := by
  rw [Duration.ofSeconds, Duration.nanos_ofNanos, Duration.maxNanos, Nat.pow_eq]
  omega

variable {r : Reply}

theorem retryAfter?_eq_some_iff {wait : Duration} :
    r.retryAfter? = some wait ↔ ∃ n, AsksFor r.headers n ∧ wait = .ofSeconds n := by
  simp only [retryAfter?, Option.map_eq_some_iff, Option.bind_eq_some_iff, header?_eq_some_iff,
    visibleText?_eq_some_iff, readSeconds?_eq_some_iff, ← writesSeconds_iff, AsksFor]
  constructor
  · rintro ⟨n, ⟨cs, ⟨value, hfirst, hvisible⟩, hwrites, hlt⟩, rfl⟩
    exact ⟨n, ⟨value, cs, hfirst, hvisible, hwrites, hlt⟩, rfl⟩
  · rintro ⟨n, ⟨value, cs, hfirst, hvisible, hwrites, hlt⟩, rfl⟩
    exact ⟨n, ⟨cs, ⟨value, hfirst, hvisible⟩, hwrites, hlt⟩, rfl⟩

/-- A number of 64 bits alone is a wait: the headers of a reply ask for one exactly if the first value of the header is a
visible text that writes such a number, and the wait is that many seconds. A larger number is none, however it would
come out in a word, and reading in words gives the same. -/
theorem waits_exact (r : Reply) :
    (∀ wait, r.retryAfter? = some wait ↔ ∃ n, AsksFor r.headers n ∧ wait.nanos = n * 1000000000) ∧
    (r.retryAfter? = none ↔ ∀ n, ¬ AsksFor r.headers n) ∧
    (∀ value cs n, FirstValue "retry-after" r.headers value → IsVisibleText value cs → WritesSeconds cs n →
      2 ^ 64 ≤ n → r.retryAfter? = none) ∧
    ∀ cs, readSeconds? cs = (wordSeconds? cs).map UInt64.toNat := by
  have hnone : r.retryAfter? = none ↔ ∀ n, ¬ AsksFor r.headers n := by
    rw [Option.eq_none_iff_forall_ne_some]
    simp only [ne_eq, retryAfter?_eq_some_iff, not_exists, not_and]
    exact ⟨fun h n hn => h _ n hn rfl, fun h _ n hn => absurd hn (h n)⟩
  refine ⟨fun wait => ?_, hnone, fun value cs n hfirst hvisible hwrites hlarge => ?_, readSeconds?_eq_map⟩
  · rw [retryAfter?_eq_some_iff]
    refine exists_congr fun n => and_congr_right fun hn => ?_
    obtain ⟨-, -, -, -, -, hlt⟩ := hn
    rw [← nanos_ofSeconds hlt, Duration.mk.injEq]
  · rw [hnone]
    rintro m ⟨value', cs', hfirst', hvisible', hwrites', hlt⟩
    obtain rfl : value = value' :=
      Option.some_inj.1 ((header?_eq_some_iff.2 hfirst).symm.trans (header?_eq_some_iff.2 hfirst'))
    obtain rfl : cs = cs' :=
      Option.some_inj.1 ((visibleText?_eq_some_iff.2 hvisible).symm.trans (visibleText?_eq_some_iff.2 hvisible'))
    obtain rfl : n = m := Option.some_inj.1 ((writesSeconds_iff.1 hwrites).symm.trans (writesSeconds_iff.1 hwrites'))
    omega

/-- 2^64 seconds are no wait. Of two values the first counts, here seven seconds behind a blank, a plus sign and zeros. -/
theorem waits_exact_too_large :
    let value := fun text : String => text.toList.map fun c => UInt8.ofNat c.toNat
    let large : Reply := ⟨503, [("Retry-After", value "18446744073709551616")], [], true⟩
    let small : Reply := ⟨429, [("Age", []), ("RETRY-AFTER", value " +0007\t"), ("retry-after", value "99")], [], true⟩
    FirstValue "retry-after" large.headers (value "18446744073709551616") ∧
      IsVisibleText (value "18446744073709551616") "18446744073709551616".toList ∧
      WritesSeconds "18446744073709551616".toList (2 ^ 64) ∧ 2 ^ 64 ≤ 2 ^ 64 ∧ large.retryAfter? = none ∧
      AsksFor small.headers 7 ∧ small.retryAfter? = some (.ofSeconds 7) := by
  intro value large small
  have hfirst : FirstValue "retry-after" large.headers (value "18446744073709551616") :=
    ⟨[], _, [], rfl, by decide +kernel, by simp⟩
  have hvisible : IsVisibleText (value "18446744073709551616") "18446744073709551616".toList :=
    visibleText?_eq_some_iff.1 (by decide +kernel)
  have hwrites : WritesSeconds "18446744073709551616".toList (2 ^ 64) := writesSeconds_iff.2 (by decide +kernel)
  have hasks : AsksFor small.headers 7 :=
    ⟨value " +0007\t", " +0007\t".toList, ⟨[("Age", [])], _, _, rfl, by decide +kernel, by decide +kernel⟩,
      visibleText?_eq_some_iff.1 (by decide +kernel), writesSeconds_iff.2 (by decide +kernel), by decide⟩
  exact ⟨hfirst, hvisible, hwrites, le_rfl, (waits_exact large).2.2.1 _ _ _ hfirst hvisible hwrites le_rfl, hasks,
    ((waits_exact small).1 _).2 ⟨7, hasks, rfl⟩⟩

end Fcm.Reply

end PushDispatch
