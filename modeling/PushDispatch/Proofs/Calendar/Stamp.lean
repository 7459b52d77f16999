import PushDispatch.Calendar.Stamp
import PushDispatch.Proofs.Calendar.Date
import PushDispatch.Proofs.Text.Cut
import PushDispatch.Proofs.Text.Digits

/-! What a stamp shows. It is the date and the time of day at which nine hours more have passed since 1970-01-01
00:00:00 than at the instant, in a text from which both can be read again. -/

namespace PushDispatch.Calendar

open Text (splitFirst)
open Text.Decimal (read? write writePadded)

/-! ### Clock times -/

namespace ClockTime

variable {t u : ClockTime}

/-- A date of the calendar and a time of day. -/
structure IsValid (t : ClockTime) : Prop where
  date : t.date.isValid = true
  hour : t.hour < 24
  minute : t.minute < 60
  second : t.second < 60

/-- The seconds from 1970-01-01 00:00:00 to a clock time. -/
def sinceEpoch (t : ClockTime) : Int := 86400 * t.date.day + (3600 * t.hour + 60 * t.minute + t.second : Nat)

/-- Clock times are compared by date, then by the time of day. -/
instance : LT ClockTime where
  lt t u := t.date < u.date ∨ t.date = u.date ∧
    (t.hour < u.hour ∨ t.hour = u.hour ∧ (t.minute < u.minute ∨ t.minute = u.minute ∧ t.second < u.second))

theorem lt_iff : t < u ↔ t.date < u.date ∨ t.date = u.date ∧
    (t.hour < u.hour ∨ t.hour = u.hour ∧ (t.minute < u.minute ∨ t.minute = u.minute ∧ t.second < u.second)) := Iff.rfl

theorem lt_trichotomy (t u : ClockTime) : t < u ∨ t = u ∨ u < t := by
  obtain ⟨date, hour, minute, second⟩ := t
  obtain ⟨date', hour', minute', second'⟩ := u
  rcases Date.lt_trichotomy date date' with h | rfl | h
  · exact .inl (.inl h)
  · simp only [lt_iff, mk.injEq, true_and]
    omega
  · exact .inr (.inr (.inl h))

/-- A later clock time is further from the epoch. -/
theorem sinceEpoch_lt (ht : t.IsValid) (hu : u.IsValid) (h : t < u) : t.sinceEpoch < u.sinceEpoch := by
  obtain ⟨hdt, hht, hmt, hst⟩ := ht
  obtain ⟨hdu, hhu, hmu, hsu⟩ := hu
  unfold sinceEpoch
  rcases h with hdate | ⟨hdate, htime⟩
  · have := Date.day_lt_day hdt hdu hdate
    omega
  · rw [hdate]
    omega

theorem lt_of_sinceEpoch_lt (ht : t.IsValid) (hu : u.IsValid) (h : t.sinceEpoch < u.sinceEpoch) : t < u := by
  rcases lt_trichotomy t u with hlt | rfl | hgt
  · exact hlt
  · omega
  · have := sinceEpoch_lt hu ht hgt
    omega

/-- No two clock times are equally far from the epoch. -/
theorem eq_of_sinceEpoch_eq (ht : t.IsValid) (hu : u.IsValid) (h : t.sinceEpoch = u.sinceEpoch) : t = u := by
  rcases lt_trichotomy t u with hlt | he | hgt
  · have := sinceEpoch_lt ht hu hlt
    omega
  · exact he
  · have := sinceEpoch_lt hu ht hgt
    omega

/-- Outside a leap second the clock shows a time that is as far from the epoch as the instant. -/
theorem ofInstant_spec {i : Instant} (h : i.nanos < 1000000000) :
    (ofInstant i).IsValid ∧ (ofInstant i).sinceEpoch = i.seconds := by
  obtain ⟨hvalid, hday⟩ := Date.ofDay_spec (i.seconds / 86400)
  have hnanos : i.nanos / 1000000000 = 0 := Nat.div_eq_of_lt h
  unfold ofInstant
  rw [hnanos]
  refine ⟨⟨hvalid, ?_, ?_, ?_⟩, ?_⟩
  · dsimp only
    omega
  · dsimp only
    omega
  · dsimp only
    omega
  · unfold sinceEpoch
    dsimp only
    rw [hday]
    omega

end ClockTime

/-! ### How a stamp is written -/

/-- Digits that write a number in the given width. -/
def IsNumeral (width n : Nat) (cs : List Char) : Prop := cs.length = width ∧ read? cs = some n

/-- A year is written in four digits, or with a sign and at least four digits, of which the first is a zero only if there
are no more than four. -/
def IsYear (year : Int) (cs : List Char) : Prop :=
  if 0 ≤ year ∧ year ≤ 9999 then IsNumeral 4 year.toNat cs
  else ∃ digits, cs = (if year < 0 then '-' else '+') :: digits ∧ 4 ≤ digits.length ∧
    read? digits = some year.natAbs ∧ (4 < digits.length → 10 ^ (digits.length - 1) ≤ year.natAbs)

/-- The text `YYYY-MM-DD HH:MM:SS` of a clock time. -/
def ClockTime.IsStamp (t : ClockTime) (text : String) : Prop :=
  ∃ year month day hour minute second,
    IsYear t.date.year year ∧ IsNumeral 2 t.date.month month ∧ IsNumeral 2 t.date.dayOfMonth day ∧
      IsNumeral 2 t.hour hour ∧ IsNumeral 2 t.minute minute ∧ IsNumeral 2 t.second second ∧
      text.toList = year ++ '-' :: (month ++ '-' :: (day ++ ' ' :: (hour ++ ':' :: (minute ++ ':' :: second))))

theorem isNumeral_writePadded {width n : Nat} (hw : 0 < width) (h : n < 10 ^ width) :
    IsNumeral width n (writePadded width n) :=
  ⟨Text.Decimal.length_writePadded_of_lt hw h, Text.Decimal.read?_writePadded width n⟩

theorem isYear_yearText (year : Int) : IsYear year (yearText year) := by
  unfold IsYear yearText
  split
  · next h =>
    rw [if_pos (by simpa using h)]
    exact isNumeral_writePadded (by decide) (by omega)
  · next h =>
    rw [if_neg (by simpa using h)]
    refine ⟨_, rfl, ?_, Text.Decimal.read?_writePadded .., fun hlong => ?_⟩
    · rw [Text.Decimal.length_writePadded]
      exact Nat.le_max_left ..
    · rw [Text.Decimal.length_writePadded] at hlong ⊢
      -- a longer text than four digits is the number without zeros in front
      have hlength : max 4 (write year.natAbs).length = (write year.natAbs).length := by omega
      rw [hlength] at hlong ⊢
      have hpos : 0 < (write year.natAbs).length - 1 := by omega
      have hnot := mt (Text.Decimal.length_write_le_iff hpos year.natAbs).2 (by omega)
      exact Nat.not_lt.1 hnot

theorem toList_render (t : ClockTime) :
    (stampPattern.render t).toList = yearText t.date.year ++ '-' :: (writePadded 2 t.date.month ++ '-' ::
      (writePadded 2 t.date.dayOfMonth ++ ' ' :: (writePadded 2 t.hour ++ ':' ::
        (writePadded 2 t.minute ++ ':' :: writePadded 2 t.second)))) := by
  simp [Pattern.render, stampPattern, Piece.render]

theorem ClockTime.isStamp_render {t : ClockTime} (h : t.IsValid) : t.IsStamp (stampPattern.render t) := by
  obtain ⟨hdate, hhour, hminute, hsecond⟩ := h
  have hmonth := Date.month_le hdate
  have hday := Date.dayOfMonth_le hdate
  refine ⟨yearText t.date.year, writePadded 2 t.date.month, writePadded 2 t.date.dayOfMonth, writePadded 2 t.hour,
    writePadded 2 t.minute, writePadded 2 t.second, isYear_yearText _, ?_, ?_, ?_, ?_, ?_, toList_render t⟩
  all_goals exact isNumeral_writePadded (by decide) (by omega)

theorem ClockTime.IsStamp.length {t : ClockTime} {text : String} (h : t.IsStamp text) (h0 : 0 ≤ t.date.year)
    (h4 : t.date.year ≤ 9999) : text.length = 19 := by
  obtain ⟨year, month, day, hour, minute, second, hyear, ⟨hmonth, -⟩, ⟨hday, -⟩, ⟨hhour, -⟩, ⟨hminute, -⟩, ⟨hsecond, -⟩,
    he⟩ := h
  rw [IsYear, if_pos ⟨h0, h4⟩] at hyear
  have hlength := congrArg List.length he
  simp only [List.length_append, List.length_cons, hyear.1, hmonth, hday, hhour, hminute, hsecond] at hlength
  rwa [String.length_toList] at hlength

/-! ### Reading a stamp -/

/-- Takes the sign off the front of a year. -/
def splitYearSign : List Char → Int × List Char
  | '-' :: cs => (-1, cs)
  | '+' :: cs => (1, cs)
  | cs => (1, cs)

/-- The clock time that a stamp shows: its numbers are what stands between the separators. -/
def readStamp? (text : String) : Option ClockTime := do
  let (sign, cs) := splitYearSign text.toList
  let (year, cs) ← splitFirst '-' cs
  let (month, cs) ← splitFirst '-' cs
  let (day, cs) ← splitFirst ' ' cs
  let (hour, cs) ← splitFirst ':' cs
  let (minute, second) ← splitFirst ':' cs
  pure ⟨⟨sign * (← read? year), ← read? month, ← read? day⟩, ← read? hour, ← read? minute, ← read? second⟩

theorem splitFirst_numeral {n : Nat} {cs : List Char} (h : read? cs = some n) {c : Char}
    (hc : Text.Decimal.isDigit c = false) (rest : List Char) : splitFirst c (cs ++ c :: rest) = some (cs, rest) :=
  Text.splitFirst_append_cons (Text.Decimal.notMem_of_read? h hc) rest

/-- A year is its sign and a number. -/
theorem IsYear.exists_split {year : Int} {cs : List Char} (h : IsYear year cs) (rest : List Char) :
    ∃ sign digits n, splitYearSign (cs ++ rest) = (sign, digits ++ rest) ∧ read? digits = some n ∧
      sign * (n : Int) = year := by
  unfold IsYear at h
  split at h
  · next hplain =>
    refine ⟨1, cs, year.toNat, ?_, h.2, by omega⟩
    obtain ⟨hne, hdigits, -⟩ := Text.Decimal.read?_eq_some_iff.1 h.2
    obtain ⟨c, cs, rfl⟩ := List.exists_cons_of_ne_nil hne
    have hc : Text.Decimal.isDigit c = true := (List.all_eq_true.1 hdigits) c List.mem_cons_self
    rw [List.cons_append]
    unfold splitYearSign
    split
    · next heq =>
      obtain ⟨rfl, -⟩ := List.cons.inj heq
      cases hc
    · next heq =>
      obtain ⟨rfl, -⟩ := List.cons.inj heq
      cases hc
    · rfl
  · obtain ⟨digits, rfl, -, hread, -⟩ := h
    split
    · next hneg => exact ⟨-1, digits, year.natAbs, rfl, hread, by omega⟩
    · next hpos => exact ⟨1, digits, year.natAbs, rfl, hread, by omega⟩

/-- A stamp reads back as the clock time that it shows. -/
theorem ClockTime.IsStamp.readStamp? {t : ClockTime} {text : String} (h : t.IsStamp text) :
    Calendar.readStamp? text = some t := by
  obtain ⟨year, month, day, hour, minute, second, hyear, ⟨-, hmonth⟩, ⟨-, hday⟩, ⟨-, hhour⟩, ⟨-, hminute⟩, ⟨-, hsecond⟩,
    he⟩ := h
  obtain ⟨sign, digits, n, hsign, hread, hvalue⟩ := hyear.exists_split
    ('-' :: (month ++ '-' :: (day ++ ' ' :: (hour ++ ':' :: (minute ++ ':' :: second)))))
  unfold Calendar.readStamp?
  rw [he, hsign]
  simp only [splitFirst_numeral hread (show Text.Decimal.isDigit '-' = false by decide),
    splitFirst_numeral hmonth (show Text.Decimal.isDigit '-' = false by decide),
    splitFirst_numeral hday (show Text.Decimal.isDigit ' ' = false by decide),
    splitFirst_numeral hhour (show Text.Decimal.isDigit ':' = false by decide),
    splitFirst_numeral hminute (show Text.Decimal.isDigit ':' = false by decide),
    hread, hmonth, hday, hhour, hminute, hsecond, hvalue, Option.bind_eq_bind, Option.bind_some]
  rfl

/-! ### The stamp of an instant -/

theorem stamp?_eq_none_iff (i : Instant) :
    stamp? i = none ↔ Date.day ⟨262142, 12, 31⟩ < (i.seconds + 9 * 3600) / 86400 := by
  have hday : Date.day ⟨262142, 12, 31⟩ = 95026236 := by decide
  unfold stamp? Instant.later? koreaOffsetSeconds Instant.lastSecond
  rw [hday, Option.map_eq_none_iff, ite_eq_right_iff]
  simp only [reduceCtorEq, imp_false]
  omega

/-- A stamp is written for a clock time as far from the epoch as the instant and nine hours more. -/
theorem exists_of_stamp? {i : Instant} {text : String} (h : stamp? i = some text) :
    ∃ t : ClockTime, t.IsValid ∧ t.sinceEpoch = i.seconds + 9 * 3600 ∧ text = stampPattern.render t := by
  obtain ⟨later, hlater, rfl⟩ := Option.map_eq_some_iff.1 h
  unfold Instant.later? at hlater
  split at hlater
  · obtain rfl := Option.some.inj hlater
    obtain ⟨hvalid, hseconds⟩ :=
      ClockTime.ofInstant_spec (i := ⟨i.seconds + koreaOffsetSeconds, i.nanos % 1000000000⟩) (Nat.mod_lt _ (by decide))
    exact ⟨_, hvalid, hseconds, rfl⟩
  · cases hlater

/-- Parts of a second, and a leap second, do not show. -/
theorem stamp?_nanos (seconds : Int) (m n : Nat) : stamp? ⟨seconds, m⟩ = stamp? ⟨seconds, n⟩ := by
  have hclock : ∀ k : Nat, ClockTime.ofInstant ⟨seconds + koreaOffsetSeconds, k % 1000000000⟩ =
      ClockTime.ofInstant ⟨seconds + koreaOffsetSeconds, 0⟩ := by
    intro k
    have hk : k % 1000000000 / 1000000000 = 0 := Nat.div_eq_of_lt (Nat.mod_lt _ (by decide))
    unfold ClockTime.ofInstant
    rw [hk, Nat.zero_div]
  unfold stamp? Instant.later?
  split
  · rw [Option.map_some, Option.map_some, hclock m, hclock n]
  · rfl

/-- Every instant has a stamp unless the calendar ends within nine hours. The stamp shows the one valid date and time of
day that are nine hours further from 1970-01-01 00:00:00 than the seconds of the instant, where days are counted one by
one, and can be read again. So it tells the seconds, and nothing of parts of a second and of leap seconds. Outside the
years 0 to 9999 the year has a sign; otherwise the stamp has 19 characters. -/
theorem stamp_exact (i : Instant) :
    (Date.day ⟨1970, 1, 1⟩ = 0 ∧
      ∀ d : Date, d.isValid = true → d.next.isValid = true ∧ d.next.day = d.day + 1) ∧
    (stamp? i = none ↔ Date.day ⟨262142, 12, 31⟩ < (i.seconds + 9 * 3600) / 86400) ∧
    (∀ nanos, stamp? ⟨i.seconds, nanos⟩ = stamp? i) ∧
    ∀ text, stamp? i = some text →
      (∃ t : ClockTime, t.IsValid ∧ t.sinceEpoch = i.seconds + 9 * 3600 ∧
        (∀ u : ClockTime, u.IsValid → u.sinceEpoch = i.seconds + 9 * 3600 → u = t) ∧
        t.IsStamp text ∧ readStamp? text = some t ∧
        (0 ≤ t.date.year → t.date.year ≤ 9999 → text.length = 19)) ∧
      ∀ j, stamp? j = some text → j.seconds = i.seconds := by
  refine ⟨⟨by decide, fun d => Date.next_spec⟩, stamp?_eq_none_iff i, fun nanos => stamp?_nanos .., fun text h => ?_⟩
  obtain ⟨t, hvalid, hseconds, rfl⟩ := exists_of_stamp? h
  have hstamp := ClockTime.isStamp_render hvalid
  refine ⟨⟨t, hvalid, hseconds, fun u hu he => ?_, hstamp, hstamp.readStamp?, hstamp.length⟩, fun j hj => ?_⟩
  · exact ClockTime.eq_of_sinceEpoch_eq hu hvalid (he.trans hseconds.symm)
  · obtain ⟨u, hvalid', hseconds', he⟩ := exists_of_stamp? hj
    have hread := (ClockTime.isStamp_render hvalid').readStamp?
    rw [← he, hstamp.readStamp?] at hread
    obtain rfl := Option.some.inj hread
    omega

/-- The leap second at the end of 2016 is stamped as the second before it, on the morning of the next day. -/
theorem stamp_exact_leap_second :
    stamp? ⟨1483228799, 1500000000⟩ = some "2017-01-01 08:59:59" ∧
      readStamp? "2017-01-01 08:59:59" = some ⟨⟨2017, 1, 1⟩, 8, 59, 59⟩ ∧
      ∀ j, stamp? j = some "2017-01-01 08:59:59" → j.seconds = 1483228799 := by
  have hstamp : stamp? ⟨1483228799, 1500000000⟩ = some "2017-01-01 08:59:59" := by decide +kernel
  obtain ⟨⟨t, hvalid, hseconds, hunique, hshown, hread, -⟩, hsame⟩ := (stamp_exact _).2.2.2 _ hstamp
  obtain rfl : ⟨⟨2017, 1, 1⟩, 8, 59, 59⟩ = t :=
    hunique _ ⟨by decide, by decide, by decide, by decide⟩ (by decide)
  exact ⟨hstamp, hread, hsame⟩

end PushDispatch.Calendar
