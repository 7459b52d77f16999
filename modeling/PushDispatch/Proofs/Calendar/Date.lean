import Mathlib.Data.List.Basic
import Mathlib.Order.Lattice
import PushDispatch.Calendar.Date

/-! Days and dates. Each day has one valid date, and each valid date is that of its day. The day after a date has the
next number, and a later date has a later day. -/

namespace PushDispatch.Calendar

namespace Date

/-! ### Months in a year -/

theorem daysIn_append (xs ys : List Nat) : daysIn (xs ++ ys) = daysIn xs + daysIn ys := by
  induction xs with
  | nil => simp [daysIn]
  | cons x xs ih =>
    rw [List.cons_append, daysIn, daysIn, ih]
    omega

/-- The days before a month, and those of the month itself, come before the next month. -/
theorem daysIn_take_succ {lengths : List Nat} {k length : Nat} (h : lengths[k]? = some length) :
    daysIn (lengths.take (k + 1)) = daysIn (lengths.take k) + length := by
  rw [List.take_add_one, h, daysIn_append]
  rfl

theorem daysIn_take_le (lengths : List Nat) {j k : Nat} (h : j ≤ k) :
    daysIn (lengths.take j) ≤ daysIn (lengths.take k) := by
  obtain ⟨m, rfl⟩ := Nat.exists_eq_add_of_le h
  rw [List.take_add, daysIn_append]
  exact Nat.le_add_right ..

theorem daysIn_take_le_daysIn (lengths : List Nat) (k : Nat) : daysIn (lengths.take k) ≤ daysIn lengths := by
  conv_rhs => rw [← List.take_append_drop k lengths, daysIn_append]
  exact Nat.le_add_right ..

/-- A day of the year is found in one of the months, after the days of the months before it. -/
theorem exists_findMonth (month : Nat) {n : Nat} {lengths : List Nat} (h : n < daysIn lengths) :
    ∃ k e length, findMonth month n lengths = (month + k, e + 1) ∧ lengths[k]? = some length ∧ e < length ∧
      daysIn (lengths.take k) + e = n := by
  induction lengths generalizing month n with
  | nil => simp [daysIn] at h
  | cons first lengths ih =>
    unfold findMonth
    split
    · next hlt => exact ⟨0, n, first, rfl, rfl, hlt, by simp [daysIn]⟩
    · next hge =>
      rw [daysIn] at h
      obtain ⟨k, e, length, hfind, hlength, he, hsum⟩ := ih (month + 1) (n := n - first) (by omega)
      refine ⟨k + 1, e, length, by rw [hfind, Nat.add_assoc, Nat.add_comm 1], hlength, he, ?_⟩
      rw [List.take_succ_cons, daysIn]
      omega

/-! ### Years -/

/-- The number of days in a year. -/
def yearLength (year : Int) : Nat := daysIn (monthLengths (isLeap year))

theorem yearLength_eq (year : Int) : yearLength year = if isLeap year then 366 else 365 := by
  unfold yearLength
  cases isLeap year <;> rfl

theorem isLeap_iff (year : Int) : isLeap year = true ↔ year % 4 = 0 ∧ (year % 100 ≠ 0 ∨ year % 400 = 0) := by
  simp [isLeap]

theorem daysBeforeYear_succ (year : Int) : daysBeforeYear (year + 1) = daysBeforeYear year + yearLength year := by
  have hleap := isLeap_iff year
  rw [yearLength_eq]
  unfold daysBeforeYear
  split
  · next h =>
    have := hleap.1 h
    dsimp only
    omega
  · next h =>
    have := mt hleap.2 h
    dsimp only
    omega

theorem daysBeforeYear_le {y z : Int} (h : y ≤ z) : daysBeforeYear y ≤ daysBeforeYear z := by
  unfold daysBeforeYear
  dsimp only
  omega

/-! ### The day of a date -/

/-- The number of days from the first day of the year. -/
def dayOfYear (d : Date) : Nat := daysIn ((monthLengths (isLeap d.year)).take (d.month - 1)) + (d.dayOfMonth - 1)

/-- A valid date lies in the months of its year. -/
theorem isValid_iff {d : Date} :
    d.isValid = true ↔ ∃ k e length, d.month = k + 1 ∧ d.dayOfMonth = e + 1 ∧
      (monthLengths (isLeap d.year))[k]? = some length ∧ e < length := by
  obtain ⟨year, month, dayOfMonth⟩ := d
  simp only [isValid, Bool.and_eq_true, decide_eq_true_eq]
  constructor
  · rintro ⟨⟨hm, hd⟩, hle⟩
    obtain ⟨k, rfl⟩ : ∃ k, month = k + 1 := ⟨month - 1, by omega⟩
    obtain ⟨e, rfl⟩ : ∃ e, dayOfMonth = e + 1 := ⟨dayOfMonth - 1, by omega⟩
    rw [Nat.add_sub_cancel] at hle
    cases hk : (monthLengths (isLeap year))[k]? with
    | none => simp [hk] at hle
    | some length => exact ⟨k, e, length, rfl, rfl, hk, by simpa [hk, Nat.succ_le_iff] using hle⟩
  · rintro ⟨k, e, length, rfl, rfl, hk, he⟩
    refine ⟨⟨Nat.le_add_left 1 k, Nat.le_add_left 1 e⟩, ?_⟩
    rw [Nat.add_sub_cancel, hk]
    exact he

theorem day_mk (year : Int) (k e : Nat) :
    day ⟨year, k + 1, e + 1⟩ =
      daysBeforeYear year + (daysIn ((monthLengths (isLeap year)).take k) + e : Nat) - daysToEpoch := by
  unfold day
  rw [Nat.add_sub_cancel]
  push_cast
  omega

theorem day_eq {d : Date} (h : d.isValid = true) : d.day = daysBeforeYear d.year + d.dayOfYear - daysToEpoch := by
  obtain ⟨year, month, dayOfMonth⟩ := d
  obtain ⟨k, e, length, rfl, rfl, -, -⟩ := isValid_iff.1 h
  exact day_mk year k e

theorem dayOfYear_lt {d : Date} (h : d.isValid = true) : d.dayOfYear < yearLength d.year := by
  obtain ⟨k, e, length, hm, hd, hlength, he⟩ := isValid_iff.1 h
  have hle := daysIn_take_le_daysIn (monthLengths (isLeap d.year)) (k + 1)
  rw [daysIn_take_succ hlength] at hle
  unfold dayOfYear yearLength
  rw [hm, hd, Nat.add_sub_cancel, Nat.add_sub_cancel]
  omega

theorem twelve_months (year : Int) : (monthLengths (isLeap year)).length = 12 := rfl

theorem month_le {d : Date} (h : d.isValid = true) : 1 ≤ d.month ∧ d.month ≤ 12 := by
  obtain ⟨k, e, length, hm, -, hlength, -⟩ := isValid_iff.1 h
  have hk := (List.getElem?_eq_some_iff.1 hlength).1
  rw [twelve_months] at hk
  omega

/-- No month has more than 31 days. -/
theorem dayOfMonth_le {d : Date} (h : d.isValid = true) : 1 ≤ d.dayOfMonth ∧ d.dayOfMonth ≤ 31 := by
  obtain ⟨k, e, length, -, hd, hlength, he⟩ := isValid_iff.1 h
  have hmax : ∀ leap, ∀ n ∈ monthLengths leap, n ≤ 31 := by decide
  have := hmax _ _ (List.mem_of_getElem? hlength)
  omega

/-! ### The date of a day -/

/-- The years before a year that is counted by its cycle, its century, its four years and its place among them. -/
theorem daysBeforeYear_of_parts (cycle : Int) {century four year : Nat} (hc : century ≤ 3) (hf : four ≤ 24)
    (hy : year ≤ 3) :
    daysBeforeYear (400 * cycle + (100 * century + 4 * four + year : Nat) + 1) =
      146097 * cycle + 36524 * century + 1461 * four + 365 * year := by
  unfold daysBeforeYear
  rw [Int.add_sub_cancel]
  push_cast
  have h4 : (400 * cycle + (100 * century + 4 * four + year)) / 4 = 100 * cycle + 25 * century + four := by omega
  have h100 : (400 * cycle + (100 * century + 4 * four + year)) / 100 = 4 * cycle + century := by omega
  have h400 : (400 * cycle + (100 * century + 4 * four + year)) / 400 = cycle := by omega
  rw [h4, h100, h400]
  omega

/-- The last of four years is a leap year, but not the last of a century unless it is the last of its cycle. -/
theorem isLeap_of_parts (cycle : Int) {century four year : Nat} (hc : century ≤ 3) (hf : four ≤ 24) (hy : year ≤ 3) :
    isLeap (400 * cycle + (100 * century + 4 * four + year : Nat) + 1) = true ↔
      year = 3 ∧ (four ≠ 24 ∨ century = 3) := by
  rw [isLeap_iff]
  push_cast
  omega

/-- Of four periods the last one may be a day longer. -/
theorem min_div_spec {n size : Nat} (hs : 0 < size) (h : n ≤ 4 * size) :
    n = size * min (n / size) 3 + (n - min (n / size) 3 * size) ∧
      (n - min (n / size) 3 * size < size ∨ n - min (n / size) 3 * size = size ∧ min (n / size) 3 = 3) := by
  have hn : size * (n / size) + n % size = n := Nat.div_add_mod n size
  rcases Nat.lt_or_ge 3 (n / size) with hq | hq
  · have hmul : size * 4 ≤ size * (n / size) := Nat.mul_le_mul_left size hq
    rw [Nat.min_eq_right hq.le]
    omega
  · have hlt := Nat.mod_lt n hs
    rw [Nat.min_eq_left hq, Nat.mul_comm (n / size)]
    omega

/-- The date of a day has the year in which the day falls, and the month in which the rest of the days falls. -/
theorem exists_ofDay (n : Int) :
    ∃ (year : Int) (rest : Nat), n + daysToEpoch = daysBeforeYear year + rest ∧ rest < yearLength year ∧
      ofDay n = ⟨year, (findMonth 1 rest (monthLengths (isLeap year))).1,
        (findMonth 1 rest (monthLengths (isLeap year))).2⟩ := by
  unfold ofDay
  dsimp only
  have hdays : n + daysToEpoch = 146097 * ((n + daysToEpoch) / 146097) + ((n + daysToEpoch) % 146097).toNat := by omega
  have hcycle : ((n + daysToEpoch) % 146097).toNat ≤ 4 * 36524 := by omega
  generalize (n + daysToEpoch) / 146097 = cycle at *
  generalize ((n + daysToEpoch) % 146097).toNat = inCycle at *
  obtain ⟨hcentury, hlong⟩ := min_div_spec (by decide) hcycle
  have hcentury3 : min (inCycle / 36524) 3 ≤ 3 := Nat.min_le_right ..
  generalize min (inCycle / 36524) 3 = century at *
  generalize inCycle - century * 36524 = inCentury at *
  have hfour : inCentury = 1461 * (inCentury / 1461) + inCentury % 1461 := by omega
  have hfour24 : inCentury / 1461 ≤ 24 := by omega
  have hinFour : inCentury % 1461 ≤ 4 * 365 := by omega
  generalize inCentury / 1461 = four at *
  generalize inCentury % 1461 = inFour at *
  obtain ⟨hyear, hleapDay⟩ := min_div_spec (by decide) hinFour
  have hyear3 : min (inFour / 365) 3 ≤ 3 := Nat.min_le_right ..
  generalize min (inFour / 365) 3 = year at *
  generalize inFour - year * 365 = rest at *
  refine ⟨_, rest, ?_, ?_, rfl⟩
  · rw [daysBeforeYear_of_parts cycle hcentury3 hfour24 hyear3]
    omega
  · -- the year has a day more than 365 only if it is a leap year
    have hleap := isLeap_of_parts cycle hcentury3 hfour24 hyear3
    rw [yearLength_eq]
    split
    · omega
    · next h =>
      have := mt hleap.2 h
      omega

theorem ofDay_spec (n : Int) : (ofDay n).isValid = true ∧ (ofDay n).day = n := by
  obtain ⟨year, rest, hn, hrest, he⟩ := exists_ofDay n
  obtain ⟨k, e, length, hfind, hlength, hlt, hsum⟩ := exists_findMonth 1 hrest
  rw [hfind] at he
  have hvalid : (ofDay n).isValid = true :=
    isValid_iff.2 ⟨k, e, length, by rw [he, Nat.add_comm], by rw [he], by rw [he]; exact hlength, hlt⟩
  refine ⟨hvalid, ?_⟩
  have hday : dayOfYear ⟨year, 1 + k, e + 1⟩ = rest := by
    unfold dayOfYear
    rw [← hsum, Nat.add_sub_cancel_left, Nat.add_sub_cancel]
  rw [day_eq hvalid, he, hday]
  dsimp only
  omega

/-! ### The order of dates -/

/-- Dates are compared by year, then by month, then by the day of the month. -/
instance : LT Date where
  lt c d := c.year < d.year ∨ c.year = d.year ∧
    (c.month < d.month ∨ c.month = d.month ∧ c.dayOfMonth < d.dayOfMonth)

variable {c d : Date}

theorem lt_iff : c < d ↔ c.year < d.year ∨ c.year = d.year ∧
    (c.month < d.month ∨ c.month = d.month ∧ c.dayOfMonth < d.dayOfMonth) := Iff.rfl

theorem lt_trichotomy (c d : Date) : c < d ∨ c = d ∨ d < c := by
  obtain ⟨y, m, n⟩ := c
  obtain ⟨y', m', n'⟩ := d
  simp only [lt_iff, mk.injEq]
  omega

theorem dayOfYear_lt_of_month_lt (hc : c.isValid = true) (hy : c.year = d.year) (h : c.month < d.month) :
    c.dayOfYear < d.dayOfYear := by
  obtain ⟨k, e, length, hm, hday, hlength, he⟩ := isValid_iff.1 hc
  have hle : daysIn ((monthLengths (isLeap c.year)).take (k + 1)) ≤
      daysIn ((monthLengths (isLeap c.year)).take (d.month - 1)) := daysIn_take_le _ (by omega)
  rw [daysIn_take_succ hlength] at hle
  unfold dayOfYear
  rw [← hy, hm, hday, Nat.add_sub_cancel, Nat.add_sub_cancel]
  omega

/-- A later date has a later day. -/
theorem day_lt_day (hc : c.isValid = true) (hd : d.isValid = true) (h : c < d) : c.day < d.day := by
  rw [day_eq hc, day_eq hd]
  rcases h with hy | ⟨hy, hm | ⟨hm, hn⟩⟩
  · have hlt := dayOfYear_lt hc
    have hsucc := daysBeforeYear_succ c.year
    have hle := daysBeforeYear_le (Int.add_one_le_iff.2 hy)
    omega
  · have := dayOfYear_lt_of_month_lt hc hy hm
    rw [hy]
    omega
  · have hpos := (dayOfMonth_le hc).1
    have : c.dayOfYear < d.dayOfYear := by
      unfold dayOfYear
      rw [hy, hm]
      omega
    rw [hy]
    omega

theorem day_lt_day_iff (hc : c.isValid = true) (hd : d.isValid = true) : c.day < d.day ↔ c < d := by
  refine ⟨fun h => ?_, day_lt_day hc hd⟩
  rcases lt_trichotomy c d with hlt | rfl | hgt
  · exact hlt
  · omega
  · have := day_lt_day hd hc hgt
    omega

/-- Two valid dates with one day are the same. -/
theorem eq_of_day_eq (hc : c.isValid = true) (hd : d.isValid = true) (h : c.day = d.day) : c = d := by
  rcases lt_trichotomy c d with hlt | he | hgt
  · have := day_lt_day hc hd hlt
    omega
  · exact he
  · have := day_lt_day hd hc hgt
    omega

theorem ofDay_day (h : d.isValid = true) : ofDay d.day = d :=
  eq_of_day_eq (ofDay_spec d.day).1 h (ofDay_spec d.day).2

/-! ### From one day to the next -/

/-- The date of the day after: the next day of the month, else the first day of the next month, else the first day of
the next year. -/
def next (d : Date) : Date :=
  if d.dayOfMonth < ((monthLengths (isLeap d.year))[d.month - 1]?).getD 0 then ⟨d.year, d.month, d.dayOfMonth + 1⟩
  else if d.month < 12 then ⟨d.year, d.month + 1, 1⟩
  else ⟨d.year + 1, 1, 1⟩

theorem isValid_first (year : Int) {month : Nat} (h1 : 1 ≤ month) (h12 : month ≤ 12) :
    isValid ⟨year, month, 1⟩ = true := by
  have hall : ∀ leap, ∀ k < 12, ∀ length ∈ (monthLengths leap)[k]?, 0 < length := by decide
  obtain ⟨k, rfl⟩ : ∃ k, month = k + 1 := ⟨month - 1, by omega⟩
  have hk : k < (monthLengths (isLeap year)).length := by
    rw [twelve_months]
    omega
  have hlength := List.getElem?_eq_getElem hk
  exact isValid_iff.2 ⟨k, 0, _, rfl, rfl, hlength, hall _ k (by omega) _ hlength⟩

/-- Days are counted one by one. -/
theorem next_spec (h : d.isValid = true) : d.next.isValid = true ∧ d.next.day = d.day + 1 := by
  obtain ⟨year, month, dayOfMonth⟩ := d
  obtain ⟨k, e, length, rfl, rfl, hlength, he⟩ := isValid_iff.1 h
  dsimp only at hlength
  have hsucc := daysIn_take_succ hlength
  have hnext : next ⟨year, k + 1, e + 1⟩ = if e + 1 < length then ⟨year, k + 1, e + 1 + 1⟩
      else if k + 1 < 12 then ⟨year, k + 1 + 1, 0 + 1⟩ else ⟨year + 1, 0 + 1, 0 + 1⟩ := by
    simp only [next, Nat.add_sub_cancel, hlength, Option.getD_some, Nat.zero_add]
  rw [hnext, day_mk]
  split_ifs with hmonth hyear
  · refine ⟨isValid_iff.2 ⟨k, e + 1, length, rfl, rfl, hlength, hmonth⟩, ?_⟩
    rw [day_mk]
    omega
  · refine ⟨isValid_first year (by omega) (by omega), ?_⟩
    rw [day_mk]
    omega
  · -- the last day of December ends the year
    have hk := (month_le h).2
    dsimp only at hk
    obtain rfl : k = 11 := by omega
    have hlast : daysIn ((monthLengths (isLeap year)).take (11 + 1)) = yearLength year := by
      rw [List.take_of_length_le (by rw [twelve_months])]
      rfl
    refine ⟨isValid_first (year + 1) (by omega) (by omega), ?_⟩
    rw [day_mk, daysBeforeYear_succ, List.take_zero, daysIn]
    omega

end Date

end PushDispatch.Calendar
