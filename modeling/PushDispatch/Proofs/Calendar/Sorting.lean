import PushDispatch.Proofs.Calendar.Stamp

/-! The order of stamps. In the years with four digits all stamps have one width, and the order of their texts is that of
time. So lines that are sorted by their stamps are sorted by their seconds. -/

namespace PushDispatch.Calendar

open Text.Decimal (writePadded)

/-! ### The order of texts -/

/-- A number of a fixed width decides the order of two texts, or what stands behind the separator does. -/
theorem numeral_lt {width m n : Nat} (hw : 0 < width) (hn : n < 10 ^ width) (separator : Char) {later : Prop}
    (h : m < n ∨ m = n ∧ later) {xs ys : List Char} (hlater : later → xs < ys) :
    writePadded width m ++ separator :: xs < writePadded width n ++ separator :: ys :=
  Text.Decimal.writePadded_append_lt hw hn
    (h.imp_right (And.imp_right fun hl => List.cons_lt_cons_iff.2 (.inr ⟨rfl, hlater hl⟩)))

/-- In years with four digits an earlier clock time has an earlier text. -/
theorem render_lt_render {t u : ClockTime} (hu : u.IsValid) (ht4 : 0 ≤ t.date.year ∧ t.date.year ≤ 9999)
    (hu4 : 0 ≤ u.date.year ∧ u.date.year ≤ 9999) (h : t < u) : stampPattern.render t < stampPattern.render u := by
  obtain ⟨hdate, hhour, hminute, hsecond⟩ := hu
  have hmonth := Date.month_le hdate
  have hday := Date.dayOfMonth_le hdate
  have hfields : t.date.year.toNat < u.date.year.toNat ∨ t.date.year.toNat = u.date.year.toNat ∧
      (t.date.month < u.date.month ∨ t.date.month = u.date.month ∧
        (t.date.dayOfMonth < u.date.dayOfMonth ∨ t.date.dayOfMonth = u.date.dayOfMonth ∧
          (t.hour < u.hour ∨ t.hour = u.hour ∧
            (t.minute < u.minute ∨ t.minute = u.minute ∧ t.second < u.second)))) := by
    rcases h with (hy | ⟨hy, hmd⟩) | ⟨hd, htime⟩
    · omega
    · omega
    · rw [hd]
      omega
  have hyear : ∀ {year : Int}, 0 ≤ year ∧ year ≤ 9999 → yearText year = writePadded 4 year.toNat :=
    fun h4 => if_pos (by simpa using h4)
  rw [String.lt_iff, toList_render, toList_render, hyear ht4, hyear hu4]
  refine numeral_lt (by decide) (by omega) '-' hfields fun hmonths => ?_
  refine numeral_lt (by decide) (by omega) '-' hmonths fun hdays => ?_
  refine numeral_lt (by decide) (by omega) ' ' hdays fun hhours => ?_
  refine numeral_lt (by decide) (by omega) ':' hhours fun hminutes => ?_
  refine numeral_lt (by decide) (by omega) ':' hminutes fun hseconds => ?_
  have hlast : writePadded 2 t.second ++ [] < writePadded 2 u.second ++ [] :=
    Text.Decimal.writePadded_append_lt (by decide) (by omega) (.inl hseconds)
  rwa [List.append_nil, List.append_nil] at hlast

/-! ### The order of instants -/

namespace Instant

/-- Instants are compared by second, then by the part of the second. -/
instance : LE Instant where
  le i j := i.seconds < j.seconds ∨ i.seconds = j.seconds ∧ i.nanos ≤ j.nanos

variable {i j : Instant}

theorem seconds_le (h : i ≤ j) : i.seconds ≤ j.seconds := h.elim Int.le_of_lt fun he => he.1.le

/-- The date on the clocks of Korea. -/
def koreanDate (i : Instant) : Date := .ofDay ((i.seconds + 9 * 3600) / 86400)

/-- The clocks of Korea show a year that is written in four digits without a sign. -/
def HasPlainYear (i : Instant) : Prop := 0 ≤ i.koreanDate.year ∧ i.koreanDate.year ≤ 9999

end Instant

variable {i j : Instant} {a b : String}

/-- The date in a clock time is that of the day that its distance from the epoch falls in. -/
theorem ClockTime.IsValid.ofDay_eq {t : ClockTime} (h : t.IsValid) : Date.ofDay (t.sinceEpoch / 86400) = t.date := by
  obtain ⟨hdate, hhour, hminute, hsecond⟩ := h
  have hday : t.sinceEpoch / 86400 = t.date.day := by
    unfold sinceEpoch
    omega
  rw [hday, Date.ofDay_day hdate]

theorem exists_stamp (h : i.HasPlainYear) : ∃ text, stamp? i = some text := by
  rw [← Option.ne_none_iff_exists', ne_eq, stamp?_eq_none_iff]
  intro hlast
  -- a day after the last one would have a later year
  obtain ⟨hvalid, hday⟩ := Date.ofDay_spec ((i.seconds + 9 * 3600) / 86400)
  rw [← hday, Date.day_lt_day_iff (by decide) hvalid, Date.lt_iff] at hlast
  have hyear : (Date.ofDay ((i.seconds + 9 * 3600) / 86400)).year ≤ 9999 := h.2
  dsimp only at hlast
  omega

/-- In years with four digits the stamp of a later second is a later text. -/
theorem stamp_lt_stamp (hi : i.HasPlainYear) (hj : j.HasPlainYear) (ha : stamp? i = some a) (hb : stamp? j = some b)
    (h : i.seconds < j.seconds) : a < b := by
  obtain ⟨t, ht, hti, rfl⟩ := exists_of_stamp? ha
  obtain ⟨u, hu, huj, rfl⟩ := exists_of_stamp? hb
  have hyear : ∀ {k : Instant} {v : ClockTime}, k.HasPlainYear → v.IsValid → v.sinceEpoch = k.seconds + 9 * 3600 →
      0 ≤ v.date.year ∧ v.date.year ≤ 9999 := by
    intro k v hk hv he
    rw [← hv.ofDay_eq, he]
    exact hk
  exact render_lt_render hu (hyear hi ht hti) (hyear hj hu huj) (ClockTime.lt_of_sinceEpoch_lt ht hu (by omega))

/-- Where the clocks of Korea show years from 0 to 9999, the stamp of an instant is no later text than the stamp of a later
one, and an earlier text if their seconds differ. So lines that are in the order of their stamps are in the order of their
seconds, however they have been sorted. -/
theorem stamps_in_order :
    (∀ i j : Instant, i.HasPlainYear → j.HasPlainYear → i ≤ j →
      ∃ a b, stamp? i = some a ∧ stamp? j = some b ∧ a ≤ b ∧ (i.seconds ≠ j.seconds → a < b)) ∧
    ∀ {Line : Type} (time : Line → Instant) (stamp : Line → String) (lines : List Line),
      (∀ line ∈ lines, (time line).HasPlainYear ∧ stamp? (time line) = some (stamp line)) →
      ∀ sorted : List Line, sorted.Perm lines → sorted.Pairwise (fun x y => stamp x ≤ stamp y) →
        sorted.Pairwise fun x y => (time x).seconds ≤ (time y).seconds := by
  refine ⟨fun i j hi hj h => ?_, fun time stamp lines hlines sorted hperm hsorted => ?_⟩
  · obtain ⟨a, ha⟩ := exists_stamp hi
    obtain ⟨b, hb⟩ := exists_stamp hj
    refine ⟨a, b, ha, hb, ?_⟩
    rcases Int.lt_or_eq_of_le (Instant.seconds_le h) with hlt | heq
    · have hab := stamp_lt_stamp hi hj ha hb hlt
      exact ⟨fun hba => String.lt_irrefl _ (String.lt_trans hab hba), fun _ => hab⟩
    · -- both instants are in one second, of which the parts do not show
      have hsame : stamp? i = stamp? j := by
        obtain ⟨s, m⟩ := i
        obtain ⟨s', n⟩ := j
        obtain rfl : s = s' := heq
        exact stamp?_nanos s m n
      rw [ha, hb] at hsame
      obtain rfl := Option.some.inj hsame
      exact ⟨String.le_refl a, fun hne => absurd heq hne⟩
  · refine hsorted.imp_of_mem fun {x y} hx hy hle => ?_
    obtain ⟨hyx, hsx⟩ := hlines x (hperm.mem_iff.1 hx)
    obtain ⟨hyy, hsy⟩ := hlines y (hperm.mem_iff.1 hy)
    by_contra hlt
    exact hle (stamp_lt_stamp hyy hyx hsy hsx (by omega))

/-- At the turn to the year 1000 the stamp of a leap second comes before that of the second after it, and two lines that
are sorted by these stamps are in the order of time. -/
theorem stamps_in_order_year_1000 :
    let i : Instant := ⟨-30610256401, 1500000000⟩
    let j : Instant := ⟨-30610256400, 0⟩
    i.HasPlainYear ∧ j.HasPlainYear ∧ i ≤ j ∧
      stamp? i = some "0999-12-31 23:59:59" ∧ stamp? j = some "1000-01-01 00:00:00" ∧
      "0999-12-31 23:59:59" < "1000-01-01 00:00:00" ∧
      [(i, "0999-12-31 23:59:59"), (j, "1000-01-01 00:00:00")].Pairwise fun x y => x.1.seconds ≤ y.1.seconds := by
  intro i j
  have hi : i.HasPlainYear := ⟨by decide, by decide⟩
  have hj : j.HasPlainYear := ⟨by decide, by decide⟩
  have hle : i ≤ j := .inl (by decide)
  have hsi : stamp? i = some "0999-12-31 23:59:59" := by decide +kernel
  have hsj : stamp? j = some "1000-01-01 00:00:00" := by decide +kernel
  obtain ⟨hstamps, hlines⟩ := stamps_in_order
  obtain ⟨a, b, ha, hb, hab, hlt⟩ := hstamps i j hi hj hle
  obtain rfl := Option.some.inj (hsi.symm.trans ha)
  obtain rfl := Option.some.inj (hsj.symm.trans hb)
  refine ⟨hi, hj, hle, hsi, hsj, hlt (by decide), ?_⟩
  refine hlines Prod.fst Prod.snd [(j, "1000-01-01 00:00:00"), (i, "0999-12-31 23:59:59")] ?_ _ (.swap ..) ?_
  · exact List.forall_mem_cons.2 ⟨⟨hj, hsj⟩, List.forall_mem_cons.2 ⟨⟨hi, hsi⟩, by simp⟩⟩
  · exact List.pairwise_cons.2 ⟨fun y hy => List.mem_singleton.1 hy ▸ hab, List.pairwise_singleton ..⟩

end PushDispatch.Calendar
