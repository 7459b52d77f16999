import Mathlib.Data.List.DropRight
import PushDispatch.Duration
import PushDispatch.Proofs.Text.Digits

/-! The text of a length of time, as the log shows it: the number of the largest units that the length fills, the rest of
it as a decimal fraction of a unit, and the name of the unit. The fraction is exact and has no zeros at its end, so it is
left out when there is no rest. -/

namespace PushDispatch

namespace Text.Decimal

theorem valueFrom_append_zeros (v : Nat) (cs : List Char) (k : Nat) :
    valueFrom v (cs ++ List.replicate k '0') = valueFrom v cs * 10 ^ k := by
  induction k with
  | zero => simp
  | succ k ih =>
    rw [List.replicate_succ', ← List.append_assoc, valueFrom_append_singleton, ih, Nat.pow_succ', Nat.mul_left_comm]
    rfl

end Text.Decimal

namespace Duration

open Text.Decimal

/-- The largest unit that a length fills, in nanoseconds and with its name. -/
inductive FillsUnit (length : Nat) : Nat → String → Prop where
  | seconds (h : 1000000000 ≤ length) : FillsUnit length 1000000000 "s"
  | millis (h : 1000000 ≤ length) (hlt : length < 1000000000) : FillsUnit length 1000000 "ms"
  | micros (h : 1000 ≤ length) (hlt : length < 1000000) : FillsUnit length 1000 "µs"
  | nanos (hlt : length < 1000) : FillsUnit length 1 "ns"

/-- A rest that is less than a unit, as a decimal fraction of the unit without zeros at its end. -/
inductive WritesRest (rest unit : Nat) : String → Prop where
  | none (h : rest = 0) : WritesRest rest unit ""
  | fraction {digits : List Char} {value : Nat} (hdigits : Denotes digits value) (hlast : digits.getLast? ≠ some '0')
      (hvalue : value * unit = rest * 10 ^ digits.length) : WritesRest rest unit ("." ++ String.ofList digits)

/-- A text shows a length: how often it fills its largest unit, what is left over, and the name of the unit. -/
def Shows (length : Nat) (text : String) : Prop :=
  ∃ unit name rest, FillsUnit length unit name ∧ WritesRest (length % unit) unit rest ∧
    text = toString (length / unit) ++ rest ++ name

/-- The places of a fraction are its digits up to the last one that is not zero, and zeros behind them. -/
theorem exists_writePadded_eq (places rest : Nat) :
    ∃ digits k, ((writePadded places rest).reverse.dropWhile (· == '0')).reverse = digits ∧
      writePadded places rest = digits ++ List.replicate k '0' ∧ digits.getLast? ≠ some '0' := by
  refine ⟨_, ((writePadded places rest).rtakeWhile (· == '0')).length, rfl, ?_, fun hlast => ?_⟩
  · have hzeros : (writePadded places rest).rtakeWhile (· == '0') =
        List.replicate ((writePadded places rest).rtakeWhile (· == '0')).length '0' :=
      List.eq_replicate_iff.2 ⟨rfl, fun c hc => by simpa using List.mem_rtakeWhile_imp hc⟩
    rw [← hzeros]
    exact (List.rdropWhile_append_rtakeWhile ..).symm
  · obtain ⟨hne, hlast⟩ := List.mem_getLast?_eq_getLast hlast
    exact List.rdropWhile_last_not (· == '0') (writePadded places rest) hne (beq_iff_eq.2 hlast.symm)

theorem FillsUnit.shows {places length unit : Nat} {name : String} (h : FillsUnit length unit name) (hp : 0 < places)
    (hu : unit = 10 ^ places) :
    Shows length (String.ofList (decimalText places (length / unit) (length % unit)) ++ name) := by
  obtain ⟨digits, k, hdigits, hpadded, hlast⟩ := exists_writePadded_eq places (length % unit)
  have hvalue : valueFrom 0 digits * 10 ^ k = length % unit := by
    rw [← valueFrom_append_zeros, ← hpadded, valueFrom_writePadded]
  have hplaces : digits.length + k = places := by
    have hlt : length % unit < 10 ^ places := hu ▸ Nat.mod_lt length (hu ▸ Nat.pow_pos (by decide))
    rw [← length_writePadded_of_lt hp hlt, hpadded, List.length_append, List.length_replicate]
  have hall : digits.all isDigit = true := by
    have := all_isDigit_writePadded places (length % unit)
    rw [hpadded, List.all_append, Bool.and_eq_true] at this
    exact this.1
  rw [decimalText, String.ofList_append, ← Text.Decimal.text, text_eq_toString]
  simp only [hdigits]
  by_cases hd : digits = []
  · subst hd
    exact ⟨unit, name, "", h, .none (by simpa [valueFrom_nil] using hvalue.symm), by simp⟩
  · have hdenotes : Denotes digits (valueFrom 0 digits) :=
      read?_eq_some_iff_denotes.1 (read?_eq_some_iff.2 ⟨hd, hall, rfl⟩)
    refine ⟨unit, name, _, h, .fraction hdenotes hlast ?_, ?_⟩
    · rw [← hvalue, hu, ← hplaces, Nat.pow_add]
      ac_rfl
    · simp [hd, String.ofList_cons]

/-- A length is written as it is. -/
theorem shows_text (d : Duration) : Shows d.nanos d.text := by
  unfold text
  dsimp only
  split
  · next hs => exact (FillsUnit.seconds hs).shows (by decide : 0 < 9) rfl
  split
  · next hs hms => exact (FillsUnit.millis hms (Nat.lt_of_not_le hs)).shows (by decide : 0 < 6) rfl
  split
  · next _ hms hus => exact (FillsUnit.micros hus (Nat.lt_of_not_le hms)).shows (by decide : 0 < 3) rfl
  · next _ _ hus =>
    refine ⟨1, "ns", "", .nanos (Nat.lt_of_not_le hus), .none (Nat.mod_one _), ?_⟩
    rw [text_eq_toString, Nat.div_one, String.append_empty]

end Duration

end PushDispatch
