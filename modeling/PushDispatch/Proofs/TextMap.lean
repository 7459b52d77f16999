import Mathlib.Data.List.Nodup
import Mathlib.Data.List.Perm.Basic
import PushDispatch.Text.Utf8
import PushDispatch.TextMap

/-! Maps from texts to texts, said by look-up: a map is determined by what it holds at each key, an entry that is put
into it changes nothing else, and of a list of entries the last one for a key counts. The entries stand in the order
of the bytes of their keys, since an earlier character has earlier bytes. -/

namespace PushDispatch

/-! ### Look-up in lists of entries -/

theorem lookup_cons_ite {α β : Type*} [DecidableEq α] (entry : α × β) (entries : List (α × β)) (key : α) :
    (entry :: entries).lookup key = if key = entry.1 then some entry.2 else entries.lookup key := by
  rw [List.lookup_cons]
  split_ifs with h
  · rw [h, beq_self_eq_true]
  · rw [beq_false_of_ne h]

theorem lookup_eq_some_iff_mem {α β : Type*} [BEq α] [LawfulBEq α] {entries : List (α × β)}
    (hk : (entries.map Prod.fst).Nodup) {key : α} {value : β} :
    entries.lookup key = some value ↔ (key, value) ∈ entries := by
  induction entries with
  | nil => simp
  | cons entry entries ih =>
    obtain ⟨hnot, hk⟩ := List.nodup_cons.1 hk
    rw [List.lookup_cons, List.mem_cons]
    cases he : key == entry.1 with
    | true =>
      rw [beq_iff_eq] at he
      subst he
      have hn : (entry.1, value) ∉ entries := fun hm => hnot (List.mem_map.2 ⟨_, hm, rfl⟩)
      simp [Prod.ext_iff, hn, eq_comm]
    | false =>
      rw [beq_eq_false_iff_ne] at he
      simp [Prod.ext_iff, he, ih hk]

namespace TextMap

variable {m n : TextMap} {key value : String}

theorem nodup_keys (m : TextMap) : (m.entries.map Prod.fst).Nodup :=
  List.pairwise_map.2 (m.sorted.imp fun h => String.ne_of_lt h)

theorem get?_eq_some_iff : m.get? key = some value ↔ (key, value) ∈ m.entries :=
  lookup_eq_some_iff_mem m.nodup_keys

/-- A map is determined by what it holds at each key. -/
theorem ext_get? (h : ∀ key, m.get? key = n.get? key) : m = n := by
  have hmem : ∀ entry, entry ∈ m.entries ↔ entry ∈ n.entries := fun (key, value) => by
    rw [← get?_eq_some_iff, ← get?_eq_some_iff, h]
  have hperm : m.entries.Perm n.entries :=
    (List.perm_ext_iff_of_nodup (.of_map _ m.nodup_keys) (.of_map _ n.nodup_keys)).2 hmem
  have heq : m.entries = n.entries :=
    hperm.eq_of_pairwise (fun a b _ _ hab hba => absurd (String.lt_trans hab hba) (String.lt_irrefl _)) m.sorted n.sorted
  cases m
  cases n
  cases heq
  rfl

theorem isEmpty_iff : m.isEmpty = true ↔ m = empty := by
  refine ⟨fun h => ext_get? fun key => ?_, fun h => h ▸ rfl⟩
  rw [get?, List.isEmpty_iff.1 h]
  rfl

theorem lookup_insertEntry (key value other : String) (entries : List (String × String)) :
    (insertEntry key value entries).lookup other = if other = key then some value else entries.lookup other := by
  induction entries with
  | nil => exact lookup_cons_ite ..
  | cons entry entries ih =>
    unfold insertEntry
    split
    · exact lookup_cons_ite ..
    · split
      · next heq =>
        rw [lookup_cons_ite, lookup_cons_ite, ← heq]
        split_ifs <;> rfl
      · next hne =>
        rw [lookup_cons_ite, lookup_cons_ite, ih]
        split_ifs with he hk
        · exact absurd (hk.symm.trans he) hne
        · rfl
        · rfl
        · rfl

/-- An entry that is put into a map changes what the map holds at its key, and nothing else. -/
theorem get?_insert (m : TextMap) (key value other : String) :
    (m.insert key value).get? other = if other = key then some value else m.get? other :=
  lookup_insertEntry key value other m.entries

theorem get?_foldl_insert (entries : List (String × String)) (m : TextMap) (key : String) :
    (entries.foldl (fun m entry => m.insert entry.1 entry.2) m).get? key =
      (entries.reverse.lookup key).or (m.get? key) := by
  induction entries generalizing m with
  | nil => rfl
  | cons entry entries ih =>
    rw [List.foldl_cons, ih, get?_insert, List.reverse_cons, List.lookup_append, Option.or_assoc, List.lookup_singleton]
    by_cases h : key = entry.1 <;> simp [h]

/-- Of several entries for a key the last one counts. -/
theorem get?_ofList (entries : List (String × String)) (key : String) :
    (ofList entries).get? key = entries.reverse.lookup key := by
  rw [ofList, get?_foldl_insert]
  simp [empty, get?]

theorem ofList_entries (m : TextMap) : ofList m.entries = m := by
  refine ext_get? fun key => Option.ext fun value => ?_
  have hnodup : (m.entries.reverse.map Prod.fst).Nodup := by
    rw [List.map_reverse, List.nodup_reverse]
    exact m.nodup_keys
  rw [get?_ofList, get?_eq_some_iff, lookup_eq_some_iff_mem hnodup, List.mem_reverse]

end TextMap

/-! ### The order of the bytes -/

namespace Text.Utf8

/-- The bytes that are written for the numbers below a bound come in the order of the numbers, whatever follows. -/
def Ascending (bytes : Nat → List UInt8) (bound : Nat) : Prop :=
  ∀ m n, m < n → n < bound → ∀ cs ds, bytes m ++ cs < bytes n ++ ds

theorem ofNat_cons_lt {m n : Nat} (h : m < n) (hn : n < 256) (cs ds : List UInt8) :
    UInt8.ofNat m :: cs < UInt8.ofNat n :: ds := by
  refine List.cons_lt_cons_iff.2 (.inl (UInt8.lt_iff_toNat_lt.2 ?_))
  rw [UInt8.toNat_ofNat', UInt8.toNat_ofNat']
  omega

/-- A first byte takes the numbers below `size`. -/
theorem ascending_lead (size lead : Nat) (h : size + lead ≤ 256) :
    Ascending (fun n => [UInt8.ofNat (n % size + lead)]) size := by
  intro m n hlt hn cs ds
  have hm : m % size = m := Nat.mod_eq_of_lt (by omega)
  simp only [hm, Nat.mod_eq_of_lt hn]
  exact ofNat_cons_lt (by omega) (by omega) cs ds

/-- One more byte takes the last digit to the base 64. -/
theorem Ascending.snoc {bytes : Nat → List UInt8} {bound : Nat} (h : Ascending bytes bound) :
    Ascending (fun n => bytes (n / 64) ++ [UInt8.ofNat (n % 64 + 128)]) (bound * 64) := by
  intro m n hlt hn cs ds
  simp only [List.append_assoc, List.singleton_append]
  obtain hd | ⟨hd, hr⟩ : m / 64 < n / 64 ∨ m / 64 = n / 64 ∧ m % 64 < n % 64 := by omega
  · exact h _ _ hd (by omega) _ _
  · rw [hd]
    exact List.append_left_lt (ofNat_cons_lt (by omega) (by omega) cs ds)

theorem encodeChar_append_lt {c d : Char} (h : c < d) (cs ds : List UInt8) : encodeChar c ++ cs < encodeChar d ++ ds := by
  have hlt : c.val.toNat < d.val.toNat := UInt32.lt_iff_toNat_lt.1 (Char.lt_def.1 h)
  have hmax : d.val.toNat < 0x110000 := by
    have := d.valid
    omega
  unfold encodeChar String.utf8EncodeChar
  dsimp only
  generalize c.val.toNat = m at *
  generalize d.val.toNat = n at *
  have htwo := (ascending_lead 32 192 (by decide)).snoc m n hlt
  have hthree := (ascending_lead 16 224 (by decide)).snoc.snoc m n hlt
  have hfour := (ascending_lead 8 240 (by decide)).snoc.snoc.snoc m n hlt
  simp only [Nat.div_div_eq_div_mul, Nat.reduceMul, List.cons_append, List.nil_append] at htwo hthree hfour
  -- characters with more bytes have greater first bytes
  split_ifs
  all_goals
    first
    | omega
    | exact ofNat_cons_lt (by omega) (by omega) _ _
    | exact htwo (by omega) cs ds
    | exact hthree (by omega) cs ds
    | exact hfour (by omega) cs ds

theorem encodeChar_ne_nil (c : Char) : encodeChar c ≠ [] := by
  unfold encodeChar String.utf8EncodeChar
  dsimp only
  split_ifs <;> simp

/-- An earlier text has earlier bytes. -/
theorem encode_lt {cs ds : List Char} (h : cs < ds) : encode cs < encode ds := by
  rw [← List.lex_lt] at h
  induction h with
  | @nil d ds =>
    obtain ⟨b, bytes, hb⟩ := List.exists_cons_of_ne_nil (encodeChar_ne_nil d)
    change [] < encodeChar d ++ encode ds
    rw [hb]
    exact List.nil_lt_cons _ _
  | @rel c d cs ds h => exact encodeChar_append_lt h _ _
  | @cons c cs ds h ih => exact List.append_left_lt ih

end Text.Utf8

theorem TextMap.sorted_bytes (m : TextMap) :
    m.entries.Pairwise fun a b => Text.Utf8.encode a.1.toList < Text.Utf8.encode b.1.toList :=
  m.sorted.imp fun h => Text.Utf8.encode_lt (String.lt_iff.1 h)

end PushDispatch
