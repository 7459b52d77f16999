/-!
Maps from texts to texts in increasing order of their keys. Texts are compared character by character,
which is also the order of their UTF-8 bytes. The order is part of the type, so a map has one list of
entries and two maps with the same entries are equal.
-/

namespace PushDispatch

/-- A finite map from texts to texts; its entries stand in increasing order of the keys. -/
structure TextMap where
  entries : List (String × String)
  sorted : entries.Pairwise (fun a b => a.1 < b.1)
deriving DecidableEq

namespace TextMap

def empty : TextMap := ⟨[], .nil⟩

instance : Inhabited TextMap := ⟨empty⟩

/-- Puts an entry at its place; an entry with the same key is replaced. -/
def insertEntry (key value : String) : List (String × String) → List (String × String)
  | [] => [(key, value)]
  | entry :: rest =>
    if key < entry.1 then (key, value) :: entry :: rest
    else if key = entry.1 then (key, value) :: rest
    else entry :: insertEntry key value rest

theorem mem_insertEntry {key value : String} {p : String × String} {entries : List (String × String)}
    (h : p ∈ insertEntry key value entries) : p = (key, value) ∨ p ∈ entries := by
  induction entries with
  | nil => simpa [insertEntry] using h
  | cons entry rest ih =>
    unfold insertEntry at h
    split at h
    · simpa using h
    · split at h
      · rcases List.mem_cons.1 h with h | h
        · exact .inl h
        · exact .inr (List.mem_cons_of_mem _ h)
      · rcases List.mem_cons.1 h with h | h
        · exact .inr (h ▸ List.mem_cons_self)
        · exact (ih h).imp_right (List.mem_cons_of_mem _)

theorem sorted_insertEntry (key value : String) {entries : List (String × String)}
    (h : entries.Pairwise (fun a b => a.1 < b.1)) :
    (insertEntry key value entries).Pairwise (fun a b => a.1 < b.1) := by
  induction entries with
  | nil => simp [insertEntry]
  | cons entry rest ih =>
    have hrest := (List.pairwise_cons.1 h).2
    have hall := (List.pairwise_cons.1 h).1
    unfold insertEntry
    split
    · next hlt =>
      refine List.pairwise_cons.2 ⟨fun p hp => ?_, h⟩
      rcases List.mem_cons.1 hp with rfl | hp
      · exact hlt
      · exact String.lt_trans hlt (hall p hp)
    · next hnlt =>
      split
      · next heq =>
        refine List.pairwise_cons.2 ⟨fun p hp => ?_, hrest⟩
        simpa [heq] using hall p hp
      · next hne =>
        refine List.pairwise_cons.2 ⟨fun p hp => ?_, ih hrest⟩
        rcases mem_insertEntry hp with rfl | hp
        · rcases Decidable.em (entry.1 < key) with hlt | hge
          · exact hlt
          · exact absurd (String.le_antisymm (String.not_lt.1 hge) (String.not_lt.1 hnlt)) hne
        · exact hall p hp

/-- The map with one more entry; the value of a key that occurs already is replaced. -/
def insert (m : TextMap) (key value : String) : TextMap :=
  ⟨insertEntry key value m.entries, sorted_insertEntry key value m.sorted⟩

/-- The map of a list of entries; of equal keys the last one counts. -/
def ofList (entries : List (String × String)) : TextMap :=
  entries.foldl (fun m entry => m.insert entry.1 entry.2) empty

def toList (m : TextMap) : List (String × String) := m.entries

def get? (m : TextMap) (key : String) : Option String := m.entries.lookup key

def isEmpty (m : TextMap) : Bool := m.entries.isEmpty

end TextMap

end PushDispatch
