import PushDispatch.Toml.Basic

/-!
Growing a document: entries and tables are added where a path of keys leads. A key is given once, a table is
introduced once, and what is written between braces or square brackets is complete.
-/

namespace PushDispatch.Toml

/-- Gives the value of a key that is there another value. -/
def replace (key : String) (value : Toml) (entries : Entries) : Entries :=
  entries.map fun entry => if entry.1 = key then (key, value) else entry

/-- Whether a path may lead through a table: a dotted key passes only tables without a header. -/
def TableKind.isOpen (byDottedKey : Bool) : TableKind → Bool
  | implied => true
  | dotted => true
  | headed => !byDottedKey
  | inline => false

/-- Changes the table at the end of a path. Tables that the path lacks are made, and an array of tables leads
on to its last table. -/
def changeAt (byDottedKey : Bool) (change : TableKind → Entries → Option (TableKind × Entries)) :
    List String → TableKind → Entries → Option (TableKind × Entries)
  | [], kind, entries => change kind entries
  | key :: path, kind, entries =>
    match entries.lookup key with
    | none => do
      let (k, es) ← changeAt byDottedKey change path (if byDottedKey then .dotted else .implied) []
      pure (kind, entries ++ [(key, table k es)])
    | some (table k es) =>
      if k.isOpen byDottedKey then do
        let (k, es) ← changeAt byDottedKey change path k es
        pure (kind, replace key (table k es) entries)
      else none
    | some (tables items) =>
      match items.getLast? with
      | some (table k es) => do
        let (k, es) ← changeAt byDottedKey change path k es
        pure (kind, replace key (tables (items.dropLast ++ [table k es])) entries)
      | _ => none
    | some _ => none

/-- Adds an entry with a dotted key to a table. The key may end in a table that dotted keys have made, not in
one that stands on the way to a header. -/
def addEntry (path : List String) (key : String) (value : Toml) (kind : TableKind) (entries : Entries) :
    Option (TableKind × Entries) :=
  changeAt true (fun kind entries =>
    if (entries.lookup key).isSome || (!path.isEmpty && kind ≠ .dotted) then none
    else some (kind, entries ++ [(key, value)])) path kind entries

/-- Introduces the table with the given key by its header. -/
def addTable (key : String) (kind : TableKind) (entries : Entries) : Option (TableKind × Entries) :=
  match entries.lookup key with
  | none => some (kind, entries ++ [(key, table .headed [])])
  | some (table .implied es) => some (kind, replace key (table .headed es) entries)
  | some _ => none

/-- Adds a table to the array of tables with the given key. -/
def addToTables (key : String) (kind : TableKind) (entries : Entries) : Option (TableKind × Entries) :=
  match entries.lookup key with
  | none => some (kind, entries ++ [(key, tables [table .headed []])])
  | some (tables items) => some (kind, replace key (tables (items ++ [table .headed []])) entries)
  | some _ => none

end PushDispatch.Toml
