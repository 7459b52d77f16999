import PushDispatch.CommandLine.Arguments
import PushDispatch.Fcm.Request
import PushDispatch.Proofs.Text.Cut
import PushDispatch.Proofs.TextMap

/-! The data entries of a command line. An entry is cut at its first equals sign, and of several entries for one key the
last one counts, so only the last value of each key shows in the message and in what is sent. -/

namespace PushDispatch

open Text (isBlank TrimsTo)

/-! ### One entry -/

/-- A text gives a value to a key: what stands before its first equals sign is the key between blanks, and not blank
itself; all that follows is the value. -/
def Gives (text key value : String) : Prop :=
  ∃ before, text.toList = before ++ '=' :: value.toList ∧ '=' ∉ before ∧ TrimsTo isBlank before key.toList ∧ key ≠ ""

theorem readEntry_of_notMem {text : String} (h : '=' ∉ text.toList) : readEntry text = .error (.noSeparator text) := by
  rw [readEntry, Text.splitFirst_eq_none_iff.2 h]

/-- What is read is decided by the text before the first equals sign. -/
theorem readEntry_of_eq {text : String} {before after : List Char} (h : text.toList = before ++ '=' :: after)
    (hb : '=' ∉ before) :
    readEntry text = if Text.dropAround isBlank before = [] then .error (.emptyKey text)
      else .ok (String.ofList (Text.dropAround isBlank before), String.ofList after) := by
  rw [readEntry, h, Text.splitFirst_append_cons hb]
  dsimp only
  split
  · next he => rw [if_pos he]
  · next hne => rw [if_neg hne]

theorem readEntry_eq_ok_iff {text key value : String} : readEntry text = .ok (key, value) ↔ Gives text key value := by
  constructor
  · intro h
    have hmem : '=' ∈ text.toList := by
      by_contra hn
      rw [readEntry_of_notMem hn] at h
      cases h
    obtain ⟨before, after, htext, hb⟩ := List.eq_append_cons_of_mem hmem
    rw [readEntry_of_eq htext hb] at h
    split at h
    · cases h
    · next hne =>
      cases h
      refine ⟨before, by simpa using htext, hb, ?_, ?_⟩
      · simpa using Text.trimsTo_dropAround isBlank before
      · simpa [String.ofList_eq_empty_iff] using hne
  · rintro ⟨before, htext, hb, htrim, hne⟩
    have hkey : key.toList ≠ [] := by simpa using hne
    rw [readEntry_of_eq htext hb, htrim.dropAround_eq, if_neg hkey, String.ofList_toList, String.ofList_toList]

/-- An entry has an equals sign, and before the first one a character that is not blank. -/
theorem exists_readEntry_iff {text : String} :
    (∃ entry, readEntry text = .ok entry) ↔ ∃ before after, text.toList = before ++ '=' :: after ∧ '=' ∉ before ∧
      ∃ c ∈ before, isBlank c = false := by
  constructor
  · rintro ⟨⟨key, value⟩, h⟩
    obtain ⟨before, htext, hb, htrim, hne⟩ := readEntry_eq_ok_iff.1 h
    refine ⟨before, _, htext, hb, ?_⟩
    by_contra hall
    have hnil : Text.dropAround isBlank before = [] := Text.dropAround_eq_nil_iff.2 (by simpa using hall)
    rw [htrim.dropAround_eq] at hnil
    exact hne (by simpa using hnil)
  · rintro ⟨before, after, htext, hb, c, hc, hblank⟩
    have hne : Text.dropAround isBlank before ≠ [] := fun hnil => by
      have := Text.dropAround_eq_nil_iff.1 hnil c hc
      rw [hblank] at this
      cases this
    exact ⟨_, by rw [readEntry_of_eq htext hb, if_neg hne]⟩

/-- A key without an equals sign, and without blanks around it, is read again. -/
theorem gives_append {key : String} (hne : key ≠ "") (hkey : '=' ∉ key.toList)
    (hfirst : ∀ c ∈ key.toList.head?, ¬ isBlank c) (hlast : ∀ c ∈ key.toList.getLast?, ¬ isBlank c) (value : String) :
    Gives (key ++ "=" ++ value) key value :=
  ⟨key.toList, by simp, hkey, ⟨⟨[], [], by simp, by simp, by simp⟩, hfirst, hlast⟩, hne⟩

/-! ### All entries -/

/-- The entries that texts are read as, one for each of them. -/
def AllRead (texts : List String) (entries : List (String × String)) : Prop :=
  texts.map readEntry = entries.map .ok

theorem allRead_nil_iff {entries : List (String × String)} : AllRead [] entries ↔ entries = [] := by
  simp [AllRead, eq_comm]

theorem allRead_cons_iff {text : String} {texts : List String} {entries : List (String × String)} :
    AllRead (text :: texts) entries ↔
      ∃ entry rest, entries = entry :: rest ∧ readEntry text = .ok entry ∧ AllRead texts rest := by
  cases entries with
  | nil => simp [AllRead]
  | cons entry rest => simp [AllRead]

/-- The last text that gives something to a key gives it the value. -/
def GivesLast (texts : List String) (key value : String) : Prop :=
  ∃ before text after, texts = before ++ text :: after ∧ Gives text key value ∧
    ∀ later ∈ after, ∀ other, ¬ Gives later key other

/-- Whether a text gives something to a key. -/
def isFor (key text : String) : Bool :=
  match readEntry text with
  | .ok entry => entry.1 = key
  | .error _ => false

theorem isFor_iff {key text : String} : isFor key text = true ↔ ∃ value, Gives text key value := by
  simp only [← readEntry_eq_ok_iff, isFor]
  cases readEntry text with
  | ok entry =>
    obtain ⟨k, v⟩ := entry
    simp
  | error problem => simp

/-- The value that counts is that of the last text for its key. -/
theorem givesLast_iff_getLast? {texts : List String} {key value : String} :
    GivesLast texts key value ↔ ∃ text, (texts.filter (isFor key)).getLast? = some text ∧ Gives text key value := by
  constructor
  · rintro ⟨before, text, after, rfl, hgives, hlater⟩
    refine ⟨text, ?_, hgives⟩
    have hafter : after.filter (isFor key) = [] :=
      List.filter_eq_nil_iff.2 fun later hm hfor => (isFor_iff.1 hfor).elim (hlater later hm)
    rw [List.filter_append, List.filter_cons_of_pos (isFor_iff.2 ⟨value, hgives⟩), hafter]
    simp
  · rintro ⟨text, hlast, hgives⟩
    obtain ⟨others, he⟩ := List.getLast?_eq_some_iff.1 hlast
    obtain ⟨before, rest, rfl, -, hrest⟩ := List.filter_eq_append_iff.1 he
    obtain ⟨skipped, after, rfl, hskipped, -, hafter⟩ := List.filter_eq_cons_iff.1 hrest
    refine ⟨before ++ skipped, text, after, by simp, hgives, fun later hm other hother => ?_⟩
    exact List.filter_eq_nil_iff.1 hafter later hm (isFor_iff.2 ⟨other, hother⟩)

theorem lookup_reverse_eq_some_iff {entries : List (String × String)} {key value : String} :
    entries.reverse.lookup key = some value ↔
      ∃ before after, entries = before ++ (key, value) :: after ∧ ∀ later ∈ after, later.1 ≠ key := by
  rw [List.lookup_eq_some_iff]
  constructor
  · rintro ⟨after, before, he, hne⟩
    refine ⟨before.reverse, after.reverse, ?_, fun later hm => ?_⟩
    · rw [← List.reverse_reverse entries, he]
      simp
    · have := hne later (List.mem_reverse.1 hm)
      exact Ne.symm (by simpa using this)
  · rintro ⟨before, after, rfl, hne⟩
    refine ⟨after.reverse, before.reverse, by simp, fun later hm => ?_⟩
    have := hne later (List.mem_reverse.1 hm)
    simpa using Ne.symm this

/-- The last entry for a key is read from the last text for it. -/
theorem AllRead.lookup_reverse {texts : List String} {entries : List (String × String)} (h : AllRead texts entries)
    (key value : String) : entries.reverse.lookup key = some value ↔ GivesLast texts key value := by
  rw [lookup_reverse_eq_some_iff]
  constructor
  · rintro ⟨before, after, rfl, hlater⟩
    rw [AllRead, List.map_append, List.map_cons] at h
    obtain ⟨earlier, rest, rfl, -, hrest⟩ := List.map_eq_append_iff.1 h
    obtain ⟨text, others, rfl, htext, hothers⟩ := List.map_eq_cons_iff.1 hrest
    refine ⟨earlier, text, others, rfl, readEntry_eq_ok_iff.1 htext, fun later hm other hother => ?_⟩
    have hread : readEntry later ∈ after.map .ok := hothers ▸ List.mem_map_of_mem hm
    rw [readEntry_eq_ok_iff.2 hother] at hread
    obtain ⟨entry, he, heq⟩ := List.mem_map.1 hread
    cases heq
    exact hlater _ he rfl
  · rintro ⟨earlier, text, others, rfl, hgives, hlater⟩
    rw [AllRead, List.map_append, List.map_cons] at h
    obtain ⟨before, rest, rfl, -, hrest⟩ := List.map_eq_append_iff.1 h.symm
    obtain ⟨entry, after, rfl, hentry, hafter⟩ := List.map_eq_cons_iff.1 hrest
    rw [readEntry_eq_ok_iff.2 hgives] at hentry
    cases hentry
    refine ⟨before, after, rfl, fun later hm hkey => ?_⟩
    have hread : .ok later ∈ others.map readEntry := hafter ▸ List.mem_map_of_mem hm
    obtain ⟨other, ho, heq⟩ := List.mem_map.1 hread
    exact hlater other ho later.2 (readEntry_eq_ok_iff.1 (hkey ▸ heq))

/-- A key occurs when a text gives something to it. -/
theorem exists_givesLast_iff {texts : List String} {key : String} :
    (∃ value, GivesLast texts key value) ↔ ∃ text ∈ texts, ∃ value, Gives text key value := by
  constructor
  · rintro ⟨value, before, text, after, rfl, hgives, -⟩
    exact ⟨text, by simp, value, hgives⟩
  · rintro ⟨text, hm, hgives⟩
    have hne : texts.filter (isFor key) ≠ [] := List.ne_nil_of_mem (List.mem_filter.2 ⟨hm, isFor_iff.2 hgives⟩)
    have hlast := List.getLast?_eq_some_getLast hne
    obtain ⟨value, hvalue⟩ := isFor_iff.1 (List.mem_filter.1 (List.getLast_mem hne)).2
    exact ⟨value, givesLast_iff_getLast?.2 ⟨_, hlast, hvalue⟩⟩

/-- Texts that stand in another order give the same, as long as those for one key keep theirs. -/
theorem givesLast_congr {texts texts' : List String} (h : ∀ key, texts.filter (isFor key) = texts'.filter (isFor key))
    (key value : String) : GivesLast texts key value ↔ GivesLast texts' key value := by
  rw [givesLast_iff_getLast?, givesLast_iff_getLast?, h]

/-! ### The message -/

namespace CommandLine

theorem ofChars_data (text : String) : Argument.ofChars ("--data=" ++ text).toList = .option .data (some text) := by
  have hcut : Text.splitFirst '=' (['d', 'a', 't', 'a'] ++ '=' :: text.toList) = some (['d', 'a', 't', 'a'], text.toList) :=
    Text.splitFirst_append_cons (by decide) _
  have hchars : ("--data=" ++ text).toList = '-' :: '-' :: (['d', 'a', 't', 'a'] ++ '=' :: text.toList) := by
    rw [String.toList_append]
    rfl
  have hname : Argument.long (String.ofList ['d', 'a', 't', 'a']) (some text) = .option .data (some text) := rfl
  rw [hchars, Argument.ofChars, hcut]
  · simp only [String.ofList_toList, hname]
  · simp

theorem readFrom_data_cons (d : Draft) (text : String) (rest : List String) :
    readFrom d none (("--data=" ++ text) :: rest) = match readEntry text with
      | .ok entry => readFrom { d with data := d.data ++ [entry] } none rest
      | .error _ => .error (.invalidValue .data text) := by
  rw [readFrom.eq_def]
  dsimp only
  rw [ofChars_data]
  dsimp only [settle, Draft.set]
  cases readEntry text <;> rfl

/-- Data arguments are accepted when all of them are entries, and the entries are added in their order. -/
theorem readFrom_data {d d' : Draft} {texts : List String} :
    readFrom d none (texts.map ("--data=" ++ ·)) = .ok d' ↔
      ∃ entries, AllRead texts entries ∧ d' = { d with data := d.data ++ entries } := by
  induction texts generalizing d with
  | nil => simp [readFrom, settle, allRead_nil_iff, eq_comm]
  | cons text texts ih =>
    rw [List.map_cons, readFrom_data_cons]
    simp only [allRead_cons_iff]
    cases hread : readEntry text with
    | ok entry =>
      simp only [ih, List.append_assoc, List.singleton_append]
      constructor
      · rintro ⟨entries, hall, rfl⟩
        exact ⟨entry :: entries, ⟨entry, entries, rfl, rfl, hall⟩, rfl⟩
      · rintro ⟨_, ⟨_, entries, rfl, he, hall⟩, rfl⟩
        cases he
        exact ⟨entries, hall, rfl⟩
    | error problem => simp

theorem foldl_withData (entries : List (String × String)) (m : Message) :
    entries.foldl (fun m entry => m.withData entry.1 entry.2) m =
      { m with data := entries.foldl (fun data entry => data.insert entry.1 entry.2) m.data } := by
  induction entries generalizing m with
  | nil => rfl
  | cons entry entries ih => exact ih _

theorem message_eq (c : CommandLine) : c.message = ⟨c.title, c.body, .ofList c.data, c.category⟩ := by
  rw [message, foldl_withData]
  cases c.category <;> rfl

variable {c c' : CommandLine} {texts texts' : List String}

theorem get?_message_data (h : AllRead texts c.data) (key value : String) :
    c.message.data.get? key = some value ↔ GivesLast texts key value := by
  rw [message_eq, TextMap.get?_ofList, h.lookup_reverse]

/-- The last values decide what the message says. -/
theorem message_congr (ht : c.title = c'.title) (hb : c.body = c'.body) (hc : c.category = c'.category)
    (h : AllRead texts c.data) (h' : AllRead texts' c'.data)
    (hlast : ∀ key value, GivesLast texts key value ↔ GivesLast texts' key value) : c.message = c'.message := by
  have hdata : c.message.data = c'.message.data := TextMap.ext_get? fun key => Option.ext fun value => by
    rw [get?_message_data h, get?_message_data h', hlast]
  rw [message_eq, message_eq] at hdata ⊢
  rw [ht, hb, hc]
  exact congrArg (fun data => Message.mk _ _ data _) hdata

/-- A text is an entry exactly when something that is not blank stands before its first equals sign; that is the key,
without the blanks around it, and what follows is the value as it is. A key with neither an equals sign nor blanks
around it is read again with every value. Data arguments are accepted when all their texts are entries. Then the
message has the keys that occur, each with its last value, so command lines whose texts give the same last values say
the same and send the same to every device; texts in another order do when those for one key keep theirs. -/
theorem entries_decide_message :
    (∀ text, (∃ entry, readEntry text = .ok entry) ↔ ∃ before after, text.toList = before ++ '=' :: after ∧
      '=' ∉ before ∧ ∃ c ∈ before, isBlank c = false) ∧
    (∀ text key value, readEntry text = .ok (key, value) ↔ Gives text key value) ∧
    (∀ key value : String, key ≠ "" → '=' ∉ key.toList → (∀ c ∈ key.toList.head?, ¬ isBlank c) →
      (∀ c ∈ key.toList.getLast?, ¬ isBlank c) → readEntry (key ++ "=" ++ value) = .ok (key, value)) ∧
    (∀ d d' texts, readFrom d none (texts.map ("--data=" ++ ·)) = .ok d' ↔
      ∃ entries, AllRead texts entries ∧ d' = { d with data := d.data ++ entries }) ∧
    (∀ (c : CommandLine) texts, AllRead texts c.data →
      (∀ key, (c.message.data.get? key).isSome ↔ ∃ text ∈ texts, ∃ value, Gives text key value) ∧
      ∀ key value, c.message.data.get? key = some value ↔ GivesLast texts key value) ∧
    (∀ (c c' : CommandLine) texts texts', AllRead texts c.data → AllRead texts' c'.data →
      c.title = c'.title → c.body = c'.body → c.category = c'.category →
      ((∀ key value, GivesLast texts key value ↔ GivesLast texts' key value) ∨
        ∀ key, texts.filter (isFor key) = texts'.filter (isFor key)) →
      c.message = c'.message ∧ ∀ policy device,
        (Fcm.Request.build policy device c.message).body = (Fcm.Request.build policy device c'.message).body) := by
  refine ⟨fun _ => exists_readEntry_iff, fun _ _ _ => readEntry_eq_ok_iff,
    fun key value hne hkey hfirst hlast => readEntry_eq_ok_iff.2 (gives_append hne hkey hfirst hlast value),
    fun _ _ _ => readFrom_data, fun c texts hall => ⟨fun key => ?_, get?_message_data hall⟩,
    fun c c' texts texts' hall hall' ht hb hc h => ?_⟩
  · rw [Option.isSome_iff_exists]
    simp only [get?_message_data hall, exists_givesLast_iff]
  · have hlast : ∀ key value, GivesLast texts key value ↔ GivesLast texts' key value := h.elim id givesLast_congr
    have hmessage := message_congr ht hb hc hall hall' hlast
    exact ⟨hmessage, fun policy device => by rw [hmessage]⟩

/-- Two entries collide on a key once the blanks around it are gone, and move past an entry for another key. -/
theorem entries_decide_message_moved :
    let c : CommandLine := ⟨"", [], .web, none, "t", "b", [("k", "1"), ("n", "x=y"), ("k", "2")], none, false, false⟩
    let c' : CommandLine := { c with data := [("n", "x=y"), ("k", "1"), ("k", "2")] }
    readEntry "k =2" = .ok ("k", "2") ∧ c.data ≠ c'.data ∧ c.message = c'.message := by
  intro c c'
  have hk : readEntry "k=1" = .ok ("k", "1") := by decide +kernel
  have hn : readEntry "n=x=y" = .ok ("n", "x=y") := by decide +kernel
  have hk' : readEntry "k =2" = .ok ("k", "2") := by decide +kernel
  have hall : AllRead ["k=1", "n=x=y", "k =2"] c.data := by simp [AllRead, hk, hn, hk', c]
  have hall' : AllRead ["n=x=y", "k=1", "k =2"] c'.data := by simp [AllRead, hk, hn, hk', c']
  have hfilter : ∀ key, ["k=1", "n=x=y", "k =2"].filter (isFor key) = ["n=x=y", "k=1", "k =2"].filter (isFor key) := by
    intro key
    by_cases h : key = "k"
    · subst h
      decide +kernel
    · have hone : isFor key "k=1" = false := by simp [isFor, hk, Ne.symm h]
      have htwo : isFor key "k =2" = false := by simp [isFor, hk', Ne.symm h]
      simp [List.filter_cons, hone, htwo]
  obtain ⟨-, -, -, -, -, hsame⟩ := entries_decide_message
  exact ⟨hk', by decide +kernel, (hsame c c' _ _ hall hall' rfl rfl rfl (.inr hfilter)).1⟩

end CommandLine

end PushDispatch
