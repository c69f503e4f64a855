import Mathlib
import QueryTables.Proofs.Documents
import QueryTables.Proofs.Failures

/-!
# Which configurations are accepted

A configuration may say `format` by the exact word for one, and `unquote` and `counts` by booleans;
`Config.Allowed` is this for one entry of a document. A document is loaded exactly when all its
entries are allowed, and then the configuration holds their values in whatever order they stand;
otherwise the first entry that is not allowed decides the fault, whatever follows it
(`config_judged_by_entries`). Tables under `format` are left out, since some of them stand for a
word.
-/

namespace QueryTables

namespace Config

/-- The entry that says a format. -/
def formatEntry (format : Format) : Text × Toml.Value :=
  ("format".toList, .text format.text)

/-- The entry that says whether names are listed without quote marks. -/
def unquoteEntry (on : Bool) : Text × Toml.Value :=
  ("unquote".toList, .boolean on)

/-- The entry that says whether the numbers of occurrences are shown. -/
def countsEntry (on : Bool) : Text × Toml.Value :=
  ("counts".toList, .boolean on)

/-- The entries that a configuration may have. -/
inductive Allowed : Text × Toml.Value → Prop where
  | format (format : Format) : Allowed (formatEntry format)
  | unquote (on : Bool) : Allowed (unquoteEntry on)
  | counts (on : Bool) : Allowed (countsEntry on)

/-- An entry is not allowed, for the fault stated. -/
inductive Offends : Text × Toml.Value → EntryFault → Prop where
  | unknownKey {key : Text} {value : Toml.Value} (hformat : key ≠ "format".toList)
      (hunquote : key ≠ "unquote".toList) (hcounts : key ≠ "counts".toList) :
      Offends (key, value) (.unknownKey key)
  | unknownFormat {word : Text} (hword : ∀ format : Format, word ≠ format.text) :
      Offends ("format".toList, .text word) (.unknownFormat word)
  | formatNotText {value : Toml.Value} (htext : ∀ word, value ≠ .text word)
      (htable : ∀ members, value ≠ .table members) :
      Offends ("format".toList, value) .formatNotText
  | notBoolean {key : Text} {value : Toml.Value}
      (hkey : key = "unquote".toList ∨ key = "counts".toList)
      (hvalue : ∀ on, value ≠ .boolean on) : Offends (key, value) (.notBoolean value)

/-- A field has the value that an entry for it says, and none if no entry does. -/
def Says {α : Type} (entryOf : α → Text × Toml.Value) (entries : List (Text × Toml.Value))
    (field : Option α) : Prop :=
  ∀ value, field = some value ↔ entryOf value ∈ entries

/-- A configuration has the values that entries say, and no others. -/
structure Holds (config : Config) (entries : List (Text × Toml.Value)) : Prop where
  format : Says formatEntry entries config.format
  unquote : Says unquoteEntry entries config.unquote
  counts : Says countsEntry entries config.counts

/-- The file at a path is a document with these entries in this order. -/
def DocumentAt (find : Text → Except FileFault FileEntry) (path : Text)
    (entries : List (Text × Toml.Value)) : Prop :=
  ∃ source, find path = .ok (.file (Text.toBytes source)) ∧ Toml.read? source = some entries

section Fields

variable {α : Type} {entryOf : α → Text × Toml.Value} {entries : List (Text × Toml.Value)}

/-- An entry for a field that no entry was about says its value. -/
theorem Says.of_new {value : α} (hinjective : Function.Injective entryOf)
    (hkey : ∀ other, (entryOf other).1 = (entryOf value).1)
    (hnew : (entryOf value).1 ∉ entries.map Prod.fst) :
    Says entryOf (entries ++ [entryOf value]) (some value) := by
  intro other
  rw [List.mem_append, List.mem_singleton, hinjective.eq_iff, Option.some.injEq, eq_comm]
  constructor
  · exact .inr
  · rintro (hmem | heq)
    · exact absurd (List.mem_map_of_mem hmem) (hkey other ▸ hnew)
    · exact heq

/-- An entry for another field leaves what is said of a field as it is. -/
theorem Says.concat {field : Option α} (h : Says entryOf entries field)
    {entry : Text × Toml.Value} (hother : ∀ value, (entryOf value).1 ≠ entry.1) :
    Says entryOf (entries ++ [entry]) field := by
  intro value
  rw [h, List.mem_append, List.mem_singleton]
  constructor
  · exact .inl
  · rintro (hmem | rfl)
    · exact hmem
    · exact absurd rfl (hother value)

/-- Entries say one value of a field at most. -/
theorem Says.unique {field other : Option α} (hfield : Says entryOf entries field)
    (hother : Says entryOf entries other) : field = other :=
  Option.ext fun value => (hfield value).trans (hother value).symm

end Fields

/-- Different formats have different words. -/
theorem format_text_injective : Function.Injective Format.text := by
  intro first second h
  cases first with
  | plain =>
      cases second with
      | plain => rfl
      | json => exact absurd h (by decide)
  | json =>
      cases second with
      | plain => exact absurd h (by decide)
      | json => rfl

/-- Different formats have different entries. -/
theorem format_entry_injective : Function.Injective formatEntry := by
  intro first second h
  exact format_text_injective (Toml.Value.text.inj (congrArg Prod.snd h))

/-- Different booleans have different entries under a key. -/
theorem boolean_entry_injective (key : Text) :
    Function.Injective fun on => (key, Toml.Value.boolean on) := by
  intro first second h
  exact Toml.Value.boolean.inj (congrArg Prod.snd h)

/-- The exact word for a format is read as the format. -/
theorem format_of_text (format : Format) : formatOfWord format.text = .ok format := by
  cases format with
  | plain | json => rfl

/-- A word for no format is not read. -/
theorem format_of_other_word {word : Text} (h : ∀ format : Format, word ≠ format.text) :
    formatOfWord word = .error (.unknownFormat word) := by
  have hnone : Format.ofExactText? word = none := by
    simp [Format.ofExactText?, h]
  rw [formatOfWord, hnone]

/-- The keys of a configuration are different. -/
theorem keys_differ :
    "format".toList ≠ "unquote".toList ∧ "format".toList ≠ "counts".toList ∧
      "unquote".toList ≠ "counts".toList := by
  decide

/-- What is added under the key for the format. -/
theorem add_format (config : Config) (value : Toml.Value) :
    addEntry config "format".toList value =
      (formatOf value).map fun format => { config with format := some format } :=
  if_pos rfl

/-- What is added under the key for names without quote marks. -/
theorem add_unquote (config : Config) (value : Toml.Value) :
    addEntry config "unquote".toList value =
      (booleanOf value).map fun on => { config with unquote := some on } :=
  (if_neg keys_differ.1.symm).trans (if_pos rfl)

/-- What is added under the key for the numbers of occurrences. -/
theorem add_counts (config : Config) (value : Toml.Value) :
    addEntry config "counts".toList value =
      (booleanOf value).map fun on => { config with counts := some on } :=
  (if_neg keys_differ.2.1.symm).trans ((if_neg keys_differ.2.2.symm).trans (if_pos rfl))

/-- An allowed entry with a new key is added, and the configuration has its value besides those that
it had. -/
theorem Allowed.add {entry : Text × Toml.Value} (h : Allowed entry) {config : Config}
    {before : List (Text × Toml.Value)} (hbefore : config.Holds before)
    (hnew : entry.1 ∉ before.map Prod.fst) :
    ∃ result, addEntry config entry.1 entry.2 = .ok result ∧ result.Holds (before ++ [entry]) := by
  obtain ⟨hformat, hunquote, hcounts⟩ := hbefore
  obtain ⟨hfirst, hsecond, hthird⟩ := keys_differ
  cases h with
  | format format =>
      refine ⟨{ config with format := some format }, ?_,
        Says.of_new format_entry_injective (fun _ => rfl) hnew,
        hunquote.concat fun _ => hfirst.symm, hcounts.concat fun _ => hsecond.symm⟩
      have hread : formatOf (.text format.text) = .ok format := format_of_text format
      have hadded := add_format config (.text format.text)
      rw [hread] at hadded
      exact hadded
  | unquote on =>
      exact ⟨{ config with unquote := some on }, add_unquote config (.boolean on),
        hformat.concat fun _ => hfirst,
        Says.of_new (boolean_entry_injective _) (fun _ => rfl) hnew,
        hcounts.concat fun _ => hthird.symm⟩
  | counts on =>
      exact ⟨{ config with counts := some on }, add_counts config (.boolean on),
        hformat.concat fun _ => hsecond, hunquote.concat fun _ => hthird,
        Says.of_new (boolean_entry_injective _) (fun _ => rfl) hnew⟩

/-- An entry that is not allowed is not added, for the fault stated. -/
theorem Offends.add {entry : Text × Toml.Value} {cause : EntryFault} (h : Offends entry cause)
    (config : Config) : addEntry config entry.1 entry.2 = .error cause := by
  cases h with
  | unknownKey hformat hunquote hcounts =>
      rw [addEntry, if_neg hformat, if_neg hunquote, if_neg hcounts]
  | unknownFormat hword =>
      rw [add_format, formatOf, format_of_other_word hword]
      rfl
  | @formatNotText value htext htable =>
      have hformat : formatOf value = .error .formatNotText := by
        cases value with
        | text word => exact absurd rfl (htext word)
        | table members => exact absurd rfl (htable members)
        | boolean | integer | float | moment | array => rfl
      rw [add_format, hformat]
      rfl
  | @notBoolean key value hkey hvalue =>
      have hboolean : booleanOf value = .error (.notBoolean value) := by
        cases value with
        | boolean on => exact absurd rfl (hvalue on)
        | text | table | integer | float | moment | array => rfl
      rcases hkey with rfl | rfl
      · rw [add_unquote, hboolean]
        rfl
      · rw [add_counts, hboolean]
        rfl

/-- A value is a boolean or not. -/
theorem boolean_or_not (value : Toml.Value) :
    (∃ on, value = .boolean on) ∨ ∀ on, value ≠ .boolean on := by
  cases value with
  | boolean on => exact .inl ⟨on, rfl⟩
  | text | table | integer | float | moment | array => exact .inr fun _ => nofun

/-- An entry is allowed or not, unless it is a table under the key for the format. -/
theorem allowed_or_offends {entry : Text × Toml.Value}
    (h : ∀ members, entry ≠ ("format".toList, .table members)) :
    Allowed entry ∨ ∃ cause, Offends entry cause := by
  obtain ⟨key, value⟩ := entry
  by_cases hformat : key = "format".toList
  · subst hformat
    cases value with
    | text word =>
        by_cases hword : ∃ format : Format, word = format.text
        · obtain ⟨format, rfl⟩ := hword
          exact .inl (.format format)
        · exact .inr ⟨_, .unknownFormat fun format heq => hword ⟨format, heq⟩⟩
    | table members => exact absurd rfl (h members)
    | boolean | integer | float | moment | array =>
        exact .inr ⟨_, .formatNotText (fun _ => nofun) fun _ => nofun⟩
  · rcases boolean_or_not value with ⟨on, rfl⟩ | hvalue
    · by_cases hunquote : key = "unquote".toList
      · exact .inl (hunquote ▸ .unquote on)
      · by_cases hcounts : key = "counts".toList
        · exact .inl (hcounts ▸ .counts on)
        · exact .inr ⟨_, .unknownKey hformat hunquote hcounts⟩
    · by_cases hkey : key = "unquote".toList ∨ key = "counts".toList
      · exact .inr ⟨_, .notBoolean hkey hvalue⟩
      · rw [not_or] at hkey
        exact .inr ⟨_, .unknownKey hformat hkey.1 hkey.2⟩

/-- Allowed entries with different keys are added one after the other. -/
theorem add_entries_of_allowed {config : Config} {before entries : List (Text × Toml.Value)}
    (hbefore : config.Holds before) (hkeys : ((before ++ entries).map Prod.fst).Nodup)
    (hallowed : ∀ entry ∈ entries, Allowed entry) :
    ∃ result, addEntries config entries = .ok result ∧ result.Holds (before ++ entries) := by
  -- What the configuration holds are the entries so far, and the next key is none of theirs.
  induction entries generalizing config before with
  | nil => exact ⟨config, rfl, by rwa [List.append_nil]⟩
  | cons entry entries ih =>
      rw [List.forall_mem_cons] at hallowed
      have hnew : entry.1 ∉ before.map Prod.fst := by
        rw [List.map_append, List.map_cons, List.nodup_append] at hkeys
        intro hmem
        exact hkeys.2.2 _ hmem _ List.mem_cons_self rfl
      obtain ⟨added, hadded, hheld⟩ := hallowed.1.add hbefore hnew
      rw [List.append_cons] at hkeys ⊢
      obtain ⟨result, hresult, hholds⟩ := ih hheld hkeys hallowed.2
      exact ⟨result, by rw [addEntries, hadded]; exact hresult, hholds⟩

/-- Entries behind others are added to what the others give. -/
theorem add_entries_append (config : Config) (first second : List (Text × Toml.Value)) :
    addEntries config (first ++ second) =
      (addEntries config first).bind fun reached => addEntries reached second := by
  induction first generalizing config with
  | nil => rfl
  | cons entry first ih =>
      rw [List.cons_append, addEntries, addEntries]
      cases addEntry config entry.1 entry.2 with
      | error cause => rfl
      | ok added => exact ih added

/-- The empty configuration holds nothing. -/
theorem empty_holds : empty.Holds [] := by
  constructor <;> exact fun _ => ⟨nofun, nofun⟩

/-- An entry that is not allowed for some fault is not allowed. -/
theorem Offends.not_allowed {entry : Text × Toml.Value} {cause : EntryFault}
    (h : Offends entry cause) : ¬ Allowed entry := by
  intro hallowed
  obtain ⟨result, hadded, -⟩ := hallowed.add empty_holds nofun
  rw [h.add] at hadded
  cases hadded

/-- Allowed entries with different keys make up a configuration with their values. -/
theorem of_allowed_entries {entries : List (Text × Toml.Value)}
    (hkeys : (entries.map Prod.fst).Nodup) (hallowed : ∀ entry ∈ entries, Allowed entry) :
    ∃ config, ofEntries entries = .ok config ∧ config.Holds entries :=
  add_entries_of_allowed empty_holds hkeys hallowed

/-- The first entry that is not allowed decides the fault, whatever follows it. -/
theorem of_offending_entries {before after : List (Text × Toml.Value)}
    {entry : Text × Toml.Value} {cause : EntryFault}
    (hkeys : ((before ++ entry :: after).map Prod.fst).Nodup)
    (hbefore : ∀ earlier ∈ before, Allowed earlier) (hoffends : Offends entry cause) :
    ofEntries (before ++ entry :: after) = .error cause := by
  rw [List.map_append] at hkeys
  obtain ⟨reached, hreached, -⟩ := of_allowed_entries (List.nodup_append.1 hkeys).1 hbefore
  rw [ofEntries] at hreached ⊢
  rw [add_entries_append, hreached, Except.bind, addEntries, hoffends.add]

/-- Either all entries are allowed, or there is a first that is not, unless a table stands under the
key for the format. -/
theorem all_allowed_or_first_offends {entries : List (Text × Toml.Value)}
    (hformat : ∀ members, ("format".toList, .table members) ∉ entries) :
    (∀ entry ∈ entries, Allowed entry) ∨
      ∃ before entry after cause, entries = before ++ entry :: after ∧
        (∀ earlier ∈ before, Allowed earlier) ∧ Offends entry cause := by
  induction entries with
  | nil => exact .inl nofun
  | cons first entries ih =>
      have hlater : ∀ members, ("format".toList, .table members) ∉ entries :=
        fun members hmem => hformat members (List.mem_cons_of_mem _ hmem)
      have hfirst : ∀ members, first ≠ ("format".toList, .table members) := by
        rintro members rfl
        exact hformat members List.mem_cons_self
      rcases allowed_or_offends hfirst with hallowed | ⟨cause, hoffends⟩
      · rcases ih hlater with hall | ⟨before, entry, after, cause, rfl, hbefore, hoffends⟩
        · exact .inl (List.forall_mem_cons.2 ⟨hallowed, hall⟩)
        · exact .inr ⟨first :: before, entry, after, cause, rfl,
            List.forall_mem_cons.2 ⟨hallowed, hbefore⟩, hoffends⟩
      · exact .inr ⟨[], first, entries, cause, rfl, nofun, hoffends⟩

/-- Entries make up one configuration at most. -/
theorem Holds.unique {config other : Config} {entries : List (Text × Toml.Value)}
    (h : config.Holds entries) (hother : other.Holds entries) : config = other := by
  obtain ⟨format, unquote, counts⟩ := config
  obtain ⟨otherFormat, otherUnquote, otherCounts⟩ := other
  obtain rfl : format = otherFormat := h.format.unique hother.format
  obtain rfl : unquote = otherUnquote := h.unquote.unique hother.unquote
  obtain rfl : counts = otherCounts := h.counts.unique hother.counts
  rfl

/-- Entries in another order say the same. -/
theorem Holds.perm {config : Config} {entries others : List (Text × Toml.Value)}
    (h : config.Holds entries) (hperm : entries.Perm others) : config.Holds others where
  format value := (h.format value).trans hperm.mem_iff
  unquote value := (h.unquote value).trans hperm.mem_iff
  counts value := (h.counts value).trans hperm.mem_iff

/-- Entries that make up a configuration make up the same in any other order. -/
theorem of_perm {config : Config} {entries others : List (Text × Toml.Value)}
    (hkeys : (entries.map Prod.fst).Nodup) (hallowed : ∀ entry ∈ entries, Allowed entry)
    (hholds : config.Holds entries) (hperm : entries.Perm others) :
    ofEntries others = .ok config := by
  obtain ⟨other, hother, hheld⟩ := of_allowed_entries ((hperm.map Prod.fst).nodup_iff.1 hkeys)
    fun entry hentry => hallowed entry (hperm.mem_iff.2 hentry)
  rw [hother, hheld.unique (hholds.perm hperm)]

section Documents

variable {find : Text → Except FileFault FileEntry} {path : Text}
  {entries : List (Text × Toml.Value)}

/-- A document is loaded as its entries are judged. -/
theorem load_of_document (h : DocumentAt find path entries) :
    load find path = (ofEntries entries).mapError (.badEntry path) := by
  obtain ⟨source, hfound, hentries⟩ := h
  rw [load, hfound, read_of_text]
  simp only [ofText, hentries]
  cases ofEntries entries <;> rfl

/-- The entries of a document have different keys. -/
theorem DocumentAt.keys (h : DocumentAt find path entries) : (entries.map Prod.fst).Nodup := by
  obtain ⟨source, -, hentries⟩ := h
  exact Toml.keys_of_read hentries

/-- A document with allowed entries only is loaded, and the configuration has their values. -/
theorem load_of_allowed (h : DocumentAt find path entries)
    (hallowed : ∀ entry ∈ entries, Allowed entry) :
    ∃ config, load find path = .ok config ∧ config.Holds entries := by
  obtain ⟨config, hconfig, hholds⟩ := of_allowed_entries h.keys hallowed
  exact ⟨config, by rw [load_of_document h, hconfig]; rfl, hholds⟩

/-- A document is not loaded for the fault of the first entry that is not allowed. -/
theorem load_of_offending {before after : List (Text × Toml.Value)} {entry : Text × Toml.Value}
    {cause : EntryFault} (h : DocumentAt find path (before ++ entry :: after))
    (hbefore : ∀ earlier ∈ before, Allowed earlier) (hoffends : Offends entry cause) :
    load find path = .error (.badEntry path cause) := by
  rw [load_of_document h, of_offending_entries h.keys hbefore hoffends]
  rfl

/-- A document that is loaded has allowed entries only. -/
theorem allowed_of_loaded (h : DocumentAt find path entries)
    (hformat : ∀ members, ("format".toList, .table members) ∉ entries) {config : Config}
    (hloaded : load find path = .ok config) : ∀ entry ∈ entries, Allowed entry := by
  rcases all_allowed_or_first_offends hformat with
    hallowed | ⟨before, entry, after, cause, rfl, hbefore, hoffends⟩
  · exact hallowed
  · rw [load_of_offending h hbefore hoffends] at hloaded
    cases hloaded

end Documents

end Config

open Config

/-- A document without a table under `format` is loaded exactly when each of its entries says a
format by its exact word, or `unquote` or `counts` by a boolean. The configuration has the values
that the entries say, in whatever order they stand. A document with another entry is not loaded, and
the first of these decides for which fault, whatever follows it. A file that is no text is never
read, so no fault is about what is in it. -/
theorem config_judged_by_entries (find : Text → Except FileFault FileEntry) (path : Text) :
    (∀ entries, DocumentAt find path entries →
      (∀ members, ("format".toList, .table members) ∉ entries) →
      ((∃ config, load find path = .ok config) ↔ ∀ entry ∈ entries, Allowed entry) ∧
      (∀ config, load find path = .ok config → config.Holds entries ∧
        ∀ others, entries.Perm others → ofEntries others = .ok config ∧
          ∀ otherFind otherPath, DocumentAt otherFind otherPath others →
            load otherFind otherPath = .ok config) ∧
      ((¬ ∀ entry ∈ entries, Allowed entry) →
        ∃ before entry after cause, entries = before ++ entry :: after ∧
          (∀ earlier ∈ before, Allowed earlier) ∧ Offends entry cause ∧
          load find path = .error (.badEntry path cause) ∧
          ∀ later otherFind otherPath, DocumentAt otherFind otherPath (before ++ entry :: later) →
            load otherFind otherPath = .error (.badEntry otherPath cause))) ∧
    ∀ content, find path = .ok (.file content) → NotText content →
      load find path = .error (.unreadable path .notText) := by
  refine ⟨fun entries hdocument hformat => ⟨⟨?loaded, ?allowed⟩, ?values, ?fault⟩, ?notText⟩
  case loaded =>
    rintro ⟨config, hloaded⟩
    exact allowed_of_loaded hdocument hformat hloaded
  case allowed =>
    intro hallowed
    obtain ⟨config, hloaded, -⟩ := load_of_allowed hdocument hallowed
    exact ⟨config, hloaded⟩
  case values =>
    intro config hloaded
    have hallowed := allowed_of_loaded hdocument hformat hloaded
    obtain ⟨other, hother, hholds⟩ := load_of_allowed hdocument hallowed
    obtain rfl : config = other := Except.ok.inj (hloaded.symm.trans hother)
    refine ⟨hholds, fun others hperm => ?_⟩
    have hothers := of_perm hdocument.keys hallowed hholds hperm
    refine ⟨hothers, fun otherFind otherPath hreordered => ?_⟩
    rw [load_of_document hreordered, hothers]
    rfl
  case fault =>
    intro hsome
    rcases all_allowed_or_first_offends hformat with
      hallowed | ⟨before, entry, after, cause, rfl, hbefore, hoffends⟩
    · exact absurd hallowed hsome
    · exact ⟨before, entry, after, cause, rfl, hbefore, hoffends,
        load_of_offending hdocument hbefore hoffends,
        fun later otherFind otherPath hother => load_of_offending hother hbefore hoffends⟩
  case notText =>
    intro content hfound hcontent
    rw [load, hfound, (Unreadable.notText hcontent).read]

/-- Three files: one with allowed entries, one with two entries that are not, and one that is no
text. -/
def sampleFiles (path : Text) : Except FileFault FileEntry :=
  if path = "good".toList then
    .ok (.file (Text.toBytes "counts=true\nformat='json'".toList))
  else if path = "bad".toList then
    .ok (.file (Text.toBytes "counts='1'\ncolour=false".toList))
  else .ok (.file ⟨#[0xff]⟩)

/-- The first is loaded, also with its entries in the other order; the second is not, over one of
its entries; and the third is not read. -/
theorem sample_files_judged :
    load sampleFiles "good".toList = .ok ⟨some .json, none, some true⟩ ∧
      ofEntries [formatEntry .json, countsEntry true] = .ok ⟨some .json, none, some true⟩ ∧
      (∃ cause, load sampleFiles "bad".toList = .error (.badEntry "bad".toList cause)) ∧
      load sampleFiles "other".toList = .error (.unreadable "other".toList .notText) := by
  have hgood : DocumentAt sampleFiles "good".toList
      [("counts".toList, .boolean true), ("format".toList, .text "json".toList)] :=
    ⟨"counts=true\nformat='json'".toList, rfl, by cbv⟩
  have hbad : DocumentAt sampleFiles "bad".toList
      [("counts".toList, .text ['1']), ("colour".toList, .boolean false)] :=
    ⟨"counts='1'\ncolour=false".toList, rfl, by cbv⟩
  have hother : NotText ⟨#[0xff]⟩ := of_bytes_eq_none_iff.1 (by decide)
  obtain ⟨haccepted, hvalues, -⟩ :=
    (config_judged_by_entries sampleFiles "good".toList).1 _ hgood (by simp)
  obtain ⟨config, hloaded⟩ := haccepted.2
    (List.forall_mem_cons.2 ⟨.counts true, List.forall_mem_singleton.2 (.format .json)⟩)
  have hreordered := ((hvalues config hloaded).2 _ (List.Perm.swap _ _ [])).1
  have hmade : ofEntries [formatEntry .json, countsEntry true] =
      .ok ⟨some .json, none, some true⟩ := rfl
  obtain rfl := Except.ok.inj (hreordered.symm.trans hmade)
  obtain ⟨-, -, hfault⟩ :=
    (config_judged_by_entries sampleFiles "bad".toList).1 _ hbad (by simp)
  have hword : ¬ Allowed ("counts".toList, .text ['1']) :=
    (Offends.notBoolean (.inr rfl) (by simp)).not_allowed
  obtain ⟨_, _, _, cause, -, -, -, hcause, -⟩ := hfault fun hall => hword (hall _ (by simp))
  exact ⟨hloaded, hmade, ⟨cause, hcause⟩,
    (config_judged_by_entries sampleFiles "other".toList).2 ⟨#[0xff]⟩ rfl hother⟩

end QueryTables
