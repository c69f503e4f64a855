import Mathlib.Data.List.Nodup
import QueryTables.Toml.Reader

/-!
# Keys of a document

Statements add to a document only under keys that are not there yet, or change what is under a key
and leave the keys as they are. So the entries of a document that is read have different keys
(`keys_of_read`).
-/

namespace QueryTables.Toml

namespace Entries

/-- The keys of the entries are different. -/
def Distinct (entries : Entries) : Prop :=
  (entries.map Prod.fst).Nodup

/-- No node is found under a key exactly when the key is new. -/
theorem find_eq_none_iff {entries : Entries} {key : Text} :
    entries.find? key = none ↔ key ∉ entries.map Prod.fst := by
  rw [find?, List.lookup_eq_none_iff, List.mem_map]
  constructor
  · rintro h ⟨entry, hentry, rfl⟩
    simpa using h entry hentry
  · intro h entry hentry
    rw [bne_iff_ne]
    rintro rfl
    exact h ⟨entry, hentry, rfl⟩

/-- Another node under a key leaves the keys as they are. -/
theorem keys_replace (entries : Entries) (key : Text) (node : Node) :
    (entries.replace key node).map Prod.fst = entries.map Prod.fst := by
  rw [replace, List.map_map]
  refine List.map_congr_left fun entry _ => ?_
  rw [Function.comp_apply]
  split
  · rename_i hkey
    exact hkey.symm
  · rfl

/-- Entries with another node under a key have different keys if they had. -/
theorem Distinct.replace {entries : Entries} (h : entries.Distinct) (key : Text) (node : Node) :
    (entries.replace key node).Distinct := by
  rw [Distinct, keys_replace]
  exact h

/-- Entries with a further one under a new key have different keys if they had. -/
theorem Distinct.append {entries : Entries} (h : entries.Distinct) {key : Text}
    (hnew : key ∉ entries.map Prod.fst) (node : Node) : (entries.append key node).Distinct := by
  rw [Distinct, Entries.append, List.map_append]
  refine List.nodup_append.2 ⟨h, List.nodup_singleton _, ?_⟩
  intro first hfirst second hsecond
  rw [List.mem_singleton.1 hsecond]
  rintro rfl
  exact hnew hfirst

/-- Entries without those under a key have different keys if they had. -/
theorem Distinct.remove {entries : Entries} (h : entries.Distinct) (key : Text) :
    (entries.remove key).Distinct :=
  h.sublist (List.filter_sublist.map Prod.fst)

/-- A key that is removed is new. -/
theorem not_mem_remove (entries : Entries) (key : Text) :
    key ∉ (entries.remove key).map Prod.fst := by
  intro hmem
  obtain ⟨entry, hentry, hkey⟩ := List.mem_map.1 hmem
  exact of_decide_eq_true (List.mem_filter.1 hentry).2 hkey

end Entries

/-- A change keeps keys different. -/
def KeepsDistinct (change : Entries → Option Entries) : Prop :=
  ∀ entries changed, entries.Distinct → change entries = some changed → changed.Distinct

/-- A change at the end of a path keeps keys different if it does where the path is empty: where the
path leads further, only a new key is added, or what is under a key changes. -/
theorem within_keeps_distinct {origin reached : Origin}
    {change : Origin → Entries → Option Entries} (hchange : ∀ origin, KeepsDistinct (change origin))
    (path : List Text) : KeepsDistinct (within? origin change path reached) := by
  intro entries changed hentries h
  cases path with
  | nil => exact hchange reached entries changed hentries h
  | cons key path =>
      rw [within?] at h
      split at h
      · rename_i hnew
        obtain ⟨inner, -, hchanged⟩ := Option.bind_eq_some_iff.1 h
        cases hchanged
        exact hentries.append (Entries.find_eq_none_iff.1 hnew) _
      · cases h
      · obtain ⟨last, -, hchanged⟩ := Option.bind_eq_some_iff.1 h
        cases hchanged
        exact hentries.replace key _
      · split at h
        · cases h
        · obtain ⟨inner, -, hchanged⟩ := Option.bind_eq_some_iff.1 h
          cases hchanged
          exact hentries.replace key _

/-- An entry under a dotted key keeps keys different. -/
theorem assign_keeps_distinct (path : List Text) (key : Text) (value : Value) :
    KeepsDistinct (assign? path key value) := by
  refine within_keeps_distinct (fun reached entries changed hentries h => ?_) path
  split at h
  · cases h
  · split at h
    · cases h
    · rename_i hfound
      cases h
      exact hentries.append (Entries.find_eq_none_iff.1 (by simpa using hfound)) _

/-- The header of a table keeps keys different. -/
theorem open_table_keeps_distinct (path : List Text) (key : Text) :
    KeepsDistinct (openTable? path key) := by
  refine within_keeps_distinct (fun _ entries changed hentries h => ?_) path
  split at h
  · rename_i hnew
    cases h
    exact hentries.append (Entries.find_eq_none_iff.1 hnew) _
  · cases h
    exact (hentries.remove key).append (Entries.not_mem_remove entries key) _
  · cases h

/-- The header of a further table of an array keeps keys different. -/
theorem open_next_table_keeps_distinct (path : List Text) (key : Text) :
    KeepsDistinct (openNextTable? path key) := by
  refine within_keeps_distinct (fun _ entries changed hentries h => ?_) path
  split at h
  · rename_i hnew
    cases h
    exact hentries.append (Entries.find_eq_none_iff.1 hnew) _
  · cases h
    exact hentries.replace key _
  · cases h

/-- Statements keep keys different. -/
theorem assemble_keeps_distinct (current : List Text) (statements : List Statement) :
    KeepsDistinct (assemble? current statements) := by
  intro entries changed hentries h
  induction statements generalizing current entries with
  | nil =>
      cases h
      exact hentries
  | cons statement statements ih =>
      cases statement with
      | header path key =>
          obtain ⟨opened, hopened, hlater⟩ := Option.bind_eq_some_iff.1 h
          exact ih _ opened (open_table_keeps_distinct path key _ _ hentries hopened) hlater
      | arrayHeader path key =>
          obtain ⟨opened, hopened, hlater⟩ := Option.bind_eq_some_iff.1 h
          exact ih _ opened (open_next_table_keeps_distinct path key _ _ hentries hopened) hlater
      | entry path key value =>
          obtain ⟨added, hadded, hlater⟩ := Option.bind_eq_some_iff.1 h
          exact ih _ added (within_keeps_distinct (fun _ => assign_keeps_distinct path key value)
            current _ _ hentries hadded) hlater

/-- Entries have the same keys as values. -/
theorem keys_entry_values (entries : Entries) :
    (entryValues entries).map Prod.fst = entries.map Prod.fst := by
  induction entries with
  | nil => rw [entryValues]; rfl
  | cons entry entries ih =>
      rw [entryValues, entryValue, List.map_cons, List.map_cons, ih]

/-- The entries of a document have different keys. -/
theorem keys_of_read {source : Text} {entries : List (Text × Value)}
    (h : read? source = some entries) : (entries.map Prod.fst).Nodup := by
  obtain ⟨statements, -, hassembled⟩ := Option.bind_eq_some_iff.1 h
  obtain ⟨assembled, hresult, rfl⟩ := Option.map_eq_some_iff.1 hassembled
  rw [keys_entry_values]
  exact assemble_keeps_distinct [] statements [] assembled List.nodup_nil hresult

end QueryTables.Toml
