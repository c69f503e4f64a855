import QueryTables.Proofs.Counters
import QueryTables.Proofs.Merging

/-!
# Tables by their qualified names

Any list of tables, also one that no scan would give, is merged into one row for each of its
qualified names, in order of first occurrence, with the occurrences of all the tables that have the
name (`unquote_tables_eq`). What the rows say is therefore all in the distinct names and in sums
over the tables: neither depends on where the list is cut in two, and of the order of the tables
only that of the rows depends on it (`unquoted_tables_grouped`).
-/

namespace QueryTables

/-- The qualified name of a table. -/
def Table.qualifiedName (table : Table) : QualifiedName :=
  QualifiedName.ofLiteral table.name

/-- How often the tables with a qualified name occur, all together. -/
def occurrencesOf (tables : List Table) (name : QualifiedName) : Nat :=
  ((tables.filter fun table => table.qualifiedName = name).map Table.occurrences).sum

/-- Entries for qualified names are joined in either bracketing. -/
theorem UnquotedTable.join_assoc (first second third : UnquotedTable) :
    (first.join second).join third = first.join (second.join third) := by
  simp only [join, Nat.add_assoc]

/-- Merged tables have the distinct qualified names of the tables. -/
theorem qualified_names_of_unquoted (tables : List Table) :
    (unquoteTables tables).map UnquotedTable.name =
      distinct (tables.map Table.qualifiedName) := by
  rw [names_of_unquoted_tables, List.map_map]
  rfl

/-- A row of merged tables counts all the tables with its name. -/
theorem occurrences_of_unquoted {tables : List Table} {row : UnquotedTable}
    (h : row ∈ unquoteTables tables) : row.occurrences = occurrencesOf tables row.name := by
  have hsum := measure_gather UnquotedTable.occurrences UnquotedTable.join_name
    UnquotedTable.join_occurrences (tables.map UnquotedTable.ofTable) h
  rw [List.filter_map, List.map_map] at hsum
  exact hsum

/-- Merged tables are the distinct qualified names of the tables, in order of first occurrence, each
with the occurrences of all the tables that have it. -/
theorem unquote_tables_eq (tables : List Table) :
    unquoteTables tables =
      (distinct (tables.map Table.qualifiedName)).map fun name =>
        ⟨name, occurrencesOf tables name⟩ := by
  rw [← qualified_names_of_unquoted, List.map_map]
  -- Each row is what its own name gives.
  symm
  calc (unquoteTables tables).map _ = (unquoteTables tables).map id := by
        refine List.map_congr_left fun row hrow => ?_
        rw [Function.comp_apply, ← occurrences_of_unquoted hrow]
        rfl
    _ = unquoteTables tables := List.map_id _

/-- The tables with a name occur as often in any order. -/
theorem occurrences_of_perm {tables others : List Table} (h : tables.Perm others) :
    occurrencesOf tables = occurrencesOf others := by
  funext name
  exact ((h.filter _).map _).sum_nat

/-- Tables in another order are merged into the same rows, in some order. -/
theorem unquote_tables_perm {tables others : List Table} (h : tables.Perm others) :
    (unquoteTables tables).Perm (unquoteTables others) := by
  rw [unquote_tables_eq, unquote_tables_eq, occurrences_of_perm h]
  exact (distinct_perm (h.map _)).map _

/-- Merging tables by their qualified names gives each name once, in order of first occurrence, with
the occurrences of all the tables that have it; none is lost. The rows of two lists after one
another are the merged rows of both. Tables in another order give the same rows in some order. All
this is also what counters up to a limit find, unless the tables occur more often than it allows. -/
theorem unquoted_tables_grouped (tables : List Table) :
    ((unquoteTables tables).map UnquotedTable.name).Nodup ∧
    (unquoteTables tables).map UnquotedTable.name =
      (tables.map Table.qualifiedName).eraseDups ∧
    (∀ row ∈ unquoteTables tables, row.occurrences = occurrencesOf tables row.name) ∧
    ((unquoteTables tables).map UnquotedTable.occurrences).sum =
      (tables.map Table.occurrences).sum ∧
    (∀ later, unquoteTables (tables ++ later) =
      merged UnquotedTable.name UnquotedTable.join (unquoteTables tables) (unquoteTables later)) ∧
    (∀ others, tables.Perm others → (unquoteTables tables).Perm (unquoteTables others)) ∧
    ∀ limit, (tables.map Table.occurrences).sum ≤ limit →
      unquoteWithin? limit tables = some (unquoteTables tables) := by
  refine ⟨?distinct, ?order, fun row => occurrences_of_unquoted, total_of_unquoted tables, ?merge,
    fun others => unquote_tables_perm, fun limit => unquote_within_eq⟩
  case distinct =>
    rw [qualified_names_of_unquoted]
    exact nodup_distinct _
  case order => rw [qualified_names_of_unquoted, distinct_eq_erase_dups]
  case merge =>
    intro later
    rw [unquoteTables, List.map_append]
    exact gather_append_eq_merged UnquotedTable.join_name UnquotedTable.join_assoc _ _

/-- Three spellings of one name and two of another, counted in turn, and in reverse. -/
def respelledTables : List Table :=
  [⟨"`db`.`t`".toList, .quotedQualified, 2⟩, ⟨"orders".toList, .bare, 1⟩,
    ⟨"db.t".toList, .qualified, 3⟩, ⟨"`orders`".toList, .quoted, 5⟩,
    ⟨"`db`.t".toList, .quotedSchemaQualified, 7⟩]

/-- They are two rows, with counters that hold no number above their sum, and in reverse the same
two. -/
theorem respelled_tables_grouped :
    respelledTables.Perm respelledTables.reverse ∧
      (unquoteTables respelledTables).Perm (unquoteTables respelledTables.reverse) ∧
      (respelledTables.map Table.occurrences).sum ≤ 18 ∧
      unquoteWithin? 18 respelledTables =
        some [⟨⟨some "db".toList, ['t']⟩, 12⟩, ⟨⟨none, "orders".toList⟩, 6⟩] := by
  obtain ⟨-, -, -, -, -, hperm, hwithin⟩ := unquoted_tables_grouped respelledTables
  have hreverse : respelledTables.Perm respelledTables.reverse :=
    (List.reverse_perm respelledTables).symm
  have hlimit : (respelledTables.map Table.occurrences).sum ≤ 18 := by decide
  refine ⟨hreverse, hperm _ hreverse, hlimit, ?_⟩
  rw [hwithin 18 hlimit]
  decide

end QueryTables
