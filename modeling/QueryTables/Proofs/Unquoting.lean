import QueryTables.Proofs.RoundTrip
import QueryTables.Proofs.Splitting
import QueryTables.Report

/-!
# Reports without quote marks

With `unquote`, tables are merged by their qualified names but printed as texts. A report therefore
prints a text once for each pair of parts that gives it; without the repeated texts these are the
names that are listed without quote marks (`names_agree_with_merged_tables`).
`unquoted_rows_merged_iff` says when this is what merging by the printed text would give: when no
two of the recorded identifiers clash. Whatever clashes, no occurrence is lost
(`sum_of_unquoted_rows`).
-/

namespace QueryTables

open Text

/-- Joined entries for a qualified name keep it. -/
theorem UnquotedTable.join_name (first second : UnquotedTable) :
    (first.join second).name = first.name := rfl

/-- Joined entries for a qualified name occur as often as both. -/
theorem UnquotedTable.join_occurrences (first second : UnquotedTable) :
    (first.join second).occurrences = first.occurrences + second.occurrences := rfl

/-- The rows of a report without quote marks on a query. -/
def unquotedRows (query : Text) : List Row :=
  reportRows true (extract query)

/-- The rows print each text without quote marks once, in order of first occurrence, with the number
of identifiers that have it. -/
structure Merges (rows : List Row) (identifiers : List Identifier) : Prop where
  names : rows.map Row.name = distinct (identifiers.map Identifier.unquoted)
  occurrences : ∀ row ∈ rows,
    row.occurrences = (identifiers.map Identifier.unquoted).count row.name

/-- No two of the identifiers clash. -/
def ClashFree (identifiers : List Identifier) : Prop :=
  ∀ first ∈ identifiers, ∀ second ∈ identifiers, ¬ Clash first second

/-- The literals recorded for a query are split into the parts of their identifiers. -/
theorem qualified_names_of_recorded (query : Text) :
    ((recordedIdentifiers query).map Identifier.literal).map QualifiedName.ofLiteral =
      (recordedIdentifiers query).map Identifier.qualifiedName := by
  rw [List.map_map]
  refine List.map_congr_left fun identifier hidentifier => ?_
  exact qualified_name_of_literal (recorded_well_formed hidentifier)

/-- Merged tables have the different qualified names of the tables, in order of first occurrence. -/
theorem names_of_unquoted_tables (tables : List Table) :
    (unquoteTables tables).map UnquotedTable.name =
      distinct ((tables.map Table.name).map QualifiedName.ofLiteral) := by
  unfold unquoteTables
  rw [keys_gather UnquotedTable.join_name, List.map_map, List.map_map]
  rfl

/-- The names without quote marks are the printed names of the merged tables, where a name that is
printed again is left out. This holds for any list of tables, whether or not a scan gives it. -/
theorem names_agree_with_merged_tables (tables : List Table) :
    unquoteNames (tables.map Table.name) =
      ((unquoteTables tables).map fun table => table.name.display).eraseDups := by
  have hprinted : ((unquoteTables tables).map fun table => table.name.display) =
      (distinct ((tables.map Table.name).map QualifiedName.ofLiteral)).map
        QualifiedName.display := by
    rw [← names_of_unquoted_tables, List.map_map]
    rfl
  -- Tables are merged by qualified name and names by their printed form, so equal pairs are left
  -- out once before they are printed.
  calc unquoteNames (tables.map Table.name)
      = distinct (((tables.map Table.name).map QualifiedName.ofLiteral).map
          QualifiedName.display) := by
        rw [unquoteNames, List.map_map (l := tables.map Table.name)]
        rfl
    _ = distinct ((distinct ((tables.map Table.name).map QualifiedName.ofLiteral)).map
          QualifiedName.display) := (distinct_map_distinct _ _).symm
    _ = ((unquoteTables tables).map fun table => table.name.display).eraseDups := by
        rw [← hprinted, distinct_eq_erase_dups]

/-- The rows print the different qualified names of the recorded identifiers, in order of first
occurrence. -/
theorem names_of_unquoted_rows (query : Text) :
    (unquotedRows query).map Row.name =
      (distinct ((recordedIdentifiers query).map Identifier.qualifiedName)).map
        QualifiedName.display := by
  have hmerged := names_of_unquoted_tables (extract query)
  rw [(extract_tallies query).names, distinct_map_distinct, qualified_names_of_recorded] at hmerged
  rw [← hmerged, List.map_map]
  exact List.map_map

/-- The rows with a text occur as often, all together, as it is recorded with any quote marks. -/
theorem sum_of_unquoted_rows (query text : Text) :
    (((unquotedRows query).filter fun row => row.name = text).map Row.occurrences).sum =
      ((recordedIdentifiers query).map Identifier.unquoted).count text := by
  have hmerged := sum_gather UnquotedTable.occurrences UnquotedTable.join_name
    UnquotedTable.join_occurrences (fun name => name.display = text)
    ((extract query).map UnquotedTable.ofTable)
  rw [List.filter_map, List.map_map] at hmerged
  have htables := sum_of_tables (fun literal => (QualifiedName.ofLiteral literal).display = text)
    query
  have hrecorded : (recordedIdentifiers query).countP
      (fun identifier => (QualifiedName.ofLiteral identifier.literal).display = text) =
        ((recordedIdentifiers query).map Identifier.unquoted).count text := by
    rw [List.count_eq_countP, List.countP_map]
    refine List.countP_congr fun identifier hidentifier => ?_
    rw [qualified_name_of_literal (recorded_well_formed hidentifier)]
    simp [Identifier.unquoted]
  rw [← hrecorded, ← htables, unquotedRows, reportRows, if_pos rfl, List.filter_map, List.map_map]
  exact hmerged

/-- The rows have different names exactly when no two of the recorded identifiers clash. -/
theorem nodup_names_iff (query : Text) :
    ((unquotedRows query).map Row.name).Nodup ↔ ClashFree (recordedIdentifiers query) := by
  rw [names_of_unquoted_rows, List.nodup_map_iff_inj_on (nodup_distinct _)]
  constructor
  · intro h first hfirst second hsecond hclash
    obtain ⟨hsame, hdiffer⟩ := differ_of_clash hclash
    exact hdiffer (h _ (mem_distinct.2 (List.mem_map_of_mem hfirst)) _
      (mem_distinct.2 (List.mem_map_of_mem hsecond)) hsame)
  · intro h name hname other hother hsame
    rw [mem_distinct] at hname hother
    obtain ⟨first, hfirst, rfl⟩ := List.mem_map.1 hname
    obtain ⟨second, hsecond, rfl⟩ := List.mem_map.1 hother
    rcases same_or_clash (recorded_well_formed hfirst) (recorded_well_formed hsecond) hsame with
      heq | hclash | hclash
    · exact heq
    · exact absurd hclash (h first hfirst second hsecond)
    · exact absurd hclash (h second hsecond first hfirst)

/-- Rows with different names merge the recorded identifiers. -/
theorem merges_of_nodup {query : Text} (h : ((unquotedRows query).map Row.name).Nodup) :
    Merges (unquotedRows query) (recordedIdentifiers query) where
  names := by
    rw [← distinct_eq_self h, names_of_unquoted_rows, distinct_map_distinct, List.map_map]
    rfl
  occurrences row hrow := by
    rw [← sum_of_unquoted_rows, filter_key_of_nodup h hrow]
    simp

/-- A report without quote marks shows rows that merge the identifiers recorded for the query by
their texts, and has no name twice, exactly when no two of them clash. Also where they do, the rows
with a text show all its occurrences together. -/
theorem unquoted_rows_merged_iff (format : Format) (counts : Bool) (query : Text) :
    report ⟨format, counts, true⟩ (extract query) =
        renderRows format counts (unquotedRows query) ∧
      (((unquotedRows query).map Row.name).Nodup ↔ ClashFree (recordedIdentifiers query)) ∧
      (Merges (unquotedRows query) (recordedIdentifiers query) ↔
        ClashFree (recordedIdentifiers query)) ∧
      ∀ text, (((unquotedRows query).filter fun row => row.name = text).map Row.occurrences).sum =
        ((recordedIdentifiers query).map Identifier.unquoted).count text := by
  refine ⟨rfl, nodup_names_iff query, ?_, sum_of_unquoted_rows query⟩
  constructor
  · intro h
    rw [← nodup_names_iff, h.names]
    exact nodup_distinct _
  · intro h
    exact merges_of_nodup ((nodup_names_iff query).2 h)

/-- A clause with a dot inside a quoted table, and one with the same dot behind a schema. -/
def clashingClauses : List (Text × Identifier) :=
  [("FROM".toList, .quoted "a.b".toList), ("JOIN".toList, .qualified ['a'] ['b'])]

/-- A query with these clauses has a report without quote marks that shows one name twice. -/
theorem clashing_names_shown_twice :
    report ⟨.plain, false, true⟩ (extract "FROM `a.b` JOIN a.b".toList) = "a.b\na.b".toList ∧
      unquotedRows "FROM `a.b` JOIN a.b".toList = [⟨"a.b".toList, 1⟩, ⟨"a.b".toList, 1⟩] ∧
      ¬ ((unquotedRows "FROM `a.b` JOIN a.b".toList).map Row.name).Nodup := by
  have hquoted : Identifier.Writable (.quoted "a.b".toList) :=
    Identifier.writable_quoted ⟨by decide, by decide⟩ (squeeze_is_squeezed "a.b".toList) (by decide)
  have hqualified : Identifier.Writable (.qualified ['a'] ['b']) :=
    Identifier.writable_qualified (by decide) (by decide)
  have hclauses : ∀ clause ∈ clashingClauses, IsClause clause := by
    refine List.forall_mem_cons.2 ⟨⟨⟨.fromClause, ?_⟩, hquoted⟩,
      List.forall_mem_singleton.2 ⟨⟨.joinClause, ?_⟩, hqualified⟩⟩ <;> decide
  have htext : clauseText clashingClauses = "FROM `a.b` JOIN a.b".toList := by
    decide
  have htables : extract "FROM `a.b` JOIN a.b".toList =
      [⟨"`a.b`".toList, .quoted, 1⟩, ⟨"a.b".toList, .qualified, 1⟩] := by
    rw [← htext, extract, recorded_identifiers_clause_text hclauses]
    decide
  unfold unquotedRows
  rw [htables]
  decide

end QueryTables
