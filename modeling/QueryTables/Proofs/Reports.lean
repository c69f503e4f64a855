import QueryTables.Proofs.Json
import QueryTables.Proofs.Unquoting

/-!
# Reports read back

A report tells the names of tables and how often they occur (`shownEntries`), and its rows are just
these (`rows_of_entries`). A plain report escapes nothing: its lines can be told apart because of
what a scan records, which is no empty name and no blank but single spaces, with or without quote
marks (`legible_of_query`). Rows with such names are read back from their lines, so the report on
the tables of a query is: `plain_report_read_back`. A JSON report escapes what it has to, so that
the names and numbers of any tables are read back from it: `json_report_read_back`. Neither ends in
a line end (`last_of_report`).
-/

namespace QueryTables

open Text

/-- The lines of a text, without their ends. An empty text has none. -/
def Text.lines (text : Text) : List Text :=
  if text = [] then [] else text.splitOn '\n'

/-- What a report on tables has to show: their names as they are written with the numbers of their
occurrences, or, without quote marks, those of the tables that are left then. -/
def shownEntries (tables : List Table) : Bool → List (Text × Nat)
  | false => tables.map fun table => (table.name, table.occurrences)
  | true => (unquoteTables tables).map fun table => (table.name.display, table.occurrences)

/-- The entry that a line with two cells stands for, a name and a number. -/
def entryOfLine? (line : Text) : Option (Text × Nat) :=
  match line.splitOn '\t' with
  | [name, number] => some (name, Decimal.value number)
  | _ => none

/-- Two texts list entries in lines, one for each and in order: the first one the names, and the
second one the name, the only tab in the line, and the digits of the number, so that the entry can
be read back. -/
structure ListedInLines (entries : List (Text × Nat)) (names counted : Text) : Prop where
  names : lines names = entries.map Prod.fst
  cells : (lines counted).map (List.splitOn '\t') =
    entries.map fun entry => [entry.1, Nat.toDigits 10 entry.2]
  readBack : (lines counted).map entryOfLine? = entries.map some

/-- Two texts list entries in JSON without control characters: they are read as arrays with one item
for each entry, in order, the first one with the names, and the second one with objects of the name
and the number. -/
structure ListedInJson (entries : List (Text × Nat)) (names counted : Text) : Prop where
  oneLine : Json.NoControl names ∧ Json.NoControl counted
  names : Json.read? names = some (.array (entries.map fun entry => .text entry.1))
  counted : Json.read? counted = some (.array (entries.map fun entry =>
    .object [("name".toList, .text entry.1), ("occurrences".toList, .number entry.2)]))

/-- The name of the row can stand in a line: it is not empty, and no line end or tab is in it. -/
structure Row.IsLegible (row : Row) : Prop where
  nonempty : row.name ≠ []
  noLineEnd : '\n' ∉ row.name
  noTab : '\t' ∉ row.name

/-- Texts that are joined by a separator are what the library makes of them. -/
theorem joined_by_eq_intercalate (separator : Text) (texts : List Text) :
    joinedBy separator texts = separator.intercalate texts := by
  fun_induction joinedBy separator texts with
  | case1 => rfl
  | case2 => simp
  | case3 first second rest ih => simp [ih, List.intercalate_cons_cons]

/-- There is no mark in a numeral. -/
theorem not_mem_numeral {n : Nat} {c : Char} (h : c.isDigit = false) : c ∉ Decimal.numeral n := by
  intro hc
  rw [Decimal.isDigit_of_mem_numeral hc] at h
  exact Bool.false_ne_true h.symm

namespace Row

/-- The line of a row starts with its name, so it is not empty. -/
theorem IsLegible.line_ne_nil {row : Row} (h : row.IsLegible) (counts : Bool) :
    row.line counts ≠ [] := by
  cases counts <;> simp [line, h.nonempty]

/-- There is no line end in the line of a row. -/
theorem IsLegible.line_end_not_in_line {row : Row} (h : row.IsLegible) (counts : Bool) :
    '\n' ∉ row.line counts := by
  have hnumber : '\n' ∉ Decimal.numeral row.occurrences := not_mem_numeral (by decide)
  cases counts <;> simp [line, h.noLineEnd, hnumber]

/-- A line with a number has one tab, between the name and the digits of the number. -/
theorem IsLegible.cells_of_line {row : Row} (h : row.IsLegible) :
    (row.line true).splitOn '\t' = [row.name, Nat.toDigits 10 row.occurrences] := by
  have hnumber : '\t' ∉ Decimal.numeral row.occurrences := not_mem_numeral (by decide)
  have hcells : row.line true = ['\t'].intercalate [row.name, Decimal.numeral row.occurrences] := by
    simp [line, List.intercalate_cons_cons]
  rw [hcells, ← Decimal.numeral_eq_toDigits]
  refine List.splitOn_intercalate '\t' ?_ (by simp)
  intro cell hcell
  rcases List.mem_pair.1 hcell with rfl | rfl
  · exact h.noTab
  · exact hnumber

/-- A row is read back from its line with a number. -/
theorem IsLegible.of_line {row : Row} (h : row.IsLegible) :
    entryOfLine? (row.line true) = some (row.name, row.occurrences) := by
  rw [entryOfLine?, h.cells_of_line, ← Decimal.numeral_eq_toDigits]
  simp [Decimal.value_numeral]

/-- The row for an entry. -/
def ofEntry (entry : Text × Nat) : Row :=
  ⟨entry.1, entry.2⟩

end Row

/-- The rows of a report are the entries that it has to show. -/
theorem rows_of_entries (unquote : Bool) (tables : List Table) :
    reportRows unquote tables = (shownEntries tables unquote).map Row.ofEntry := by
  cases unquote with
  | false =>
      rw [shownEntries, List.map_map]
      rfl
  | true =>
      rw [shownEntries, List.map_map]
      rfl

/-- A plain report on rows with legible names is empty only without rows. -/
theorem plain_eq_nil_iff {rows : List Row} (h : ∀ row ∈ rows, row.IsLegible) (counts : Bool) :
    renderRows .plain counts rows = [] ↔ rows = [] := by
  rw [renderRows, joined_by_eq_intercalate]
  cases rows with
  | nil => simp
  | cons row rows =>
      have hline := (h row (by simp)).line_ne_nil counts
      cases rows <;> simp [List.intercalate_cons_cons, hline]

/-- The lines of a plain report on rows with legible names are those of the rows, in order. -/
theorem lines_of_rendered {rows : List Row} (h : ∀ row ∈ rows, row.IsLegible) (counts : Bool) :
    lines (renderRows .plain counts rows) = rows.map (Row.line counts) := by
  unfold lines
  split
  · rename_i hempty
    rw [(plain_eq_nil_iff h counts).1 hempty]
    rfl
  · rename_i hsome
    have hrows : rows ≠ [] := fun hnil => hsome ((plain_eq_nil_iff h counts).2 hnil)
    rw [renderRows, joined_by_eq_intercalate]
    refine List.splitOn_intercalate '\n' ?_ (by simpa using hrows)
    intro line hline
    obtain ⟨row, hrow, rfl⟩ := List.mem_map.1 hline
    exact (h row hrow).line_end_not_in_line counts

/-- The text of an identifier without quote marks is not empty. -/
theorem Identifier.unquoted_ne_nil {identifier : Identifier} (h : identifier.WellFormed) :
    identifier.unquoted ≠ [] := by
  cases hschema : identifier.schema? with
  | some schema => simp [Identifier.unquoted_of_schema hschema]
  | none =>
      rw [Identifier.unquoted_of_none hschema]
      cases identifier with
      | quoted table | bare table => exact h.1
      | _ => simp [Identifier.schema?] at hschema

/-- A report has no rows exactly when there are no tables. -/
theorem rows_eq_nil_iff (unquote : Bool) (tables : List Table) :
    reportRows unquote tables = [] ↔ tables = [] := by
  cases unquote <;> simp [reportRows, unquoteTables, gather_eq_nil_iff]

/-- A name made of characters of a recorded identifier can stand in a line. -/
theorem legible_of_recorded {query : Text} {identifier : Identifier}
    (h : identifier ∈ recordedIdentifiers query) {row : Row} (hne : row.name ≠ [])
    (hname : ∀ c ∈ row.name, c ∈ identifier.literal) : row.IsLegible := by
  have hblanks := (trimmed_literal (recorded_writable h)).squeezed.blanks
  refine ⟨hne, fun hmem => ?_, fun hmem => ?_⟩
  · exact absurd (hblanks _ (hname _ hmem) (by decide)) (by decide)
  · exact absurd (hblanks _ (hname _ hmem) (by decide)) (by decide)

/-- Rows of a report on the tables of a query can stand in lines, with or without quote marks. -/
theorem legible_of_query (query : Text) (unquote : Bool) :
    ∀ row ∈ reportRows unquote (extract query), row.IsLegible := by
  intro row hrow
  cases unquote with
  | false =>
      obtain ⟨table, htable, rfl⟩ := List.mem_map.1 hrow
      obtain ⟨identifier, hmem, hname⟩ := (extract_tallies query).exists_identifier htable
      refine legible_of_recorded hmem ?_ fun c hc => hname ▸ hc
      exact hname ▸ Identifier.literal_ne_nil (recorded_well_formed hmem)
  | true =>
      have hname := List.mem_map_of_mem (f := Row.name) hrow
      rw [show reportRows true (extract query) = unquotedRows query from rfl,
        names_of_unquoted_rows] at hname
      obtain ⟨name, hdistinct, hprinted⟩ := List.mem_map.1 hname
      obtain ⟨identifier, hmem, rfl⟩ := List.mem_map.1 (mem_distinct.1 hdistinct)
      have hunquoted : row.name = identifier.unquoted := hprinted.symm
      refine legible_of_recorded hmem ?_ fun c hc => ?_
      · exact hunquoted ▸ Identifier.unquoted_ne_nil (recorded_well_formed hmem)
      · rw [hunquoted, Identifier.unquoted_eq_without_marks (recorded_well_formed hmem)] at hc
        exact (List.mem_filter.1 hc).1

/-- The plain report on the tables of a query, with their names as they are written or without quote
marks, is empty exactly when there are none. Otherwise it lists in lines, in order, one for each,
the names of the tables and how often they occur. -/
theorem plain_report_read_back (query : Text) (unquote : Bool) :
    (∀ counts, report ⟨.plain, counts, unquote⟩ (extract query) = [] ↔ extract query = []) ∧
      ListedInLines (shownEntries (extract query) unquote)
        (report ⟨.plain, false, unquote⟩ (extract query))
        (report ⟨.plain, true, unquote⟩ (extract query)) := by
  have hlegible := legible_of_query query unquote
  refine ⟨fun counts => ?_, ?_, ?_, ?_⟩
  · exact (plain_eq_nil_iff hlegible counts).trans (rows_eq_nil_iff _ _)
  · rw [report, lines_of_rendered hlegible, rows_of_entries, List.map_map]
    rfl
  · rw [report, lines_of_rendered hlegible, List.map_map]
    refine (List.map_congr_left fun row hrow => (hlegible row hrow).cells_of_line).trans ?_
    rw [rows_of_entries, List.map_map]
    rfl
  · rw [report, lines_of_rendered hlegible, List.map_map]
    refine (List.map_congr_left fun row hrow => (hlegible row hrow).of_line).trans ?_
    rw [rows_of_entries, List.map_map]
    rfl

/-- A JSON report is read as an array with the items of its entries. -/
theorem read_of_json_report (tables : List Table) (counts unquote : Bool) :
    Json.read? (report ⟨.json, counts, unquote⟩ tables) =
      some (.array ((shownEntries tables unquote).map fun entry =>
        (Row.ofEntry entry).item counts)) := by
  rw [report, rows_of_entries, renderRows, List.map_map]
  exact Json.read_render _

/-- JSON reports are the same exactly when the items of their entries are. -/
theorem json_report_eq_iff {tables others : List Table} {counts unquote other : Bool} :
    report ⟨.json, counts, unquote⟩ tables = report ⟨.json, counts, other⟩ others ↔
      ((shownEntries tables unquote).map fun entry => (Row.ofEntry entry).item counts) =
        (shownEntries others other).map fun entry => (Row.ofEntry entry).item counts := by
  simp only [report, rows_of_entries, renderRows, List.map_map]
  constructor
  · intro h
    exact Json.array.inj (Json.render_injective h)
  · intro h
    exact congrArg (fun items => Json.render (.array items)) h

/-- Entries with the same item of a JSON report that shows numbers are the same. -/
theorem Row.entry_of_item {entry other : Text × Nat}
    (h : (ofEntry entry).item true = (ofEntry other).item true) : entry = other := by
  obtain ⟨name, occurrences⟩ := entry
  obtain ⟨otherName, otherOccurrences⟩ := other
  simpa [item, ofEntry] using h

/-- The JSON report on any tables, whatever characters are in their names, lists the names of the
tables, as they are written or without quote marks, and how often they occur. So two reports are the
same exactly when the names are and, where they are shown, the numbers. -/
theorem json_report_read_back :
    (∀ (tables : List Table) (unquote : Bool),
      ListedInJson (shownEntries tables unquote) (report ⟨.json, false, unquote⟩ tables)
        (report ⟨.json, true, unquote⟩ tables)) ∧
    ∀ (tables others : List Table) (unquote other : Bool),
      (report ⟨.json, false, unquote⟩ tables = report ⟨.json, false, other⟩ others ↔
        (shownEntries tables unquote).map Prod.fst = (shownEntries others other).map Prod.fst) ∧
      (report ⟨.json, true, unquote⟩ tables = report ⟨.json, true, other⟩ others ↔
        shownEntries tables unquote = shownEntries others other) := by
  refine ⟨fun tables unquote => ⟨⟨Json.no_control_render _, Json.no_control_render _⟩,
    read_of_json_report tables false unquote, read_of_json_report tables true unquote⟩,
    fun tables others unquote other => ⟨?_, ?_⟩⟩
  · have htext : Function.Injective (List.map Json.text) :=
      List.map_injective_iff.2 fun _ _ => Json.text.inj
    rw [json_report_eq_iff, ← htext.eq_iff, List.map_map, List.map_map]
    rfl
  · have hitem : Function.Injective (List.map fun entry => (Row.ofEntry entry).item true) :=
      List.map_injective_iff.2 fun _ _ => Row.entry_of_item
    rw [json_report_eq_iff, hitem.eq_iff]

/-- Joined texts that are not empty end as the last of them does. -/
theorem last_of_joined {separator : Text} {c : Char} {texts : List Text}
    (hne : ∀ text ∈ texts, text ≠ []) (hc : ∀ text ∈ texts, c ∉ text) :
    (joinedBy separator texts).getLast? ≠ some c := by
  fun_induction joinedBy separator texts with
  | case1 => exact nofun
  | case2 last => exact fun hlast => hc last (by simp) (List.mem_of_getLast? hlast)
  | case3 first second rest ih =>
      have hsecond : second ≠ [] := hne second (by simp)
      have hothers : joinedBy separator (second :: rest) ≠ [] := by
        cases rest <;> simp [joinedBy, hsecond]
      rw [List.getLast?_append_of_ne_nil _ hothers]
      exact ih (fun text hmem => hne text (List.mem_cons_of_mem _ hmem))
        fun text hmem => hc text (List.mem_cons_of_mem _ hmem)

/-- A report on the tables of a query does not end in a line end. -/
theorem last_of_report (options : Options) (query : Text) :
    (report options (extract query)).getLast? ≠ some '\n' := by
  obtain ⟨format, counts, unquote⟩ := options
  cases format with
  | plain =>
      have hlegible := legible_of_query query unquote
      refine last_of_joined (fun line hline => ?_) fun line hline => ?_
      · obtain ⟨row, hrow, rfl⟩ := List.mem_map.1 hline
        exact (hlegible row hrow).line_ne_nil counts
      · obtain ⟨row, hrow, rfl⟩ := List.mem_map.1 hline
        exact (hlegible row hrow).line_end_not_in_line counts
  | json =>
      intro hlast
      have hcontrol := Json.no_control_render _ '\n' (List.mem_of_getLast? hlast)
      exact absurd hcontrol (by decide)

/-- A report on the tables of a query is empty only when it is a plain one and there are none. -/
theorem report_eq_nil_iff (options : Options) (query : Text) :
    report options (extract query) = [] ↔ options.format = .plain ∧ extract query = [] := by
  obtain ⟨format, counts, unquote⟩ := options
  cases format with
  | plain =>
      have hlegible := legible_of_query query unquote
      simpa [report] using (plain_eq_nil_iff hlegible counts).trans (rows_eq_nil_iff unquote _)
  | json => simp [report, renderRows, Json.render]

end QueryTables
