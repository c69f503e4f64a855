import QueryTables.Proofs.Unquoting

/-!
# Counters stay within the length of the query

A recorded name takes at least six bytes of the squeezed query, four for its keyword, the space and
one for itself, and no two names share any of them (`Scans.six_recorded_le`). So no counter passes
the length of the query. To say this of every addition, `scanWithin?` is the scan with counters that
hold no number above a limit, where an addition that passes the limit gives up, and
`unquoteWithin?` is the merging of names with such counters. Where the limit is not below the length
of the query, neither gives up, and they find what the scan and the merging find without a limit
(`counters_bounded_by_text`).
-/

namespace QueryTables

open Text

/-- The sum of two counters that hold no number above a limit. -/
def addWithin? (limit first second : Nat) : Option Nat :=
  if first + second ≤ limit then some (first + second) else none

/-- A table that occurs as often as two entries for it say together, with counters up to a
limit. -/
def Table.joinWithin? (limit : Nat) (first second : Table) : Option Table :=
  (addWithin? limit first.occurrences second.occurrences).map fun sum =>
    { first with occurrences := sum }

/-- A name that occurs as often as two entries for it say together, with counters up to a limit. -/
def UnquotedTable.joinWithin? (limit : Nat) (first second : UnquotedTable) :
    Option UnquotedTable :=
  (addWithin? limit first.occurrences second.occurrences).map fun sum =>
    { first with occurrences := sum }

section Rows

variable {Row Key : Type} [DecidableEq Key] (key : Row → Key) (join? : Row → Row → Option Row)

/-- Joins a row into the first group with its key, if it can be joined, or puts it behind the others
as a new group. -/
def addRowWithin? : List Row → Row → Option (List Row)
  | [], row => some [row]
  | group :: groups, row =>
      if key group = key row then (join? group row).map (· :: groups)
      else (addRowWithin? groups row).map (group :: ·)

/-- The groups that are there, extended by further rows as long as these can be joined. -/
def gatherOntoWithin? (groups rows : List Row) : Option (List Row) :=
  rows.foldlM (addRowWithin? key join?) groups

end Rows

/-- The tables by their qualified names, with counters up to a limit. -/
def unquoteWithin? (limit : Nat) (tables : List Table) : Option (List UnquotedTable) :=
  gatherOntoWithin? UnquotedTable.name (UnquotedTable.joinWithin? limit) []
    (tables.map UnquotedTable.ofTable)

/-- What is added to the cursor in a step, in order: the bytes of the token with the gap behind it,
and those of the identifier, if one is taken. -/
def Step.moves : Step → List Nat
  | passed token gap => [byteLength (token ++ gap)]
  | clause _ token gap identifier =>
      byteLength (token ++ gap) ::
        (identifier.map fun identifier => byteLength identifier.literal).toList

/-- How far a scan has come: the place of its cursor, and the tables so far. -/
structure Progress where
  cursor : Nat
  tables : List Table
deriving DecidableEq, Repr

/-- The progress after one more step, with counters up to a limit. -/
def Progress.after? (limit : Nat) (progress : Progress) (step : Step) : Option Progress := do
  let cursor ← step.moves.foldlM (addWithin? limit) progress.cursor
  let tables ← gatherOntoWithin? Table.name (Table.joinWithin? limit) progress.tables
    (step.recorded?.toList.map Table.ofIdentifier)
  some ⟨cursor, tables⟩

/-- The scan of a query, with counters up to a limit. -/
def scanWithin? (limit : Nat) (query : Text) : Option Progress :=
  (steps (squeeze query)).foldlM (Progress.after? limit) ⟨0, []⟩

section Sums

variable {limit : Nat}

/-- A sum within the limit is found. -/
theorem add_within_eq {first second : Nat} (h : first + second ≤ limit) :
    addWithin? limit first second = some (first + second) :=
  if_pos h

/-- Numbers whose sum is within the limit are added up one after the other. -/
theorem add_all_within_eq {start : Nat} {numbers : List Nat} (h : start + numbers.sum ≤ limit) :
    numbers.foldlM (addWithin? limit) start = some (start + numbers.sum) := by
  induction numbers generalizing start with
  | nil => rfl
  | cons number numbers ih =>
      rw [List.sum_cons] at h ⊢
      have hfirst : addWithin? limit start number = some (start + number) :=
        add_within_eq (by omega)
      rw [List.foldlM_cons, hfirst, Option.bind_eq_bind, Option.bind_some, ih (by omega),
        Nat.add_assoc]

/-- Tables are joined where their occurrences are within the limit together. -/
theorem Table.join_within_eq {first second : Table}
    (h : first.occurrences + second.occurrences ≤ limit) :
    first.joinWithin? limit second = some (first.join second) := by
  rw [Table.joinWithin?, add_within_eq h]
  rfl

/-- Names are joined where their occurrences are within the limit together. -/
theorem UnquotedTable.join_within_eq {first second : UnquotedTable}
    (h : first.occurrences + second.occurrences ≤ limit) :
    first.joinWithin? limit second = some (first.join second) := by
  rw [UnquotedTable.joinWithin?, add_within_eq h]
  rfl

variable {Row Key : Type} [DecidableEq Key] {key : Row → Key} {join : Row → Row → Row}
  {join? : Row → Row → Option Row} {measure : Row → Nat}

/-- A row is added to groups where it measures no more than the limit together with them. -/
theorem add_row_within_eq
    (hwithin : ∀ group row, measure group + measure row ≤ limit →
      join? group row = some (join group row))
    {groups : List Row} {row : Row} (h : (groups.map measure).sum + measure row ≤ limit) :
    addRowWithin? key join? groups row = some (addRow key join groups row) := by
  induction groups with
  | nil => rfl
  | cons group groups ih =>
      rw [List.map_cons, List.sum_cons] at h
      rw [addRowWithin?, addRow]
      split
      · rw [hwithin group row (by omega)]
        rfl
      · rw [ih (by omega)]
        rfl

/-- Rows are gathered where they measure no more than the limit together with the groups that are
there. -/
theorem gather_onto_within_eq (hjoin : ∀ group row, key (join group row) = key group)
    (hmeasure : ∀ group row, measure (join group row) = measure group + measure row)
    (hwithin : ∀ group row, measure group + measure row ≤ limit →
      join? group row = some (join group row))
    {groups rows : List Row} (h : (groups.map measure).sum + (rows.map measure).sum ≤ limit) :
    gatherOntoWithin? key join? groups rows = some (gatherOnto key join groups rows) := by
  induction rows generalizing groups with
  | nil => rfl
  | cons row rows ih =>
      rw [List.map_cons, List.sum_cons] at h
      have hfirst : addRowWithin? key join? groups row = some (addRow key join groups row) :=
        add_row_within_eq hwithin (by omega)
      have htotal := total_add_row measure hjoin hmeasure groups row
      rw [gatherOntoWithin?, List.foldlM_cons, hfirst]
      exact ih (by omega)

end Sums

/-- The names of tables are merged with counters up to a limit where the tables do not occur more
often, all together. -/
theorem unquote_within_eq {limit : Nat} {tables : List Table}
    (h : (tables.map Table.occurrences).sum ≤ limit) :
    unquoteWithin? limit tables = some (unquoteTables tables) := by
  refine gather_onto_within_eq UnquotedTable.join_name UnquotedTable.join_occurrences
    (fun _ _ => UnquotedTable.join_within_eq) ?_
  rw [List.map_map, List.map_nil, List.sum_nil, Nat.zero_add]
  exact h

/-- The cursor moves by the bytes that a step takes. -/
theorem Step.sum_moves (step : Step) : step.moves.sum = byteLength step.consumed := by
  cases step with
  | passed token gap => simp [moves, consumed]
  | clause keyword token gap identifier =>
      cases identifier <;> simp [moves, consumed, Nat.add_assoc]

/-- A step records one name at most. -/
theorem Step.recorded_le_one (step : Step) : step.recorded?.toList.length ≤ 1 := by
  cases step.recorded? <;> simp

/-- A step that records a name takes six bytes or more: a keyword, a space and the name. -/
theorem Takes.six_recorded_le {text rest : Text} {step : Step} (h : Takes text step rest) :
    6 * step.recorded?.toList.length ≤ byteLength step.consumed := by
  cases h with
  | passed | unread => exact Nat.zero_le _
  | @read token gap _ keyword identifier htoken hkeyword hformed hends =>
      obtain rfl := (Takes.read htoken hkeyword hformed hends).gap_eq
      have hone := (Step.clause keyword token [' '] (some identifier)).recorded_le_one
      have hfour := four_le_byteLength hkeyword
      have hspace : byteLength [' '] = 1 := rfl
      have hliteral := length_le_byteLength identifier.literal
      have hpos := List.length_pos_iff.2 (Identifier.literal_ne_nil hformed)
      simp only [Step.consumed, Option.map_some, Option.getD_some, byteLength_append]
      omega

/-- The names that are recorded in a row of steps take six bytes each, or more. -/
theorem Scans.six_recorded_le {text rest : Text} {list : List Step} (h : Scans text list rest) :
    6 * (list.filterMap Step.recorded?).length ≤ byteLength (list.flatMap Step.consumed) := by
  induction h with
  | nil => exact Nat.zero_le _
  | @cons _ _ _ step later hstep _ ih =>
      have hfirst := hstep.six_recorded_le
      rw [recorded_cons, List.length_append, List.flatMap_cons, byteLength_append]
      omega

/-- Squeezing makes no text longer. -/
theorem Text.byteLength_squeeze_after_le (afterBlank : Bool) (text : Text) :
    byteLength (squeezeAfter afterBlank text) ≤ byteLength text := by
  induction text generalizing afterBlank with
  | nil => exact Nat.le_refl _
  | cons c rest ih =>
      have hsize := c.utf8Size_pos
      have hspace : ' '.utf8Size = 1 := rfl
      have hother := ih false
      have hblank := ih true
      rw [squeezeAfter, byteLength_cons]
      split
      · split
        · omega
        · rw [byteLength_cons]
          omega
      · rw [byteLength_cons]
        omega

/-- The name that a step records counts once. -/
theorem Step.recorded_occurrences (step : Step) :
    ((step.recorded?.toList.map Table.ofIdentifier).map Table.occurrences).sum =
      step.recorded?.toList.length := by
  cases step.recorded? <;> rfl

/-- A step goes on with counters up to a limit, where the bytes that it takes behind the cursor are
within the limit, and so are the occurrences of the tables with the name that it records. -/
theorem Progress.after_eq {limit : Nat} {progress : Progress} {step : Step}
    (hcursor : progress.cursor + byteLength step.consumed ≤ limit)
    (htables : (progress.tables.map Table.occurrences).sum + step.recorded?.toList.length ≤ limit) :
    progress.after? limit step =
      some ⟨progress.cursor + byteLength step.consumed,
        gatherOnto Table.name Table.join progress.tables
          (step.recorded?.toList.map Table.ofIdentifier)⟩ := by
  rw [← step.sum_moves] at hcursor ⊢
  rw [← step.recorded_occurrences] at htables
  have hgathered : gatherOntoWithin? Table.name (Table.joinWithin? limit) progress.tables
      (step.recorded?.toList.map Table.ofIdentifier) =
        some (gatherOnto Table.name Table.join progress.tables
          (step.recorded?.toList.map Table.ofIdentifier)) :=
    gather_onto_within_eq Table.join_name Table.join_occurrences
      (fun _ _ => Table.join_within_eq) htables
  rw [Progress.after?, add_all_within_eq hcursor, Option.bind_eq_bind, Option.bind_some, hgathered]
  rfl

/-- A row of steps is scanned with counters up to a limit, where the bytes that it takes behind the
cursor are within the limit, and so are the occurrences of the tables with the names that it
records. -/
theorem scan_steps_within_eq {limit : Nat} {progress : Progress} {list : List Step}
    (hcursor : progress.cursor + byteLength (list.flatMap Step.consumed) ≤ limit)
    (htables : (progress.tables.map Table.occurrences).sum +
      (list.filterMap Step.recorded?).length ≤ limit) :
    list.foldlM (Progress.after? limit) progress =
      some ⟨progress.cursor + byteLength (list.flatMap Step.consumed),
        gatherOnto Table.name Table.join progress.tables
          ((list.filterMap Step.recorded?).map Table.ofIdentifier)⟩ := by
  induction list generalizing progress with
  | nil => rfl
  | cons step list ih =>
      rw [List.flatMap_cons, byteLength_append] at hcursor
      rw [recorded_cons, List.length_append] at htables
      rw [List.foldlM_cons, Progress.after_eq (by omega) (by omega), Option.bind_eq_bind,
        Option.bind_some, ih]
      · rw [List.flatMap_cons, byteLength_append, Nat.add_assoc, recorded_cons, List.map_append,
          gather_onto_append]
      · show progress.cursor + byteLength step.consumed + _ ≤ limit
        omega
      · show ((gatherOnto Table.name Table.join progress.tables _).map Table.occurrences).sum + _ ≤
          limit
        rw [total_gather_onto Table.occurrences Table.join_name Table.join_occurrences,
          step.recorded_occurrences]
        omega

/-- The tables of a query occur as often, all together, as names are recorded. -/
theorem total_of_tables (query : Text) :
    ((extract query).map Table.occurrences).sum = (recordedIdentifiers query).length := by
  simpa using sum_of_tables (fun _ => true) query

/-- Merged names occur as often, all together, as the tables do. -/
theorem total_of_unquoted (tables : List Table) :
    ((unquoteTables tables).map UnquotedTable.occurrences).sum =
      (tables.map Table.occurrences).sum := by
  rw [unquoteTables, total_gather UnquotedTable.occurrences UnquotedTable.join_name
    UnquotedTable.join_occurrences, List.map_map]
  rfl

/-- The tables of a query occur at most once for every six bytes of it when it is squeezed, all
together, and so do their names without quote marks; squeezing does not make the query longer. So
with counters up to any limit that is not below the length of the query, no addition of the scan or
of the merging passes the limit: both end with what they find without a limit, and the cursor at the
end of the squeezed query. -/
theorem counters_bounded_by_text (query : Text) :
    6 * ((extract query).map Table.occurrences).sum ≤ byteLength (squeeze query) ∧
    6 * ((unquoteTables (extract query)).map UnquotedTable.occurrences).sum ≤
      byteLength (squeeze query) ∧
    byteLength (squeeze query) ≤ byteLength query ∧
    ∀ limit, byteLength query ≤ limit →
      scanWithin? limit query = some ⟨byteLength (squeeze query), extract query⟩ ∧
      unquoteWithin? limit (extract query) = some (unquoteTables (extract query)) := by
  have hsix := (Scans.of_steps (squeeze query)).six_recorded_le
  have htables := total_of_tables query
  rw [flatMap_consumed_steps, ← recorded_identifiers_eq] at hsix
  have hsqueeze : byteLength (squeeze query) ≤ byteLength query :=
    byteLength_squeeze_after_le false query
  refine ⟨by omega, by rw [total_of_unquoted]; omega, hsqueeze, fun limit hlimit => ⟨?_, ?_⟩⟩
  · rw [scanWithin?, scan_steps_within_eq, flatMap_consumed_steps, ← recorded_identifiers_eq,
      Nat.zero_add]
    · rfl
    · rw [flatMap_consumed_steps]
      show 0 + _ ≤ limit
      omega
    · rw [← recorded_identifiers_eq]
      show 0 + _ ≤ limit
      omega
  · exact unquote_within_eq (by omega)

/-- Two names that take all of a query but a space, with counters that hold no number above its
length. -/
theorem shortest_clauses_counted :
    byteLength "from a join `b`".toList ≤ 15 ∧
      scanWithin? 15 "from a join `b`".toList =
        some ⟨15, [⟨['a'], .bare, 1⟩, ⟨"`b`".toList, .quoted, 1⟩]⟩ ∧
      unquoteWithin? 15 (extract "from a join `b`".toList) =
        some (unquoteTables (extract "from a join `b`".toList)) := by
  have hlength : byteLength "from a join `b`".toList ≤ 15 := by decide
  obtain ⟨-, -, -, hwithin⟩ := counters_bounded_by_text "from a join `b`".toList
  obtain ⟨hscan, hmerge⟩ := hwithin 15 hlength
  refine ⟨hlength, ?_, hmerge⟩
  rw [hscan]
  decide +kernel

end QueryTables
