import QueryTables.Proofs.Groups
import QueryTables.Proofs.Sightings

/-!
# The tables of a query as a tally

`Tallies` says what a list of tables is to a row of identifiers: their literals, each once in order
of first occurrence, with shape and number. A row of identifiers has one tally (`Tallies.unique`),
and the tables of a query are that of the identifiers recorded for it (`extract_tallies`).
-/

namespace QueryTables

open Text

/-- Joined entries for a table keep its name. -/
theorem Table.join_name (first second : Table) : (first.join second).name = first.name := rfl

/-- Joined entries for a table keep the shape of the first. -/
theorem Table.join_shape (first second : Table) : (first.join second).shape = first.shape := rfl

/-- Joined entries for a table occur as often as both. -/
theorem Table.join_occurrences (first second : Table) :
    (first.join second).occurrences = first.occurrences + second.occurrences := rfl

/-- Entries for a table can be joined in any grouping. -/
theorem Table.join_assoc (first second third : Table) :
    (first.join second).join third = first.join (second.join third) := by
  simp [Table.join, Nat.add_assoc]

/-- The tables are the different literals of the identifiers in order of first occurrence, each with
the number of times that it occurs and with the shape that it has wherever it occurs. -/
structure Tallies (tables : List Table) (identifiers : List Identifier) : Prop where
  names : tables.map Table.name = distinct (identifiers.map Identifier.literal)
  occurrences : ∀ table ∈ tables,
    table.occurrences = (identifiers.map Identifier.literal).count table.name
  shapes : ∀ table ∈ tables, ∀ identifier ∈ identifiers, identifier.literal = table.name →
    identifier.shape = table.shape

/-- A table of a tally is named by one of the identifiers. -/
theorem Tallies.exists_identifier {tables : List Table} {identifiers : List Identifier}
    (h : Tallies tables identifiers) {table : Table} (htable : table ∈ tables) :
    ∃ identifier ∈ identifiers, identifier.literal = table.name := by
  have hmem := List.mem_map_of_mem (f := Table.name) htable
  rw [h.names, mem_distinct] at hmem
  exact List.mem_map.1 hmem

/-- A row of identifiers has one tally. -/
theorem Tallies.unique {first second : List Table} {identifiers : List Identifier}
    (hfirst : Tallies first identifiers) (hsecond : Tallies second identifiers) :
    first = second := by
  refine eq_of_keys (hfirst.names.trans hsecond.names.symm) ?_
  intro table htable other hother hname
  -- Some identifier has the name, and its shape is the shape of both tables.
  obtain ⟨identifier, hmem, hliteral⟩ := hfirst.exists_identifier htable
  have hshape : table.shape = other.shape :=
    (hfirst.shapes table htable identifier hmem hliteral).symm.trans
      (hsecond.shapes other hother identifier hmem (hliteral.trans hname))
  have hoccurrences : table.occurrences = other.occurrences := by
    rw [hfirst.occurrences table htable, hsecond.occurrences other hother, hname]
  cases table
  cases other
  simp_all

/-- The entries for certain names are as many as the identifiers with these literals. -/
theorem sum_of_entries (p : Text → Bool) (identifiers : List Identifier) :
    (((identifiers.map Table.ofIdentifier).filter fun row => p row.name).map
        Table.occurrences).sum = identifiers.countP fun identifier => p identifier.literal := by
  rw [List.filter_map, List.map_map, List.countP_eq_length_filter]
  -- Each entry for an identifier counts one occurrence.
  show ((identifiers.filter fun identifier => p identifier.literal).map fun _ => 1).sum = _
  simp

/-- The tables gathered from identifiers with allowed parts are their tally. -/
theorem tallies_of_gather {identifiers : List Identifier}
    (hformed : ∀ identifier ∈ identifiers, identifier.WellFormed) :
    Tallies (gather Table.name Table.join (identifiers.map Table.ofIdentifier)) identifiers where
  names := by
    rw [keys_gather Table.join_name, List.map_map]
    rfl
  occurrences table htable := by
    rw [measure_gather Table.occurrences Table.join_name Table.join_occurrences _ htable,
      sum_of_entries (fun name => name = table.name), List.count_eq_countP, List.countP_map]
    refine List.countP_congr fun identifier _ => ?_
    simp
  shapes table htable identifier hidentifier hliteral := by
    obtain ⟨row, hrow, hname, hshape⟩ :=
      part_gather Table.shape Table.join_name Table.join_shape _ htable
    obtain ⟨origin, horigin, rfl⟩ := List.mem_map.1 hrow
    have hsame : identifier = origin := Identifier.literal_injective (hformed _ hidentifier)
      (hformed _ horigin) (hliteral.trans hname.symm)
    rw [hsame]
    exact hshape

/-- An identifier recorded for a query is taken by one of the steps, and has a word character. -/
theorem exists_clause_of_recorded {query : Text} {identifier : Identifier}
    (h : identifier ∈ recordedIdentifiers query) :
    identifier.isNamed = true ∧ ∃ earlier keyword token gap later,
      steps (squeeze query) = earlier ++ .clause keyword token gap (some identifier) :: later := by
  rw [recorded_identifiers_eq] at h
  obtain ⟨step, hstep, hrecorded⟩ := List.mem_filterMap.1 h
  obtain ⟨earlier, later, hsteps⟩ := List.append_of_mem hstep
  cases step with
  | passed => simp [Step.recorded?] at hrecorded
  | clause keyword token gap taken =>
      obtain ⟨htaken, hnamed⟩ := Option.filter_eq_some_iff.1 hrecorded
      rw [htaken] at hsteps
      exact ⟨hnamed, earlier, keyword, token, gap, later, hsteps⟩

/-- The identifiers recorded for a query have allowed parts. -/
theorem recorded_well_formed {query : Text} {identifier : Identifier}
    (h : identifier ∈ recordedIdentifiers query) : identifier.WellFormed := by
  obtain ⟨-, earlier, keyword, token, gap, later, hsteps⟩ := exists_clause_of_recorded h
  obtain ⟨rest, -, -, -, hformed, -⟩ := clause_of_steps hsteps
  exact hformed

/-- Identifiers recorded for queries are the same when their literals are. -/
theorem recorded_eq_of_literal {query other : Text} {first second : Identifier}
    (hfirst : first ∈ recordedIdentifiers query) (hsecond : second ∈ recordedIdentifiers other)
    (hliteral : first.literal = second.literal) : first = second :=
  Identifier.literal_injective (recorded_well_formed hfirst) (recorded_well_formed hsecond) hliteral

/-- The tables of a query are the tally of the identifiers recorded for it. -/
theorem extract_tallies (query : Text) : Tallies (extract query) (recordedIdentifiers query) :=
  tallies_of_gather fun _ h => recorded_well_formed h

/-- The tables with certain names occur as often as these names are recorded. -/
theorem sum_of_tables (p : Text → Bool) (query : Text) :
    (((extract query).filter fun table => p table.name).map Table.occurrences).sum =
      (recordedIdentifiers query).countP fun identifier => p identifier.literal := by
  unfold extract
  rw [sum_gather Table.occurrences Table.join_name Table.join_occurrences, sum_of_entries]

end QueryTables
