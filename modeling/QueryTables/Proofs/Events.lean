import QueryTables.Proofs.Merging
import QueryTables.Proofs.Tables

/-!
# What the events of a scan tell

A scan goes over its sightings in one pass. At each it reports the keyword, and then either the
table, with the number that its entry has come to by then, or that there is none (`Pass.after`). The
events and the tables of a query are what this pass leaves (`observe_eq`), and what the tables say
can be read off the events at every point of it (`Pass.Consistent`). So the events of a query `Tell`
its tables.
-/

namespace QueryTables

open Text

/-- The keyword and the offset that an event reports as having no name behind them. -/
def Event.missed? : Event → Option (Keyword × Nat)
  | .unrecognized met offset => some (met, offset)
  | .keyword _ _ | .table _ _ _ => none

/-- How often events tell of a table with a name. -/
def tellings (log : List Event) (name : Text) : Nat :=
  ((log.filterMap Event.table?).map Table.name).count name

/-- Each keyword is followed by a table or by the report that there is none behind it, and nothing
else is reported. -/
inductive Paired : List Event → Prop where
  | nil : Paired []
  | recorded (keyword : Keyword) (offset : Nat) (name : Text) (shape : Shape) (occurrences : Nat)
      {later : List Event} (hlater : Paired later) :
      Paired (.keyword keyword offset :: .table name shape occurrences :: later)
  | missed (keyword : Keyword) (offset : Nat) {later : List Event} (hlater : Paired later) :
      Paired (.keyword keyword offset :: .unrecognized keyword offset :: later)

/-- An event that tells of a table gives it a number one higher than there are earlier ones for its
name. -/
def Numbered (log : List Event) : Prop :=
  ∀ earlier name shape occurrences, earlier ++ [Event.table name shape occurrences] <+: log →
    occurrences = tellings earlier name + 1

/-- The events of a scan tell its tables: they come in pairs with ascending offsets, number the
occurrences of each name and give it one shape, and the tables are those that the events lead up
to, with as many occurrences as there are keywords without those that have no name behind them. -/
structure Tell (log : List Event) (tables : List Table) : Prop where
  paired : Paired log
  ascending : (log.filterMap Event.sighted?).Pairwise fun first second => first.2 < second.2
  numbered : Numbered log
  shapes : ∀ first ∈ log.filterMap Event.table?, ∀ second ∈ log.filterMap Event.table?,
    first.name = second.name → first.shape = second.shape
  replayed : tablesOfEvents log = tables
  balanced : (tables.map Table.occurrences).sum + (log.filterMap Event.missed?).length =
    (log.filterMap Event.sighted?).length

/-- What a pass over sightings has reported so far, and the tables with their running numbers. -/
structure Pass where
  log : List Event
  tables : List Table

/-- The number that tables give for a name. -/
def numberIn (tables : List Table) (name : Text) : Nat :=
  ((group? Table.name tables name).map Table.occurrences).getD 0

/-- A pass after one more sighting. The number that is reported is read from the new entry. -/
def Pass.after (pass : Pass) : Sighting → Pass
  | ⟨keyword, offset, none⟩ =>
      ⟨pass.log ++ [.keyword keyword offset] ++ [.unrecognized keyword offset], pass.tables⟩
  | ⟨keyword, offset, some identifier⟩ =>
      let tables := addRow Table.name Table.join pass.tables (Table.ofIdentifier identifier)
      ⟨pass.log ++ [.keyword keyword offset] ++
        [.table identifier.literal identifier.shape (numberIn tables identifier.literal)], tables⟩

/-- The pass over the sightings of a query. -/
def observe (query : Text) : Pass :=
  (sightings query).foldl Pass.after ⟨[], []⟩

/-- A further entry adds its occurrences to the number for its name, and to no other. -/
theorem number_in_add_row (tables : List Table) (row : Table) (name : Text) :
    numberIn (addRow Table.name Table.join tables row) name =
      numberIn tables name + if row.name = name then row.occurrences else 0 := by
  unfold numberIn
  rw [group_add_row Table.join_name]
  by_cases hname : row.name = name
  · rw [if_pos hname, if_pos hname]
    cases group? Table.name tables name <;> simp [Table.join]
  · rw [if_neg hname, if_neg hname, Nat.add_zero]

/-- One more occurrence of an identifier is one more for its literal, and for no other name. -/
theorem number_in_recorded (tables : List Table) (identifier : Identifier) (name : Text) :
    numberIn (addRow Table.name Table.join tables (Table.ofIdentifier identifier)) name =
      numberIn tables name + if identifier.literal = name then 1 else 0 :=
  number_in_add_row tables (Table.ofIdentifier identifier) name

/-- To put a new number into the entry for a name does the same as to join the entry by as much as
the number grows. -/
theorem add_row_update (tables : List Table) (name : Text) (shape : Shape) (added : Nat) :
    addRow Table.name Table.update tables ⟨name, shape, numberIn tables name + added⟩ =
      addRow Table.name Table.join tables ⟨name, shape, added⟩ := by
  induction tables with
  | nil => simp [addRow, numberIn, group?]
  | cons table tables ih =>
      unfold addRow
      by_cases hname : table.name = name
      · simp [hname, numberIn, group?, Table.update, Table.join]
      · have hnumber : numberIn (table :: tables) name = numberIn tables name := by
          simp [numberIn, group?, hname]
        rw [hnumber, if_neg hname, if_neg hname, ih]

/-- A pass over a row of sightings reports their events and gathers their identifiers, when the
tables that it starts with number the names recorded before. -/
theorem pass_eq {pass : Pass} {recorded : List Text} (list : List Sighting)
    (h : ∀ name, numberIn pass.tables name = recorded.count name) :
    list.foldl Pass.after pass =
      ⟨pass.log ++ eventsAfter recorded list,
        gatherOnto Table.name Table.join pass.tables
          ((list.filterMap Sighting.identifier).map Table.ofIdentifier)⟩ := by
  induction list generalizing pass recorded with
  | nil => simp [eventsAfter, gatherOnto]
  | cons sighting list ih =>
      obtain ⟨keyword, offset, identifier⟩ := sighting
      cases identifier with
      | none =>
          have hnext : ∀ name,
              numberIn (pass.after ⟨keyword, offset, none⟩).tables name = recorded.count name := h
          rw [List.foldl_cons, ih hnext]
          simp [Pass.after, eventsAfter]
      | some identifier =>
          have hnext : ∀ name,
              numberIn (pass.after ⟨keyword, offset, some identifier⟩).tables name =
                (identifier.literal :: recorded).count name := by
            intro name
            rw [Pass.after, number_in_recorded, h, List.count_cons]
            simp
          rw [List.foldl_cons, ih hnext]
          simp [Pass.after, eventsAfter, number_in_recorded, h, gatherOnto]

/-- The pass over the sightings of a query leaves its events and its tables. -/
theorem observe_eq (query : Text) : observe query = ⟨events query, extract query⟩ :=
  @pass_eq ⟨[], []⟩ [] (sightings query) fun _ => rfl

/-- Paired events behind paired events are paired. -/
theorem Paired.append {log later : List Event} (h : Paired log) (hlater : Paired later) :
    Paired (log ++ later) := by
  induction h with
  | nil => exact hlater
  | recorded keyword offset name shape occurrences _ ih =>
      exact .recorded keyword offset name shape occurrences ih
  | missed keyword offset _ ih => exact .missed keyword offset ih

/-- There are as many keywords as there are tables and reports of none. -/
theorem Paired.length_eq {log : List Event} (h : Paired log) :
    (log.filterMap Event.sighted?).length =
      (log.filterMap Event.table?).length + (log.filterMap Event.missed?).length := by
  induction h with
  | nil => rfl
  | recorded | missed =>
      simp [List.filterMap_cons, Event.sighted?, Event.table?, Event.missed?, *]
      omega

/-- A further event keeps a log numbered when it tells of no table, or of one with the next
number. -/
theorem Numbered.concat {log : List Event} {event : Event} (h : Numbered log)
    (hevent : ∀ name shape occurrences, event = .table name shape occurrences →
      occurrences = tellings log name + 1) : Numbered (log ++ [event]) := by
  intro earlier name shape occurrences hprefix
  rcases List.prefix_concat_iff.1 hprefix with hwhole | hbefore
  · obtain ⟨rfl, hlast⟩ := List.append_inj' hwhole rfl
    exact hevent name shape occurrences (List.singleton_inj.1 hlast).symm
  · exact h earlier name shape occurrences hbefore

/-- What has been reported agrees with the tables: they are those that the events lead up to, and
their numbers are how often the events tell of each name. -/
structure Pass.Consistent (pass : Pass) : Prop where
  paired : Paired pass.log
  numbered : Numbered pass.log
  counted : ∀ name, numberIn pass.tables name = tellings pass.log name
  replayed : tablesOfEvents pass.log = pass.tables

/-- Behind a keyword, the log tells of a further table when its last event does. -/
theorem told_behind_keyword (log : List Event) (keyword : Keyword) (offset : Nat) (event : Event) :
    (log ++ [Event.keyword keyword offset] ++ [event]).filterMap Event.table? =
      log.filterMap Event.table? ++ event.table?.toList := by
  cases event <;> simp [List.filterMap_cons, Event.table?]

/-- A keyword tells of no table. -/
theorem tellings_behind_keyword (log : List Event) (keyword : Keyword) (offset : Nat)
    (name : Text) : tellings (log ++ [.keyword keyword offset]) name = tellings log name := by
  simp [tellings, List.filterMap_cons, Event.table?]

/-- A pass stays consistent at every sighting. -/
theorem Pass.Consistent.after {pass : Pass} (h : pass.Consistent) (sighting : Sighting) :
    (pass.after sighting).Consistent := by
  obtain ⟨keyword, offset, identifier⟩ := sighting
  have hkeyword : Numbered (pass.log ++ [.keyword keyword offset]) :=
    h.numbered.concat nofun
  cases identifier with
  | none =>
      have htold := told_behind_keyword pass.log keyword offset (.unrecognized keyword offset)
      refine ⟨?_, hkeyword.concat nofun, fun name => ?_, ?_⟩
      · rw [Pass.after, List.append_assoc]
        exact h.paired.append (.missed keyword offset .nil)
      · rw [Pass.after, tellings, htold]
        simpa [tellings, Event.table?] using h.counted name
      · rw [Pass.after, tablesOfEvents, htold]
        simpa [tablesOfEvents, Event.table?] using h.replayed
  | some identifier =>
      -- The new entry has one more than the events have told so far, which is what is reported.
      have hnumber : numberIn (addRow Table.name Table.join pass.tables
          (Table.ofIdentifier identifier)) identifier.literal =
            numberIn pass.tables identifier.literal + 1 := by
        rw [number_in_recorded, if_pos rfl]
      have htold := told_behind_keyword pass.log keyword offset
        (.table identifier.literal identifier.shape (numberIn pass.tables identifier.literal + 1))
      rw [Pass.after, hnumber]
      refine ⟨?_, hkeyword.concat ?_, fun name => ?_, ?_⟩
      · rw [List.append_assoc]
        exact h.paired.append (.recorded keyword offset _ _ _ .nil)
      · intro name shape occurrences heq
        cases heq
        rw [tellings_behind_keyword, h.counted]
      · rw [number_in_recorded, tellings, htold, h.counted]
        simp [tellings, Event.table?, List.count_cons]
      · rw [tablesOfEvents, htold]
        simp only [Event.table?, Option.toList_some]
        rw [gather_concat, ← tablesOfEvents, h.replayed]
        exact add_row_update pass.tables identifier.literal identifier.shape 1

/-- A consistent pass is consistent behind a row of sightings. -/
theorem Pass.Consistent.run {pass : Pass} (h : pass.Consistent) (list : List Sighting) :
    (list.foldl Pass.after pass).Consistent := by
  induction list generalizing pass with
  | nil => exact h
  | cons sighting list ih => exact ih (h.after sighting)

/-- The pass over the sightings of a query is consistent. -/
theorem observe_consistent (query : Text) : (observe query).Consistent := by
  refine Pass.Consistent.run ⟨.nil, ?_, fun _ => rfl, rfl⟩ (sightings query)
  intro earlier name shape occurrences hprefix
  simp at hprefix

/-- The events tell of the recorded identifiers by their literals and shapes. -/
theorem told_of_events (recorded : List Text) (list : List Sighting) :
    ((eventsAfter recorded list).filterMap Event.table?).map
        (fun table => (table.name, table.shape)) =
      (list.filterMap Sighting.identifier).map
        fun identifier => (identifier.literal, identifier.shape) := by
  induction list generalizing recorded with
  | nil => rfl
  | cons sighting list ih =>
      obtain ⟨keyword, offset, identifier⟩ := sighting
      cases identifier <;> simp [eventsAfter, List.filterMap_cons, Event.table?, ih]

/-- A table that an event of a query tells of is the literal of a recorded identifier, with its
shape. -/
theorem exists_identifier_of_told {query : Text} {table : Table}
    (h : table ∈ (events query).filterMap Event.table?) :
    ∃ identifier ∈ recordedIdentifiers query,
      identifier.literal = table.name ∧ identifier.shape = table.shape := by
  have hmem := List.mem_map_of_mem (f := fun table : Table => (table.name, table.shape)) h
  rw [events, told_of_events] at hmem
  obtain ⟨identifier, hidentifier, heq⟩ := List.mem_map.1 hmem
  obtain ⟨hliteral, hshape⟩ := Prod.mk.inj heq
  exact ⟨identifier, hidentifier, hliteral, hshape⟩

/-- The events of a query tell its tables. -/
theorem events_tell_tables (query : Text) : Tell (events query) (extract query) := by
  have hconsistent := observe_consistent query
  rw [observe_eq] at hconsistent
  refine ⟨hconsistent.paired, ?_, hconsistent.numbered, ?_, hconsistent.replayed, ?_⟩
  · have hascend := sightings_ascend (Scans.of_steps (squeeze query)) 0
    rw [← sightedKeywords, sighted_keywords_eq, List.pairwise_map]
    exact hascend
  · intro first hfirst second hsecond hname
    obtain ⟨identifier, hmem, hliteral, hshape⟩ := exists_identifier_of_told hfirst
    obtain ⟨origin, horigin, hsame, hother⟩ := exists_identifier_of_told hsecond
    obtain rfl := recorded_eq_of_literal hmem horigin (by rw [hliteral, hsame, hname])
    exact hshape.symm.trans hother
  · have hsum := sum_of_tables (fun _ => true) query
    have htold := congrArg List.length (told_of_events [] (sightings query))
    rw [List.length_map, List.length_map] at htold
    rw [hconsistent.paired.length_eq, events, htold]
    simpa [recordedIdentifiers] using hsum

/-- Three keywords, a name that two of them are followed by, and one that no name follows. -/
example : events "FROM t JOIN ( JOIN t".toList =
    [.keyword .fromClause 5, .table "t".toList .bare 1, .keyword .joinClause 12,
      .unrecognized .joinClause 12, .keyword .joinClause 19, .table "t".toList .bare 2] := by
  decide +kernel

end QueryTables
