import QueryTables.Event
import QueryTables.Groups

/-!
# The tables of a query

A query's tables are the names recorded by its scan, each once, in order of first occurrence, with
the shape it is written in and the number of times it occurs.
-/

namespace QueryTables

/-- A table name as it is written in a query, its shape, and how often it occurs. -/
structure Table where
  name : Text
  shape : Shape
  occurrences : Nat
deriving DecidableEq, Repr

namespace Table

/-- The table that an identifier names where it occurs once. -/
def ofIdentifier (identifier : Identifier) : Table :=
  ⟨identifier.literal, identifier.shape, 1⟩

/-- A table that occurs as often as two entries for it say together. -/
def join (first second : Table) : Table :=
  { first with occurrences := first.occurrences + second.occurrences }

end Table

/-- The identifiers recorded by the scan of a query, in order, with repetitions. -/
def recordedIdentifiers (query : Text) : List Identifier :=
  (sightings query).filterMap Sighting.identifier

/-- The tables of a query. -/
def extract (query : Text) : List Table :=
  gather Table.name Table.join ((recordedIdentifiers query).map Table.ofIdentifier)

/-- The table that an event tells of. -/
def Event.table? : Event → Option Table
  | .table name shape occurrences => some ⟨name, shape, occurrences⟩
  | .keyword _ _ | .unrecognized _ _ => none

/-- A table as a later entry for it tells how often it has occurred by then. -/
def Table.update (first later : Table) : Table :=
  { first with occurrences := later.occurrences }

/-- The tables that a row of events tells of, each with the number that its last event gives. -/
def tablesOfEvents (events : List Event) : List Table :=
  gather Table.name Table.update (events.filterMap Event.table?)

/-- The names of the tables of a query. -/
def tableNames (query : Text) : List Text :=
  (extract query).map Table.name

end QueryTables
