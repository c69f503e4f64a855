import QueryTables.Scan

/-!
# The events of a scan

The scan reports each clause keyword, with the offset in the squeezed query at which a name is
looked for, and then what was found there: a table with the number of times its name has been
recorded so far, or nothing. An identifier without any word character is taken by the scan but not
recorded.
-/

namespace QueryTables

/-- A keyword that the scan met, the offset behind it in bytes, and the identifier recorded
there. -/
structure Sighting where
  keyword : Keyword
  offset : Nat
  identifier : Option Identifier
deriving DecidableEq, Repr

/-- The sightings in a row of steps, the first of which starts at the given offset. -/
def sightingsFrom (offset : Nat) : List Step → List Sighting
  | [] => []
  | step :: rest =>
      let following := sightingsFrom (offset + step.consumed.byteLength) rest
      match step with
      | .passed _ _ => following
      | .clause keyword token gap identifier =>
          ⟨keyword, offset + (token ++ gap).byteLength, identifier.filter Identifier.isNamed⟩ ::
            following

/-- The sightings of a query, in order. -/
def sightings (query : Text) : List Sighting :=
  sightingsFrom 0 (steps (Text.squeeze query))

/-- What the scan reports as it goes. -/
inductive Event where
  | keyword (keyword : Keyword) (offset : Nat)
  | table (name : Text) (shape : Shape) (occurrences : Nat)
  | unrecognized (keyword : Keyword) (offset : Nat)
deriving DecidableEq, Repr

/-- The events for a row of sightings, given the names recorded before it. -/
def eventsAfter (recorded : List Text) : List Sighting → List Event
  | [] => []
  | ⟨keyword, offset, none⟩ :: rest =>
      .keyword keyword offset :: .unrecognized keyword offset :: eventsAfter recorded rest
  | ⟨keyword, offset, some identifier⟩ :: rest =>
      let name := identifier.literal
      .keyword keyword offset :: .table name identifier.shape (recorded.count name + 1) ::
        eventsAfter (name :: recorded) rest

/-- The events of the scan of a query. -/
def events (query : Text) : List Event :=
  eventsAfter [] (sightings query)

end QueryTables
