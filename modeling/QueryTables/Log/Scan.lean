import QueryTables.Event
import QueryTables.Log

/-!
# The log of a scan

Each event of a scan leaves one record. A keyword that was met is a detail; what was found behind
it is worth a record at debug level.
-/

namespace QueryTables

/-- The name of a shape as records show it. -/
def Shape.logName : Shape → Text
  | .quotedQualified => "QuotedQualified".toList
  | .quotedSchemaQualified => "QuotedSchemaQualified".toList
  | .qualified => "Qualified".toList
  | .quoted => "Quoted".toList
  | .bare => "Bare".toList

namespace Log

/-- The part of the program that the records of a scan come from. -/
def scanTarget : Text :=
  "sqltables_infra::observer::tracing_observer".toList

/-- The record that an event leaves. -/
def ofEvent : Event → Record
  | .keyword keyword offset =>
      ⟨.trace, scanTarget, "clause keyword matched".toList,
        [⟨"keyword".toList, .text keyword.display⟩, ⟨"offset".toList, .number offset⟩]⟩
  | .table name shape occurrences =>
      ⟨.debug, scanTarget, "table name recorded".toList,
        [⟨"table".toList, .text name⟩, ⟨"shape".toList, .text shape.logName⟩,
          ⟨"occurrences".toList, .number occurrences⟩]⟩
  | .unrecognized keyword offset =>
      ⟨.debug, scanTarget, "no table name after keyword".toList,
        [⟨"keyword".toList, .text keyword.display⟩, ⟨"offset".toList, .number offset⟩]⟩

/-- The records that the scan of a query leaves. -/
def ofScan (query : Text) : List Record :=
  (events query).map ofEvent

end Log

end QueryTables
