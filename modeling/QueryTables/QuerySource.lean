import QueryTables.FileTree
import QueryTables.Log

/-!
# Where a query comes from

A query is given as such, in a file, or on the standard input.
-/

namespace QueryTables

/-- A place that a query is read from. -/
inductive QuerySource where
  | inline (query : Text)
  | file (path : Text)
  | standardInput
deriving DecidableEq, Repr

/-- Why a query cannot be read. -/
inductive QueryFault where
  | unreadableFile (path : Text) (cause : FileFault)
  | unreadableInput (cause : FileFault)
deriving DecidableEq, Repr

namespace QueryFault

/-- The message for a fault. -/
def message : QueryFault → Text
  | unreadableFile path _ => "failed to read query file ".toList ++ path
  | unreadableInput _ => "failed to read query from stdin".toList

/-- What caused a fault. -/
def cause : QueryFault → FileFault
  | unreadableFile _ cause | unreadableInput cause => cause

end QueryFault

namespace QuerySource

/-- The source that what was given asks for. A query as such wins over a file. -/
def ofGiven (query file : Option Text) : QuerySource :=
  match query, file with
  | some query, _ => inline query
  | none, some path => QuerySource.file path
  | none, none => standardInput

/-- The query that a source holds, where files are looked up and given what the standard input
holds. -/
def read (find : Text → Except FileFault FileEntry) (input : ByteArray) :
    QuerySource → Except QueryFault Text
  | inline query => .ok query
  | file path =>
      match FileEntry.read (find path) with
      | .ok query => .ok query
      | .error cause => .error (.unreadableFile path cause)
  | standardInput =>
      match Text.ofBytes? input with
      | some query => .ok query
      | none => .error (.unreadableInput .notText)

/-- The records that reading from a source leaves. -/
def readRecords : QuerySource → List Log.Record
  | file path =>
      [⟨.debug, "sqltables_infra::input".toList, "reading query file".toList,
        [⟨"path".toList, .text path⟩]⟩]
  | inline _ | standardInput => []

end QuerySource

end QueryTables
