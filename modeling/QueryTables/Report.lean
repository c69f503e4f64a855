import QueryTables.Json
import QueryTables.QualifiedName

/-!
# Reports

A report lists tables, one row each, as plain lines or as a JSON array. Options say which, whether
the numbers of occurrences are shown, and whether names are listed without quote marks. A report
has no line end of its own.
-/

namespace QueryTables

/-- The form of a report. -/
inductive Format where
  | plain
  | json
deriving DecidableEq, Repr

namespace Format

/-- The word for a form. -/
def text : Format → Text
  | plain => "plain".toList
  | json => "json".toList

/-- The form that a word names, whatever the case of its letters. -/
def ofText? (given : Text) : Option Format :=
  [plain, json].find? fun format => Text.sameIgnoringCase given format.text

/-- The form that a word names when its letters have to be small. -/
def ofExactText? (given : Text) : Option Format :=
  [plain, json].find? fun format => given == format.text

/-- The message for a text that names no form. -/
def unknownMessage (given : Text) : Text :=
  "Unknown output format: ".toList ++ given

/-- The message for a text that names no form where its letters have to be small. -/
def unknownExactMessage (given : Text) : Text :=
  "unknown variant `".toList ++ given ++ "`, expected `plain` or `json`".toList

end Format

/-- What a report looks like. -/
structure Options where
  format : Format
  counts : Bool
  unquote : Bool
deriving DecidableEq, Repr

namespace Options

/-- The options where nothing asks for others. -/
def standard : Options :=
  ⟨.plain, false, false⟩

end Options

/-- A row of a report: a name and how often it occurs. -/
structure Row where
  name : Text
  occurrences : Nat
deriving DecidableEq, Repr

namespace Row

/-- The row as a line of a plain report. -/
def line (counts : Bool) (row : Row) : Text :=
  if counts then row.name ++ '\t' :: Decimal.numeral row.occurrences else row.name

/-- The row as an item of a JSON report. -/
def item (counts : Bool) (row : Row) : Json :=
  if counts then
    .object [("name".toList, .text row.name), ("occurrences".toList, .number row.occurrences)]
  else .text row.name

end Row

/-- The rows for a list of tables, with names as they are written or without quote marks. -/
def reportRows (unquote : Bool) (tables : List Table) : List Row :=
  if unquote then (unquoteTables tables).map fun table => ⟨table.name.display, table.occurrences⟩
  else tables.map fun table => ⟨table.name, table.occurrences⟩

/-- The rows in the form that is asked for. -/
def renderRows (format : Format) (counts : Bool) (rows : List Row) : Text :=
  match format with
  | .plain => Text.joinedBy ['\n'] (rows.map (Row.line counts))
  | .json => Json.render (.array (rows.map (Row.item counts)))

/-- The report on a list of tables. -/
def report (options : Options) (tables : List Table) : Text :=
  renderRows options.format options.counts (reportRows options.unquote tables)

end QueryTables
