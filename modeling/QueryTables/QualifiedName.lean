import QueryTables.Groups
import QueryTables.Table

/-!
# Names without quote marks

Two spellings of a table that differ only in quote marks have the same qualified name. A literal is
split without regard to its shape: at the dot behind a leading quoted part, or else at its first
dot. Any text has a qualified name, also one that no scan would record.
-/

namespace QueryTables

/-- A table name without quote marks, with its schema if it has one. -/
structure QualifiedName where
  schema : Option Text
  table : Text
deriving DecidableEq, Repr

/-- A text without the quote marks around it. It stays as it is unless it has one at each end and
something between them. -/
def withoutQuotes (part : Text) : Text :=
  match part with
  | [] => part
  | c :: rest =>
      if c = quoteMark ∧ rest.getLast? = some quoteMark ∧ rest.dropLast ≠ [] then rest.dropLast
      else part

/-- A literal cut in two: behind its leading quoted part if it starts with one, else before its
first dot. -/
def cutHead (literal : Text) : Text × Text :=
  match readQuoted? literal with
  | some (inner, rest) => (Identifier.inQuotes inner, rest)
  | none => (literal.takeWhile (· != '.'), literal.dropWhile (· != '.'))

namespace QualifiedName

/-- The qualified name of a literal. A dot separates schema and table only when something follows
it. -/
def ofLiteral (literal : Text) : QualifiedName :=
  match readDot? (cutHead literal).2 with
  | some (c :: rest) => ⟨some (withoutQuotes (cutHead literal).1), withoutQuotes (c :: rest)⟩
  | _ => ⟨none, withoutQuotes literal⟩

/-- The name as it is printed: the schema, a dot and the table, or the table alone. -/
def display : QualifiedName → Text
  | ⟨some schema, table⟩ => schema ++ '.' :: table
  | ⟨none, table⟩ => table

end QualifiedName

/-- The printed forms of the names without quote marks, each once, in order of first
occurrence. -/
def unquoteNames (names : List Text) : List Text :=
  distinct (names.map fun name => (QualifiedName.ofLiteral name).display)

/-- A qualified name and how often it occurs. -/
structure UnquotedTable where
  name : QualifiedName
  occurrences : Nat
deriving DecidableEq, Repr

namespace UnquotedTable

/-- A table by its qualified name. -/
def ofTable (table : Table) : UnquotedTable :=
  ⟨QualifiedName.ofLiteral table.name, table.occurrences⟩

/-- A name that occurs as often as two entries for it say together. -/
def join (first second : UnquotedTable) : UnquotedTable :=
  { first with occurrences := first.occurrences + second.occurrences }

end UnquotedTable

/-- The tables by their qualified names: those that differ only in quote marks are one, and occur
as often as all of them together. -/
def unquoteTables (tables : List Table) : List UnquotedTable :=
  gather UnquotedTable.name UnquotedTable.join (tables.map UnquotedTable.ofTable)

end QueryTables
