import QueryTables.Text.WordCharacter

/-!
# Identifiers

A table is named by an identifier of one of five shapes: with or without a schema, each part
quoted or not. The literal of an identifier is its spelling in the query, quote marks included.
-/

namespace QueryTables

/-- The character that quotes a part of an identifier. -/
def quoteMark : Char :=
  '\x60'

/-- The forms of an identifier: `quotedQualified` has both parts quoted, `quotedSchemaQualified`
only the schema, `qualified` neither; `quoted` and `bare` have no schema. -/
inductive Shape where
  | quotedQualified
  | quotedSchemaQualified
  | qualified
  | quoted
  | bare
deriving DecidableEq, Repr

namespace Shape

/-- The shapes, in the order in which they are tried. -/
def all : List Shape :=
  [quotedQualified, quotedSchemaQualified, qualified, quoted, bare]

/-- An identifier of this shape has a schema. -/
def isQualified : Shape → Bool
  | quotedQualified | quotedSchemaQualified | qualified => true
  | quoted | bare => false

end Shape

/-- An identifier by its parts, quote marks removed. -/
inductive Identifier where
  | quotedQualified (schema table : Text)
  | quotedSchemaQualified (schema table : Text)
  | qualified (schema table : Text)
  | quoted (table : Text)
  | bare (table : Text)
deriving DecidableEq, Repr

namespace Identifier

/-- The form of the identifier. -/
def shape : Identifier → Shape
  | quotedQualified _ _ => .quotedQualified
  | quotedSchemaQualified _ _ => .quotedSchemaQualified
  | qualified _ _ => .qualified
  | quoted _ => .quoted
  | bare _ => .bare

/-- The schema part, if there is one. -/
def schema? : Identifier → Option Text
  | quotedQualified schema _ | quotedSchemaQualified schema _ | qualified schema _ => some schema
  | quoted _ | bare _ => none

/-- The table part. -/
def table : Identifier → Text
  | quotedQualified _ table | quotedSchemaQualified _ table | qualified _ table => table
  | quoted table | bare table => table

/-- A part between quote marks. -/
def inQuotes (inner : Text) : Text :=
  quoteMark :: (inner ++ [quoteMark])

/-- The spelling of the identifier, with its quote marks. -/
def literal : Identifier → Text
  | quotedQualified schema table => inQuotes schema ++ '.' :: inQuotes table
  | quotedSchemaQualified schema table => inQuotes schema ++ '.' :: table
  | qualified schema table => schema ++ '.' :: table
  | quoted table => inQuotes table
  | bare table => table

/-- The identifier has something to be called by: a word character in one of its parts. -/
def isNamed (identifier : Identifier) : Bool :=
  identifier.literal.any Text.isWordCharacter

/-- A quoted part can hold any characters but the quote mark, and at least one. -/
def IsQuotedPart (inner : Text) : Prop :=
  inner ≠ [] ∧ quoteMark ∉ inner

/-- An unquoted part is a row of word characters, and at least one. -/
def IsWord (word : Text) : Prop :=
  word ≠ [] ∧ ∀ c ∈ word, Text.isWordCharacter c = true

/-- Each part is one that its place in the shape allows. -/
def WellFormed : Identifier → Prop
  | quotedQualified schema table => IsQuotedPart schema ∧ IsQuotedPart table
  | quotedSchemaQualified schema table => IsQuotedPart schema ∧ IsWord table
  | qualified schema table => IsWord schema ∧ IsWord table
  | quoted table => IsQuotedPart table
  | bare table => IsWord table

/-- The last part is not quoted. -/
def endsInWord : Identifier → Bool
  | quotedSchemaQualified _ _ | qualified _ _ | bare _ => true
  | quotedQualified _ _ | quoted _ => false

/-- A text that can stand right behind the identifier without changing how it is read: no word
character behind a word, which would belong to it, and no dot behind an identifier without a schema,
which would make it one. -/
def EndsBefore (identifier : Identifier) (rest : Text) : Prop :=
  (identifier.endsInWord = true → rest.head?.any Text.isWordCharacter = false) ∧
    (identifier.shape.isQualified = false → rest.head? ≠ some '.')

end Identifier

end QueryTables
