import QueryTables.Toml.Document
import QueryTables.Toml.Quoted
import QueryTables.Toml.Scalar

/-!
# Reading a TOML document

A document is read into statements, and the statements are put together. `Toml.read?` gives the
entries of the top-level table in document order, or nothing when the text is no document. Every
loop is bounded by the length of the text, since each of its rounds takes at least one character.
-/

namespace QueryTables.Toml

/-- Arrays and inline tables are nested less deeply than this, and a dotted key has fewer parts. -/
def nestingLimit : Nat := 80

/-- Reads the rest of a line behind a statement: blanks, perhaps a comment, and the line end or the
end of the text. -/
def readLineTail? (text : Text) : Option Text :=
  let tail := match skipLineSpace text with
    | '#' :: comment => comment.dropWhile isPlain
    | tail => tail
  if tail.isEmpty then some [] else readLineEnd? tail

/-- A text without the blanks, line ends and comment lines that it starts with. At most so many
are skipped. -/
def skipLines : Nat → Text → Text
  | 0, text => text
  | limit + 1, text =>
      match skipLineSpace text with
      | '#' :: comment =>
          match readLineEnd? (comment.dropWhile isPlain) with
          | some rest => skipLines limit rest
          | none => '#' :: comment
      | tail =>
          match readLineEnd? tail with
          | some rest => skipLines limit rest
          | none => tail

/-- The character may stand in a key without quotation marks. -/
def isKeyCharacter (c : Char) : Bool :=
  c.isAlphanum || c == '_' || c == '-'

/-- Reads one part of a key. -/
def readKeyPart? (text : Text) : Option (Text × Text) :=
  match readLineText? text with
  | some part => some part
  | none =>
      let part := text.takeWhile isKeyCharacter
      if part.isEmpty then none else some (part, text.drop part.length)

/-- Reads the parts of a key with dots between them and blanks around each, at most so many. -/
def readKeyParts? : Nat → Text → Option (List Text × Text)
  | 0, _ => none
  | limit + 1, text => do
      let (part, rest) ← readKeyPart? (skipLineSpace text)
      match skipLineSpace rest with
      | '.' :: rest => (readKeyParts? limit rest).map fun (parts, rest) => (part :: parts, rest)
      | rest => some ([part], rest)

/-- Reads a key as the path before its last part, and that part. -/
def readKey? (text : Text) : Option ((List Text × Text) × Text) := do
  let (parts, rest) ← readKeyParts? (nestingLimit - 1) text
  let key ← parts.getLast?
  some ((parts.dropLast, key), rest)

mutual

/-- Reads a value that stands inside so many arrays and inline tables. -/
def readValue? : Nat → Nat → Text → Option (Value × Text)
  | 0, _, _ => none
  | limit + 1, depth, text =>
      match text with
      | '[' :: rest =>
          if depth + 1 < nestingLimit then
            (readItems? limit (depth + 1) rest).map fun (items, rest) => (.array items, rest)
          else none
      | '\x7b' :: rest =>
          if depth + 1 < nestingLimit then
            match skipLineSpace rest with
            | '\x7d' :: rest => some (.table [], rest)
            | rest => do
                let (members, rest) ← readMembers? limit (depth + 1) rest
                let entries ← tableOf? members []
                some (.table (entryValues entries), rest)
          else none
      | '"' :: _ | '\'' :: _ => (readText? text).map fun (value, rest) => (.text value, rest)
      | _ => readScalar? text

/-- Reads the items of an array and its closing bracket. A comma may follow the last item. -/
def readItems? : Nat → Nat → Text → Option (List Value × Text)
  | 0, _, _ => none
  | limit + 1, depth, text =>
      match skipLines (text.length + 1) text with
      | ']' :: rest => some ([], rest)
      | text => do
          let (item, rest) ← readValue? limit depth text
          match skipLines (rest.length + 1) rest with
          | ',' :: rest =>
              (readItems? limit depth rest).map fun (items, rest) => (item :: items, rest)
          | ']' :: rest => some ([item], rest)
          | _ => none

/-- Reads the members of an inline table and its closing brace. It stands on one line. -/
def readMembers? : Nat → Nat → Text → Option (List (List Text × Text × Value) × Text)
  | 0, _, _ => none
  | limit + 1, depth, text => do
      let ((path, key), rest) ← readKey? text
      match rest with
      | '=' :: rest =>
          let (value, rest) ← readValue? limit depth (skipLineSpace rest)
          match skipLineSpace rest with
          | ',' :: rest => (readMembers? limit depth rest).map fun (members, rest) =>
              ((path, key, value) :: members, rest)
          | '\x7d' :: rest => some ([(path, key, value)], rest)
          | _ => none
      | _ => none

end

/-- Reads a header or an entry, with the rest of its line. -/
def readStatement? (text : Text) : Option (Statement × Text) :=
  match text with
  | '[' :: '[' :: rest => do
      let ((path, key), rest) ← readKey? rest
      match rest with
      | ']' :: ']' :: rest => (readLineTail? rest).map fun rest => (.arrayHeader path key, rest)
      | _ => none
  | '[' :: rest => do
      let ((path, key), rest) ← readKey? rest
      match rest with
      | ']' :: rest => (readLineTail? rest).map fun rest => (.header path key, rest)
      | _ => none
  | _ => do
      let ((path, key), rest) ← readKey? text
      match rest with
      | '=' :: rest =>
          let (value, rest) ← readValue? (2 * rest.length + 2) 0 (skipLineSpace rest)
          (readLineTail? rest).map fun rest => (.entry path key value, rest)
      | _ => none

/-- Reads all statements of a text, which has at most so many. -/
def readStatements? : Nat → Text → Option (List Statement)
  | 0, _ => none
  | limit + 1, text =>
      match skipLines (text.length + 1) text with
      | [] => some []
      | '#' :: comment => if (comment.dropWhile isPlain).isEmpty then some [] else none
      | text => do
          let (statement, rest) ← readStatement? text
          (readStatements? limit rest).map (statement :: ·)

/-- A text without the byte order mark that it may start with. -/
def withoutByteOrderMark : Text → Text
  | '\uFEFF' :: rest => rest
  | text => text

/-- The entries of a document in order, or nothing when the text is no TOML document. -/
def read? (source : Text) : Option (List (Text × Value)) := do
  let text := withoutByteOrderMark source
  let statements ← readStatements? (text.length + 1) text
  (assemble? [] statements []).map entryValues

end QueryTables.Toml
