import QueryTables.Table
import QueryTables.Text.Spacing

/-!
# The scan by words

The scan of a query without quote marks can be told by words alone: each keyword is followed by the
next word, which starts with a name or does not, and is passed over either way.
-/

namespace QueryTables

/-- The name that a word without quote marks starts with: a word character run, a dot and another
run, or a single run that no dot follows. -/
def leadingName? (word : Text) : Option Identifier :=
  let first := word.takeWhile Text.isWordCharacter
  if first.isEmpty then none
  else match word.dropWhile Text.isWordCharacter with
    | '.' :: rest =>
        let second := rest.takeWhile Text.isWordCharacter
        if second.isEmpty then none else some (.qualified first second)
    | _ => some (.bare first)

/-- The names in a row of words, in order, with repetitions. -/
def namesByWords : List Text → List Identifier
  | [] => []
  | [_] => []
  | word :: following :: rest =>
      match Keyword.ofToken? word with
      | none => namesByWords (following :: rest)
      | some _ => (leadingName? following).toList ++ namesByWords rest

/-- The tables of a query, found by its words. -/
def extractByWords (query : Text) : List Table :=
  gather Table.name Table.join ((namesByWords (Text.words query)).map Table.ofIdentifier)

end QueryTables
