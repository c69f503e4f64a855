import QueryTables.Text.Blank

/-!
# Squeezed texts and words

Blanks only separate. `squeeze` writes every run of blanks as one space, so that a query can be
read token by token; a run at either end is squeezed as well, not removed. `words` is the same
reading without the separators.
-/

namespace QueryTables.Text

/-- A text with each run of blanks written as one space, given whether a blank stands right
before the text. -/
def squeezeAfter (afterBlank : Bool) : Text → Text
  | [] => []
  | c :: rest =>
      if isBlank c then
        if afterBlank then squeezeAfter true rest else ' ' :: squeezeAfter true rest
      else c :: squeezeAfter false rest

/-- A text with each run of blanks written as one space. -/
def squeeze (text : Text) : Text :=
  squeezeAfter false text

/-- The words of a text: its longest stretches without blanks, in order. -/
def words : Text → List Text
  | [] => []
  | c :: rest =>
      if isBlank c then words rest
      else if rest.head?.all isBlank then [c] :: words rest
      else match words rest with
        | [] => [[c]]
        | word :: others => (c :: word) :: others

/-- The text starts with a blank. -/
def startsBlank (text : Text) : Bool :=
  text.head?.any isBlank

/-- The text ends with a blank. -/
def endsBlank (text : Text) : Bool :=
  text.getLast?.any isBlank

/-- A text without one space at its start and one at its end, where it has them. -/
def trimmedOnce (text : Text) : Text :=
  let tail := if text.head? = some ' ' then text.drop 1 else text
  if tail.getLast? = some ' ' then tail.dropLast else tail

end QueryTables.Text
