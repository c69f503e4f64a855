import QueryTables.Text.CodeRanges

/-!
# Blanks

A blank is a character with the Unicode property White_Space. Every run of them counts as one
separator between the words of a query.
-/

namespace QueryTables.Text

/-- The code points with the property White_Space. -/
def blankRanges : CodeRanges :=
  [(9, 13), (32, 32), (133, 133), (160, 160), (5760, 5760), (8192, 8202), (8232, 8233),
   (8239, 8239), (8287, 8287), (12288, 12288)]

/-- The character is a blank. -/
def isBlank (c : Char) : Bool :=
  blankRanges.contains c.toNat

end QueryTables.Text
