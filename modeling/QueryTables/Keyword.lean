import QueryTables.Text

/-!
# Clause keywords

The four words after which a statement may name a table. A token is a keyword when it is one of
the words as a whole, in any case.
-/

namespace QueryTables

/-- A clause keyword: FROM, JOIN, UPDATE or INTO. -/
inductive Keyword where
  | fromClause
  | joinClause
  | updateClause
  | intoClause
deriving DecidableEq, Repr

namespace Keyword

/-- The keywords, in the order in which a token is compared with them. -/
def all : List Keyword :=
  [fromClause, joinClause, updateClause, intoClause]

/-- The keyword in small letters. -/
def text : Keyword → Text
  | fromClause => "from".toList
  | joinClause => "join".toList
  | updateClause => "update".toList
  | intoClause => "into".toList

/-- The keyword in capital letters, as messages show it. -/
def display (keyword : Keyword) : Text :=
  Text.capitalized keyword.text

/-- The keyword that a whole token is, whatever the case of its letters. -/
def ofToken? (token : Text) : Option Keyword :=
  all.find? fun keyword => Text.sameIgnoringCase token keyword.text

/-- The message for a text that was asked for as a keyword and is none. -/
def unknownMessage (given : Text) : Text :=
  "Unknown clause keyword: ".toList ++ given

end Keyword

end QueryTables
