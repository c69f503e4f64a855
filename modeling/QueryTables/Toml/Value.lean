import QueryTables.Binary64

/-!
# TOML values

A value is a scalar, an array or a table. The entries of a table stand in the order in which the
document introduces them. Dates and times are values of their own, but what they say is not kept.
-/

namespace QueryTables.Toml

/-- A value in a TOML document. -/
inductive Value where
  | boolean (value : Bool)
  | integer (value : Int)
  | float (value : Binary64)
  | text (value : Text)
  | moment
  | array (items : List Value)
  | table (entries : List (Text × Value))

end QueryTables.Toml
