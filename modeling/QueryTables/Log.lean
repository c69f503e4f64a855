import QueryTables.Text.Decimal

/-!
# The log

A run leaves a list of records, each with a level. A record is written as one line: its level, its
target, its message and its fields.
-/

namespace QueryTables.Log

/-- How much a record matters, from most to least. -/
inductive Level where
  | error
  | warn
  | info
  | debug
  | trace
deriving DecidableEq, Repr

namespace Level

/-- The levels, from most to least. -/
def all : List Level :=
  [error, warn, info, debug, trace]

/-- The place of a level in the order from most to least. -/
def rank : Level → Nat
  | error => 1
  | warn => 2
  | info => 3
  | debug => 4
  | trace => 5

/-- The word for a level in capital letters. -/
def text : Level → Text
  | error => "ERROR".toList
  | warn => "WARN".toList
  | info => "INFO".toList
  | debug => "DEBUG".toList
  | trace => "TRACE".toList

end Level

/-- What a field of a record says. -/
inductive Value where
  | text (value : Text)
  | number (value : Nat)
deriving DecidableEq, Repr

namespace Value

/-- The value as it is written in a line, without quotation marks. -/
def display : Value → Text
  | text value => value
  | number value => Decimal.numeral value

end Value

/-- A field of a record. -/
structure Field where
  key : Text
  value : Value
deriving DecidableEq, Repr

/-- A record: its level, the part of the program that it comes from, what happened, and with
what. -/
structure Record where
  level : Level
  target : Text
  message : Text
  fields : List Field
deriving DecidableEq, Repr

namespace Record

/-- The record has a field of the name. Its message is one. -/
def hasField (record : Record) (name : Text) : Bool :=
  name == "message".toList || record.fields.any fun field => field.key == name

/-- The record as a line. -/
def line (record : Record) : Text :=
  record.level.text ++ ' ' :: record.target ++ ": ".toList ++ record.message ++
    record.fields.flatMap fun field => ' ' :: field.key ++ '=' :: field.value.display

end Record

end QueryTables.Log
