import QueryTables.Log
import QueryTables.Text.WordCharacter

/-!
# Which records are written

A filter is a row of directives. A directive says up to which level records are written, for all
records or for those from a part of the program or with a field; of the directives about a record
the most specific one decides, and without any it is not written. A filter comes from a setting in
which directives stand between commas, as in `warn,sqltables_infra=debug`, or from the number of
requests to say more.
-/

namespace QueryTables.Log

/-- Up to which level records are written, and which: those whose target starts with a text, if one
is given, and which have a field of a name, if one is given. Without a level none of them are. -/
structure Directive where
  target? : Option Text
  field? : Option Text
  limit : Option Level
deriving DecidableEq, Repr

namespace Directive

/-- The directive about all records. -/
def general (limit : Option Level) : Directive :=
  ⟨none, none, limit⟩

/-- The directive is about the record. -/
def concerns (directive : Directive) (record : Record) : Bool :=
  directive.target?.all (·.isPrefixOf record.target) && directive.field?.all record.hasField

/-- The directive lets records of the level through. -/
def allows (directive : Directive) (level : Level) : Bool :=
  directive.limit.any fun limit => level.rank ≤ limit.rank

/-- The order of directives by how specific they are: by the length of their targets, where none is
the shortest, and for targets of one length by their fields in alphabetical order, where none is the
first. -/
def bySpecificity : Directive → Directive → Ordering :=
  compareLex (compareOn fun directive => directive.target?.map List.length)
    (compareOn fun directive => directive.field?)

/-- A character of a target. -/
def isTargetCharacter (c : Char) : Bool :=
  Text.isAlphanumeric c || c == '_' || c == ':' || c == '-'

/-- The limit that a word sets: a level by its name, in any case, or by a digit, or else that no
record is written. -/
def limitOf? (word : Text) : Option (Option Level) :=
  if Text.sameIgnoringCase word "OFF".toList ∨ word = ['0'] then some none
  else (Level.all.find? fun level =>
    Text.sameIgnoringCase word level.text || word == [Decimal.digit level.rank]).map some

/-- The limit at the end of a directive. Without one, all records are written. -/
def readLimit? : Text → Option (Option Level)
  | [] | ['='] => some (some .trace)
  | '=' :: word => limitOf? word
  | _ => none

/-- What stands between brackets in a directive: nothing, the name of a field, or something about
the spans that records are in. -/
inductive Brackets where
  | absent
  | field (name : Text)
  | spans
deriving DecidableEq, Repr

/-- Reads what stands between brackets. A span is named there, or a field in braces. -/
def readInside? (inside : Text) : Option Brackets :=
  let name := inside.takeWhile (· != '\x7b')
  match inside.dropWhile (· != '\x7b') with
  | [] => some .spans
  | _ :: fields =>
      if fields.length < 2 ∨ fields.getLast? ≠ some '\x7d' then none
      else if name = [] ∧ '=' ∉ fields then some (.field fields.dropLast)
      else some .spans

/-- Reads brackets, and what is behind them. -/
def readBrackets? : Text → Option (Brackets × Text)
  | '[' :: text =>
      match text.dropWhile (· != ']') with
      | [] => none
      | _ :: rest => (readInside? (text.takeWhile (· != ']'))).map fun inside => (inside, rest)
  | text => some (.absent, text)

/-- Reads a directive: a limit alone, or a target, brackets and a limit, of which the target or the
brackets have to be there. There are no spans in a run, so a directive about them says nothing. -/
def read? (text : Text) : Option (List Directive) :=
  match limitOf? text with
  | some limit => some [general limit]
  | none => do
      let target := text.takeWhile isTargetCharacter
      let (brackets, rest) ← readBrackets? (text.dropWhile isTargetCharacter)
      let limit ← readLimit? rest
      let target? := if target = [] then none else some target
      match brackets with
      | .absent => if target = [] then none else some [⟨target?, none, limit⟩]
      | .field name => some [⟨target?, some name, limit⟩]
      | .spans => some []

end Directive

/-- The directives by which records are written. -/
abbrev Filter := List Directive

namespace Filter

/-- The more specific of the best directive so far and a further one, or the latter if they are as
specific. -/
def better (best : Option Directive) (directive : Directive) : Option Directive :=
  if best.all fun best => (directive.bySpecificity best).isGE then some directive else best

/-- The directive that decides about a record: the most specific one about it. -/
def deciding? (filter : Filter) (record : Record) : Option Directive :=
  (filter.filter (·.concerns record)).foldl better none

/-- The filter lets the record through. -/
def passes (filter : Filter) (record : Record) : Bool :=
  (filter.deciding? record).any (·.allows record.level)

/-- The filter that a setting asks for, if all directives in it can be read. -/
def ofSetting? (setting : Text) : Option Filter :=
  (((Text.pieces ',' setting).filter (· ≠ [])).mapM Directive.read?).map List.flatten

/-- The filter for a number of requests to say more. -/
def ofVerbosity : Nat → Filter
  | 0 => [.general (some .warn)]
  | 1 => [.general (some .debug)]
  | _ => [.general (some .trace)]

end Filter

/-- The records that a filter lets through, in order. -/
def filtered (filter : Filter) (records : List Record) : List Record :=
  records.filter filter.passes

end QueryTables.Log
