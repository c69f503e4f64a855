import QueryTables.Toml.Value

/-!
# Documents as they are put together

Statements add to a document one after the other: a header names the table that the following
entries go to, and an entry may name a path of its own. Which tables a later statement may still add
to depends on how they came about. Entries keep the order in which their keys are introduced, except
that a table which was only implied so far moves to the end when its own header comes.
-/

namespace QueryTables.Toml

/-- How a table came about: implied by the header of a table inside it, stated by its own header,
or by a dotted key. -/
inductive Origin where
  | implied
  | stated
  | dotted
deriving DecidableEq, Repr

/-- A node of a document: a value, a table that may still grow, or an array of tables, of which the
last may still grow. -/
inductive Node where
  | value (value : Value)
  | table (origin : Origin) (entries : List (Text × Node))
  | tables (items : List (List (Text × Node)))

/-- The entries of a table under construction. -/
abbrev Entries := List (Text × Node)

namespace Entries

/-- The node under a key. -/
def find? (entries : Entries) (key : Text) : Option Node :=
  entries.lookup key

/-- The entries with another node under a key that is there. -/
def replace (entries : Entries) (key : Text) (node : Node) : Entries :=
  entries.map fun entry => if entry.1 = key then (key, node) else entry

/-- The entries with a further one behind the others. -/
def append (entries : Entries) (key : Text) (node : Node) : Entries :=
  entries ++ [(key, node)]

/-- The entries without those under a key. -/
def remove (entries : Entries) (key : Text) : Entries :=
  entries.filter fun entry => entry.1 ≠ key

end Entries

/-- Changes the table at the end of a path, creating the tables that are missing on the way with
the given origin. A dotted path does not lead through a table that has a header of its own. -/
def within? (origin : Origin) (change : Origin → Entries → Option Entries) :
    List Text → Origin → Entries → Option Entries
  | [], reached, entries => change reached entries
  | key :: path, _, entries =>
      match entries.find? key with
      | none => do
          let inner ← within? origin change path origin []
          some (entries.append key (.table origin inner))
      | some (.value _) => none
      | some (.tables items) => do
          let last ← within? origin change path .stated (items.getLast?.getD [])
          some (entries.replace key (.tables (items.dropLast ++ [last])))
      | some (.table found inner) =>
          if origin = .dotted ∧ found = .stated then none
          else do
            let inner ← within? origin change path found inner
            some (entries.replace key (.table found inner))

/-- Adds an entry under a dotted key. The key must be new, and a table reached by a dotted path
must have come about by dotted keys. -/
def assign? (path : List Text) (key : Text) (value : Value) (entries : Entries) : Option Entries :=
  let add (reached : Origin) (entries : Entries) : Option Entries :=
    if path ≠ [] ∧ reached ≠ .dotted then none
    else if (entries.find? key).isSome then none
    else some (entries.append key (.value value))
  within? .dotted add path .stated entries

/-- Opens the table of a header. It must be new or only implied so far. -/
def openTable? (path : List Text) (key : Text) (entries : Entries) : Option Entries :=
  let openIn (_ : Origin) (entries : Entries) : Option Entries :=
    match entries.find? key with
    | none => some (entries.append key (.table .stated []))
    | some (.table .implied inner) => some ((entries.remove key).append key (.table .stated inner))
    | some _ => none
  within? .implied openIn path .stated entries

/-- Opens a further table of an array of tables. -/
def openNextTable? (path : List Text) (key : Text) (entries : Entries) : Option Entries :=
  let openIn (_ : Origin) (entries : Entries) : Option Entries :=
    match entries.find? key with
    | none => some (entries.append key (.tables [[]]))
    | some (.tables items) => some (entries.replace key (.tables (items ++ [[]])))
    | some _ => none
  within? .implied openIn path .stated entries

mutual

/-- The value that a node stands for when nothing is added any more. -/
def Node.toValue : Node → Value
  | .value value => value
  | .table _ entries => .table (entryValues entries)
  | .tables items => .array (tableValues items)

/-- The tables of an array as values. -/
def tableValues : List (List (Text × Node)) → List Value
  | [] => []
  | entries :: rest => .table (entryValues entries) :: tableValues rest

/-- The entries of a table as values. -/
def entryValues : List (Text × Node) → List (Text × Value)
  | [] => []
  | entry :: rest => entryValue entry :: entryValues rest

/-- An entry of a table as a value. -/
def entryValue : Text × Node → Text × Value
  | (key, node) => (key, node.toValue)

end

/-- A statement of a document. The last part of a key stands apart from the path before it. -/
inductive Statement where
  | header (path : List Text) (key : Text)
  | arrayHeader (path : List Text) (key : Text)
  | entry (path : List Text) (key : Text) (value : Value)

/-- Adds statements to a document, given the path of the table that entries go to. -/
def assemble? (current : List Text) : List Statement → Entries → Option Entries
  | [], entries => some entries
  | .header path key :: rest, entries =>
      (openTable? path key entries).bind (assemble? (path ++ [key]) rest)
  | .arrayHeader path key :: rest, entries =>
      (openNextTable? path key entries).bind (assemble? (path ++ [key]) rest)
  | .entry path key value :: rest, entries =>
      (within? .implied (fun _ => assign? path key value) current .stated entries).bind
        (assemble? current rest)

/-- The table that entries written one after the other make up, as in an inline table. -/
def tableOf? : List (List Text × Text × Value) → Entries → Option Entries
  | [], entries => some entries
  | (path, key, value) :: rest, entries => (assign? path key value entries).bind (tableOf? rest)

end QueryTables.Toml
