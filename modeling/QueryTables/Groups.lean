/-!
# Groups in order of first occurrence

Rows with the same key are joined into one group, and the groups stand in the order in which their
keys first occur. A list of groups can be extended by further rows, so that gathering a longer list
continues from what its first part gave (`gather_append`).
-/

namespace QueryTables

variable {Row Key : Type} [DecidableEq Key] (key : Row → Key) (join : Row → Row → Row)

/-- Joins a row into the first group with its key, or puts it behind the others as a new group. -/
def addRow : List Row → Row → List Row
  | [], row => [row]
  | group :: groups, row =>
      if key group = key row then join group row :: groups else group :: addRow groups row

/-- The groups that are there, extended by further rows one after the other. -/
def gatherOnto (groups rows : List Row) : List Row :=
  rows.foldl (addRow key join) groups

/-- The rows as groups, one for each key. -/
def gather (rows : List Row) : List Row :=
  gatherOnto key join [] rows

/-- The values of a list without repetitions, in order of first occurrence. -/
def distinct {α : Type} [DecidableEq α] (values : List α) : List α :=
  gather id (fun first _ => first) values

/-- Gathering two lists continues from the groups of the first. -/
theorem gather_append (first second : List Row) :
    gather key join (first ++ second) = gatherOnto key join (gather key join first) second := by
  simp [gather, gatherOnto, List.foldl_append]

end QueryTables
