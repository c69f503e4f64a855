import QueryTables.Proofs.Groups

/-!
# Groups by their keys, and merging

The group with a key is what the rows with this key give when they are joined one onto the other
(`group_gather`), and lists of groups are equal when their keys are and the groups with each key
(`eq_of_groups`). So, for a join that may be bracketed either way, the groups of two lists of rows
after one another are the merged groups of both: `gather_append_eq_merged`.
-/

namespace QueryTables

variable {Row Key : Type} [DecidableEq Key] {key : Row → Key} {join : Row → Row → Row}

/-- The first group with a key, if there is one. -/
def group? (key : Row → Key) (groups : List Row) (k : Key) : Option Row :=
  groups.find? fun group => key group = k

/-- Rows joined onto the first of them, if there is any. -/
def joined? (join : Row → Row → Row) : List Row → Option Row
  | [] => none
  | first :: others => some (others.foldl join first)

/-- A group joined by the one with its key from other groups, if there is one. -/
def joinedFrom (key : Row → Key) (join : Row → Row → Row) (others : List Row) (group : Row) : Row :=
  match group? key others (key group) with
  | none => group
  | some other => join group other

/-- The groups of two lists as one: those of the first, each joined by the group of the second with
its key, and behind them those of the second with new keys. -/
def merged (key : Row → Key) (join : Row → Row → Row) (first second : List Row) : List Row :=
  first.map (joinedFrom key join second) ++
    second.filter fun group => key group ∉ first.map key

/-- A further row joins the group with its key, or is the group with it from now on; the groups with
other keys stay as they are. -/
theorem group_add_row (hjoin : ∀ group row, key (join group row) = key group) (groups : List Row)
    (row : Row) (k : Key) :
    group? key (addRow key join groups row) k =
      if key row = k then some (((group? key groups k).map fun group => join group row).getD row)
      else group? key groups k := by
  induction groups with
  | nil => by_cases hrow : key row = k <;> simp [addRow, group?, hrow]
  | cons group groups ih =>
      unfold addRow
      unfold group? at ih ⊢
      by_cases hkey : key group = key row
      · by_cases hrow : key row = k <;> simp [hkey, hjoin, hrow]
      · rw [if_neg hkey]
        by_cases hgroup : key group = k
        · have hrow : key row ≠ k := fun h => hkey (hgroup.trans h.symm)
          simp [hgroup, hrow]
        · simp [hgroup, ih]

/-- A further row is joined onto the others. -/
theorem joined_concat (rows : List Row) (row : Row) :
    joined? join (rows ++ [row]) =
      some (((joined? join rows).map fun group => join group row).getD row) := by
  cases rows <;> simp [joined?]

/-- The group with a key is what the rows with this key give when they are joined. -/
theorem group_gather (hjoin : ∀ group row, key (join group row) = key group) (rows : List Row)
    (k : Key) :
    group? key (gather key join rows) k = joined? join (rows.filter fun row => key row = k) := by
  induction rows using List.reverseRecOn with
  | nil => rfl
  | append_singleton rows row ih =>
      rw [gather_concat, group_add_row hjoin, List.filter_append, ih]
      by_cases hrow : key row = k
      · rw [if_pos hrow, List.filter_cons_of_pos (by simpa using hrow), List.filter_nil,
          joined_concat]
      · rw [if_neg hrow, List.filter_cons_of_neg (by simpa using hrow), List.filter_nil,
          List.append_nil]

/-- Rows after others give, when they are joined, what the others give joined by what they give. -/
theorem joined_append (hassoc : ∀ a b c, join (join a b) c = join a (join b c))
    (first second : List Row) :
    joined? join (first ++ second) =
      Option.merge join (joined? join first) (joined? join second) := by
  induction second using List.reverseRecOn with
  | nil => cases first <;> simp [joined?]
  | append_singleton rows row ih =>
      rw [← List.append_assoc, joined_concat, joined_concat, ih]
      cases joined? join first <;> cases joined? join rows <;> simp [Option.merge, hassoc]

/-- Groups that keep their keys when they are changed are found under them as before. -/
theorem group_map {change : Row → Row} (hchange : ∀ group, key (change group) = key group)
    (groups : List Row) (k : Key) :
    group? key (groups.map change) k = (group? key groups k).map change := by
  simp only [group?, List.find?_map, Function.comp_def, hchange]

/-- Leaving out groups with other keys changes nothing about the group with a key. -/
theorem group_filter {p : Key → Bool} {k : Key} (h : p k = true) (groups : List Row) :
    group? key (groups.filter fun group => p (key group)) k = group? key groups k := by
  simp only [group?, List.find?_filter]
  congr 1
  funext group
  by_cases hkey : key group = k <;> simp [hkey, h]

/-- A group that is found has the key and is one of the groups. -/
theorem mem_of_group {groups : List Row} {k : Key} {group : Row}
    (h : group? key groups k = some group) : group ∈ groups ∧ key group = k :=
  ⟨List.mem_of_find?_eq_some h, by simpa using List.find?_some h⟩

/-- A group joined from others keeps its key. -/
theorem key_joined_from (hjoin : ∀ group row, key (join group row) = key group)
    (others : List Row) (group : Row) : key (joinedFrom key join others group) = key group := by
  unfold joinedFrom
  split
  · rfl
  · exact hjoin _ _

/-- A merged group is the group of either list with its key, or both joined. -/
theorem group_merged (hjoin : ∀ group row, key (join group row) = key group)
    (first second : List Row) (k : Key) :
    group? key (merged key join first second) k =
      Option.merge join (group? key first k) (group? key second k) := by
  have happend : group? key (merged key join first second) k =
      (group? key (first.map (joinedFrom key join second)) k).or
        (group? key (second.filter fun group => key group ∉ first.map key) k) :=
    List.find?_append
  rw [happend, group_map (key_joined_from hjoin second)]
  cases hfirst : group? key first k with
  | some group =>
      obtain ⟨-, rfl⟩ := mem_of_group hfirst
      rw [Option.map_some, Option.some_or, joinedFrom]
      cases group? key second (key group) <;> rfl
  | none =>
      have hnew : k ∉ first.map key := by
        intro hmem
        obtain ⟨group, hgroup, rfl⟩ := List.mem_map.1 hmem
        exact List.find?_eq_none.1 hfirst group hgroup (by simp)
      rw [group_filter (p := fun k => k ∉ first.map key) (by simpa using hnew)]
      cases group? key second k <;> rfl

/-- The keys of merged groups are those of the first list and then the new ones of the second. -/
theorem keys_merged (hjoin : ∀ group row, key (join group row) = key group)
    (first second : List Row) :
    (merged key join first second).map key =
      first.map key ++ (second.map key).filter fun k => k ∉ first.map key := by
  have hkeys : key ∘ joinedFrom key join second = key := funext (key_joined_from hjoin second)
  rw [merged, List.map_append, List.map_map, hkeys, List.filter_map]
  rfl

/-- A group is found by its key where keys are different. -/
theorem group_of_mem {groups : List Row} (hnodup : (groups.map key).Nodup) {group : Row}
    (h : group ∈ groups) : group? key groups (key group) = some group := by
  rw [group?, ← List.head?_filter, filter_key_of_nodup hnodup h]
  rfl

/-- Lists of groups with different keys are equal when the keys stand in the same order and the
groups with each key are the same. -/
theorem eq_of_groups {first second : List Row} (hkeys : first.map key = second.map key)
    (hnodup : (first.map key).Nodup)
    (h : ∀ k, group? key first k = group? key second k) : first = second := by
  refine eq_of_keys hkeys fun row hrow other hother hsame => ?_
  have hfirst := group_of_mem hnodup hrow
  have hsecond := group_of_mem (hkeys ▸ hnodup) hother
  rw [hsame, h, hsecond] at hfirst
  exact (Option.some.inj hfirst).symm

/-- The groups of two lists of rows after one another are the groups of both, merged. -/
theorem gather_append_eq_merged (hjoin : ∀ group row, key (join group row) = key group)
    (hassoc : ∀ a b c, join (join a b) c = join a (join b c)) (first second : List Row) :
    gather key join (first ++ second) =
      merged key join (gather key join first) (gather key join second) := by
  refine @eq_of_groups _ _ _ key _ _ ?_ (nodup_keys_gather hjoin _) fun k => ?_
  · rw [keys_merged hjoin, keys_gather hjoin, keys_gather hjoin, keys_gather hjoin,
      List.map_append, distinct_append]
  · rw [group_merged hjoin, group_gather hjoin, group_gather hjoin, group_gather hjoin,
      List.filter_append, joined_append hassoc]

end QueryTables
