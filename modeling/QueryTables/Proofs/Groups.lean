import Mathlib.Algebra.GroupWithZero.Nat
import Mathlib.Data.List.Induction
import Mathlib.Data.List.Nodup
import QueryTables.Groups

/-!
# What gathering rows gives

The keys of the groups are the keys of the rows, each once, in order of first occurrence
(`keys_gather`). What a join adds up stays the same over any choice of keys (`sum_gather`), so it
is, in each group, the sum over the rows with its key (`measure_gather`); what a join keeps comes
from one of these rows (`part_gather`). Two lists with the same keys in the same order are equal
when their rows are (`eq_of_keys`).
-/

namespace QueryTables

variable {Row Key : Type} [DecidableEq Key] {key : Row → Key} {join : Row → Row → Row}

/-- A further row adds its key behind the others unless it is there already. -/
theorem keys_add_row (hjoin : ∀ group row, key (join group row) = key group) (groups : List Row)
    (row : Row) :
    (addRow key join groups row).map key =
      if key row ∈ groups.map key then groups.map key else groups.map key ++ [key row] := by
  induction groups with
  | nil => simp [addRow]
  | cons group groups ih =>
      unfold addRow
      by_cases hkey : key group = key row
      · simp [hkey, hjoin]
      · have hother : ¬ key row = key group := fun h => hkey h.symm
        by_cases hmem : key row ∈ groups.map key
        · simp only [if_neg hkey, List.map_cons, ih, if_pos hmem]
          rw [if_pos (List.mem_cons_of_mem _ hmem)]
        · simp only [if_neg hkey, List.map_cons, ih, if_neg hmem]
          rw [if_neg (by simpa [hother] using hmem), List.cons_append]

/-- Rows after others are gathered onto the groups of the others. -/
theorem gather_onto_append (groups first second : List Row) :
    gatherOnto key join groups (first ++ second) =
      gatherOnto key join (gatherOnto key join groups first) second := by
  simp [gatherOnto, List.foldl_append]

/-- The rows of a list extended by one are gathered by adding the last to the groups of the
others. -/
theorem gather_concat (rows : List Row) (row : Row) :
    gather key join (rows ++ [row]) = addRow key join (gather key join rows) row := by
  rw [gather_append]
  show addRow key join (gather key join rows) row = _
  rfl

/-- There are groups exactly when there are rows. -/
theorem gather_eq_nil_iff {rows : List Row} : gather key join rows = [] ↔ rows = [] := by
  induction rows using List.reverseRecOn with
  | nil => exact Iff.rfl
  | append_singleton rows row _ =>
      rw [gather_concat]
      cases gather key join rows with
      | nil => simp [addRow]
      | cons group groups =>
          unfold addRow
          split <;> simp

/-- A further value is distinct from the others or already among them. -/
theorem distinct_concat {α : Type} [DecidableEq α] (values : List α) (value : α) :
    distinct (values ++ [value]) =
      if value ∈ distinct values then distinct values else distinct values ++ [value] := by
  have hkeys := @keys_add_row α α _ id (fun first _ => first) (fun _ _ => rfl)
    (distinct values) value
  unfold distinct at *
  rw [gather_concat]
  simpa using hkeys

/-- The distinct values of a list are the values of the list. -/
theorem mem_distinct {α : Type} [DecidableEq α] {values : List α} {value : α} :
    value ∈ distinct values ↔ value ∈ values := by
  induction values using List.reverseRecOn with
  | nil => rfl
  | append_singleton values last ih =>
      rw [distinct_concat, List.mem_append, List.mem_singleton, ← ih]
      split
      · constructor
        · exact .inl
        · intro h
          rcases h with h | rfl <;> assumption
      · simp

/-- The distinct values of a list stand there once. -/
theorem nodup_distinct {α : Type} [DecidableEq α] (values : List α) : (distinct values).Nodup := by
  induction values using List.reverseRecOn with
  | nil => exact List.nodup_nil
  | append_singleton values last ih =>
      rw [distinct_concat]
      split
      · exact ih
      · rename_i hlast
        exact List.nodup_append.2 ⟨ih, List.nodup_singleton _, by
          intro value hvalue other hother
          rw [List.mem_singleton.1 hother]
          exact fun heq => hlast (heq ▸ hvalue)⟩

/-- Values in another order have the same distinct values, in some order. -/
theorem distinct_perm {α : Type} [DecidableEq α] {values others : List α}
    (h : values.Perm others) : (distinct values).Perm (distinct others) := by
  refine (List.perm_ext_iff_of_nodup (nodup_distinct values) (nodup_distinct others)).2 ?_
  intro value
  rw [mem_distinct, mem_distinct]
  exact h.mem_iff

/-- Different values are all distinct. -/
theorem distinct_eq_self {α : Type} [DecidableEq α] {values : List α} (h : values.Nodup) :
    distinct values = values := by
  -- Values are gathered from the first to the last, so the induction is on the last.
  induction values using List.reverseRecOn with
  | nil => rfl
  | append_singleton values last ih =>
      obtain ⟨hvalues, -, hlast⟩ := List.nodup_append.1 h
      rw [distinct_concat, ih hvalues, if_neg]
      intro hmem
      exact hlast last hmem last (by simp) rfl

/-- The distinct values of a list are left when the repetitions of earlier values are erased. -/
theorem distinct_eq_erase_dups {α : Type} [DecidableEq α] [BEq α] [LawfulBEq α]
    (values : List α) : distinct values = values.eraseDups := by
  induction values using List.reverseRecOn with
  | nil => rfl
  | append_singleton values last ih =>
      rw [distinct_concat, List.eraseDups_append, ih]
      by_cases hlast : last ∈ values <;> simp [hlast, List.removeAll, List.eraseDups_cons]

/-- The distinct values of two lists are those of the first and then the new ones of the second. -/
theorem distinct_append {α : Type} [DecidableEq α] (first second : List α) :
    distinct (first ++ second) =
      distinct first ++ (distinct second).filter fun value => value ∉ distinct first := by
  induction second using List.reverseRecOn with
  | nil =>
      rw [List.append_nil]
      exact (List.append_nil _).symm
  | append_singleton second last ih =>
      rw [← List.append_assoc, distinct_concat, distinct_concat, ih]
      by_cases hfirst : last ∈ distinct first
      · by_cases hsecond : last ∈ distinct second <;> simp [hfirst, hsecond]
      · by_cases hsecond : last ∈ distinct second <;> simp [hfirst, hsecond]

/-- The distinct images of the distinct values are those of all the values. -/
theorem distinct_map_distinct {α β : Type} [DecidableEq α] [DecidableEq β] (f : α → β)
    (values : List α) : distinct ((distinct values).map f) = distinct (values.map f) := by
  induction values using List.reverseRecOn with
  | nil => rfl
  | append_singleton values last ih =>
      rw [distinct_concat, List.map_append, List.map_singleton, distinct_concat, ← ih]
      by_cases hmem : last ∈ distinct values
      · have himage : f last ∈ distinct ((distinct values).map f) :=
          mem_distinct.2 (List.mem_map_of_mem hmem)
        rw [if_pos hmem, if_pos himage]
      · rw [if_neg hmem, List.map_append, List.map_singleton, distinct_concat]

/-- The keys of the groups are the keys of the rows, each once, in order of first occurrence. -/
theorem keys_gather (hjoin : ∀ group row, key (join group row) = key group) (rows : List Row) :
    (gather key join rows).map key = distinct (rows.map key) := by
  induction rows using List.reverseRecOn with
  | nil => rfl
  | append_singleton rows row ih =>
      rw [gather_concat, keys_add_row hjoin, ih, List.map_append, List.map_singleton,
        distinct_concat]

/-- The groups have different keys. -/
theorem nodup_keys_gather (hjoin : ∀ group row, key (join group row) = key group)
    (rows : List Row) : ((gather key join rows).map key).Nodup := by
  rw [keys_gather hjoin]
  exact nodup_distinct _

/-- A group, after a further row, is a group as it was, a group joined by the row, or the row. -/
theorem mem_add_row {groups : List Row} {row group : Row}
    (h : group ∈ addRow key join groups row) :
    group ∈ groups ∨ (∃ former ∈ groups, group = join former row) ∨ group = row := by
  induction groups with
  | nil =>
      right
      right
      simpa [addRow] using h
  | cons first groups ih =>
      unfold addRow at h
      by_cases hkey : key first = key row
      · rw [if_pos hkey] at h
        rcases List.mem_cons.1 h with rfl | hmem
        · exact .inr (.inl ⟨first, by simp, rfl⟩)
        · exact .inl (List.mem_cons_of_mem _ hmem)
      · rw [if_neg hkey] at h
        rcases List.mem_cons.1 h with rfl | hmem
        · exact .inl (by simp)
        · rcases ih hmem with hold | ⟨former, hold, heq⟩ | heq
          · exact .inl (List.mem_cons_of_mem _ hold)
          · exact .inr (.inl ⟨former, List.mem_cons_of_mem _ hold, heq⟩)
          · exact .inr (.inr heq)

/-- A further row adds its measure to what the groups with certain keys measure together, if its key
is one of them. -/
theorem sum_add_row (measure : Row → Nat)
    (hjoin : ∀ group row, key (join group row) = key group)
    (hmeasure : ∀ group row, measure (join group row) = measure group + measure row)
    (p : Key → Bool) (groups : List Row) (row : Row) :
    (((addRow key join groups row).filter fun group => p (key group)).map measure).sum =
      ((groups.filter fun group => p (key group)).map measure).sum +
        if p (key row) then measure row else 0 := by
  induction groups with
  | nil => by_cases hp : p (key row) = true <;> simp [addRow, hp]
  | cons first groups ih =>
      unfold addRow
      by_cases hkey : key first = key row
      · by_cases hp : p (key row) = true
        · simp [hkey, hjoin, hmeasure, hp]
          omega
        · simp [hkey, hjoin, hp]
      · rw [if_neg hkey, List.filter_cons, List.filter_cons]
        by_cases hp : p (key first) = true
        · rw [if_pos hp, if_pos hp, List.map_cons, List.map_cons, List.sum_cons, List.sum_cons, ih]
          omega
        · rw [if_neg hp, if_neg hp, ih]

/-- A further row adds its measure to what the groups measure together. -/
theorem total_add_row (measure : Row → Nat)
    (hjoin : ∀ group row, key (join group row) = key group)
    (hmeasure : ∀ group row, measure (join group row) = measure group + measure row)
    (groups : List Row) (row : Row) :
    ((addRow key join groups row).map measure).sum = (groups.map measure).sum + measure row := by
  simpa using sum_add_row measure hjoin hmeasure (fun _ => true) groups row

/-- The groups with certain keys measure together what the rows with these keys do. -/
theorem sum_gather (measure : Row → Nat)
    (hjoin : ∀ group row, key (join group row) = key group)
    (hmeasure : ∀ group row, measure (join group row) = measure group + measure row)
    (p : Key → Bool) (rows : List Row) :
    (((gather key join rows).filter fun group => p (key group)).map measure).sum =
      ((rows.filter fun row => p (key row)).map measure).sum := by
  induction rows using List.reverseRecOn with
  | nil => rfl
  | append_singleton rows row ih =>
      rw [gather_concat, sum_add_row measure hjoin hmeasure, ih, List.filter_append,
        List.map_append, List.sum_append]
      by_cases hp : p (key row) = true <;> simp [hp]

/-- Groups that are extended by rows measure together what they did and what the rows do. -/
theorem total_gather_onto (measure : Row → Nat)
    (hjoin : ∀ group row, key (join group row) = key group)
    (hmeasure : ∀ group row, measure (join group row) = measure group + measure row)
    (groups rows : List Row) :
    ((gatherOnto key join groups rows).map measure).sum =
      (groups.map measure).sum + (rows.map measure).sum := by
  induction rows generalizing groups with
  | nil => rfl
  | cons row rows ih =>
      have hlater := ih (addRow key join groups row)
      rw [total_add_row measure hjoin hmeasure] at hlater
      rw [List.map_cons, List.sum_cons, ← Nat.add_assoc]
      exact hlater

/-- The groups measure together what the rows do. -/
theorem total_gather (measure : Row → Nat)
    (hjoin : ∀ group row, key (join group row) = key group)
    (hmeasure : ∀ group row, measure (join group row) = measure group + measure row)
    (rows : List Row) : ((gather key join rows).map measure).sum = (rows.map measure).sum := by
  rw [gather, total_gather_onto measure hjoin hmeasure, List.map_nil, List.sum_nil, Nat.zero_add]

/-- Where keys are different, a row is alone with its key. -/
theorem filter_key_of_nodup {rows : List Row} (hnodup : (rows.map key).Nodup) {row : Row}
    (h : row ∈ rows) : rows.filter (fun other => key other = key row) = [row] := by
  induction rows with
  | nil => simp at h
  | cons first rows ih =>
      rw [List.map_cons, List.nodup_cons] at hnodup
      rcases List.mem_cons.1 h with rfl | hmem
      · have hothers : rows.filter (fun other => key other = key row) = [] := by
          refine List.filter_eq_nil_iff.2 fun other hother => ?_
          intro heq
          exact hnodup.1 (of_decide_eq_true heq ▸ List.mem_map_of_mem hother)
        simp [hothers]
      · have hfirst : key first ≠ key row := by
          intro heq
          exact hnodup.1 (heq ▸ List.mem_map_of_mem hmem)
        simp [hfirst, ih hnodup.2 hmem]

/-- What a join adds up is, in each group, the sum over the rows with its key. -/
theorem measure_gather (measure : Row → Nat)
    (hjoin : ∀ group row, key (join group row) = key group)
    (hmeasure : ∀ group row, measure (join group row) = measure group + measure row)
    (rows : List Row) {group : Row} (h : group ∈ gather key join rows) :
    measure group = ((rows.filter fun row => key row = key group).map measure).sum := by
  have hsum := sum_gather measure hjoin hmeasure (fun value => value = key group) rows
  rw [filter_key_of_nodup (nodup_keys_gather hjoin rows) h] at hsum
  simpa using hsum

/-- What a join keeps comes from one of the rows with the key of the group. -/
theorem part_gather {α : Type} (part : Row → α)
    (hjoin : ∀ group row, key (join group row) = key group)
    (hpart : ∀ group row, part (join group row) = part group) (rows : List Row) {group : Row}
    (h : group ∈ gather key join rows) :
    ∃ row ∈ rows, key row = key group ∧ part row = part group := by
  induction rows using List.reverseRecOn generalizing group with
  | nil => exact absurd h (by simp [gather, gatherOnto])
  | append_singleton rows row ih =>
      rw [gather_concat] at h
      rcases mem_add_row h with hgroup | ⟨former, hformer, rfl⟩ | rfl
      · obtain ⟨origin, horigin, hsame⟩ := ih hgroup
        exact ⟨origin, List.mem_append_left _ horigin, hsame⟩
      · obtain ⟨origin, horigin, hsame⟩ := ih hformer
        rw [hjoin, hpart]
        exact ⟨origin, List.mem_append_left _ horigin, hsame⟩
      · exact ⟨group, by simp, rfl, rfl⟩

/-- A row with a new key is put behind the groups. -/
theorem add_row_new {groups : List Row} {row : Row} (h : key row ∉ groups.map key) :
    addRow key join groups row = groups ++ [row] := by
  induction groups with
  | nil => rfl
  | cons group groups ih =>
      rw [List.map_cons, List.mem_cons, not_or] at h
      unfold addRow
      rw [if_neg fun heq => h.1 heq.symm, ih h.2, List.cons_append]

/-- A row with the key of the last group, and of no other, joins the last group. -/
theorem add_row_last {groups : List Row} {last row : Row} (h : key row ∉ groups.map key)
    (hlast : key last = key row) :
    addRow key join (groups ++ [last]) row = groups ++ [join last row] := by
  induction groups with
  | nil => simp [addRow, hlast]
  | cons group groups ih =>
      rw [List.map_cons, List.mem_cons, not_or] at h
      rw [List.cons_append]
      unfold addRow
      rw [if_neg fun heq => h.1 heq.symm, ih h.2, List.cons_append]

omit [DecidableEq Key] in
/-- Lists with the same keys in the same order are equal when rows with the same key are. -/
theorem eq_of_keys {first second : List Row} (hkeys : first.map key = second.map key)
    (h : ∀ row ∈ first, ∀ other ∈ second, key row = key other → row = other) : first = second := by
  induction first generalizing second with
  | nil => simpa using hkeys.symm
  | cons row first ih =>
      cases second with
      | nil => simp at hkeys
      | cons other second =>
          rw [List.map_cons, List.map_cons, List.cons.injEq] at hkeys
          rw [h row (by simp) other (by simp) hkeys.1, ih hkeys.2 fun row hrow other hother =>
            h row (List.mem_cons_of_mem _ hrow) other (List.mem_cons_of_mem _ hother)]

end QueryTables
