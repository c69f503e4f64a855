import QueryTables.Proofs.Splitting
import QueryTables.Proofs.Tables

/-!
# What unquoting takes away

The qualified name of a text is the text itself, cut at a dot or not at all, with pairs of quote
marks taken off the parts (`of_literal_cases`). So printing it gives back all characters but quote
marks, whatever the text is. Of a name that a scan records all quote marks are taken away, and
unquoting such names a second time changes nothing (`unquoting_deletes_marks`).
-/

namespace QueryTables

open Text

/-- A text without its quote marks has none. -/
theorem mark_not_in_without_marks (text : Text) : quoteMark ∉ withoutMarks text := by
  intro hmark
  have hkept := (List.mem_filter.1 hmark).2
  exact absurd hkept (by simp)

/-- A part either stays as it is or stands between two quote marks, which are taken off. -/
theorem without_quotes_cases (part : Text) :
    withoutQuotes part = part ∨
      part = Identifier.inQuotes (withoutQuotes part) ∧ withoutQuotes part ≠ [] := by
  cases part with
  | nil => exact .inl rfl
  | cons c rest =>
      by_cases hquoted : c = quoteMark ∧ rest.getLast? = some quoteMark ∧ rest.dropLast ≠ []
      · right
        have htaken : withoutQuotes (c :: rest) = rest.dropLast := if_pos hquoted
        obtain ⟨rfl, hlast, hinner⟩ := hquoted
        rw [htaken]
        refine ⟨?_, hinner⟩
        rw [Identifier.inQuotes, List.dropLast_append_getLast? _ hlast]
      · left
        exact if_neg hquoted

/-- Taking quote marks off a part changes nothing but quote marks. -/
theorem without_marks_without_quotes (part : Text) :
    withoutMarks (withoutQuotes part) = withoutMarks part := by
  rcases without_quotes_cases part with hsame | ⟨hquoted, -⟩
  · rw [hsame]
  · rw [← without_marks_in_quotes, ← hquoted]

/-- Something is left of a part when quote marks are taken off. -/
theorem without_quotes_ne_nil {part : Text} (h : part ≠ []) : withoutQuotes part ≠ [] := by
  rcases without_quotes_cases part with hsame | ⟨-, hne⟩
  · rw [hsame]
    exact h
  · exact hne

/-- The two parts of a text that is cut make it up. -/
theorem cut_head_append (literal : Text) :
    (cutHead literal).1 ++ (cutHead literal).2 = literal := by
  unfold cutHead
  cases hread : readQuoted? literal with
  | none => exact List.takeWhile_append_dropWhile
  | some found => exact (inQuotes_append_of_readQuoted? hread).symm

/-- The qualified name of a text is the text cut at a dot with something behind it, or the whole
text, with quote marks taken off the parts. -/
theorem of_literal_cases (literal : Text) :
    (∃ head table, literal = head ++ '.' :: table ∧ table ≠ [] ∧
      QualifiedName.ofLiteral literal = ⟨some (withoutQuotes head), withoutQuotes table⟩) ∨
    QualifiedName.ofLiteral literal = ⟨none, withoutQuotes literal⟩ := by
  have hwhole := cut_head_append literal
  unfold QualifiedName.ofLiteral
  split
  · rename_i c rest hdot
    left
    rw [cons_of_readDot? hdot] at hwhole
    exact ⟨(cutHead literal).1, c :: rest, hwhole.symm, List.cons_ne_nil c rest, rfl⟩
  · exact .inr rfl

/-- A printed qualified name has all characters of the text but quote marks. -/
theorem without_marks_display (literal : Text) :
    withoutMarks (QualifiedName.ofLiteral literal).display = withoutMarks literal := by
  rcases of_literal_cases literal with ⟨head, table, hparts, -, hname⟩ | hname
  · have hprinted : (QualifiedName.ofLiteral literal).display =
        withoutQuotes head ++ '.' :: withoutQuotes table := by
      rw [hname]
      rfl
    rw [hprinted, without_marks_dotted, without_marks_without_quotes, without_marks_without_quotes,
      ← without_marks_dotted, ← hparts]
  · have hprinted : (QualifiedName.ofLiteral literal).display = withoutQuotes literal := by
      rw [hname]
      rfl
    rw [hprinted, without_marks_without_quotes]

/-- The qualified name of a text that is not empty has a table that is not empty. -/
theorem table_of_literal_ne_nil {literal : Text} (h : literal ≠ []) :
    (QualifiedName.ofLiteral literal).table ≠ [] := by
  rcases of_literal_cases literal with ⟨head, table, -, htable, hname⟩ | hname
  · rw [hname]
    exact without_quotes_ne_nil htable
  · rw [hname]
    exact without_quotes_ne_nil h

/-- A text without quote marks is printed as it is. -/
theorem display_of_no_mark {literal : Text} (h : quoteMark ∉ literal) :
    (QualifiedName.ofLiteral literal).display = literal := by
  have hkept : ∀ part : Text, quoteMark ∉ part → withoutQuotes part = part := by
    intro part hpart
    exact without_quotes_eq_self fun hhead => hpart (List.mem_of_mem_head? hhead)
  rcases of_literal_cases literal with ⟨head, table, hparts, -, hname⟩ | hname
  · rw [hparts, List.mem_append, List.mem_cons, not_or, not_or] at h
    obtain ⟨hhead, -, htable⟩ := h
    rw [hname, hkept head hhead, hkept table htable, hparts]
    rfl
  · rw [hname, hkept literal h]
    rfl

/-- A name that the scan records is printed without any of its quote marks. -/
theorem display_of_table_name {query name : Text} (h : name ∈ tableNames query) :
    (QualifiedName.ofLiteral name).display = withoutMarks name := by
  obtain ⟨table, htable, rfl⟩ := List.mem_map.1 h
  obtain ⟨identifier, hidentifier, hliteral⟩ := (extract_tallies query).exists_identifier htable
  have hformed := recorded_well_formed hidentifier
  rw [← hliteral, qualified_name_of_literal hformed]
  exact Identifier.unquoted_eq_without_marks hformed

/-- Printing the qualified name of a text deletes nothing but quote marks, and leaves a table where
there is any text. Of the names of the tables of a query it deletes all quote marks: unquoted, they
are their spellings without quote marks, each once in order of first occurrence, and unquoting them
again changes nothing. -/
theorem unquoting_deletes_marks :
    (∀ name : Text,
      withoutMarks (QualifiedName.ofLiteral name).display = withoutMarks name ∧
        (name ≠ [] → (QualifiedName.ofLiteral name).table ≠ [])) ∧
    ∀ query : Text,
      (∀ name ∈ tableNames query,
        (QualifiedName.ofLiteral name).display = withoutMarks name) ∧
      unquoteNames (tableNames query) = ((tableNames query).map withoutMarks).eraseDups ∧
      unquoteNames (unquoteNames (tableNames query)) = unquoteNames (tableNames query) := by
  refine ⟨fun name => ⟨without_marks_display name, table_of_literal_ne_nil⟩, fun query => ?_⟩
  have hnames : unquoteNames (tableNames query) =
      distinct ((tableNames query).map withoutMarks) := by
    rw [unquoteNames, List.map_congr_left fun name hname => display_of_table_name hname]
  refine ⟨fun name hname => display_of_table_name hname, ?_, ?_⟩
  · rw [hnames, distinct_eq_erase_dups]
  · -- No quote mark is left in the names, so each is printed as it is, and they are distinct.
    have hprinted : ∀ name ∈ distinct ((tableNames query).map withoutMarks),
        (QualifiedName.ofLiteral name).display = name := by
      intro name hname
      obtain ⟨literal, -, rfl⟩ := List.mem_map.1 (mem_distinct.1 hname)
      exact display_of_no_mark (mark_not_in_without_marks literal)
    rw [hnames, unquoteNames, List.map_congr_left hprinted, List.map_id',
      distinct_eq_self (nodup_distinct _)]

/-- A name that no scan records can have more quote marks inside those that are taken off. -/
example : unquoteNames ["``a``".toList] = ["`a`".toList] ∧
    unquoteNames ["`a`".toList] = [['a']] := by
  decide

end QueryTables
