import QueryTables.Proofs.Tables

/-!
# From names to a query and back

An identifier can be written behind a keyword and found again when its quoted parts are squeezed and
it has a word character. `recorded_clause_text` says that a row of such clauses, with single spaces
between them, is read back clause by clause; `recorded_writable`, that the scan records no other
identifiers. So the tables of a query, written as clauses again, are the tables of what was written.
-/

namespace QueryTables

open Text

namespace Identifier

/-- The parts of an identifier that stand between quote marks. -/
def quotedParts : Identifier → List Text
  | quotedQualified schema table => [schema, table]
  | quotedSchemaQualified schema _ => [schema]
  | quoted table => [table]
  | qualified _ _ | bare _ => []

/-- The parts of the identifier are allowed at their places, those between quote marks have no
blanks but single spaces, and there is a word character in one of them. -/
structure Writable (identifier : Identifier) : Prop where
  formed : identifier.WellFormed
  squeezed : ∀ part ∈ identifier.quotedParts, IsSqueezed part
  named : identifier.isNamed = true

end Identifier

/-- A squeezed quoted table with a word character can be written. -/
theorem Identifier.writable_quoted {table : Text} (h : Identifier.IsQuotedPart table)
    (hsqueezed : IsSqueezed table) (hnamed : (Identifier.quoted table).isNamed = true) :
    (Identifier.quoted table).Writable where
  formed := h
  squeezed _ hpart := List.mem_singleton.1 hpart ▸ hsqueezed
  named := hnamed

/-- Any two words can be written as schema and table. -/
theorem Identifier.writable_qualified {schema table : Text} (hschema : Identifier.IsWord schema)
    (htable : Identifier.IsWord table) : (Identifier.qualified schema table).Writable where
  formed := ⟨hschema, htable⟩
  squeezed _ hpart := absurd hpart List.not_mem_nil
  named := Identifier.named_of_ends_in_word ⟨hschema, htable⟩ rfl

/-- Two squeezed texts make up a squeezed one unless two spaces meet. -/
theorem Text.IsSqueezed.append {left right : Text} (hleft : IsSqueezed left)
    (hright : IsSqueezed right) (hseam : left.getLast? = some ' ' → right.head? ≠ some ' ') :
    IsSqueezed (left ++ right) where
  blanks c hc := by
    rcases List.mem_append.1 hc with hc | hc
    · exact hleft.blanks c hc
    · exact hright.blanks c hc
  single := by
    refine List.isChain_append.2 ⟨hleft.single, hright.single, ?_⟩
    intro last hlast first hfirst hspace heq
    rw [hspace] at hlast
    rw [heq] at hfirst
    exact hseam hlast hfirst

/-- A text without blanks is squeezed. -/
theorem squeezed_of_no_blank {text : Text} (h : ∀ c ∈ text, isBlank c = false) :
    IsSqueezed text where
  blanks c hc hblank := absurd (hblank.symm.trans (h c hc)) (by simp)
  single := by
    refine List.Pairwise.isChain (List.pairwise_of_forall_mem_list ?_)
    intro left hleft right _ hspace
    exact absurd hspace (ne_space_of_not_blank (h left hleft))

/-- A word is squeezed. -/
theorem squeezed_of_word {word : Text} (h : Identifier.IsWord word) : IsSqueezed word :=
  squeezed_of_no_blank fun c hc => word_character_not_blank (h.2 c hc)

/-- Two texts with a character between them that is no blank are squeezed when both are. -/
theorem squeezed_joined_iff {left right : Text} {mark : Char} (hmark : isBlank mark = false) :
    IsSqueezed (left ++ mark :: right) ↔ IsSqueezed left ∧ IsSqueezed right := by
  have hspace := ne_space_of_not_blank hmark
  constructor
  · intro h
    refine ⟨h.left_of_append, ?_⟩
    exact IsSqueezed.right_of_append (show IsSqueezed ([mark] ++ right) from h.right_of_append)
  · intro h
    exact h.1.append (h.2.cons (by simp [hmark])) (by simpa using fun _ => hspace)

/-- A part between quote marks is squeezed when the part is. -/
theorem squeezed_in_quotes_iff {inner : Text} :
    IsSqueezed (Identifier.inQuotes inner) ↔ IsSqueezed inner := by
  have hmark : isBlank quoteMark = false := by decide
  have hnil : IsSqueezed [] := squeezed_of_no_blank (by simp)
  have hparts : Identifier.inQuotes inner = [] ++ quoteMark :: (inner ++ quoteMark :: []) := rfl
  rw [hparts, squeezed_joined_iff hmark, squeezed_joined_iff hmark]
  exact ⟨fun h => h.2.1, fun h => ⟨hnil, h, hnil⟩⟩

/-- A literal is squeezed exactly when its quoted parts are. -/
theorem squeezed_literal_iff {identifier : Identifier} (h : identifier.WellFormed) :
    IsSqueezed identifier.literal ↔ ∀ part ∈ identifier.quotedParts, IsSqueezed part := by
  have hdot : isBlank '.' = false := by decide
  cases identifier with
  | quotedQualified schema table =>
      rw [Identifier.literal, squeezed_joined_iff hdot, squeezed_in_quotes_iff,
        squeezed_in_quotes_iff]
      simp [Identifier.quotedParts]
  | quotedSchemaQualified schema table =>
      rw [Identifier.literal, squeezed_joined_iff hdot, squeezed_in_quotes_iff]
      simp [Identifier.quotedParts, squeezed_of_word h.2]
  | qualified schema table =>
      rw [Identifier.literal, squeezed_joined_iff hdot]
      simp [Identifier.quotedParts, squeezed_of_word h.1, squeezed_of_word h.2]
  | quoted table =>
      rw [Identifier.literal, squeezed_in_quotes_iff]
      simp [Identifier.quotedParts]
  | bare table => simp [Identifier.literal, Identifier.quotedParts, squeezed_of_word h]

/-- A squeezed text with a character other than the space at either end. -/
structure Text.IsTrimmed (text : Text) : Prop where
  squeezed : IsSqueezed text
  first : ∃ c, text.head? = some c ∧ c ≠ ' '
  last : ∃ c, text.getLast? = some c ∧ c ≠ ' '

/-- Two trimmed texts with a space between them are a trimmed text. -/
theorem Text.IsTrimmed.join {left right : Text} (hleft : IsTrimmed left)
    (hright : IsTrimmed right) : IsTrimmed (left ++ ' ' :: right) := by
  obtain ⟨hleft_squeezed, ⟨first, hfirst, hfirst_ne⟩, last, hlast, hlast_ne⟩ := hleft
  obtain ⟨hright_squeezed, ⟨next, hnext, hnext_ne⟩, final, hfinal, hfinal_ne⟩ := hright
  have hend : (left ++ ' ' :: right).getLast? = some final := by
    simp [hfinal, List.getLast?_cons]
  refine ⟨?_, ⟨first, by simp [hfirst], hfirst_ne⟩, ⟨final, hend, hfinal_ne⟩⟩
  refine hleft_squeezed.append (hright_squeezed.cons fun _ => ⟨rfl, ?_⟩) ?_
  · simpa [hnext] using hnext_ne
  · simpa [hlast] using fun heq : last = ' ' => absurd heq hlast_ne

/-- No word character is a space, and neither is the quote mark. -/
theorem ne_space {c : Char} (h : isWordCharacter c = true ∨ c = quoteMark) : c ≠ ' ' := by
  rcases h with h | rfl
  · exact ne_space_of_not_blank (word_character_not_blank h)
  · decide

/-- A word is a trimmed text. -/
theorem trimmed_of_word {word : Text} (h : Identifier.IsWord word) : IsTrimmed word := by
  obtain ⟨last, hlast, hlast_word⟩ := last_of_word h
  obtain ⟨first, others, rfl⟩ := List.exists_cons_of_ne_nil h.1
  exact ⟨squeezed_of_word h, ⟨first, rfl, ne_space (.inl (h.2 first (by simp)))⟩,
    ⟨last, hlast, ne_space (.inl hlast_word)⟩⟩

/-- The literal of an identifier that can be written is a trimmed text. -/
theorem trimmed_literal {identifier : Identifier} (h : identifier.Writable) :
    IsTrimmed identifier.literal := by
  obtain ⟨first, hfirst, hfirst_mark⟩ := Identifier.first_of_literal h.formed
  obtain ⟨last, hlast, hword, hquote⟩ := Identifier.last_of_literal h.formed
  refine ⟨(squeezed_literal_iff h.formed).2 h.squeezed, ⟨first, hfirst, ne_space hfirst_mark⟩,
    ⟨last, hlast, ne_space ?_⟩⟩
  cases hend : identifier.endsInWord with
  | true => exact .inl (hword hend)
  | false => exact .inr (hquote hend)

/-- Keywords and identifiers as a text, with single spaces between them. -/
def clauseText (clauses : List (Text × Identifier)) : Text :=
  joinedBy [' '] (clauses.map fun clause => clause.1 ++ ' ' :: clause.2.literal)

/-- A keyword, in any case of letters, and an identifier that can be written behind it. -/
def IsClause (clause : Text × Identifier) : Prop :=
  (∃ keyword : Keyword, sameIgnoringCase clause.1 keyword.text = true) ∧ clause.2.Writable

/-- A clause is a trimmed text. -/
theorem trimmed_clause {clause : Text × Identifier} (h : IsClause clause) :
    IsTrimmed (clause.1 ++ ' ' :: clause.2.literal) := by
  obtain ⟨⟨keyword, hsame⟩, hwritable⟩ := h
  have hword := Keyword.word_of_token (Keyword.of_token_iff.2 hsame)
  exact (trimmed_of_word hword).join (trimmed_literal hwritable)

/-- A clause at the start of a text is the first step, where what follows does not belong to its
identifier. -/
theorem takes_clause {token rest : Text} {keyword : Keyword} {identifier : Identifier}
    (hkeyword : Keyword.ofToken? token = some keyword) (hformed : identifier.WellFormed)
    (hends : identifier.EndsBefore rest) :
    Takes (token ++ ' ' :: (identifier.literal ++ rest))
      (.clause keyword token [' '] (some identifier)) rest := by
  refine .read ⟨?_, Keyword.space_not_in_token hkeyword, .inl rfl⟩ hkeyword hformed hends
  simp

/-- Clauses with single spaces between them are read back, one after the other. -/
theorem recorded_clause_text {clauses : List (Text × Identifier)}
    (h : ∀ clause ∈ clauses, IsClause clause) :
    (steps (clauseText clauses)).filterMap Step.recorded? = clauses.map Prod.snd := by
  induction clauses with
  | nil => simp [clauseText, joinedBy, steps_nil]
  | cons clause clauses ih =>
      obtain ⟨token, identifier⟩ := clause
      obtain ⟨⟨⟨keyword, hsame⟩, hformed, -, hnamed⟩, hclauses⟩ := List.forall_mem_cons.1 h
      have hkeyword := Keyword.of_token_iff.2 hsame
      -- A clause is one step; the space behind it is another, which passes over an empty token.
      have hrecorded : Step.recorded? (.clause keyword token [' '] (some identifier)) =
          some identifier := Step.recorded_of_named hnamed
      cases clauses with
      | nil =>
          have htext : clauseText [(token, identifier)] =
              token ++ ' ' :: (identifier.literal ++ []) := by
            simp [clauseText, joinedBy]
          rw [htext, steps_of_takes (takes_clause hkeyword hformed identifier.ends_before_nil)]
          simp [hrecorded, steps_nil]
      | cons next clauses =>
          have htext : clauseText ((token, identifier) :: next :: clauses) =
              token ++ ' ' :: (identifier.literal ++ ' ' :: clauseText (next :: clauses)) := by
            simp [clauseText, joinedBy]
          rw [htext, steps_of_takes (takes_clause hkeyword hformed
            (identifier.ends_before_space _)), steps_of_takes (takes_space _)]
          rw [List.filterMap_cons_some hrecorded, List.filterMap_cons_none rfl, ih hclauses]
          rfl

/-- Clauses with single spaces between them are a trimmed text. -/
theorem trimmed_clause_text {clause : Text × Identifier} {clauses : List (Text × Identifier)}
    (h : ∀ other ∈ clause :: clauses, IsClause other) :
    IsTrimmed (clauseText (clause :: clauses)) := by
  induction clauses generalizing clause with
  | nil => simpa [clauseText, joinedBy] using trimmed_clause (h clause (by simp))
  | cons next clauses ih =>
      have hnext := ih (List.forall_mem_cons.1 h).2
      have htext : clauseText (clause :: next :: clauses) =
          (clause.1 ++ ' ' :: clause.2.literal) ++ ' ' :: clauseText (next :: clauses) := by
        simp [clauseText, joinedBy]
      rw [htext]
      exact (trimmed_clause (h clause (by simp))).join hnext

/-- Squeezing changes no clauses with single spaces between them. -/
theorem squeeze_clause_text {clauses : List (Text × Identifier)}
    (h : ∀ clause ∈ clauses, IsClause clause) :
    squeeze (clauseText clauses) = clauseText clauses := by
  cases clauses with
  | nil => rfl
  | cons clause clauses => exact squeeze_eq_self (trimmed_clause_text h).squeezed

/-- The identifiers recorded for a row of clauses are those of the clauses. -/
theorem recorded_identifiers_clause_text {clauses : List (Text × Identifier)}
    (h : ∀ clause ∈ clauses, IsClause clause) :
    recordedIdentifiers (clauseText clauses) = clauses.map Prod.snd := by
  rw [recorded_identifiers_eq, squeeze_clause_text h, recorded_clause_text h]

/-- Every identifier recorded for a query can be written behind a keyword. -/
theorem recorded_writable {query : Text} {identifier : Identifier}
    (h : identifier ∈ recordedIdentifiers query) : identifier.Writable := by
  obtain ⟨hnamed, earlier, keyword, token, gap, later, hsteps⟩ := exists_clause_of_recorded h
  obtain ⟨rest, hscans, -, -, hformed, -⟩ := clause_of_steps hsteps
  refine ⟨hformed, (squeezed_literal_iff hformed).1 ?_, hnamed⟩
  have hquery := squeeze_is_squeezed query
  rw [hscans.parts, ← List.singleton_append, ← List.append_assoc] at hquery
  exact hquery.right_of_append.right_of_append.left_of_append

/-- The tables written as clauses again: `FROM` and the name, as often as the table occurs, in order
and with single spaces between them. -/
def clausesOfTables (tables : List Table) : Text :=
  joinedBy [' '] (tables.flatMap fun table =>
    List.replicate table.occurrences ("FROM ".toList ++ table.name))

/-- The entry for one occurrence of a table. -/
def Table.once (table : Table) : Table :=
  { table with occurrences := 1 }

/-- Tables named by identifiers that can be written are written as clauses with these
identifiers. -/
theorem exists_clauses_of_tables {tables : List Table}
    (h : ∀ table ∈ tables, ∃ identifier : Identifier, identifier.Writable ∧
      identifier.literal = table.name ∧ identifier.shape = table.shape) :
    ∃ clauses : List (Text × Identifier), (∀ clause ∈ clauses, IsClause clause) ∧
      (clauses.map fun clause => clause.1 ++ ' ' :: clause.2.literal) =
        (tables.flatMap fun table =>
          List.replicate table.occurrences ("FROM ".toList ++ table.name)) ∧
      (clauses.map fun clause => Table.ofIdentifier clause.2) =
        tables.flatMap fun table => List.replicate table.occurrences table.once := by
  induction tables with
  | nil => exact ⟨[], by simp, rfl, rfl⟩
  | cons table tables ih =>
      obtain ⟨⟨identifier, hwritable, hname, hshape⟩, htables⟩ := List.forall_mem_cons.1 h
      obtain ⟨clauses, hclauses, htexts, hentries⟩ := ih htables
      refine ⟨List.replicate table.occurrences ("FROM".toList, identifier) ++ clauses, ?_, ?_, ?_⟩
      · intro clause hclause
        rcases List.mem_append.1 hclause with hfirst | hother
        · rw [List.eq_of_mem_replicate hfirst]
          have hfrom : sameIgnoringCase "FROM".toList Keyword.fromClause.text = true := by decide
          exact ⟨⟨.fromClause, hfrom⟩, hwritable⟩
        · exact hclauses clause hother
      · rw [List.map_append, List.map_replicate, htexts, List.flatMap_cons, hname]
        rfl
      · rw [List.map_append, List.map_replicate, hentries, List.flatMap_cons, Table.ofIdentifier,
          hname, hshape]
        rfl

/-- The entries for a table that is not among the groups are gathered into it. -/
theorem gather_onto_replicate {groups : List Table} {table : Table}
    (h : table.name ∉ groups.map Table.name) (n : Nat) :
    gatherOnto Table.name Table.join groups (List.replicate (n + 1) table.once) =
      groups ++ [{ table with occurrences := n + 1 }] := by
  induction n with
  | zero => exact add_row_new h
  | succ n ih =>
      rw [List.replicate_succ', gather_onto_append, ih]
      exact add_row_last h rfl

/-- The entries for different tables, each as often as it occurs, are gathered into the tables. -/
theorem gather_onto_entries {groups tables : List Table}
    (hnames : ((groups ++ tables).map Table.name).Nodup)
    (hoccur : ∀ table ∈ tables, 0 < table.occurrences) :
    gatherOnto Table.name Table.join groups
        (tables.flatMap fun table => List.replicate table.occurrences table.once) =
      groups ++ tables := by
  -- The groups grow by each table in turn, and all names stay different.
  induction tables generalizing groups with
  | nil => simp [gatherOnto]
  | cons table tables ih =>
      obtain ⟨hpos, htables⟩ := List.forall_mem_cons.1 hoccur
      obtain ⟨n, hn⟩ : ∃ n, table.occurrences = n + 1 := ⟨table.occurrences - 1, by omega⟩
      have hnew : table.name ∉ groups.map Table.name := by
        intro hmem
        rw [List.map_append, List.nodup_append] at hnames
        exact hnames.2.2 _ hmem _ (by simp) rfl
      have htable : { table with occurrences := n + 1 } = table := by
        rw [← hn]
      rw [List.flatMap_cons, gather_onto_append, hn, gather_onto_replicate hnew, htable,
        ih (by simpa using hnames) htables]
      simp

/-- Clauses with keywords in any case of letters and with identifiers that can be written, single
spaces between them, are read as the tally of these identifiers. The names of the tables of any
query are such identifiers, and its tables, written as clauses again, are read as themselves. -/
theorem names_round_trip :
    (∀ clauses : List (Text × Identifier), (∀ clause ∈ clauses, IsClause clause) →
      Tallies (extract (clauseText clauses)) (clauses.map Prod.snd)) ∧
    ∀ query : Text,
      (∀ table ∈ extract query, ∃ identifier : Identifier, identifier.Writable ∧
        identifier.literal = table.name ∧ identifier.shape = table.shape) ∧
      extract (clausesOfTables (extract query)) = extract query := by
  constructor
  · intro clauses hclauses
    have htallies := extract_tallies (clauseText clauses)
    rwa [recorded_identifiers_clause_text hclauses] at htallies
  · intro query
    have htallies := extract_tallies query
    have hwritable : ∀ table ∈ extract query, ∃ identifier : Identifier, identifier.Writable ∧
        identifier.literal = table.name ∧ identifier.shape = table.shape := by
      intro table htable
      obtain ⟨identifier, hmem, hname⟩ := htallies.exists_identifier htable
      exact ⟨identifier, recorded_writable hmem, hname,
        htallies.shapes table htable identifier hmem hname⟩
    refine ⟨hwritable, ?_⟩
    obtain ⟨clauses, hclauses, htexts, hentries⟩ := exists_clauses_of_tables hwritable
    have hnames : ((extract query).map Table.name).Nodup := by
      rw [htallies.names]
      exact nodup_distinct _
    have hoccur : ∀ table ∈ extract query, 0 < table.occurrences := by
      intro table htable
      obtain ⟨identifier, hmem, hname⟩ := htallies.exists_identifier htable
      rw [htallies.occurrences table htable, List.count_pos_iff, ← hname]
      exact List.mem_map_of_mem hmem
    have htext : clausesOfTables (extract query) = clauseText clauses := by
      rw [clausesOfTables, clauseText, htexts]
    rw [htext, extract, recorded_identifiers_clause_text hclauses, List.map_map]
    exact (congrArg _ hentries).trans (gather_onto_entries hnames hoccur)

/-- Clauses with a quoted name that holds a space and a keyword, written twice. -/
def sampleClauses : List (Text × Identifier) :=
  [("fRoM".toList, .quoted "from items".toList), ("JOIN".toList, .qualified ['a'] ['b']),
    ("into".toList, .quoted "from items".toList)]

/-- The sample clauses are read as their own tally. -/
theorem sample_names_round_trip :
    (∀ clause ∈ sampleClauses, IsClause clause) ∧
      Tallies (extract (clauseText sampleClauses)) (sampleClauses.map Prod.snd) := by
  have hquoted : Identifier.Writable (.quoted "from items".toList) :=
    Identifier.writable_quoted ⟨by decide, by decide⟩ (squeeze_is_squeezed "from items".toList)
      (by decide)
  have hqualified : Identifier.Writable (.qualified ['a'] ['b']) :=
    Identifier.writable_qualified (by decide) (by decide)
  have hclauses : ∀ clause ∈ sampleClauses, IsClause clause := by
    refine List.forall_mem_cons.2 ⟨⟨⟨.fromClause, ?_⟩, hquoted⟩, List.forall_mem_cons.2
      ⟨⟨⟨.joinClause, ?_⟩, hqualified⟩, List.forall_mem_singleton.2
        ⟨⟨.intoClause, ?_⟩, hquoted⟩⟩⟩ <;> decide
  exact ⟨hclauses, names_round_trip.1 sampleClauses hclauses⟩

end QueryTables
