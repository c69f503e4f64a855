import QueryTables.Proofs.Tables

/-!
# Letter case only respells

The scan looks at the case of a letter nowhere: a token is compared with the keywords without regard
to it, and it takes no part in what is a blank, a mark or a word character. So a query in small
letters is scanned by the same steps, with their texts in small letters (`steps_lowered`), and two
queries that agree up to case are compared through their common form in small letters. Their events
agree one by one (`events_respelled`), though not in the numbers, for a name that one of the queries
repeats can be two names in the other. The tables agree once names in the same small letters are
merged, since that gives the tables of the query in small letters (`merged_in_small_letters`).
-/

namespace QueryTables

open Text

/-- The identifier in small letters. -/
def Identifier.lowered : Identifier → Identifier
  | quotedQualified schema table => quotedQualified (Text.lowered schema) (Text.lowered table)
  | quotedSchemaQualified schema table =>
      quotedSchemaQualified (Text.lowered schema) (Text.lowered table)
  | qualified schema table => qualified (Text.lowered schema) (Text.lowered table)
  | quoted table => quoted (Text.lowered table)
  | bare table => bare (Text.lowered table)

/-- The step with the texts that it takes in small letters. -/
def Step.lowered : Step → Step
  | passed token gap => passed (Text.lowered token) gap
  | clause keyword token gap identifier =>
      clause keyword (Text.lowered token) gap (identifier.map Identifier.lowered)

/-- The sighting with its identifier in small letters. -/
def Sighting.lowered (sighting : Sighting) : Sighting :=
  { sighting with identifier := sighting.identifier.map Identifier.lowered }

/-- The table with its name in small letters. -/
def Table.lowered (table : Table) : Table :=
  { table with name := Text.lowered table.name }

/-- The tables with their names in small letters, where those with the same name are one and occur
as often as all of them together. -/
def mergedInSmallLetters (tables : List Table) : List Table :=
  gather Table.name Table.join (tables.map Table.lowered)

/-- The events tell the same up to the case of letters in a name: the same keyword at the same
offset, a table of the same shape, or that there is none. How often a name has occurred depends on
its spelling, and is left open. -/
inductive Event.Respelled : Event → Event → Prop where
  | keyword (keyword : Keyword) (offset : Nat) :
      Respelled (.keyword keyword offset) (.keyword keyword offset)
  | table {name other : Text} (shape : Shape) (occurrences otherOccurrences : Nat)
      (hname : sameIgnoringCase name other = true) :
      Respelled (.table name shape occurrences) (.table other shape otherOccurrences)
  | unrecognized (keyword : Keyword) (offset : Nat) :
      Respelled (.unrecognized keyword offset) (.unrecognized keyword offset)

/-- Texts agree up to case exactly when they are the same in small letters. -/
theorem same_ignoring_case_iff {text other : Text} :
    sameIgnoringCase text other = true ↔ lowered text = lowered other := by
  simp [sameIgnoringCase]

section Identifiers

/-- The quote mark and the dot are no letters. -/
theorem marks_not_letters : quoteMark.isAlpha = false ∧ '.'.isAlpha = false := by
  decide

/-- A quoted part in small letters stands between the same marks. -/
theorem lowered_in_quotes (inner : Text) :
    lowered (Identifier.inQuotes inner) = Identifier.inQuotes (lowered inner) := by
  have hmark : quoteMark.toLower = quoteMark := (lower_eq_iff marks_not_letters.1).2 rfl
  simp [Identifier.inQuotes, hmark]

/-- The literal of an identifier in small letters is the literal in small letters. -/
theorem Identifier.literal_lowered (identifier : Identifier) :
    identifier.lowered.literal = Text.lowered identifier.literal := by
  have hdot : '.'.toLower = '.' := (lower_eq_iff marks_not_letters.2).2 rfl
  cases identifier <;>
    simp [Identifier.lowered, Identifier.literal, lowered_in_quotes, hdot]

/-- The case of letters does not change the shape of an identifier. -/
theorem Identifier.shape_lowered (identifier : Identifier) :
    identifier.lowered.shape = identifier.shape := by
  cases identifier <;> rfl

/-- The case of letters does not decide whether an identifier is named. -/
theorem Identifier.is_named_lowered (identifier : Identifier) :
    identifier.lowered.isNamed = identifier.isNamed := by
  have hsame : isWordCharacter ∘ Char.toLower = isWordCharacter := funext is_word_character_lower
  rw [isNamed, isNamed, literal_lowered, Text.lowered, List.any_map, hsame]

/-- What was read and what is left, both in small letters. -/
def loweredFinding (found : Identifier × Text) : Identifier × Text :=
  (found.1.lowered, lowered found.2)

/-- A word is read from a text in small letters where it is read from the text. -/
theorem read_word_lowered (text : Text) :
    readWord? (lowered text) =
      (readWord? text).map fun found => (lowered found.1, lowered found.2) := by
  unfold readWord?
  rw [take_while_lowered is_word_character_lower, drop_while_lowered is_word_character_lower]
  cases text.takeWhile isWordCharacter <;> rfl

/-- A dot is read from a text in small letters where it is read from the text. -/
theorem read_dot_lowered (text : Text) :
    readDot? (lowered text) = (readDot? text).map lowered := by
  cases text with
  | nil => rfl
  | cons c rest =>
      rw [lowered_cons, readDot?, readDot?]
      simp only [lower_eq_iff marks_not_letters.2]
      split <;> rfl

/-- A quoted part is read from a text in small letters where it is read from the text. -/
theorem read_quoted_lowered (text : Text) :
    readQuoted? (lowered text) =
      (readQuoted? text).map fun found => (lowered found.1, lowered found.2) := by
  have hmark : ∀ c : Char, (c.toLower != quoteMark) = (c != quoteMark) := by
    intro c
    rw [bne, bne, beq_eq_decide, beq_eq_decide]
    simp only [lower_eq_iff marks_not_letters.1]
  cases text with
  | nil => rfl
  | cons c rest =>
      rw [lowered_cons, readQuoted?, readQuoted?, take_while_lowered hmark,
        drop_while_lowered hmark]
      simp only [lower_eq_iff marks_not_letters.1]
      by_cases hc : c = quoteMark
      · rw [if_pos hc, if_pos hc]
        cases rest.takeWhile (· != quoteMark) <;> cases rest.dropWhile (· != quoteMark) <;> rfl
      · rw [if_neg hc, if_neg hc]
        rfl

/-- The reader of a shape reads the same from a text in small letters, in small letters. -/
theorem Shape.read_lowered (shape : Shape) (text : Text) :
    shape.read? (lowered text) = (shape.read? text).map loweredFinding := by
  cases shape with
  | quotedQualified | quotedSchemaQualified | qualified =>
      simp [Shape.read?, read_quoted_lowered, read_word_lowered, read_dot_lowered, Option.bind_map,
        Option.map_bind, Function.comp_def, loweredFinding, Identifier.lowered]
  | quoted =>
      simp only [Shape.read?, read_quoted_lowered]
      cases readQuoted? text with
      | none => rfl
      | some found =>
          simp only [Option.map_some, Option.bind_eq_bind, Option.bind_some, read_dot_lowered,
            Option.isSome_map]
          split <;> rfl
  | bare =>
      simp only [Shape.read?, read_word_lowered]
      cases readWord? text with
      | none => rfl
      | some found =>
          simp only [Option.map_some, Option.bind_eq_bind, Option.bind_some, read_dot_lowered,
            Option.isSome_map]
          split <;> rfl

/-- An identifier is read from a text in small letters exactly where one is read from the text, and
it is the same in small letters. -/
theorem Identifier.read_lowered (text : Text) :
    Identifier.read? (Text.lowered text) = (Identifier.read? text).map loweredFinding := by
  rw [Identifier.read?, Identifier.read?, List.map_findSome?]
  simp only [Shape.read_lowered, Function.comp_def]

end Identifiers

section Scans

/-- A token is a keyword whatever the case of its letters. -/
theorem Keyword.of_token_lowered (token : Text) : ofToken? (lowered token) = ofToken? token := by
  simp only [ofToken?, sameIgnoringCase, lowered_lowered]

/-- A text in small letters starts with the token in small letters, and the same gap. -/
theorem StartsWithToken.lowered {text token gap rest : Text}
    (h : StartsWithToken text token gap rest) :
    StartsWithToken (lowered text) (Text.lowered token) gap (Text.lowered rest) := by
  have hspace : ' '.isAlpha = false := by decide
  have hgap : Text.lowered gap = gap := by
    rcases h.gap with rfl | ⟨rfl, -⟩ <;> rfl
  refine ⟨?_, fun hmem => ?_, h.gap.imp_right fun hnil => ⟨hnil.1, congrArg Text.lowered hnil.2⟩⟩
  · rw [h.parts, lowered_append, lowered_append, hgap]
  · obtain ⟨c, hc, hlower⟩ := List.mem_map.1 hmem
    rw [lower_eq_iff hspace] at hlower
    exact h.noSpace (hlower ▸ hc)

/-- From a text in small letters, a step takes the same in small letters. -/
theorem Takes.lowered {text rest : Text} {step : Step} (h : Takes text step rest) :
    Takes (lowered text) step.lowered (Text.lowered rest) := by
  cases h with
  | passed hne htoken hkeyword =>
      rw [← Keyword.of_token_lowered] at hkeyword
      exact .passed (by simpa [Text.lowered] using hne) htoken.lowered hkeyword
  | unread htoken hkeyword hread =>
      rw [← Keyword.of_token_lowered] at hkeyword
      refine .unread htoken.lowered hkeyword ?_
      rw [Identifier.read_lowered, hread]
      rfl
  | @read token gap _ keyword identifier htoken hkeyword hformed hends =>
      rw [← Keyword.of_token_lowered] at hkeyword
      have hread : Identifier.read? (Text.lowered (identifier.literal ++ rest)) =
          some (identifier.lowered, Text.lowered rest) := by
        rw [Identifier.read_lowered, Identifier.read_literal hformed hends]
        rfl
      obtain ⟨hparts, hformed, hends⟩ := Identifier.read_iff.1 hread
      exact .read (hparts ▸ htoken.lowered) hkeyword hformed hends

/-- From a text in small letters, a row of steps takes the same in small letters. -/
theorem Scans.lowered {text rest : Text} {list : List Step} (h : Scans text list rest) :
    Scans (lowered text) (list.map Step.lowered) (Text.lowered rest) := by
  induction h with
  | nil text => exact .nil _
  | cons hstep _ ih => exact .cons hstep.lowered ih

/-- The steps of a text in small letters are those of the text, in small letters. -/
theorem steps_lowered (text : Text) : steps (lowered text) = (steps text).map Step.lowered := by
  have hscans := (Scans.of_steps text).lowered
  rw [← List.append_nil ((steps text).map Step.lowered)]
  exact steps_append_iff.2 ⟨_, hscans, steps_nil⟩

/-- A step takes as many bytes in small letters. -/
theorem Step.byteLength_lowered (step : Step) :
    byteLength step.lowered.consumed = byteLength step.consumed := by
  cases step with
  | passed token gap => simp [lowered, consumed]
  | clause keyword token gap identifier =>
      cases identifier <;> simp [lowered, consumed, Identifier.literal_lowered]

/-- What is recorded of a step is recorded of it in small letters. -/
theorem named_of_lowered (identifier : Option Identifier) :
    (identifier.map Identifier.lowered).filter Identifier.isNamed =
      (identifier.filter Identifier.isNamed).map Identifier.lowered := by
  cases identifier with
  | none => rfl
  | some identifier => simp [Option.filter, identifier.is_named_lowered, apply_ite]

/-- The sightings in steps in small letters are those in the steps, in small letters. -/
theorem sightings_of_lowered (offset : Nat) (list : List Step) :
    sightingsFrom offset (list.map Step.lowered) =
      (sightingsFrom offset list).map Sighting.lowered := by
  induction list generalizing offset with
  | nil => rfl
  | cons step list ih =>
      have hlength := step.byteLength_lowered
      rw [List.map_cons]
      cases step with
      | passed token gap =>
          rw [Step.lowered] at hlength ⊢
          rw [sightings_passed, sightings_passed, hlength, ih]
      | clause keyword token gap identifier =>
          rw [Step.lowered] at hlength ⊢
          rw [sightings_clause, sightings_clause, hlength, ih, named_of_lowered, List.map_cons,
            byteLength_append, Text.byteLength_lowered, ← byteLength_append]
          rfl

/-- The sightings of a query in small letters are those of the query, in small letters. -/
theorem sightings_lowered (query : Text) :
    sightings (lowered query) = (sightings query).map Sighting.lowered := by
  rw [sightings, squeeze_lowered, steps_lowered, sightings_of_lowered, sightings]

/-- What is recorded for a query in small letters is recorded for the query, in small letters. -/
theorem recorded_lowered (query : Text) :
    recordedIdentifiers (lowered query) = (recordedIdentifiers query).map Identifier.lowered := by
  rw [recordedIdentifiers, recordedIdentifiers, sightings_lowered, List.filterMap_map,
    List.map_filterMap]
  rfl

end Scans

/-- Identifiers that are the same in small letters differ in the case of letters only. -/
theorem Identifier.respelled {identifier other : Identifier}
    (h : identifier.lowered = other.lowered) :
    sameIgnoringCase identifier.literal other.literal = true ∧ identifier.shape = other.shape := by
  rw [same_ignoring_case_iff, ← literal_lowered, ← literal_lowered, ← shape_lowered identifier,
    ← shape_lowered other, h]
  exact ⟨rfl, rfl⟩

/-- Sightings that are the same in small letters are reported by events that differ in the case of
letters only, whatever was recorded before them. -/
theorem events_respelled {list others : List Sighting}
    (h : list.map Sighting.lowered = others.map Sighting.lowered) (recorded before : List Text) :
    List.Forall₂ Event.Respelled (eventsAfter recorded list) (eventsAfter before others) := by
  induction list generalizing others recorded before with
  | nil =>
      obtain rfl : others = [] := by simpa using h.symm
      exact .nil
  | cons sighting list ih =>
      obtain ⟨other, others, rfl, hfirst, hlater⟩ := List.map_eq_cons_iff.1 h.symm
      obtain ⟨keyword, offset, identifier⟩ := sighting
      obtain ⟨otherKeyword, otherOffset, otherIdentifier⟩ := other
      obtain ⟨rfl, rfl, hidentifier⟩ := Sighting.mk.inj hfirst
      cases identifier with
      | none =>
          obtain rfl : otherIdentifier = none := by simpa using hidentifier
          exact .cons (.keyword _ _) (.cons (.unrecognized _ _) (ih hlater.symm _ _))
      | some identifier =>
          obtain ⟨other, rfl, hsame⟩ := Option.map_eq_some_iff.1 hidentifier
          obtain ⟨hname, hshape⟩ := Identifier.respelled hsame.symm
          rw [eventsAfter, eventsAfter, hshape]
          exact .cons (.keyword _ _) (.cons (.table _ _ _ hname) (ih hlater.symm _ _))

/-- The tables of a query, with names in the same small letters merged, are the tally of what is
recorded for the query in small letters. -/
theorem tallies_of_merged (query : Text) :
    Tallies (mergedInSmallLetters (extract query)) (recordedIdentifiers (lowered query)) := by
  have htallies := extract_tallies query
  have hliterals : (recordedIdentifiers (lowered query)).map Identifier.literal =
      ((recordedIdentifiers query).map Identifier.literal).map lowered := by
    rw [recorded_lowered, List.map_map, List.map_map]
    exact List.map_congr_left fun identifier _ => identifier.literal_lowered
  refine ⟨?_, fun table htable => ?_, fun table htable identifier hidentifier hliteral => ?_⟩
  · have hnames : ((extract query).map Table.lowered).map Table.name =
        ((extract query).map Table.name).map lowered := by
      rw [List.map_map, List.map_map]
      rfl
    rw [mergedInSmallLetters, keys_gather Table.join_name, hnames, htallies.names,
      distinct_map_distinct, hliterals]
  · have hsum := sum_of_tables (fun name => lowered name = table.name) query
    rw [measure_gather Table.occurrences Table.join_name Table.join_occurrences _ htable,
      hliterals, List.filter_map, List.map_map, List.count_eq_countP, List.map_map,
      List.countP_map]
    refine Eq.trans hsum (List.countP_congr fun identifier _ => ?_)
    simp
  · obtain ⟨row, hrow, hname, hshape⟩ :=
      part_gather Table.shape Table.join_name Table.join_shape _ htable
    obtain ⟨origin, horigin, rfl⟩ := List.mem_map.1 hrow
    obtain ⟨named, hnamed, hsame⟩ := htallies.exists_identifier horigin
    have hlowered : named.lowered ∈ recordedIdentifiers (lowered query) :=
      recorded_lowered query ▸ List.mem_map_of_mem hnamed
    have hsameLiteral : named.lowered.literal = identifier.literal := by
      rw [named.literal_lowered, hsame, hliteral]
      exact hname
    obtain rfl := recorded_eq_of_literal hlowered hidentifier hsameLiteral
    rw [named.shape_lowered, htallies.shapes origin horigin named hnamed hsame]
    exact hshape

/-- Merging the names of a query that are the same in small letters gives the tables of the query in
small letters. -/
theorem merged_in_small_letters (query : Text) :
    mergedInSmallLetters (extract query) = extract (lowered query) :=
  (tallies_of_merged query).unique (extract_tallies (lowered query))

/-- The scans of two queries that agree up to the case of letters report events that agree one by
one up to the case of letters in names: the same keywords at the same offsets, and behind each a
table of the same shape or none. Their tables are the same with names in small letters, where those
that are then equal are merged. -/
theorem letter_case_only_respells {query other : Text}
    (h : sameIgnoringCase query other = true) :
    List.Forall₂ Event.Respelled (events query) (events other) ∧
      mergedInSmallLetters (extract query) = mergedInSmallLetters (extract other) := by
  rw [same_ignoring_case_iff] at h
  have hsightings : (sightings query).map Sighting.lowered =
      (sightings other).map Sighting.lowered := by
    rw [← sightings_lowered, ← sightings_lowered, h]
  refine ⟨events_respelled hsightings [] [], ?_⟩
  rw [merged_in_small_letters, merged_in_small_letters, h]

/-- Two names in one query, which the other spells alike. -/
theorem sample_queries_respelled :
    sameIgnoringCase "FROM Users JOIN USERS".toList "from users Join users".toList = true ∧
      List.Forall₂ Event.Respelled (events "FROM Users JOIN USERS".toList)
        (events "from users Join users".toList) ∧
      mergedInSmallLetters (extract "FROM Users JOIN USERS".toList) =
        mergedInSmallLetters (extract "from users Join users".toList) ∧
      extract "FROM Users JOIN USERS".toList ≠ extract "from users Join users".toList := by
  have hsame : sameIgnoringCase "FROM Users JOIN USERS".toList
      "from users Join users".toList = true := by decide
  obtain ⟨hevents, htables⟩ := letter_case_only_respells hsame
  exact ⟨hsame, hevents, htables, by decide +kernel⟩

end QueryTables
