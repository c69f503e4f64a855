import QueryTables.Proofs.Events
import QueryTables.Proofs.Slices

/-!
# Literals and what follows them

To find an identifier, a text is searched as far as the next quote marks, and one character behind
its last part is looked at. Read `Identifier.extent_append_iff` and `Spelled.before_iff` first: once
a literal has been found, it is found before every other text that `CanFollow` it, and before no
other. So a literal has one shape wherever it stands, and so has the name of a table in all queries
(`literals_read_alike`).
-/

namespace QueryTables

open Text

/-- The text can stand right behind a literal of the shape: it does not go on with a word character
where the literal ends in a word, nor with a dot where the shape has no schema. As a quoted part
ends in a quote mark, a literal ends in a word when its last character is a word character. -/
def CanFollow (literal : Text) (shape : Shape) (tail : Text) : Prop :=
  (literal.getLast?.any isWordCharacter = true → tail.head?.any isWordCharacter = false) ∧
    (shape = .quoted ∨ shape = .bare → tail.head? ≠ some '.')

/-- The literal is found with this shape wherever it stands: as a text of its own, before exactly
those texts that can follow it, and never with another shape. -/
structure ReadAlike (literal : Text) (shape : Shape) : Prop where
  alone : Identifier.extent? literal = some (byteLength literal, shape)
  continued : ∀ tail, Identifier.extent? (literal ++ tail) = some (byteLength literal, shape) ↔
    CanFollow literal shape tail
  oneShape : ∀ tail other, Identifier.extent? (literal ++ tail) = some (byteLength literal, other) →
    other = shape

/-- What can follow the literal of an identifier is what the identifier can end before. -/
theorem Identifier.can_follow_iff {identifier : Identifier} (h : identifier.WellFormed)
    {tail : Text} :
    CanFollow identifier.literal identifier.shape tail ↔ identifier.EndsBefore tail := by
  obtain ⟨last, hlast, hword, hquote⟩ := Identifier.last_of_literal h
  have hends : identifier.literal.getLast?.any isWordCharacter = identifier.endsInWord := by
    rw [hlast, Option.any_some]
    cases hend : identifier.endsInWord with
    | true => exact hword hend
    | false =>
        rw [hquote hend]
        exact marks_not_word_characters.1
  have hshape : identifier.shape = .quoted ∨ identifier.shape = .bare ↔
      identifier.shape.isQualified = false := by
    cases identifier <;> simp [Identifier.shape, Shape.isQualified]
  rw [CanFollow, hends, hshape, Identifier.EndsBefore]

/-- A literal is found before a text exactly when one of the rules spells it there. -/
theorem Identifier.extent_append_iff {literal tail : Text} {shape : Shape} :
    Identifier.extent? (literal ++ tail) = some (byteLength literal, shape) ↔
      Spelled shape literal tail := by
  rw [Identifier.extent_iff]
  constructor
  · rintro ⟨front, rest, hparts, hlength, hspelled⟩
    -- The text is cut at one place only, so what was found is the literal.
    have hcut := cut_at_iff.2 ⟨hparts, hlength⟩
    rw [cut_at_iff.2 ⟨rfl, rfl⟩] at hcut
    cases hcut
    exact hspelled
  · intro h
    exact ⟨literal, tail, rfl, rfl, h⟩

/-- A literal that a rule spells before some text is spelled before exactly those that can follow
it. -/
theorem Spelled.before_iff {shape : Shape} {literal rest : Text} (h : Spelled shape literal rest)
    {tail : Text} : Spelled shape literal tail ↔ CanFollow literal shape tail := by
  constructor
  · intro htail
    obtain ⟨identifier, rfl, rfl, hformed, hends⟩ := htail.exists_identifier
    exact (Identifier.can_follow_iff hformed).2 hends
  · intro hfollow
    obtain ⟨identifier, rfl, rfl, hformed, -⟩ := h.exists_identifier
    exact Identifier.spelled hformed ((Identifier.can_follow_iff hformed).1 hfollow)

/-- A literal is spelled by the rule of one shape only, whatever stands behind it. -/
theorem Spelled.shape_unique {shape other : Shape} {literal rest tail : Text}
    (h : Spelled shape literal rest) (hother : Spelled other literal tail) : other = shape := by
  obtain ⟨identifier, rfl, rfl, hformed, -⟩ := h.exists_identifier
  obtain ⟨origin, rfl, hliteral, hformed', -⟩ := hother.exists_identifier
  rw [Identifier.literal_injective hformed' hformed hliteral]

/-- Every literal can be followed by nothing. -/
theorem can_follow_nil (literal : Text) (shape : Shape) : CanFollow literal shape [] :=
  ⟨fun _ => rfl, fun _ => nofun⟩

/-- A literal that a rule spells somewhere is read alike everywhere. -/
theorem Spelled.read_alike {shape : Shape} {literal rest : Text} (h : Spelled shape literal rest) :
    ReadAlike literal shape where
  alone := by
    have halone := Identifier.extent_append_iff.2 (h.before_iff.2 (can_follow_nil literal shape))
    rwa [List.append_nil] at halone
  continued tail := Identifier.extent_append_iff.trans h.before_iff
  oneShape tail other hother := h.shape_unique (Identifier.extent_append_iff.1 hother)

/-- The literal of an identifier with allowed parts is read alike everywhere. -/
theorem Identifier.literal_read_alike {identifier : Identifier} (h : identifier.WellFormed) :
    ReadAlike identifier.literal identifier.shape :=
  (Identifier.spelled h identifier.ends_before_nil).read_alike

/-- What is read alike with two shapes has one shape. -/
theorem ReadAlike.shape_unique {literal : Text} {shape other : Shape} (h : ReadAlike literal shape)
    (hother : ReadAlike literal other) : other = shape := by
  have halone : Identifier.extent? (literal ++ []) = some (byteLength literal, other) := by
    rw [List.append_nil]
    exact hother.alone
  exact h.oneShape [] other halone

/-- The name of a table is read alike everywhere, with the shape of the table. -/
theorem read_alike_of_table {query : Text} {table : Table} (h : table ∈ extract query) :
    ReadAlike table.name table.shape := by
  have htallies := extract_tallies query
  obtain ⟨identifier, hmem, hliteral⟩ := htallies.exists_identifier h
  rw [← hliteral, ← htallies.shapes table h identifier hmem hliteral]
  exact Identifier.literal_read_alike (recorded_well_formed hmem)

/-- The name that an event tells of is read alike everywhere, with the shape that the event gives.
-/
theorem read_alike_of_told {query : Text} {table : Table}
    (h : table ∈ (events query).filterMap Event.table?) : ReadAlike table.name table.shape := by
  obtain ⟨identifier, hmem, hliteral, hshape⟩ := exists_identifier_of_told h
  rw [← hliteral, ← hshape]
  exact Identifier.literal_read_alike (recorded_well_formed hmem)

/-- The literal that is found at the start of a text can be cut off it, and is read alike wherever
it stands: alone, and before every text that can follow it. Its shape is fixed, and so is that of a
table: the name is read alike everywhere, and all events of all queries that tell of it give that
shape. -/
theorem literals_read_alike (text query other : Text) :
    (∀ length shape, Identifier.extent? text = some (length, shape) →
      ∃ literal rest, slice text length = .ok (literal, rest) ∧ byteLength literal = length ∧
        ReadAlike literal shape) ∧
    ∀ table ∈ extract query, ReadAlike table.name table.shape ∧
      ∀ told ∈ (events other).filterMap Event.table?, told.name = table.name →
        told.shape = table.shape := by
  constructor
  · intro length shape h
    obtain ⟨literal, rest, rfl, rfl, hspelled⟩ := Identifier.extent_iff.1 h
    exact ⟨literal, rest, slice_behind literal rest, rfl, hspelled.read_alike⟩
  · intro table htable
    have halike := read_alike_of_table htable
    refine ⟨halike, fun told htold hname => ?_⟩
    have htoldAlike := read_alike_of_told htold
    rw [hname] at htoldAlike
    exact halike.shape_unique htoldAlike

/-- A literal with a quoted schema is found before a comma, and then before a dot, which would be
part of it behind an identifier without a schema. -/
theorem quoted_schema_read_alike :
    Identifier.extent? "`é`.b, c".toList = some (6, .quotedSchemaQualified) ∧
      slice "`é`.b, c".toList 6 = .ok ("`é`.b".toList, ", c".toList) ∧
      Identifier.extent? ("`é`.b".toList ++ ".c".toList) = some (6, .quotedSchemaQualified) ∧
      (⟨"`é`.b".toList, .quotedSchemaQualified, 1⟩ : Table) ∈ extract "FROM `é`.b, c".toList ∧
      (⟨"`é`.b".toList, .quotedSchemaQualified, 1⟩ : Table) ∈
        (events "INTO x JOIN `é`.b.c".toList).filterMap Event.table? ∧
      ∀ told ∈ (events "INTO x JOIN `é`.b.c".toList).filterMap Event.table?,
        told.name = "`é`.b".toList → told.shape = .quotedSchemaQualified := by
  have hfound : Identifier.extent? "`é`.b, c".toList = some (6, .quotedSchemaQualified) := by
    decide
  have hslice : slice "`é`.b, c".toList 6 = .ok ("`é`.b".toList, ", c".toList) := by rfl
  have htable : (⟨"`é`.b".toList, .quotedSchemaQualified, 1⟩ : Table) ∈
      extract "FROM `é`.b, c".toList := by
    decide +kernel
  obtain ⟨hliterals, htables⟩ := literals_read_alike "`é`.b, c".toList "FROM `é`.b, c".toList
    "INTO x JOIN `é`.b.c".toList
  obtain ⟨literal, rest, hcut, -, halike⟩ := hliterals 6 .quotedSchemaQualified hfound
  obtain ⟨rfl, rfl⟩ : "`é`.b".toList = literal ∧ ", c".toList = rest := by
    rw [hslice] at hcut
    cases hcut
    exact ⟨rfl, rfl⟩
  have hfollow : CanFollow "`é`.b".toList .quotedSchemaQualified ".c".toList :=
    ⟨fun _ => by decide, nofun⟩
  exact ⟨hfound, hslice, (halike.continued _).2 hfollow, htable, by decide +kernel,
    (htables _ htable).2⟩

end QueryTables
