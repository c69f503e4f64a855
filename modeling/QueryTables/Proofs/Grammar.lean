import QueryTables.Proofs.Recognition

/-!
# The grammar of identifiers

`Spelled` says what an identifier looks like at the start of a text, with one rule for each shape
and without regard to how it is read. Read `Shape.read_iff` first: the reader of a shape succeeds
exactly where the rule of its shape applies. As a text starts with one identifier at most, no two
readers succeed on it, and the order in which they are tried makes no difference
(`extent_of_grammar`).
-/

namespace QueryTables

open Text

/-- The word is all that can be read as one at its place: it is not empty, and no further word
character follows it. -/
structure LongestWord (word after : Text) : Prop where
  word : Identifier.IsWord word
  ends : ∀ c, after.head? = some c → isWordCharacter c = false

/-- A literal of a shape, as it stands before what is left of a text. Only a word looks ahead, for
further word characters, and an identifier without a schema, for a dot. -/
inductive Spelled : Shape → Text → Text → Prop where
  | quotedQualified {schema table rest : Text} (hschema : Identifier.IsQuotedPart schema)
      (htable : Identifier.IsQuotedPart table) :
      Spelled .quotedQualified (Identifier.inQuotes schema ++ '.' :: Identifier.inQuotes table) rest
  | quotedSchemaQualified {schema table rest : Text} (hschema : Identifier.IsQuotedPart schema)
      (htable : LongestWord table rest) :
      Spelled .quotedSchemaQualified (Identifier.inQuotes schema ++ '.' :: table) rest
  | qualified {schema table rest : Text} (hschema : LongestWord schema ('.' :: (table ++ rest)))
      (htable : LongestWord table rest) :
      Spelled .qualified (schema ++ '.' :: table) rest
  | quoted {table rest : Text} (htable : Identifier.IsQuotedPart table)
      (hdot : rest.head? ≠ some '.') : Spelled .quoted (Identifier.inQuotes table) rest
  | bare {table rest : Text} (htable : LongestWord table rest) (hdot : rest.head? ≠ some '.') :
      Spelled .bare table rest

/-- The number of bytes that the identifier at the start of a text takes, and its shape. -/
def Identifier.extent? (text : Text) : Option (Nat × Shape) :=
  (Identifier.read? text).map fun found => (byteLength found.1.literal, found.1.shape)

/-- A word is the longest at its place exactly when what follows does not start with a word
character. -/
theorem longest_word_iff {word after : Text} :
    LongestWord word after ↔
      Identifier.IsWord word ∧ after.head?.any isWordCharacter = false := by
  have hends : (∀ c, after.head? = some c → isWordCharacter c = false) ↔
      after.head?.any isWordCharacter = false := by
    cases after with
    | nil => simp
    | cons c after => simp
  constructor
  · intro h
    exact ⟨h.word, hends.1 h.ends⟩
  · intro h
    exact ⟨h.1, hends.2 h.2⟩

/-- The literal of an identifier is spelled by the rule of its shape where the identifier can end.
-/
theorem Identifier.spelled {identifier : Identifier} {rest : Text} (h : identifier.WellFormed)
    (hends : identifier.EndsBefore rest) :
    Spelled identifier.shape identifier.literal rest := by
  cases identifier with
  | quotedQualified schema table => exact .quotedQualified h.1 h.2
  | quotedSchemaQualified schema table =>
      have htable : LongestWord table rest := longest_word_iff.2 ⟨h.2, hends.1 rfl⟩
      exact .quotedSchemaQualified h.1 htable
  | qualified schema table =>
      have hschema : LongestWord schema ('.' :: (table ++ rest)) :=
        longest_word_iff.2 ⟨h.1, mark_behind_word marks_not_word_characters.2 _⟩
      have htable : LongestWord table rest := longest_word_iff.2 ⟨h.2, hends.1 rfl⟩
      exact .qualified hschema htable
  | quoted table => exact .quoted h (hends.2 rfl)
  | bare table => exact .bare (longest_word_iff.2 ⟨h, hends.1 rfl⟩) (hends.2 rfl)

/-- What a rule spells is the literal of an identifier of its shape, with parts that are allowed at
their places, where the identifier can end. -/
theorem Spelled.exists_identifier {shape : Shape} {literal rest : Text}
    (h : Spelled shape literal rest) :
    ∃ identifier : Identifier, identifier.shape = shape ∧ identifier.literal = literal ∧
      identifier.WellFormed ∧ identifier.EndsBefore rest := by
  cases h with
  | quotedQualified hschema htable =>
      exact ⟨.quotedQualified _ _, rfl, rfl, ⟨hschema, htable⟩, nofun, nofun⟩
  | quotedSchemaQualified hschema htable =>
      obtain ⟨hword, hends⟩ := longest_word_iff.1 htable
      exact ⟨.quotedSchemaQualified _ _, rfl, rfl, ⟨hschema, hword⟩, fun _ => hends, nofun⟩
  | qualified hschema htable =>
      obtain ⟨hword, hends⟩ := longest_word_iff.1 htable
      exact ⟨.qualified _ _, rfl, rfl, ⟨hschema.word, hword⟩, fun _ => hends, nofun⟩
  | quoted htable hdot => exact ⟨.quoted _, rfl, rfl, htable, nofun, fun _ => hdot⟩
  | bare htable hdot =>
      obtain ⟨hword, hends⟩ := longest_word_iff.1 htable
      exact ⟨.bare _, rfl, rfl, hword, fun _ => hends, fun _ => hdot⟩

/-- The reader of a shape reads an identifier exactly from a text that starts with its literal, when
the identifier has the shape and parts that are allowed at their places, and can end there. -/
theorem Shape.read_iff {shape : Shape} {text rest : Text} {identifier : Identifier} :
    shape.read? text = some (identifier, rest) ↔
      identifier.shape = shape ∧ text = identifier.literal ++ rest ∧ identifier.WellFormed ∧
        identifier.EndsBefore rest := by
  constructor
  · intro h
    exact Shape.sound_of_read h
  · intro h
    obtain ⟨rfl, hparts⟩ := h
    -- One of the readers reads the identifier, and it is that of the identifier's own shape.
    obtain ⟨shape, -, hread⟩ := List.exists_of_findSome?_eq_some (Identifier.read_iff.2 hparts)
    rw [(Shape.sound_of_read hread).1]
    exact hread

/-- The reader of a shape succeeds exactly on a text that starts as the rule of the shape says. -/
theorem Shape.reads_iff {shape : Shape} {text : Text} :
    (shape.read? text).isSome = true ↔
      ∃ literal rest, text = literal ++ rest ∧ Spelled shape literal rest := by
  constructor
  · intro h
    obtain ⟨⟨identifier, rest⟩, hread⟩ := Option.isSome_iff_exists.1 h
    obtain ⟨rfl, hparts, hformed, hends⟩ := Shape.read_iff.1 hread
    exact ⟨identifier.literal, rest, hparts, Identifier.spelled hformed hends⟩
  · intro h
    obtain ⟨literal, rest, hparts, hspelled⟩ := h
    obtain ⟨identifier, hshape, rfl, hformed, hends⟩ := hspelled.exists_identifier
    rw [Shape.read_iff.2 ⟨hshape, hparts, hformed, hends⟩]
    rfl

/-- The readers of different shapes do not succeed on the same text. -/
theorem Shape.eq_of_reads {first second : Shape} {text : Text}
    (hfirst : (first.read? text).isSome = true) (hsecond : (second.read? text).isSome = true) :
    first = second := by
  obtain ⟨⟨identifier, rest⟩, hread⟩ := Option.isSome_iff_exists.1 hfirst
  obtain ⟨⟨other, others⟩, hother⟩ := Option.isSome_iff_exists.1 hsecond
  obtain ⟨rfl, hparts, hformed, hends⟩ := Shape.read_iff.1 hread
  obtain ⟨rfl, hparts', hformed', hends'⟩ := Shape.read_iff.1 hother
  have hsame := Identifier.start_unique hformed hends hformed' hends' (hparts.symm.trans hparts')
  rw [hsame.1]

/-- Every shape is among those that are tried. -/
theorem Shape.mem_all (shape : Shape) : shape ∈ Shape.all := by
  cases shape <;> simp [Shape.all]

/-- Trying the readers in any order, and some of them again, finds the same identifier. -/
theorem Identifier.read_in_any_order {order : List Shape} (h : ∀ shape, shape ∈ order)
    (text : Text) : order.findSome? (fun shape => shape.read? text) = Identifier.read? text := by
  cases hread : Identifier.read? text with
  | none =>
      refine List.findSome?_eq_none_iff.2 fun shape _ => ?_
      exact List.findSome?_eq_none_iff.1 hread shape (Shape.mem_all shape)
  | some found =>
      obtain ⟨shape, -, hshape⟩ := List.exists_of_findSome?_eq_some hread
      have hreads : (shape.read? text).isSome = true := by
        rw [hshape]
        rfl
      -- The shape that reads is in the order, so some shape of the order reads, and it is the same.
      have hsome : (order.findSome? fun shape => shape.read? text).isSome = true :=
        List.findSome?_isSome_iff.2 ⟨shape, h shape, hreads⟩
      obtain ⟨other, hother⟩ := Option.isSome_iff_exists.1 hsome
      obtain ⟨second, -, hsecond⟩ := List.exists_of_findSome?_eq_some hother
      have hagain : (second.read? text).isSome = true := by
        rw [hsecond]
        rfl
      rw [hother, ← hsecond, Shape.eq_of_reads hagain hreads, hshape]

/-- An identifier reaches as far and has the shape that one of the rules says. -/
theorem Identifier.extent_iff {text : Text} {length : Nat} {shape : Shape} :
    Identifier.extent? text = some (length, shape) ↔
      ∃ literal rest, text = literal ++ rest ∧ byteLength literal = length ∧
        Spelled shape literal rest := by
  constructor
  · intro h
    obtain ⟨⟨identifier, rest⟩, hread, hfound⟩ := Option.map_eq_some_iff.1 h
    obtain ⟨rfl, rfl⟩ := Prod.mk.inj hfound
    obtain ⟨hparts, hformed, hends⟩ := Identifier.read_iff.1 hread
    exact ⟨identifier.literal, rest, hparts, rfl, Identifier.spelled hformed hends⟩
  · intro h
    obtain ⟨literal, rest, hparts, rfl, hspelled⟩ := h
    obtain ⟨identifier, rfl, rfl, hformed, hends⟩ := hspelled.exists_identifier
    rw [Identifier.extent?, Identifier.read_iff.2 ⟨hparts, hformed, hends⟩]
    rfl

/-- How far the identifier at the start of a text reaches, and its shape, are exactly what the rules
say; there is none exactly where no rule applies. Each reader succeeds exactly where its own rule
applies, no two of them succeed on one text, and so any order of the readers gives the same result.
-/
theorem extent_of_grammar (text : Text) :
    (∀ length shape, Identifier.extent? text = some (length, shape) ↔
      ∃ literal rest, text = literal ++ rest ∧ byteLength literal = length ∧
        Spelled shape literal rest) ∧
    (Identifier.extent? text = none ↔
      ¬ ∃ shape literal rest, text = literal ++ rest ∧ Spelled shape literal rest) ∧
    (∀ shape : Shape, (shape.read? text).isSome = true ↔
      ∃ literal rest, text = literal ++ rest ∧ Spelled shape literal rest) ∧
    (∀ first second : Shape, (first.read? text).isSome = true →
      (second.read? text).isSome = true → first = second) ∧
    ∀ order : List Shape, (∀ shape, shape ∈ order) →
      order.findSome? (fun shape => shape.read? text) = Identifier.read? text := by
  refine ⟨fun length shape => Identifier.extent_iff, ?_, fun shape => Shape.reads_iff,
    fun first second => Shape.eq_of_reads,
    fun order horder => Identifier.read_in_any_order horder text⟩
  rw [Option.eq_none_iff_forall_ne_some]
  constructor
  · intro h hspelled
    obtain ⟨shape, literal, rest, hparts, hspelled⟩ := hspelled
    exact h (byteLength literal, shape)
      (Identifier.extent_iff.2 ⟨literal, rest, hparts, rfl, hspelled⟩)
  · intro h found hfound
    obtain ⟨literal, rest, hparts, -, hspelled⟩ := Identifier.extent_iff.1 hfound
    exact h ⟨found.2, literal, rest, hparts, hspelled⟩

/-- The second dot ends the identifier, and a schema with nothing behind its dot is none. -/
example : Identifier.extent? "`é`.b.c".toList = some (6, .quotedSchemaQualified) ∧
    Identifier.extent? "`é`. b".toList = none := by
  decide

end QueryTables
