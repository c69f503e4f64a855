import QueryTables.Proofs.Recognition
import QueryTables.QualifiedName

/-!
# The qualified name of an identifier

A literal is split without regard to the shape it was read in. `qualified_name_of_literal` says that
the split finds the parts of the identifier all the same, whatever its quoted parts hold, and
`split_of_read` that shape and parts tell the literal.
Printed names do not tell the parts apart: a dot inside a quoted part looks like the dot between
two. By `differ_of_clash` and `same_or_clash`, this makes a difference between two identifiers
exactly when they clash.
-/

namespace QueryTables

open Text

namespace Identifier

/-- The parts of the identifier as a qualified name. -/
def qualifiedName (identifier : Identifier) : QualifiedName :=
  ⟨identifier.schema?, identifier.table⟩

/-- The text of the identifier without quote marks. -/
def unquoted (identifier : Identifier) : Text :=
  identifier.qualifiedName.display

/-- With a schema, the text without quote marks is the schema, a dot and the table. -/
theorem unquoted_of_schema {identifier : Identifier} {schema : Text}
    (h : identifier.schema? = some schema) :
    identifier.unquoted = schema ++ '.' :: identifier.table := by
  unfold unquoted qualifiedName
  rw [h]
  rfl

/-- Without a schema, the text without quote marks is the table. -/
theorem unquoted_of_none {identifier : Identifier} (h : identifier.schema? = none) :
    identifier.unquoted = identifier.table := by
  unfold unquoted qualifiedName
  rw [h]
  rfl

end Identifier

/-- The quote marks around a part are taken away. -/
theorem without_quotes_in_quotes {inner : Text} (h : inner ≠ []) :
    withoutQuotes (Identifier.inQuotes inner) = inner := by
  simp [withoutQuotes, Identifier.inQuotes, h]

/-- A text that does not start with a quote mark stays as it is. -/
theorem without_quotes_eq_self {part : Text} (h : part.head? ≠ some quoteMark) :
    withoutQuotes part = part := by
  cases part with
  | nil => rfl
  | cons c rest =>
      unfold withoutQuotes
      exact if_neg fun hquoted => h (by simp [hquoted.1])

/-- There is no quote mark in a word. -/
theorem mark_not_in_word {word : Text} (h : Identifier.IsWord word) : quoteMark ∉ word := by
  intro hmark
  have hword := h.2 quoteMark hmark
  rw [marks_not_word_characters.1] at hword
  exact Bool.false_ne_true hword

/-- A word does not start with a quote mark. -/
theorem head_of_word {word : Text} (h : Identifier.IsWord word) :
    word.head? ≠ some quoteMark :=
  fun hhead => mark_not_in_word h (List.mem_of_mem_head? hhead)

/-- There is no dot in a word. -/
theorem dot_not_in_word {word : Text} (h : Identifier.IsWord word) : '.' ∉ word := by
  intro hdot
  have hword := h.2 '.' hdot
  rw [marks_not_word_characters.2] at hword
  exact Bool.false_ne_true hword

/-- A text that starts with a quoted part is cut behind it. -/
theorem cut_head_quoted {inner : Text} (h : Identifier.IsQuotedPart inner) (rest : Text) :
    cutHead (Identifier.inQuotes inner ++ rest) = (Identifier.inQuotes inner, rest) := by
  unfold cutHead
  rw [read_quoted_append h]

/-- A text that starts with a word is cut behind it where a dot follows or the text ends. -/
theorem cut_head_word {word : Text} (h : Identifier.IsWord word) {rest : Text}
    (hrest : rest.head?.any (· != '.') = false) : cutHead (word ++ rest) = (word, rest) := by
  have hdots : ∀ c ∈ word, (c != '.') = true := by
    intro c hc
    simpa using fun heq : c = '.' => dot_not_in_word h (heq ▸ hc)
  unfold cutHead
  rw [read_quoted_word h]
  simp only [take_run hdots hrest, drop_run hdots hrest]

/-- A literal that is cut before a dot with something behind it has a schema. -/
theorem of_literal_dotted {literal head table : Text} (h : cutHead literal = (head, '.' :: table))
    (htable : table ≠ []) :
    QualifiedName.ofLiteral literal = ⟨some (withoutQuotes head), withoutQuotes table⟩ := by
  obtain ⟨c, rest, rfl⟩ := List.exists_cons_of_ne_nil htable
  simp [QualifiedName.ofLiteral, h, readDot?]

/-- A literal that is cut at its end has no schema. -/
theorem of_literal_undotted {literal head : Text} (h : cutHead literal = (head, [])) :
    QualifiedName.ofLiteral literal = ⟨none, withoutQuotes literal⟩ := by
  simp [QualifiedName.ofLiteral, h, readDot?]

/-- The split of a literal finds the parts of its identifier. -/
theorem qualified_name_of_literal {identifier : Identifier} (h : identifier.WellFormed) :
    QualifiedName.ofLiteral identifier.literal = identifier.qualifiedName := by
  have hdot : ∀ rest : Text, ('.' :: rest).head?.any (· != '.') = false := by
    intro rest
    rfl
  cases identifier with
  | quotedQualified schema table =>
      have hcut := cut_head_quoted h.1 ('.' :: Identifier.inQuotes table)
      rw [Identifier.literal, of_literal_dotted hcut (by simp [Identifier.inQuotes]),
        without_quotes_in_quotes h.1.1, without_quotes_in_quotes h.2.1]
      rfl
  | quotedSchemaQualified schema table =>
      have hcut := cut_head_quoted h.1 ('.' :: table)
      rw [Identifier.literal, of_literal_dotted hcut h.2.1, without_quotes_in_quotes h.1.1,
        without_quotes_eq_self (head_of_word h.2)]
      rfl
  | qualified schema table =>
      have hcut := cut_head_word h.1 (hdot table)
      rw [Identifier.literal, of_literal_dotted hcut h.2.1,
        without_quotes_eq_self (head_of_word h.1), without_quotes_eq_self (head_of_word h.2)]
      rfl
  | quoted table =>
      have hcut := cut_head_quoted h []
      rw [List.append_nil] at hcut
      rw [Identifier.literal, of_literal_undotted hcut, without_quotes_in_quotes h.1]
      rfl
  | bare table =>
      have hcut := cut_head_word h (rfl : ([] : Text).head?.any (· != '.') = false)
      rw [List.append_nil] at hcut
      rw [Identifier.literal, of_literal_undotted hcut, without_quotes_eq_self (head_of_word h)]
      rfl

/-- A text without any of its quote marks. -/
def withoutMarks (text : Text) : Text :=
  text.filter (· != quoteMark)

/-- A text that has no quote mark stays as it is where quote marks are left out. -/
theorem without_marks_eq_self {text : Text} (h : quoteMark ∉ text) : withoutMarks text = text := by
  refine List.filter_eq_self.2 fun c hc => ?_
  simpa using fun heq : c = quoteMark => h (heq ▸ hc)

/-- Quote marks around a part are left out with all others. -/
theorem without_marks_in_quotes (inner : Text) :
    withoutMarks (Identifier.inQuotes inner) = withoutMarks inner := by
  simp [withoutMarks, Identifier.inQuotes]

/-- The dot between two parts stays where quote marks are left out. -/
theorem without_marks_dotted (schema table : Text) :
    withoutMarks (schema ++ '.' :: table) = withoutMarks schema ++ '.' :: withoutMarks table := by
  have hdot : ('.' != quoteMark) = true := by decide
  rw [withoutMarks, List.filter_append, List.filter_cons, if_pos hdot]
  rfl

/-- The text of an identifier without quote marks is its literal where they are left out. -/
theorem Identifier.unquoted_eq_without_marks {identifier : Identifier}
    (h : identifier.WellFormed) : identifier.unquoted = withoutMarks identifier.literal := by
  cases identifier with
  | quotedQualified schema table =>
      rw [literal, without_marks_dotted, without_marks_in_quotes, without_marks_in_quotes,
        without_marks_eq_self h.1.2, without_marks_eq_self h.2.2]
      rfl
  | quotedSchemaQualified schema table =>
      rw [literal, without_marks_dotted, without_marks_in_quotes, without_marks_eq_self h.1.2,
        without_marks_eq_self (mark_not_in_word h.2)]
      rfl
  | qualified schema table =>
      rw [literal, without_marks_dotted, without_marks_eq_self (mark_not_in_word h.1),
        without_marks_eq_self (mark_not_in_word h.2)]
      rfl
  | quoted table =>
      rw [literal, without_marks_in_quotes, without_marks_eq_self h.2]
      rfl
  | bare table =>
      rw [literal, without_marks_eq_self (mark_not_in_word h)]
      rfl

/-- The spelling of a name in a shape: the parts that the shape has quoted stand between quote
marks. A name with a schema has none in a shape without, and the other way round. -/
def Shape.spelling? : Shape → QualifiedName → Option Text
  | .quotedQualified, ⟨some schema, table⟩ =>
      some (Identifier.inQuotes schema ++ '.' :: Identifier.inQuotes table)
  | .quotedSchemaQualified, ⟨some schema, table⟩ =>
      some (Identifier.inQuotes schema ++ '.' :: table)
  | .qualified, ⟨some schema, table⟩ => some (schema ++ '.' :: table)
  | .quoted, ⟨none, table⟩ => some (Identifier.inQuotes table)
  | .bare, ⟨none, table⟩ => some table
  | .quotedQualified, ⟨none, _⟩ | .quotedSchemaQualified, ⟨none, _⟩ | .qualified, ⟨none, _⟩
  | .quoted, ⟨some _, _⟩ | .bare, ⟨some _, _⟩ => none

/-- The literal of an identifier is the spelling of its parts in its shape. -/
theorem Identifier.spelling_of_parts (identifier : Identifier) :
    identifier.shape.spelling? identifier.qualifiedName = some identifier.literal := by
  cases identifier <;> rfl

/-- An identifier has a schema exactly when its shape is qualified. -/
theorem Identifier.schema_is_some_iff (identifier : Identifier) :
    identifier.schema?.isSome = identifier.shape.isQualified := by
  cases identifier <;> rfl

/-- The literal of an identifier that is read from a text is split into the parts that were read:
there is a schema exactly in the qualified shapes, and schema and table are what stands between
quote marks, or the words. The literal is the spelling of these parts in the shape, so no other
literal of the shape is split into the same. -/
theorem split_of_read {text rest : Text} {identifier : Identifier}
    (h : Identifier.read? text = some (identifier, rest)) :
    text = identifier.literal ++ rest ∧ identifier.WellFormed ∧
      (QualifiedName.ofLiteral identifier.literal).schema.isSome = identifier.shape.isQualified ∧
      (QualifiedName.ofLiteral identifier.literal).schema = identifier.schema? ∧
      (QualifiedName.ofLiteral identifier.literal).table = identifier.table ∧
      identifier.shape.spelling? (QualifiedName.ofLiteral identifier.literal) =
        some identifier.literal ∧
      ∀ (otherText otherRest : Text) (other : Identifier),
        Identifier.read? otherText = some (other, otherRest) → other.shape = identifier.shape →
        QualifiedName.ofLiteral other.literal = QualifiedName.ofLiteral identifier.literal →
        other.literal = identifier.literal := by
  obtain ⟨hparts, hformed, -⟩ := Identifier.read_iff.1 h
  have hname := qualified_name_of_literal hformed
  have hspelling := identifier.spelling_of_parts
  refine ⟨hparts, hformed, ?_, by rw [hname]; rfl, by rw [hname]; rfl, by rw [hname, hspelling], ?_⟩
  · rw [hname]
    exact identifier.schema_is_some_iff
  · intro otherText otherRest other hother hshape hsame
    have hotherFormed := (Identifier.read_iff.1 hother).2.1
    have hotherSpelling := other.spelling_of_parts
    rw [hname, qualified_name_of_literal hotherFormed] at hsame
    rw [hshape, hsame, hspelling] at hotherSpelling
    exact (Option.some.inj hotherSpelling).symm

/-- An identifier with dots inside both of its parts, and at either end of the second. -/
def dottedIdentifier : Identifier :=
  .quotedQualified "a.b".toList ".x y.".toList

/-- The dots inside the parts are not taken for the one between them. -/
theorem dotted_identifier_split :
    Identifier.read? "`a.b`.`.x y.` z".toList = some (dottedIdentifier, " z".toList) ∧
      "`a.b`.`.x y.` z".toList = dottedIdentifier.literal ++ " z".toList ∧
      dottedIdentifier.WellFormed ∧
      (QualifiedName.ofLiteral dottedIdentifier.literal).schema.isSome =
        dottedIdentifier.shape.isQualified ∧
      (QualifiedName.ofLiteral dottedIdentifier.literal).schema = some "a.b".toList ∧
      (QualifiedName.ofLiteral dottedIdentifier.literal).table = ".x y.".toList ∧
      dottedIdentifier.shape.spelling? (QualifiedName.ofLiteral dottedIdentifier.literal) =
        some dottedIdentifier.literal ∧
      ∀ (otherText otherRest : Text) (other : Identifier),
        Identifier.read? otherText = some (other, otherRest) →
        other.shape = dottedIdentifier.shape →
        QualifiedName.ofLiteral other.literal =
          QualifiedName.ofLiteral dottedIdentifier.literal →
        other.literal = dottedIdentifier.literal := by
  have hread :
      Identifier.read? "`a.b`.`.x y.` z".toList = some (dottedIdentifier, " z".toList) := by
    decide
  exact ⟨hread, split_of_read hread⟩

/-- Two identifiers that differ in their parts but not in the text without quote marks: the first
has a dot inside its quoted table where the second has the dot behind its schema. -/
def Clash (first second : Identifier) : Prop :=
  (∃ schema, second.schema? = some schema ∧
    first = .quoted (schema ++ '.' :: second.table)) ∨
  ∃ schema middle, second.schema? = some (schema ++ '.' :: middle) ∧
    first = .quotedQualified schema (middle ++ '.' :: second.table)

/-- Identifiers that clash have the same text without quote marks, but different parts. -/
theorem differ_of_clash {first second : Identifier} (h : Clash first second) :
    first.unquoted = second.unquoted ∧ first.qualifiedName ≠ second.qualifiedName := by
  rcases h with ⟨schema, hschema, rfl⟩ | ⟨schema, middle, hschema, rfl⟩
  · rw [Identifier.unquoted_of_schema hschema]
    refine ⟨rfl, fun heq => ?_⟩
    have hnone := (congrArg QualifiedName.schema heq).trans hschema
    exact absurd hnone (by simp [Identifier.qualifiedName, Identifier.schema?])
  · rw [Identifier.unquoted_of_schema hschema, List.append_assoc, List.cons_append]
    refine ⟨rfl, fun heq => ?_⟩
    have hsame := (congrArg QualifiedName.schema heq).trans hschema
    exact absurd hsame (by simp [Identifier.qualifiedName, Identifier.schema?])

/-- An identifier without a schema and with a dot in its table has the table quoted. -/
theorem quoted_of_dot {identifier : Identifier} (h : identifier.WellFormed)
    (hschema : identifier.schema? = none) (hdot : '.' ∈ identifier.table) :
    identifier = .quoted identifier.table := by
  cases identifier with
  | quoted table => rfl
  | bare table => exact absurd hdot (dot_not_in_word h)
  | _ => simp [Identifier.schema?] at hschema

/-- An identifier with a schema and with a dot in its table has both quoted. -/
theorem quoted_qualified_of_dot {identifier : Identifier} (h : identifier.WellFormed)
    {schema : Text} (hschema : identifier.schema? = some schema) (hdot : '.' ∈ identifier.table) :
    identifier = .quotedQualified schema identifier.table := by
  cases identifier with
  | quotedQualified other table =>
      rw [Option.some.inj hschema.symm]
      rfl
  | quotedSchemaQualified other table | qualified other table =>
      exact absurd hdot (dot_not_in_word h.2)
  | _ => simp [Identifier.schema?] at hschema

/-- Two texts with a dot between parts are the same when their parts are, or when a part of each
holds the dot of the other. -/
theorem split_at_dots {schema table other rest : Text}
    (h : schema ++ '.' :: table = other ++ '.' :: rest) :
    schema = other ∧ table = rest ∨
      (∃ middle, other = schema ++ '.' :: middle ∧ table = middle ++ '.' :: rest) ∨
      ∃ middle, schema = other ++ '.' :: middle ∧ rest = middle ++ '.' :: table := by
  rcases List.append_eq_append_iff.1 h with ⟨between, hother, htable⟩ | ⟨between, hschema, hrest⟩
  · cases between with
    | nil =>
        left
        simpa using And.intro hother.symm htable
    | cons c middle =>
        rw [List.cons_append, List.cons.injEq] at htable
        obtain ⟨rfl, htable⟩ := htable
        exact .inr (.inl ⟨middle, hother, htable⟩)
  · cases between with
    | nil =>
        left
        simpa [eq_comm] using And.intro hschema hrest
    | cons c middle =>
        rw [List.cons_append, List.cons.injEq] at hrest
        obtain ⟨rfl, hrest⟩ := hrest
        exact .inr (.inr ⟨middle, hschema, hrest⟩)

/-- Identifiers with the same text without quote marks have the same parts, or clash. -/
theorem same_or_clash {first second : Identifier} (hfirst : first.WellFormed)
    (hsecond : second.WellFormed) (h : first.unquoted = second.unquoted) :
    first.qualifiedName = second.qualifiedName ∨ Clash first second ∨ Clash second first := by
  cases hschema : first.schema? with
  | none =>
      cases hother : second.schema? with
      | none =>
          left
          rw [Identifier.unquoted_of_none hschema, Identifier.unquoted_of_none hother] at h
          simp only [Identifier.qualifiedName, hschema, hother, h]
      | some other =>
          rw [Identifier.unquoted_of_none hschema, Identifier.unquoted_of_schema hother] at h
          have hquoted := quoted_of_dot hfirst hschema (by simp [h])
          exact .inr (.inl (.inl ⟨other, hother, h ▸ hquoted⟩))
  | some schema =>
      cases hother : second.schema? with
      | none =>
          rw [Identifier.unquoted_of_schema hschema, Identifier.unquoted_of_none hother] at h
          have hquoted := quoted_of_dot hsecond hother (by simp [← h])
          exact .inr (.inr (.inl ⟨schema, hschema, h ▸ hquoted⟩))
      | some other =>
          rw [Identifier.unquoted_of_schema hschema, Identifier.unquoted_of_schema hother] at h
          rcases split_at_dots h with ⟨rfl, htable⟩ | ⟨middle, rfl, htable⟩ | ⟨middle, rfl, htable⟩
          · left
            simp only [Identifier.qualifiedName, hschema, hother, htable]
          · have hquoted := quoted_qualified_of_dot hfirst hschema (by simp [htable])
            exact .inr (.inl (.inr ⟨schema, middle, hother, htable ▸ hquoted⟩))
          · have hquoted := quoted_qualified_of_dot hsecond hother (by simp [htable])
            exact .inr (.inr (.inr ⟨other, middle, hschema, htable ▸ hquoted⟩))

end QueryTables
