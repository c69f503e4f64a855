import QueryTables.Identifier

/-!
# Reading an identifier

Each shape has a reader of its own, which reads the identifier at the very start of a text and
returns what is left. The shapes are tried in a fixed order. `literal_append_of_read?` says that
reading loses nothing: the literal read and the rest make up the text.
-/

namespace QueryTables

/-- Reads a quoted part: a quote mark, one or more other characters, and the next quote mark. -/
def readQuoted? : Text → Option (Text × Text)
  | [] => none
  | c :: rest =>
      if c = quoteMark then
        match rest.takeWhile (· != quoteMark), rest.dropWhile (· != quoteMark) with
        | first :: inner, _ :: after => some (first :: inner, after)
        | _, _ => none
      else none

/-- Reads a word: all word characters up to the first other character, at least one. -/
def readWord? (text : Text) : Option (Text × Text) :=
  match text.takeWhile Text.isWordCharacter with
  | [] => none
  | first :: word => some (first :: word, text.dropWhile Text.isWordCharacter)

/-- Reads the dot between the parts of an identifier. -/
def readDot? : Text → Option Text
  | [] => none
  | c :: rest => if c = '.' then some rest else none

/-- Reads an identifier of the given shape. One without a schema is not read when a dot follows
it, for then it would be a schema. -/
def Shape.read? : Shape → Text → Option (Identifier × Text)
  | .quotedQualified, text => do
      let (schema, text) ← readQuoted? text
      let text ← readDot? text
      let (table, text) ← readQuoted? text
      some (.quotedQualified schema table, text)
  | .quotedSchemaQualified, text => do
      let (schema, text) ← readQuoted? text
      let text ← readDot? text
      let (table, text) ← readWord? text
      some (.quotedSchemaQualified schema table, text)
  | .qualified, text => do
      let (schema, text) ← readWord? text
      let text ← readDot? text
      let (table, text) ← readWord? text
      some (.qualified schema table, text)
  | .quoted, text => do
      let (table, text) ← readQuoted? text
      if (readDot? text).isSome then none else some (.quoted table, text)
  | .bare, text => do
      let (table, text) ← readWord? text
      if (readDot? text).isSome then none else some (.bare table, text)

/-- Reads an identifier of the first shape that fits, and returns it with the rest of the text. -/
def Identifier.read? (text : Text) : Option (Identifier × Text) :=
  Shape.all.findSome? fun shape => shape.read? text

/-- A quoted part and the rest make up the text. -/
theorem inQuotes_append_of_readQuoted? {text inner rest : Text}
    (h : readQuoted? text = some (inner, rest)) : text = Identifier.inQuotes inner ++ rest := by
  cases text with
  | nil => simp [readQuoted?] at h
  | cons c tail =>
      simp only [readQuoted?] at h
      split at h
      · rename_i hmark
        split at h
        · rename_i first after_mark closing after hinner hafter
          obtain ⟨rfl, rfl⟩ : first :: after_mark = inner ∧ after = rest := by simpa using h
          have hclosing : closing = quoteMark := by
            have := List.head?_dropWhile_not (· != quoteMark) tail
            simpa [hafter] using this
          have hsplit := List.takeWhile_append_dropWhile (p := (· != quoteMark)) (l := tail)
          rw [hinner, hafter, hclosing] at hsplit
          simp [Identifier.inQuotes, hmark, ← hsplit]
        · simp at h
      · simp at h

/-- A word and the rest make up the text. -/
theorem append_of_readWord? {text word rest : Text} (h : readWord? text = some (word, rest)) :
    text = word ++ rest := by
  simp only [readWord?] at h
  split at h
  · simp at h
  · rename_i first tail hword
    obtain ⟨rfl, rfl⟩ : first :: tail = word ∧ text.dropWhile Text.isWordCharacter = rest := by
      simpa using h
    rw [← hword, List.takeWhile_append_dropWhile]

/-- The dot and the rest make up the text. -/
theorem cons_of_readDot? {text rest : Text} (h : readDot? text = some rest) :
    text = '.' :: rest := by
  cases text with
  | nil => simp [readDot?] at h
  | cons c tail =>
      simp only [readDot?] at h
      split at h
      · rename_i hdot
        simpa [hdot] using h
      · simp at h

/-- The literal that a shape's reader read and the rest make up the text. -/
theorem Shape.literal_append_of_read? {shape : Shape} {text rest : Text}
    {identifier : Identifier} (h : shape.read? text = some (identifier, rest)) :
    text = identifier.literal ++ rest := by
  cases shape with
  | quotedQualified =>
      simp only [Shape.read?, Option.bind_eq_bind, Option.bind_eq_some_iff, Prod.exists,
        Option.some.injEq, Prod.mk.injEq] at h
      obtain ⟨schema, afterSchema, hschema, afterDot, hdot, table, _, htable, rfl, rfl⟩ := h
      rw [inQuotes_append_of_readQuoted? hschema, cons_of_readDot? hdot,
        inQuotes_append_of_readQuoted? htable]
      simp [Identifier.literal]
  | quotedSchemaQualified =>
      simp only [Shape.read?, Option.bind_eq_bind, Option.bind_eq_some_iff, Prod.exists,
        Option.some.injEq, Prod.mk.injEq] at h
      obtain ⟨schema, afterSchema, hschema, afterDot, hdot, table, _, htable, rfl, rfl⟩ := h
      rw [inQuotes_append_of_readQuoted? hschema, cons_of_readDot? hdot,
        append_of_readWord? htable]
      simp [Identifier.literal]
  | qualified =>
      simp only [Shape.read?, Option.bind_eq_bind, Option.bind_eq_some_iff, Prod.exists,
        Option.some.injEq, Prod.mk.injEq] at h
      obtain ⟨schema, afterSchema, hschema, afterDot, hdot, table, _, htable, rfl, rfl⟩ := h
      rw [append_of_readWord? hschema, cons_of_readDot? hdot, append_of_readWord? htable]
      simp [Identifier.literal]
  | quoted =>
      simp only [Shape.read?, Option.bind_eq_bind, Option.bind_eq_some_iff, Prod.exists] at h
      obtain ⟨table, after, htable, h⟩ := h
      split at h
      · simp at h
      · obtain ⟨rfl, rfl⟩ : Identifier.quoted table = identifier ∧ after = rest := by
          simpa using h
        exact inQuotes_append_of_readQuoted? htable
  | bare =>
      simp only [Shape.read?, Option.bind_eq_bind, Option.bind_eq_some_iff, Prod.exists] at h
      obtain ⟨table, after, htable, h⟩ := h
      split at h
      · simp at h
      · obtain ⟨rfl, rfl⟩ : Identifier.bare table = identifier ∧ after = rest := by
          simpa using h
        exact append_of_readWord? htable

/-- The literal that was read and the rest make up the text. -/
theorem Identifier.literal_append_of_read? {text rest : Text} {identifier : Identifier}
    (h : Identifier.read? text = some (identifier, rest)) : text = identifier.literal ++ rest := by
  obtain ⟨shape, _, hread⟩ := List.exists_of_findSome?_eq_some h
  exact Shape.literal_append_of_read? hread

end QueryTables
