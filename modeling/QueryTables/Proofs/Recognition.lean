import Mathlib.Data.List.TakeWhile
import QueryTables.Identifier.Reader
import QueryTables.Proofs.Spacing

/-!
# What the reader of identifiers accepts

Read `Identifier.read_iff` first: an identifier is read from a text exactly when the text starts
with its literal, its parts are allowed at their places, and what follows does not belong to it. So
a text starts with one identifier at most, and a literal is read back whatever stands behind it, as
far as `EndsBefore` permits. Behind a space nothing matters at all for identifiers without quote
marks: `Identifier.read_append`.
-/

namespace QueryTables

open Text

/-- A quoted part between quote marks is read whatever follows. -/
theorem read_quoted_append {inner : Text} (h : Identifier.IsQuotedPart inner) (rest : Text) :
    readQuoted? (Identifier.inQuotes inner ++ rest) = some (inner, rest) := by
  obtain ⟨first, others, rfl⟩ := List.exists_cons_of_ne_nil h.1
  have hinner : ∀ c ∈ first :: others, (c != quoteMark) = true := by
    intro c hc
    simpa using fun heq : c = quoteMark => h.2 (heq ▸ hc)
  have hstop : (quoteMark :: rest).head?.any (· != quoteMark) = false := by simp
  have htake := take_run hinner hstop
  have hdrop := drop_run hinner hstop
  simp only [List.cons_append] at htake hdrop
  simp [readQuoted?, Identifier.inQuotes, htake, hdrop]

/-- A quoted part is read exactly from a text that starts with it between quote marks. -/
theorem read_quoted_iff {text inner rest : Text} :
    readQuoted? text = some (inner, rest) ↔
      text = Identifier.inQuotes inner ++ rest ∧ Identifier.IsQuotedPart inner := by
  constructor
  · intro h
    refine ⟨inQuotes_append_of_readQuoted? h, ?_⟩
    cases text with
    | nil => simp [readQuoted?] at h
    | cons c tail =>
        simp only [readQuoted?] at h
        split at h
        · split at h
          · rename_i first others closing after hinner hafter
            obtain ⟨rfl, rfl⟩ : first :: others = inner ∧ after = rest := by simpa using h
            refine ⟨by simp, fun hmark => ?_⟩
            rw [← hinner] at hmark
            simpa using List.mem_takeWhile_imp hmark
          · simp at h
        · simp at h
  · intro h
    obtain ⟨rfl, hinner⟩ := h
    exact read_quoted_append hinner rest

/-- A text is a word exactly when it is not empty and a check of all its characters succeeds. -/
theorem Identifier.is_word_iff {word : Text} :
    Identifier.IsWord word ↔ word ≠ [] ∧ word.all isWordCharacter = true := by
  unfold Identifier.IsWord
  rw [List.all_eq_true]

instance (word : Text) : Decidable (Identifier.IsWord word) :=
  decidable_of_iff _ Identifier.is_word_iff.symm

/-- A word is read before anything but a word character. -/
theorem read_word_append {word rest : Text} (h : Identifier.IsWord word)
    (hrest : rest.head?.any isWordCharacter = false) :
    readWord? (word ++ rest) = some (word, rest) := by
  obtain ⟨first, others, rfl⟩ := List.exists_cons_of_ne_nil h.1
  unfold readWord?
  rw [take_run h.2 hrest, drop_run h.2 hrest]

/-- A word is read exactly from a text that starts with it and continues with no word character. -/
theorem read_word_iff {text word rest : Text} :
    readWord? text = some (word, rest) ↔
      text = word ++ rest ∧ Identifier.IsWord word ∧
        rest.head?.any isWordCharacter = false := by
  constructor
  · intro h
    refine ⟨append_of_readWord? h, ?_⟩
    simp only [readWord?] at h
    split at h
    · simp at h
    · rename_i first others hword
      obtain ⟨rfl, rfl⟩ :
          first :: others = word ∧ text.dropWhile isWordCharacter = rest := by simpa using h
      refine ⟨⟨by simp, fun c hc => List.mem_takeWhile_imp (hword ▸ hc)⟩, ?_⟩
      have hstop := List.head?_dropWhile_not isWordCharacter text
      cases hhead : (text.dropWhile isWordCharacter).head? with
      | none => rfl
      | some c => simpa [hhead] using hstop
  · intro h
    obtain ⟨rfl, hword, hrest⟩ := h
    exact read_word_append hword hrest

/-- A dot at the start of a text is read. -/
theorem read_dot_cons (rest : Text) : readDot? ('.' :: rest) = some rest := by
  unfold readDot?
  exact if_pos rfl

/-- No dot is read exactly from a text that does not start with one. -/
theorem read_dot_none_iff {text : Text} :
    (readDot? text).isSome = false ↔ text.head? ≠ some '.' := by
  cases text with
  | nil => simp [readDot?]
  | cons c rest => by_cases hc : c = '.' <;> simp [readDot?, hc]

/-- The quote mark and the dot are no word characters. -/
theorem marks_not_word_characters :
    isWordCharacter quoteMark = false ∧ isWordCharacter '.' = false := by
  decide

/-- What no word starts with can follow a word. -/
theorem mark_behind_word {c : Char} (h : isWordCharacter c = false) (rest : Text) :
    (c :: rest).head?.any isWordCharacter = false := by
  simpa using h

/-- No quoted part is read from a text that does not start with a quote mark. -/
theorem read_quoted_eq_none {text : Text} (h : text.head? ≠ some quoteMark) :
    readQuoted? text = none := by
  cases text with
  | nil => rfl
  | cons c rest => exact if_neg fun hmark => h (by simp [hmark])

/-- No quoted part is read where a word stands. -/
theorem read_quoted_word {word : Text} (h : Identifier.IsWord word) (rest : Text) :
    readQuoted? (word ++ rest) = none := by
  obtain ⟨first, others, rfl⟩ := List.exists_cons_of_ne_nil h.1
  have hfirst : first ≠ quoteMark := by
    intro heq
    have hmark := h.2 first (by simp)
    rw [heq, marks_not_word_characters.1] at hmark
    exact Bool.false_ne_true hmark
  exact if_neg hfirst

/-- No word is read where a quoted part stands. -/
theorem read_word_quoted (inner rest : Text) :
    readWord? (Identifier.inQuotes inner ++ rest) = none := by
  simp [readWord?, Identifier.inQuotes, marks_not_word_characters.1]

/-- What the reader of a shape reads has this shape, stands at the start of the text with parts that
are allowed, and ends there. -/
theorem Shape.sound_of_read {shape : Shape} {text rest : Text} {identifier : Identifier}
    (h : shape.read? text = some (identifier, rest)) :
    identifier.shape = shape ∧ text = identifier.literal ++ rest ∧ identifier.WellFormed ∧
      identifier.EndsBefore rest := by
  have hparts := Shape.literal_append_of_read? h
  cases shape with
  | quotedQualified =>
      simp only [Shape.read?, Option.bind_eq_bind, Option.bind_eq_some_iff, Prod.exists,
        read_quoted_iff, Option.some.injEq, Prod.mk.injEq] at h
      obtain ⟨schema, _, ⟨-, hschema⟩, _, -, table, _, ⟨-, htable⟩, rfl, rfl⟩ := h
      refine ⟨rfl, hparts, ⟨hschema, htable⟩, ?_, ?_⟩ <;> intro hother <;> cases hother
  | quotedSchemaQualified =>
      simp only [Shape.read?, Option.bind_eq_bind, Option.bind_eq_some_iff, Prod.exists,
        read_quoted_iff, read_word_iff, Option.some.injEq, Prod.mk.injEq] at h
      obtain ⟨schema, _, ⟨-, hschema⟩, _, -, table, _, ⟨-, htable, hends⟩, rfl, rfl⟩ := h
      refine ⟨rfl, hparts, ⟨hschema, htable⟩, fun _ => hends, ?_⟩
      intro hother
      cases hother
  | qualified =>
      simp only [Shape.read?, Option.bind_eq_bind, Option.bind_eq_some_iff, Prod.exists,
        read_word_iff, Option.some.injEq, Prod.mk.injEq] at h
      obtain ⟨schema, _, ⟨-, hschema, -⟩, _, -, table, _, ⟨-, htable, hends⟩, rfl, rfl⟩ := h
      refine ⟨rfl, hparts, ⟨hschema, htable⟩, fun _ => hends, ?_⟩
      intro hother
      cases hother
  | quoted =>
      simp only [Shape.read?, Option.bind_eq_bind, Option.bind_eq_some_iff, Prod.exists,
        read_quoted_iff] at h
      obtain ⟨table, after, ⟨-, htable⟩, h⟩ := h
      by_cases hdot : (readDot? after).isSome = true
      · simp [hdot] at h
      · obtain ⟨rfl, rfl⟩ : Identifier.quoted table = identifier ∧ after = rest := by
          simpa [hdot] using h
        refine ⟨rfl, hparts, htable, ?_, fun _ => read_dot_none_iff.1 (by simpa using hdot)⟩
        intro hother
        cases hother
  | bare =>
      simp only [Shape.read?, Option.bind_eq_bind, Option.bind_eq_some_iff, Prod.exists,
        read_word_iff] at h
      obtain ⟨table, after, ⟨-, htable, hends⟩, h⟩ := h
      by_cases hdot : (readDot? after).isSome = true
      · simp [hdot] at h
      · obtain ⟨rfl, rfl⟩ : Identifier.bare table = identifier ∧ after = rest := by
          simpa [hdot] using h
        exact ⟨rfl, hparts, htable, fun _ => hends,
          fun _ => read_dot_none_iff.1 (by simpa using hdot)⟩

/-- An identifier is read at the start of a text that continues with nothing that belongs to it. -/
theorem Identifier.read_literal {identifier : Identifier} (h : identifier.WellFormed) {rest : Text}
    (hends : identifier.EndsBefore rest) :
    Identifier.read? (identifier.literal ++ rest) = some (identifier, rest) := by
  unfold Identifier.read? Shape.all
  -- The readers that are tried before its own fail: at the first part where one wants it quoted and
  -- the other does not, at the dot where there is none, or else at the second part.
  cases identifier with
  | quotedQualified schema table =>
      rw [Identifier.literal, List.append_assoc, List.cons_append]
      simp [Shape.read?, read_quoted_append h.1, read_dot_cons, read_quoted_append h.2]
  | quotedSchemaQualified schema table =>
      rw [Identifier.literal, List.append_assoc, List.cons_append]
      simp [Shape.read?, read_quoted_append h.1, read_dot_cons, read_quoted_word h.2,
        read_word_append h.2 (hends.1 rfl)]
  | qualified schema table =>
      have hdot := mark_behind_word marks_not_word_characters.2 (table ++ rest)
      rw [Identifier.literal, List.append_assoc, List.cons_append]
      simp [Shape.read?, read_quoted_word h.1, read_word_append h.1 hdot, read_dot_cons,
        read_word_append h.2 (hends.1 rfl)]
  | quoted table =>
      have hdot : readDot? rest = none := by simpa using read_dot_none_iff.2 (hends.2 rfl)
      rw [Identifier.literal]
      simp [Shape.read?, read_quoted_append h, read_word_quoted, hdot]
  | bare table =>
      have hdot : readDot? rest = none := by simpa using read_dot_none_iff.2 (hends.2 rfl)
      rw [Identifier.literal]
      simp [Shape.read?, read_quoted_word h, read_word_append h (hends.1 rfl), hdot]

/-- An identifier is read exactly from a text that starts with its literal, with parts that are
allowed at their places, and that continues with nothing that belongs to it. -/
theorem Identifier.read_iff {text rest : Text} {identifier : Identifier} :
    Identifier.read? text = some (identifier, rest) ↔
      text = identifier.literal ++ rest ∧ identifier.WellFormed ∧ identifier.EndsBefore rest := by
  constructor
  · intro h
    obtain ⟨shape, _, hread⟩ := List.exists_of_findSome?_eq_some h
    exact (Shape.sound_of_read hread).2
  · intro h
    obtain ⟨rfl, hformed, hends⟩ := h
    exact Identifier.read_literal hformed hends

/-- A text starts with one identifier at most. -/
theorem Identifier.start_unique {first second : Identifier} {rest others : Text}
    (hfirst : first.WellFormed) (hends : first.EndsBefore rest) (hsecond : second.WellFormed)
    (hothers : second.EndsBefore others) (h : first.literal ++ rest = second.literal ++ others) :
    first = second ∧ rest = others := by
  have hread := Identifier.read_iff.2 ⟨rfl, hfirst, hends⟩
  have hother := Identifier.read_iff.2 ⟨h, hsecond, hothers⟩
  simpa using hread.symm.trans hother

/-- Every identifier can end a text. -/
theorem Identifier.ends_before_nil (identifier : Identifier) : identifier.EndsBefore [] := by
  simp [Identifier.EndsBefore]

/-- Every identifier can stand before a space. -/
theorem Identifier.ends_before_space (identifier : Identifier) (rest : Text) :
    identifier.EndsBefore (' ' :: rest) := by
  have hspace : isWordCharacter ' ' = false := by decide
  simp [Identifier.EndsBefore, hspace]

/-- The literal tells the identifier. -/
theorem Identifier.literal_injective {first second : Identifier} (hfirst : first.WellFormed)
    (hsecond : second.WellFormed) (h : first.literal = second.literal) : first = second :=
  (Identifier.start_unique hfirst first.ends_before_nil hsecond second.ends_before_nil
    (by simpa using h)).1

/-- A word has a last character, which is a word character. -/
theorem last_of_word {word : Text} (h : Identifier.IsWord word) :
    ∃ last, word.getLast? = some last ∧ isWordCharacter last = true :=
  ⟨_, List.getLast?_eq_getLast_of_ne_nil h.1, h.2 _ (List.getLast_mem h.1)⟩

/-- A literal ends in a word character or, when its last part is quoted, in a quote mark. -/
theorem Identifier.last_of_literal {identifier : Identifier} (h : identifier.WellFormed) :
    ∃ last, identifier.literal.getLast? = some last ∧
      (identifier.endsInWord = true → isWordCharacter last = true) ∧
      (identifier.endsInWord = false → last = quoteMark) := by
  cases identifier with
  | quotedQualified schema table | quoted table =>
      exact ⟨quoteMark, by simp [Identifier.literal, Identifier.inQuotes, List.getLast?_cons],
        by simp [Identifier.endsInWord]⟩
  | quotedSchemaQualified schema table | qualified schema table =>
      obtain ⟨last, hlast, hword⟩ := last_of_word h.2
      exact ⟨last, by simp [Identifier.literal, List.getLast?_cons, hlast], fun _ => hword,
        by simp [Identifier.endsInWord]⟩
  | bare table =>
      obtain ⟨last, hlast, hword⟩ := last_of_word h
      exact ⟨last, hlast, fun _ => hword, by simp [Identifier.endsInWord]⟩

/-- An identifier that ends in a word has something to be called by. -/
theorem Identifier.named_of_ends_in_word {identifier : Identifier} (h : identifier.WellFormed)
    (hends : identifier.endsInWord = true) : identifier.isNamed = true := by
  obtain ⟨last, hlast, hword, -⟩ := Identifier.last_of_literal h
  exact List.any_eq_true.2 ⟨last, List.mem_of_getLast? hlast, hword hends⟩

/-- A literal starts with a word character or a quote mark. -/
theorem Identifier.first_of_literal {identifier : Identifier} (h : identifier.WellFormed) :
    ∃ first, identifier.literal.head? = some first ∧
      (isWordCharacter first = true ∨ first = quoteMark) := by
  cases identifier with
  | quotedQualified schema table | quotedSchemaQualified schema table | quoted table =>
      exact ⟨quoteMark, by simp [Identifier.literal, Identifier.inQuotes], .inr rfl⟩
  | qualified schema table =>
      obtain ⟨first, others, rfl⟩ := List.exists_cons_of_ne_nil h.1.1
      exact ⟨first, rfl, .inl (h.1.2 first (by simp))⟩
  | bare table =>
      obtain ⟨first, others, rfl⟩ := List.exists_cons_of_ne_nil h.1
      exact ⟨first, rfl, .inl (h.2 first (by simp))⟩

/-- A literal is not empty. -/
theorem Identifier.literal_ne_nil {identifier : Identifier} (h : identifier.WellFormed) :
    identifier.literal ≠ [] := by
  obtain ⟨first, hfirst, -⟩ := Identifier.first_of_literal h
  intro hnil
  simp [hnil] at hfirst

/-- What can follow an identifier can still do so when more text follows apart from it. -/
theorem Identifier.EndsBefore.append {identifier : Identifier} {rest tail : Text}
    (h : identifier.EndsBefore rest) (hnil : rest = [] → Apart [] tail) :
    identifier.EndsBefore (rest ++ tail) := by
  cases rest with
  | nil =>
      rcases hnil rfl with hspace | rfl | hspace
      · simp at hspace
      · exact h
      · obtain ⟨others, rfl⟩ := List.head?_eq_some_iff.1 hspace
        exact identifier.ends_before_space others
  | cons c rest => simpa [Identifier.EndsBefore] using h

/-- What can follow an identifier together with more text can follow it alone. -/
theorem Identifier.EndsBefore.of_append {identifier : Identifier} {rest tail : Text}
    (h : identifier.EndsBefore (rest ++ tail)) : identifier.EndsBefore rest := by
  cases rest with
  | nil => exact identifier.ends_before_nil
  | cons c rest => simpa [Identifier.EndsBefore] using h

/-- An identifier whose literal does not start with a quote mark is made of words. -/
theorem Identifier.unquoted_cases {identifier : Identifier}
    (hstart : identifier.literal.head? ≠ some quoteMark) :
    (∃ schema table, identifier = .qualified schema table) ∨ ∃ table, identifier = .bare table := by
  cases identifier with
  | qualified schema table => exact .inl ⟨schema, table, rfl⟩
  | bare table => exact .inr ⟨table, rfl⟩
  | _ => simp [Identifier.literal, Identifier.inQuotes] at hstart

/-- An identifier made of words ends in one. -/
theorem Identifier.ends_in_word_of_unquoted {identifier : Identifier}
    (hstart : identifier.literal.head? ≠ some quoteMark) : identifier.endsInWord = true := by
  rcases Identifier.unquoted_cases hstart with ⟨schema, table, rfl⟩ | ⟨table, rfl⟩ <;> rfl

/-- There is no space in a word. -/
theorem space_not_in_word {word : Text} (h : Identifier.IsWord word) : ' ' ∉ word := by
  intro hspace
  exact absurd (h.2 ' ' hspace) (by decide)

/-- There is no space in a literal that does not start with a quote mark. -/
theorem Identifier.space_not_in_literal {identifier : Identifier} (h : identifier.WellFormed)
    (hstart : identifier.literal.head? ≠ some quoteMark) : ' ' ∉ identifier.literal := by
  rcases Identifier.unquoted_cases hstart with ⟨schema, table, rfl⟩ | ⟨table, rfl⟩
  · simp [Identifier.literal, space_not_in_word h.1, space_not_in_word h.2]
  · exact space_not_in_word h

/-- A literal does not end in a space. -/
theorem Identifier.last_of_literal_ne_space {identifier : Identifier} (h : identifier.WellFormed) :
    identifier.literal.getLast? ≠ some ' ' := by
  obtain ⟨last, hlast, hword, hquote⟩ := Identifier.last_of_literal h
  rw [hlast]
  intro hspace
  rw [Option.some.inj hspace] at hword hquote
  cases hend : identifier.endsInWord with
  | true => exact absurd (hword hend) (by decide)
  | false => exact absurd (hquote hend) (by decide)

/-- What is apart from a text with an identifier at its start is apart from the identifier, where
nothing else stands behind it. -/
theorem Text.Apart.behind_literal {identifier : Identifier} {rest tail : Text}
    (h : Apart (identifier.literal ++ rest) tail) (hformed : identifier.WellFormed)
    (hnil : rest = []) : Apart [] tail := by
  rcases h with hlast | htail
  · rw [hnil, List.append_nil] at hlast
    exact absurd hlast (Identifier.last_of_literal_ne_space hformed)
  · exact .inr htail

/-- A text that reaches across such a seam has a space in it, and starts as before it. -/
theorem Text.Apart.space_of_reach {left beyond rest : Text} (h : Apart left (beyond ++ rest))
    (hne : beyond ≠ []) (hstart : left.head? ≠ some quoteMark) :
    ' ' ∈ left ++ beyond ∧ (left ++ beyond).head? ≠ some quoteMark := by
  obtain ⟨c, beyond, rfl⟩ := List.exists_cons_of_ne_nil hne
  rcases h with hlast | hnil | hfirst
  · have hspace := List.mem_of_getLast? hlast
    obtain ⟨first, others, rfl⟩ := List.exists_cons_of_ne_nil (List.ne_nil_of_mem hspace)
    exact ⟨List.mem_append_left _ hspace, by simpa using hstart⟩
  · simp at hnil
  · obtain rfl : c = ' ' := by simpa using hfirst
    refine ⟨by simp, ?_⟩
    cases left with
    | nil =>
        have hmark : ' ' ≠ quoteMark := by decide
        simpa using hmark
    | cons first others => simpa using hstart

/-- Where no quoted part starts, an identifier is read from a text, or is not, whatever follows
apart from it. -/
theorem Identifier.read_append {text tail : Text} (hstart : text.head? ≠ some quoteMark)
    (hapart : Apart text tail) :
    Identifier.read? (text ++ tail) =
      (Identifier.read? text).map fun found => (found.1, found.2 ++ tail) := by
  cases hread : Identifier.read? text with
  | some found =>
      obtain ⟨identifier, rest⟩ := found
      obtain ⟨rfl, hformed, hends⟩ := Identifier.read_iff.1 hread
      rw [List.append_assoc, Identifier.read_literal hformed
        (hends.append (hapart.behind_literal hformed))]
      rfl
  | none =>
      rw [Option.map_none, Option.eq_none_iff_forall_ne_some]
      intro found hfound
      obtain ⟨identifier, rest⟩ := found
      obtain ⟨hparts, hformed, hends⟩ := Identifier.read_iff.1 hfound
      -- The literal ends within the text, where it would be read already, or reaches behind it,
      -- across a space.
      have hwithin : ∃ back, text = identifier.literal ++ back ∧ rest = back ++ tail := by
        rcases List.append_eq_append_iff.1 hparts with ⟨beyond, hliteral, htail⟩ | hback
        · rcases eq_or_ne beyond [] with rfl | hne
          · exact ⟨[], by simpa using hliteral.symm, by simpa using htail.symm⟩
          · obtain ⟨hspace, hhead⟩ := (htail ▸ hapart).space_of_reach hne hstart
            rw [← hliteral] at hspace hhead
            exact absurd hspace (Identifier.space_not_in_literal hformed hhead)
        · exact hback
      obtain ⟨back, htext, rfl⟩ := hwithin
      have hread' := Identifier.read_iff.2 ⟨htext, hformed, hends.of_append⟩
      exact absurd (hread.symm.trans hread') (by simp)

end QueryTables
