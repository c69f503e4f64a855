import QueryTables.Proofs.Tables
import QueryTables.WordScan

/-!
# The scan by words is the scan

The scan moves through the characters of a query. After a name it goes on inside a word, and after a
keyword without a name it reads the next word a second time, as a token. Without quote marks none of
this can be seen from outside: what is left of a word behind a name is no keyword, since it does not
start with a word character, and a word that is a keyword is read as a name. So the scan records the
names that `namesByWords` finds, word by word (`Scans.recorded_by_words`).
-/

namespace QueryTables

open Text

/-- A text without quote marks has none when it is squeezed. -/
theorem quote_mark_not_in_squeeze {text : Text} (h : quoteMark ∉ text) :
    quoteMark ∉ squeeze text := by
  intro hmark
  rcases mem_of_mem_squeeze_after hmark with hmem | hspace
  · exact h hmem
  · exact absurd hspace (by decide)

/-- A word that starts with no word character starts with no name. -/
theorem leading_name_of_no_word {word : Text} (h : readWord? word = none) :
    leadingName? word = none := by
  unfold readWord? at h
  unfold leadingName?
  split at h
  · rename_i hfirst
    simp [hfirst]
  · simp at h

/-- The name at the start of a word is its first row of word characters, or that with the row behind
the dot that follows. -/
theorem leading_name_of_word {word first rest : Text} (h : readWord? word = some (first, rest)) :
    leadingName? word = match readDot? rest with
      | none => some (.bare first)
      | some behind => (readWord? behind).map fun second => .qualified first second.1 := by
  unfold readWord? at h
  unfold leadingName?
  split at h
  · simp at h
  · rename_i c others hfirst
    obtain ⟨rfl, rfl⟩ : c :: others = first ∧ word.dropWhile isWordCharacter = rest := by
      simpa using h
    simp only [hfirst, List.isEmpty_cons, Bool.false_eq_true, if_false]
    split
    · rename_i behind hdot
      rw [hdot, read_dot_cons]
      unfold readWord?
      cases hsecond : behind.takeWhile isWordCharacter <;> simp [hsecond]
    · rename_i hother
      have hdot : readDot? (word.dropWhile isWordCharacter) = none := by
        have hhead : (word.dropWhile isWordCharacter).head? ≠ some '.' := by
          intro hhead
          obtain ⟨behind, hbehind⟩ := List.head?_eq_some_iff.1 hhead
          exact hother behind hbehind
        simpa using read_dot_none_iff.2 hhead
      rw [hdot]

/-- The name that a word without quote marks starts with is the identifier read from it. -/
theorem leading_name_eq {word : Text} (h : word.head? ≠ some quoteMark) :
    leadingName? word = (Identifier.read? word).map Prod.fst := by
  have hquoted := read_quoted_eq_none h
  unfold Identifier.read? Shape.all
  cases hword : readWord? word with
  | none => simp [leading_name_of_no_word hword, Shape.read?, hquoted, hword]
  | some found =>
      obtain ⟨first, rest⟩ := found
      rw [leading_name_of_word hword]
      cases hdot : readDot? rest with
      | none => simp [Shape.read?, hquoted, hword, hdot]
      | some behind =>
          cases hsecond : readWord? behind <;>
            simp [Shape.read?, hquoted, hword, hdot, hsecond]

/-- The words of a squeezed text are its first token, unless that is empty, and the words behind. -/
theorem StartsWithToken.words_eq {text token gap rest : Text} (hsqueezed : IsSqueezed text)
    (h : StartsWithToken text token gap rest) :
    words text = (if token = [] then [] else [token]) ++ words rest := by
  have hgap : words (gap ++ rest) = words rest := by
    rcases h.gap with rfl | ⟨rfl, rfl⟩
    · exact words_cons_blank space_is_blank rest
    · rfl
  have hafter : (gap ++ rest).head?.all isBlank = true := by
    rcases h.gap with rfl | ⟨rfl, rfl⟩ <;> simp [space_is_blank]
  rw [h.parts, List.append_assoc]
  by_cases hnil : token = []
  · rw [hnil, if_pos rfl, List.nil_append, hgap, List.nil_append]
  · have htoken : ∀ c ∈ token, isBlank c = false := by
      intro c hc
      by_contra hblank
      have hspace := hsqueezed.blanks c (by simp [h.parts, hc]) (by simpa using hblank)
      exact h.noSpace (hspace ▸ hc)
    rw [words_token hnil htoken hafter, hgap, if_neg hnil, List.singleton_append]

/-- A word that is no keyword brings no name. -/
theorem names_of_passed {word : Text} (h : Keyword.ofToken? word = none) (others : List Text) :
    namesByWords (word :: others) = namesByWords others := by
  cases others with
  | nil => rfl
  | cons following others => simp [namesByWords, h]

/-- A word that is a keyword brings the name at the start of the word behind it, which is passed
over with it. -/
theorem names_of_keyword {word : Text} {keyword : Keyword}
    (h : Keyword.ofToken? word = some keyword) (following : Text) (others : List Text) :
    namesByWords (word :: following :: others) =
      (leadingName? following).toList ++ namesByWords others := by
  simp [namesByWords, h]

/-- A first token that is no keyword makes no difference to the names. -/
theorem names_behind_token {text token gap rest : Text} (hsqueezed : IsSqueezed text)
    (htoken : StartsWithToken text token gap rest) (hkeyword : Keyword.ofToken? token = none) :
    namesByWords (words text) = namesByWords (words rest) := by
  rw [htoken.words_eq hsqueezed]
  by_cases hnil : token = []
  · rw [if_pos hnil, List.nil_append]
  · rw [if_neg hnil, List.singleton_append, names_of_passed hkeyword]

/-- Behind the gap of a squeezed text stands no second space. -/
theorem StartsWithToken.head_ne_space {text token gap rest : Text} (hsqueezed : IsSqueezed text)
    (h : StartsWithToken text token gap rest) : rest.head? ≠ some ' ' := by
  rcases h.gap with rfl | ⟨-, rfl⟩
  · have hsingle := hsqueezed.single
    rw [h.parts, List.append_assoc] at hsingle
    intro hhead
    exact (List.isChain_cons.1 hsingle.right_of_append).1 ' ' hhead rfl rfl
  · simp

/-- A first token that is a keyword brings the name at the start of the token behind it, which is
passed over with it. -/
theorem names_behind_keyword {text token gap rest following space behind : Text}
    {keyword : Keyword} (hsqueezed : IsSqueezed text) (htoken : StartsWithToken text token gap rest)
    (hkeyword : Keyword.ofToken? token = some keyword)
    (hnext : StartsWithToken rest following space behind) :
    namesByWords (words text) =
      (leadingName? following).toList ++ namesByWords (words behind) := by
  have hrest : IsSqueezed rest := IsSqueezed.right_of_append (htoken.parts ▸ hsqueezed)
  rw [htoken.words_eq hsqueezed, if_neg (Keyword.word_of_token hkeyword).1, List.singleton_append,
    hnext.words_eq hrest]
  by_cases hnil : following = []
  · -- Two spaces do not meet, so the token behind is empty only where the text ends.
    have hhead := htoken.head_ne_space hsqueezed
    rw [hnext.parts, hnil] at hhead
    rcases hnext.gap with rfl | ⟨-, rfl⟩
    · simp at hhead
    · rw [hnil]
      rfl
  · rw [if_neg hnil, List.singleton_append, names_of_keyword hkeyword]

/-- The first token of a text without quote marks does not start with one. -/
theorem StartsWithToken.head_ne_quote_mark {text token gap rest : Text} (hmarks : quoteMark ∉ text)
    (h : StartsWithToken text token gap rest) : token.head? ≠ some quoteMark := by
  intro hhead
  rw [h.parts] at hmarks
  exact hmarks (by simp [List.mem_of_mem_head? hhead])

/-- In a text without quote marks, what is read at the start is told by the first token alone. -/
theorem read_of_token {text token gap rest : Text} (hmarks : quoteMark ∉ text)
    (h : StartsWithToken text token gap rest) :
    Identifier.read? text =
      (Identifier.read? token).map fun found => (found.1, found.2 ++ (gap ++ rest)) := by
  have hstart := h.head_ne_quote_mark hmarks
  rw [h.parts, List.append_assoc]
  exact Identifier.read_append hstart h.apart

/-- What is left of a token behind an identifier that ends in a word is no keyword. -/
theorem not_keyword_behind_word {identifier : Identifier} {rest : Text}
    (hword : identifier.endsInWord = true) (hends : identifier.EndsBefore rest) :
    Keyword.ofToken? rest = none := by
  cases hkeyword : Keyword.ofToken? rest with
  | none => rfl
  | some keyword =>
      obtain ⟨hne, hcharacters⟩ := Keyword.word_of_token hkeyword
      obtain ⟨first, others, rfl⟩ := List.exists_cons_of_ne_nil hne
      have hfirst := hends.1 hword
      simp [hcharacters first (by simp)] at hfirst

/-- Where no identifier is read, the token there has no name at its start and is no keyword. -/
theorem token_of_unread {text token gap rest : Text} (hmarks : quoteMark ∉ text)
    (h : StartsWithToken text token gap rest) (hread : Identifier.read? text = none) :
    leadingName? token = none ∧ Keyword.ofToken? token = none := by
  have hstart := h.head_ne_quote_mark hmarks
  rw [read_of_token hmarks h, Option.map_eq_none_iff] at hread
  refine ⟨by rw [leading_name_eq hstart, hread]; rfl, ?_⟩
  cases hkeyword : Keyword.ofToken? token with
  | none => rfl
  | some keyword =>
      have hbare : Identifier.WellFormed (.bare token) := Keyword.word_of_token hkeyword
      have hfound := Identifier.read_literal hbare (Identifier.ends_before_nil _)
      rw [List.append_nil] at hfound
      exact absurd (hread.symm.trans hfound) (by simp)

/-- Where an identifier is read, it is the name at the start of the token there, and what is left of
the token is no keyword. -/
theorem token_of_read {text token gap rest after : Text} {identifier : Identifier}
    (hmarks : quoteMark ∉ text) (h : StartsWithToken text token gap rest)
    (hread : Identifier.read? text = some (identifier, after)) :
    leadingName? token = some identifier ∧ identifier.isNamed = true ∧
      ∃ left, StartsWithToken after left gap rest ∧ Keyword.ofToken? left = none := by
  have hstart := h.head_ne_quote_mark hmarks
  rw [read_of_token hmarks h, Option.map_eq_some_iff] at hread
  obtain ⟨⟨found, left⟩, hfound, heq⟩ := hread
  obtain ⟨rfl, rfl⟩ : found = identifier ∧ left ++ (gap ++ rest) = after := by simpa using heq
  obtain ⟨htoken, hformed, hends⟩ := Identifier.read_iff.1 hfound
  have hword : found.endsInWord = true := by
    refine Identifier.ends_in_word_of_unquoted fun hhead => hmarks ?_
    rw [h.parts, htoken]
    simp [List.mem_of_mem_head? hhead]
  refine ⟨by rw [leading_name_eq hstart, hfound]; rfl,
    Identifier.named_of_ends_in_word hformed hword, left, ⟨by simp, ?_, h.gap⟩,
    not_keyword_behind_word hword hends⟩
  exact fun hspace => h.noSpace (htoken ▸ List.mem_append_right _ hspace)

/-- A squeezed text without quote marks is scanned to the names that its words bring. -/
theorem Scans.recorded_by_words {text rest : Text} {list : List Step}
    (hscans : Scans text list rest) (hrest : rest = []) (hsqueezed : IsSqueezed text)
    (hmarks : quoteMark ∉ text) :
    list.filterMap Step.recorded? = namesByWords (words text) := by
  induction hscans with
  | nil text =>
      rw [hrest]
      rfl
  | @cons text middle rest step later hstep _ ih =>
      have hmiddle : text = step.consumed ++ middle := hstep.parts
      have hlater := ih hrest (hmiddle ▸ hsqueezed).right_of_append
        fun hmark => hmarks (hmiddle ▸ List.mem_append_right _ hmark)
      cases hstep with
      | passed _ htoken hkeyword =>
          rw [List.filterMap_cons_none rfl, hlater, names_behind_token hsqueezed htoken hkeyword]
      | unread htoken hkeyword hread =>
          -- The token behind the keyword is still to come as a step, and changes nothing there.
          have hnext := starts_with_first_token middle
          have hbehind : IsSqueezed middle := (htoken.parts ▸ hsqueezed).right_of_append
          have hunmarked : quoteMark ∉ middle := fun hmark =>
            hmarks (htoken.parts ▸ List.mem_append_right _ hmark)
          obtain ⟨hname, hpassed⟩ := token_of_unread hunmarked hnext hread
          rw [List.filterMap_cons_none rfl, hlater, names_behind_token hbehind hnext hpassed,
            names_behind_keyword hsqueezed htoken hkeyword hnext, hname]
          rfl
      | @read _ _ _ _ identifier htoken hkeyword hformed hends =>
          -- The token behind the keyword starts with the identifier, and the next step with what is
          -- left of it.
          have hnext := starts_with_first_token (identifier.literal ++ middle)
          have hbehind : IsSqueezed (identifier.literal ++ middle) :=
            (htoken.parts ▸ hsqueezed).right_of_append
          have hunmarked : quoteMark ∉ identifier.literal ++ middle := fun hmark =>
            hmarks (htoken.parts ▸ List.mem_append_right _ hmark)
          obtain ⟨hname, hnamed, left, hleft, hpassed⟩ :=
            token_of_read hunmarked hnext (Identifier.read_literal hformed hends)
          rw [List.filterMap_cons_some (Step.recorded_of_named hnamed), hlater,
            names_behind_token hbehind.right_of_append hleft hpassed,
            names_behind_keyword hsqueezed htoken hkeyword hnext, hname]
          rfl

/-- The identifiers recorded for a query without quote marks are the names that its words bring. -/
theorem recorded_identifiers_by_words {query : Text} (h : quoteMark ∉ query) :
    recordedIdentifiers query = namesByWords (words query) := by
  rw [recorded_identifiers_eq, (Scans.of_steps _).recorded_by_words rfl (squeeze_is_squeezed query)
    (quote_mark_not_in_squeeze h), words_squeeze]

/-- A name at the start of a word is of one of the two shapes without quote marks. -/
theorem shape_of_leading_name {word : Text} {identifier : Identifier}
    (h : leadingName? word = some identifier) :
    identifier.shape = .bare ∨ identifier.shape = .qualified := by
  cases hword : readWord? word with
  | none =>
      rw [leading_name_of_no_word hword] at h
      cases h
  | some found =>
      rw [leading_name_of_word hword] at h
      split at h
      · obtain rfl := Option.some.inj h
        exact .inl rfl
      · obtain ⟨second, -, rfl⟩ := Option.map_eq_some_iff.1 h
        exact .inr rfl

/-- A name that words bring is of one of the two shapes without quote marks. -/
theorem shape_of_names_by_words {list : List Text} {identifier : Identifier}
    (h : identifier ∈ namesByWords list) :
    identifier.shape = .bare ∨ identifier.shape = .qualified := by
  fun_induction namesByWords list with
  | case1 | case2 => exact absurd h List.not_mem_nil
  | case3 _ _ _ _ ih => exact ih h
  | case4 _ following _ _ _ ih =>
      rcases List.mem_append.1 h with hname | hlater
      · exact shape_of_leading_name (Option.mem_toList.1 hname)
      · exact ih hlater

/-- A query without quote marks has the names recorded that its words bring, in order and with
repetitions. Its tables are therefore those found by words: the tally of these names, each with a
shape without quote marks. -/
theorem tables_found_by_words {query : Text} (h : quoteMark ∉ query) :
    recordedIdentifiers query = namesByWords (words query) ∧
      extract query = extractByWords query ∧
      Tallies (extractByWords query) (namesByWords (words query)) ∧
      ∀ table ∈ extractByWords query, table.shape = .bare ∨ table.shape = .qualified := by
  have hrecorded := recorded_identifiers_by_words h
  have htables : extract query = extractByWords query := by
    rw [extract, hrecorded, extractByWords]
  have htallies := extract_tallies query
  rw [htables, hrecorded] at htallies
  refine ⟨hrecorded, htables, htallies, fun table htable => ?_⟩
  obtain ⟨identifier, hmem, hname⟩ := htallies.exists_identifier htable
  rw [← htallies.shapes table htable identifier hmem hname]
  exact shape_of_names_by_words hmem

/-- A query in which the scan stops within words, reads words a second time, takes a keyword for a
name and meets a keyword at its end. -/
def sampleQuery : Text :=
  " \tSELECT from a,from  JOIN join x Into a.b.c update db. t FROM a (from".toList

/-- The sample query has the tables that its words bring. -/
theorem sample_tables_found_by_words :
    quoteMark ∉ sampleQuery ∧
      recordedIdentifiers sampleQuery = namesByWords (words sampleQuery) ∧
      extract sampleQuery = extractByWords sampleQuery ∧
      Tallies (extractByWords sampleQuery) (namesByWords (words sampleQuery)) ∧
      (∀ table ∈ extractByWords sampleQuery,
        table.shape = .bare ∨ table.shape = .qualified) ∧
      extractByWords sampleQuery =
        [⟨"a".toList, .bare, 2⟩, ⟨"join".toList, .bare, 1⟩, ⟨"a.b".toList, .qualified, 1⟩] := by
  have hmarks : quoteMark ∉ sampleQuery := by decide
  obtain ⟨hrecorded, htables, htallies, hshapes⟩ := tables_found_by_words hmarks
  exact ⟨hmarks, hrecorded, htables, htallies, hshapes, by decide⟩

end QueryTables
