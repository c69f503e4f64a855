import QueryTables.Proofs.Sightings

/-!
# No keyword is missed

The scan moves by tokens and by whole identifiers, and identifiers may contain spaces, keywords and
ends of tokens. Still every token between spaces that is a keyword is met, or lies inside one
identifier: `Takes.delimited_cases` shows this for one step, since an identifier cannot end within a
row of word characters, and `Scans.keyword_token_cases` for a whole scan.
-/

namespace QueryTables

open Text

/-- A token behind the first part of a text stands between spaces in the remaining text as well. -/
theorem Text.Delimited.of_append {left right before token after : Text}
    (h : Delimited (left ++ right) (left ++ before) token after) :
    Delimited right before token after where
  parts := by simpa using h.parts
  noSpace := h.noSpace
  starts := by
    rcases List.eq_nil_or_concat' before with rfl | ⟨front, last, rfl⟩
    · exact .inl rfl
    · rcases h.starts with hnil | hlast
      · simp at hnil
      · simpa [← List.append_assoc] using hlast
  ends := h.ends

/-- A token between spaces is the first token of the text, or stands behind the first gap. -/
theorem StartsWithToken.delimited_cases {text first gap rest before token after : Text}
    (hfirst : StartsWithToken text first gap rest) (h : Delimited text before token after) :
    (before = [] ∧ token = first ∧ after.take 1 = gap) ∨
      ∃ further, before = first ++ gap ++ further ∧ Delimited rest further token after := by
  have hparts := h.parts
  rcases h.starts with rfl | hlast
  · left
    have hown : StartsWithToken text token (after.take 1) (after.drop 1) := by
      refine ⟨?_, h.noSpace, ?_⟩
      · rw [hparts, List.nil_append, List.append_assoc, List.take_append_drop]
      · rcases h.ends with rfl | hspace
        · exact .inr ⟨rfl, rfl⟩
        · obtain ⟨others, rfl⟩ := List.head?_eq_some_iff.1 hspace
          exact .inl rfl
    obtain ⟨rfl, rfl, -⟩ := starts_with_token_iff.1 hfirst
    obtain ⟨htoken, hgap, -⟩ := starts_with_token_iff.1 hown
    exact ⟨rfl, htoken, hgap⟩
  · right
    -- The part before holds a space and the first token none, so the part is the longer of the two.
    have hspace : ' ' ∈ before := List.mem_of_getLast? hlast
    rw [hfirst.parts, List.append_assoc, List.append_assoc] at hparts
    rcases List.append_eq_append_iff.1 hparts with ⟨behind, rfl, hbehind⟩ | ⟨_, rfl, -⟩
    · cases behind with
      | nil => exact absurd (by simpa using hspace) hfirst.noSpace
      | cons c behind =>
          rcases hfirst.gap with rfl | ⟨rfl, rfl⟩
          · obtain ⟨rfl, -⟩ : ' ' = c ∧ rest = behind ++ (token ++ after) := by
              simpa using hbehind
            have hwhole : Delimited (first ++ [' '] ++ rest) (first ++ [' '] ++ behind) token
                after := by
              rw [← hfirst.parts]
              simpa using h
            exact ⟨behind, by simp, hwhole.of_append⟩
          · simp at hbehind
    · exact absurd (List.mem_append_left _ hspace) hfirst.noSpace

/-- What separates a token from the text behind it has one byte at most. -/
theorem Text.Delimited.gap_bytes {text before token after : Text}
    (h : Delimited text before token after) : byteLength (after.take 1) ≤ 1 := by
  rcases h.ends with rfl | hspace
  · exact Nat.zero_le 1
  · obtain ⟨others, rfl⟩ := List.head?_eq_some_iff.1 hspace
    show byteLength [' '] ≤ 1
    decide

/-- The first token of a text stands between the start of the text and a space or its end. -/
theorem StartsWithToken.delimited {text first gap rest : Text}
    (hfirst : StartsWithToken text first gap rest) : Delimited text [] first (gap ++ rest) where
  parts := by simpa using hfirst.parts
  noSpace := hfirst.noSpace
  starts := .inl rfl
  ends := by rcases hfirst.gap with rfl | ⟨rfl, rfl⟩ <;> simp

/-- A token between spaces behind the first gap stands between spaces in the whole text. -/
theorem StartsWithToken.delimited_of_rest {text first gap rest before token after : Text}
    (hfirst : StartsWithToken text first gap rest) (h : Delimited rest before token after)
    (hne : rest ≠ []) : Delimited text (first ++ gap ++ before) token after where
  parts := by
    rw [hfirst.parts, h.parts]
    simp
  noSpace := h.noSpace
  starts := by
    right
    rcases hfirst.gap with rfl | ⟨-, hnil⟩
    · rcases h.starts with rfl | hlast
      · simp
      · simp [List.getLast?_cons, hlast]
    · exact absurd hnil hne
  ends := h.ends

/-- A keyword between spaces in a text that starts with an identifier lies inside its literal or
behind it. -/
theorem Identifier.delimited_cases {identifier : Identifier} {rest before token after : Text}
    {keyword : Keyword} (hformed : identifier.WellFormed) (hends : identifier.EndsBefore rest)
    (hkeyword : Keyword.ofToken? token = some keyword)
    (h : Delimited (identifier.literal ++ rest) before token after) :
    (∃ back, identifier.literal = before ++ token ++ back) ∨
      ∃ further, before = identifier.literal ++ further ∧ Delimited rest further token after := by
  have hparts := h.parts
  rw [List.append_assoc] at hparts
  -- The literal ends before the token starts, or behind its end, or at a place within it.
  rcases List.append_eq_append_iff.1 hparts with ⟨further, hbefore, -⟩ | ⟨back, hliteral, htoken⟩
  · right
    exact ⟨further, hbefore, Delimited.of_append (hbefore ▸ h)⟩
  rcases List.append_eq_append_iff.1 htoken with ⟨others, rfl, -⟩ | ⟨beyond, hbeyond, hrest⟩
  · exact .inl ⟨others, by rw [hliteral, List.append_assoc]⟩
  rcases eq_or_ne beyond [] with rfl | hbeyond_ne
  · exact .inl ⟨[], by simp [hliteral, hbeyond]⟩
  rcases eq_or_ne back [] with rfl | hback_ne
  · right
    have hbefore : before = identifier.literal ++ [] := by simp [hliteral]
    exact ⟨[], hbefore, Delimited.of_append (hbefore ▸ h)⟩
  · -- The literal would end within the token, which is a row of word characters.
    exfalso
    obtain ⟨_, hword⟩ := Keyword.word_of_token hkeyword
    obtain ⟨last, hlast, -, hquote⟩ := Identifier.last_of_literal hformed
    rw [hliteral, List.getLast?_append_of_ne_nil _ hback_ne] at hlast
    have hlast_word := hword last (by simp [hbeyond, List.mem_of_getLast? hlast])
    obtain ⟨next, others, rfl⟩ := List.exists_cons_of_ne_nil hbeyond_ne
    have hnext_word := hword next (by simp [hbeyond])
    cases hend : identifier.endsInWord with
    | true => simpa [hrest, hnext_word] using hends.1 hend
    | false =>
        rw [hquote hend, marks_not_word_characters.1] at hlast_word
        exact Bool.false_ne_true hlast_word

/-- A keyword between spaces is what the first step matches, or lies inside the identifier that it
takes, or stands between spaces behind the step. -/
theorem Takes.delimited_cases {text rest before token after : Text} {step : Step}
    {keyword : Keyword} (hstep : Takes text step rest)
    (hkeyword : Keyword.ofToken? token = some keyword) (h : Delimited text before token after) :
    (before = [] ∧ ∃ identifier, step = .clause keyword token (after.take 1) identifier) ∨
      (∃ other first gap identifier front back, step = .clause other first gap (some identifier) ∧
        identifier.literal = front ++ token ++ back ∧ before = first ++ gap ++ front) ∨
      ∃ further, before = step.consumed ++ further ∧ Delimited rest further token after := by
  cases hstep with
  | passed _ hfirst hnone =>
      rcases hfirst.delimited_cases h with ⟨-, rfl, -⟩ | hbehind
      · exact absurd (hkeyword.symm.trans hnone) (by simp)
      · exact .inr (.inr hbehind)
  | unread hfirst hother _ =>
      rcases hfirst.delimited_cases h with ⟨rfl, rfl, rfl⟩ | hbehind
      · obtain rfl := Option.some.inj (hkeyword.symm.trans hother)
        exact .inl ⟨rfl, none, rfl⟩
      · exact .inr (.inr (by simpa [Step.consumed] using hbehind))
  | read hfirst hother hformed hends =>
      rcases hfirst.delimited_cases h with ⟨rfl, rfl, rfl⟩ | ⟨further, rfl, hfurther⟩
      · obtain rfl := Option.some.inj (hkeyword.symm.trans hother)
        exact .inl ⟨rfl, some _, rfl⟩
      right
      rcases Identifier.delimited_cases hformed hends hkeyword hfurther with
        ⟨back, hinside⟩ | ⟨behind, rfl, hbehind⟩
      · exact .inl ⟨_, _, _, _, further, back, rfl, hinside, rfl⟩
      · exact .inr ⟨behind, by simp [Step.consumed], hbehind⟩

/-- A keyword between spaces is matched by one of the steps, or lies inside an identifier that one
of them takes. -/
theorem Scans.keyword_token_cases {text rest before token after : Text} {list : List Step}
    {keyword : Keyword} (hscans : Scans text list rest) (hrest : rest = [])
    (hkeyword : Keyword.ofToken? token = some keyword) (h : Delimited text before token after) :
    (∃ earlier identifier later,
      list = earlier ++ .clause keyword token (after.take 1) identifier :: later ∧
        before = earlier.flatMap Step.consumed) ∨
      ∃ earlier other first gap identifier later front back,
        list = earlier ++ .clause other first gap (some identifier) :: later ∧
          identifier.literal = front ++ token ++ back ∧
          before = earlier.flatMap Step.consumed ++ first ++ gap ++ front := by
  induction hscans generalizing before with
  | nil text =>
      have hparts := h.parts
      rw [hrest, eq_comm, List.append_eq_nil_iff, List.append_eq_nil_iff] at hparts
      exact absurd hparts.1.2 (Keyword.word_of_token hkeyword).1
  | @cons _ _ _ step later hstep _ ih =>
      rcases hstep.delimited_cases hkeyword h with
        ⟨rfl, identifier, rfl⟩ | ⟨other, first, gap, identifier, front, back, rfl, hinside, rfl⟩ |
          ⟨further, rfl, hfurther⟩
      · exact .inl ⟨[], identifier, later, rfl, rfl⟩
      · exact .inr ⟨[], other, first, gap, identifier, later, front, back, rfl, hinside, by simp⟩
      -- Behind the step the token stands between spaces as before, and the later steps find it.
      rcases ih hrest hfurther with
        ⟨earlier, identifier, later, rfl, rfl⟩ |
          ⟨earlier, other, first, gap, identifier, later, front, back, rfl, hinside, rfl⟩
      · exact .inl ⟨step :: earlier, identifier, later, rfl, rfl⟩
      · exact .inr ⟨step :: earlier, other, first, gap, identifier, later, front, back, rfl,
          hinside, by simp⟩

/-- Where no token between spaces is a keyword, the scan passes over every token. -/
theorem Scans.passed_of_no_keyword {text rest : Text} {list : List Step}
    (hscans : Scans text list rest)
    (h : ∀ before token after, Delimited text before token after →
      Keyword.ofToken? token = none) :
    ∀ step ∈ list, ∃ token gap, step = .passed token gap := by
  induction hscans with
  | nil => simp
  | @cons text middle _ step later hstep _ ih =>
      cases hstep with
      | passed _ hfirst _ =>
          refine List.forall_mem_cons.2 ⟨⟨_, _, rfl⟩, ih fun before token after hdelimited => ?_⟩
          -- The text behind may be empty; its one token is then empty, and not one of the whole.
          rcases eq_or_ne middle [] with rfl | hne
          · have hnil := hdelimited.parts
            rw [eq_comm, List.append_eq_nil_iff, List.append_eq_nil_iff] at hnil
            rw [hnil.1.2]
            decide
          · exact h _ token after (hfirst.delimited_of_rest hdelimited hne)
      | unread hfirst hkeyword | read hfirst hkeyword =>
          exact absurd (hkeyword.symm.trans (h _ _ _ hfirst.delimited)) (by simp)

/-- Where the scan passes over every token, nothing is sighted. -/
theorem sightings_of_passed {list : List Step}
    (h : ∀ step ∈ list, ∃ token gap, step = .passed token gap) (offset : Nat) :
    sightingsFrom offset list = [] := by
  induction list generalizing offset with
  | nil => rfl
  | cons step list ih =>
      obtain ⟨⟨token, gap, rfl⟩, hlist⟩ := List.forall_mem_cons.1 h
      exact ih hlist _

/-- The scan of the text takes the identifier right behind the given part of it, for a keyword that
ends there. -/
def TakenBehind (text start : Text) (keyword : Keyword) (identifier : Identifier) : Prop :=
  ∃ earlier token gap later,
    steps text = earlier ++ .clause keyword token gap (some identifier) :: later ∧
      start = earlier.flatMap Step.consumed ++ token ++ gap

/-- The token behind the given part of the squeezed query lies inside the literal of an identifier
that the scan took for a keyword it had met before. -/
def InsideLiteral (query before token : Text) : Prop :=
  ∃ start keyword identifier front back,
    TakenBehind (squeeze query) start keyword identifier ∧
      (keyword, byteLength start) ∈ sightedKeywords query ∧
      identifier.literal = front ++ token ++ back ∧ before = start ++ front

/-- Every keyword between spaces in a squeezed query is met once, at the place behind it and the
space that follows, unless it lies inside an identifier taken for an earlier keyword, and then no
keyword is met there. A query without a keyword among its words has no events and no tables. -/
theorem keyword_tokens_never_missed (query : Text) :
    (∀ (before token after : Text) (keyword : Keyword),
      Delimited (squeeze query) before token after →
      sameIgnoringCase token keyword.text = true →
      let offset := byteLength (before ++ token ++ after.take 1)
      (sightedKeywords query).filter (fun sighted => sighted.2 = offset) = [(keyword, offset)] ∨
        InsideLiteral query before token ∧ ∀ sighted ∈ sightedKeywords query, sighted.2 ≠ offset) ∧
      ((∀ word ∈ words query, ∀ keyword : Keyword,
        sameIgnoringCase word keyword.text = false) → events query = [] ∧ extract query = []) := by
  constructor
  · intro before token after keyword hdelimited hsame offset
    have hkeyword := Keyword.of_token_iff.2 hsame
    rcases (Scans.of_steps _).keyword_token_cases rfl hkeyword hdelimited with
      ⟨earlier, identifier, later, hsteps, rfl⟩ |
        ⟨earlier, other, first, gap, identifier, later, front, back, hsteps, hinside, hbefore⟩
    · exact .inl (sighted_once hsteps)
    · right
      have honce := sighted_once hsteps
      have hlength := four_le_byteLength hkeyword
      have hgap := hdelimited.gap_bytes
      refine ⟨⟨_, other, identifier, front, back, ⟨earlier, first, gap, later, hsteps, rfl⟩, ?_,
        hinside, hbefore⟩, not_sighted_inside hsteps ?_ ?_⟩
      · exact (List.mem_filter.1 (honce ▸ List.mem_singleton_self _)).1
      · simp only [offset, hbefore, byteLength_append]
        omega
      · simp only [offset, hbefore, hinside, byteLength_append]
        omega
  · intro hwords
    have hnone : ∀ before token after, Delimited (squeeze query) before token after →
        Keyword.ofToken? token = none := by
      intro before token after hdelimited
      cases hkeyword : Keyword.ofToken? token with
      | none => rfl
      | some keyword =>
          have hword : token ∈ words query := by
            rw [← words_squeeze]
            exact mem_words_of_delimited (squeeze_is_squeezed query) hdelimited
              (Keyword.word_of_token hkeyword).1
          have hsame := Keyword.of_token_iff.1 hkeyword
          exact absurd (hsame.symm.trans (hwords token hword keyword)) (by simp)
    have hsightings : sightings query = [] :=
      sightings_of_passed ((Scans.of_steps _).passed_of_no_keyword hnone) 0
    simp [events, eventsAfter, extract, recordedIdentifiers, hsightings, gather, gatherOnto]

/-- In `FROM FROM x` the second keyword lies between spaces, so it is met or is part of a name, and
`SELECT 1` has no keyword among its words. -/
theorem keyword_tokens_after_keyword :
    Delimited (squeeze "FROM FROM x".toList) "FROM ".toList "FROM".toList " x".toList ∧
      sameIgnoringCase "FROM".toList Keyword.fromClause.text = true ∧
      (let offset := byteLength ("FROM ".toList ++ "FROM".toList ++ " x".toList.take 1);
        (sightedKeywords "FROM FROM x".toList).filter (fun sighted => sighted.2 = offset) =
            [(.fromClause, offset)] ∨
          InsideLiteral "FROM FROM x".toList "FROM ".toList "FROM".toList ∧
            ∀ sighted ∈ sightedKeywords "FROM FROM x".toList, sighted.2 ≠ offset) ∧
      (∀ word ∈ words "SELECT 1".toList, ∀ keyword : Keyword,
        sameIgnoringCase word keyword.text = false) ∧
      events "SELECT 1".toList = [] ∧ extract "SELECT 1".toList = [] := by
  have hdelimited :
      Delimited (squeeze "FROM FROM x".toList) "FROM ".toList "FROM".toList " x".toList :=
    ⟨by decide, by decide, by decide, by decide⟩
  have hsame : sameIgnoringCase "FROM".toList Keyword.fromClause.text = true := by decide
  have hwords : ∀ word ∈ words "SELECT 1".toList, ∀ keyword : Keyword,
      sameIgnoringCase word keyword.text = false := by
    intro word hword keyword
    have hlist : word ∈ ["SELECT".toList, "1".toList] := hword
    cases keyword <;> revert word <;> decide
  exact ⟨hdelimited, hsame,
    (keyword_tokens_never_missed _).1 _ _ _ .fromClause hdelimited hsame, hwords,
    (keyword_tokens_never_missed _).2 hwords⟩

end QueryTables
