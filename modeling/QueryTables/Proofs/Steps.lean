import QueryTables.Event
import QueryTables.Proofs.Letters
import QueryTables.Proofs.Recognition

/-!
# The steps of a scan as a relation

`Takes` says in full what one step of the scan takes from a text and what it leaves, and `Scans`
puts steps in a row. Read `steps_append_iff` first: the steps of a text begin with a given row
exactly when the row scans the text up to a place from which the remaining steps start. What holds
at every place that the scan reaches is then shown by induction on `Scans`, as in
`Scans.boundary`.
-/

namespace QueryTables

open Text

namespace Keyword

/-- A keyword is written in small letters already. -/
theorem lowered_text (keyword : Keyword) : lowered keyword.text = keyword.text := by
  cases keyword <;> decide

/-- A token is a keyword exactly when it agrees with it up to the case of letters. -/
theorem of_token_iff {token : Text} {keyword : Keyword} :
    ofToken? token = some keyword ↔ sameIgnoringCase token keyword.text = true := by
  constructor
  · intro h
    rw [ofToken?] at h
    exact List.find?_some (p := fun keyword : Keyword => sameIgnoringCase token keyword.text) h
  · intro h
    have hlowered : lowered token = lowered keyword.text := by simpa [sameIgnoringCase] using h
    simp only [ofToken?, sameIgnoringCase, hlowered]
    cases keyword <;> decide

/-- A token that is a keyword is spelled like it but for the case of letters. -/
theorem lowered_token {token : Text} {keyword : Keyword} (h : ofToken? token = some keyword) :
    lowered token = keyword.text := by
  simpa [sameIgnoringCase, lowered_text] using of_token_iff.1 h

/-- A token that is a keyword is a word. -/
theorem word_of_token {token : Text} {keyword : Keyword} (h : ofToken? token = some keyword) :
    Identifier.IsWord token := by
  have hlowered := lowered_token h
  obtain ⟨hne, hword⟩ : Identifier.IsWord keyword.text := by
    cases keyword <;> decide
  constructor
  · intro hnil
    rw [hnil] at hlowered
    exact hne hlowered.symm
  · intro c hc
    have hsmall := hword c.toLower (hlowered ▸ List.mem_map_of_mem hc)
    rwa [is_word_character_lower] at hsmall

/-- There is no space in a keyword. -/
theorem space_not_in_token {token : Text} {keyword : Keyword}
    (h : ofToken? token = some keyword) : ' ' ∉ token :=
  space_not_in_word (word_of_token h)

end Keyword

/-- The text starts with a token without spaces, up to the next space, which is the gap, or up to
the end of the text. -/
structure StartsWithToken (text token gap rest : Text) : Prop where
  parts : text = token ++ gap ++ rest
  noSpace : ' ' ∉ token
  gap : gap = [' '] ∨ gap = [] ∧ rest = []

/-- A text has one token at its start, and one gap behind it. -/
theorem starts_with_token_iff {text token gap rest : Text} :
    StartsWithToken text token gap rest ↔
      token = leadingToken text ∧ gap = leadingGap text ∧ rest = afterGap text := by
  constructor
  · intro h
    obtain ⟨rfl, hspace, hgap⟩ := h
    have htoken : ∀ c ∈ token, (c != ' ') = true := by
      intro c hc
      simpa using fun heq : c = ' ' => hspace (heq ▸ hc)
    have hstop : (gap ++ rest).head?.any (· != ' ') = false := by
      rcases hgap with rfl | ⟨rfl, rfl⟩ <;> simp
    rw [List.append_assoc, leadingToken, leadingGap, afterGap, take_run htoken hstop,
      drop_run htoken hstop]
    rcases hgap with rfl | ⟨rfl, rfl⟩ <;> simp
  · intro h
    obtain ⟨rfl, rfl, rfl⟩ := h
    refine ⟨(leadingToken_append text).symm, fun hspace => ?_, ?_⟩
    · simpa using List.mem_takeWhile_imp hspace
    · have hstop := List.head?_dropWhile_not (· != ' ') text
      rw [leadingGap, afterGap]
      cases hrest : text.dropWhile (· != ' ') with
      | nil => exact .inr ⟨rfl, rfl⟩
      | cons c rest =>
          left
          simpa [hrest] using hstop

/-- Every text starts with a token. -/
theorem starts_with_first_token (text : Text) :
    StartsWithToken text (leadingToken text) (leadingGap text) (afterGap text) :=
  starts_with_token_iff.2 ⟨rfl, rfl, rfl⟩

/-- What stands behind the first token of a text is apart from it. -/
theorem StartsWithToken.apart {text token gap rest : Text}
    (h : StartsWithToken text token gap rest) : Apart token (gap ++ rest) := by
  rcases h.gap with rfl | ⟨rfl, rfl⟩
  · exact .inr (.inr rfl)
  · exact .inr (.inl rfl)

/-- What one step takes at the start of a text, and the text it leaves. -/
inductive Takes : Text → Step → Text → Prop where
  | passed {text token gap rest : Text} (hne : text ≠ [])
      (htoken : StartsWithToken text token gap rest)
      (hkeyword : Keyword.ofToken? token = none) : Takes text (.passed token gap) rest
  | unread {text token gap rest : Text} {keyword : Keyword}
      (htoken : StartsWithToken text token gap rest)
      (hkeyword : Keyword.ofToken? token = some keyword)
      (hread : Identifier.read? rest = none) : Takes text (.clause keyword token gap none) rest
  | read {text token gap rest : Text} {keyword : Keyword} {identifier : Identifier}
      (htoken : StartsWithToken text token gap (identifier.literal ++ rest))
      (hkeyword : Keyword.ofToken? token = some keyword) (hformed : identifier.WellFormed)
      (hends : identifier.EndsBefore rest) :
      Takes text (.clause keyword token gap (some identifier)) rest

/-- There is text where a step is taken. -/
theorem Takes.ne_nil {text rest : Text} {step : Step} (h : Takes text step rest) : text ≠ [] := by
  cases h with
  | passed hne => exact hne
  | unread htoken hkeyword | read htoken hkeyword =>
      have hne := (Keyword.word_of_token hkeyword).1
      simp [htoken.parts, hne]

/-- The first step of a text, and the text from which the others start. -/
theorem steps_of_takes {text rest : Text} {step : Step} (h : Takes text step rest) :
    steps text = step :: steps rest := by
  have hne := h.ne_nil
  cases h with
  | passed _ htoken hkeyword =>
      obtain ⟨rfl, rfl, rfl⟩ := starts_with_token_iff.1 htoken
      rw [steps, dif_neg hne, hkeyword]
  | unread htoken hkeyword hread =>
      obtain ⟨rfl, rfl, rfl⟩ := starts_with_token_iff.1 htoken
      rw [steps, dif_neg hne, hkeyword]
      dsimp only
      split
      · rfl
      · rename_i hother
        rw [hread] at hother
        exact absurd hother (by simp)
  | read htoken hkeyword hformed hends =>
      obtain ⟨rfl, rfl, hrest⟩ := starts_with_token_iff.1 htoken
      have hread := Identifier.read_iff.2 ⟨hrest.symm, hformed, hends⟩
      rw [steps, dif_neg hne, hkeyword]
      dsimp only
      -- The match keeps its own equation, as termination needs it, so it is split, not rewritten.
      split
      · rename_i hnone
        rw [hread] at hnone
        exact absurd hnone (by simp)
      · rename_i other after hother
        obtain ⟨rfl, rfl⟩ : _ = other ∧ _ = after := by simpa using hread.symm.trans hother
        rfl

/-- A space at the start of a text is passed over. -/
theorem takes_space (rest : Text) : Takes (' ' :: rest) (.passed [] [' ']) rest :=
  .passed (List.cons_ne_nil _ _) ⟨rfl, by simp, .inl rfl⟩ (by decide)

/-- Where there is text, the scan takes a step. -/
theorem exists_takes {text : Text} (h : text ≠ []) : ∃ step rest, Takes text step rest := by
  have htoken := starts_with_first_token text
  cases hkeyword : Keyword.ofToken? (leadingToken text) with
  | none => exact ⟨_, _, .passed h htoken hkeyword⟩
  | some keyword =>
      cases hread : Identifier.read? (afterGap text) with
      | none => exact ⟨_, _, .unread htoken hkeyword hread⟩
      | some found =>
          obtain ⟨hparts, hformed, hends⟩ := Identifier.read_iff.1 hread
          rw [hparts] at htoken
          exact ⟨_, _, .read htoken hkeyword hformed hends⟩

/-- The empty text has no steps. -/
theorem steps_nil : steps [] = [] := by
  rw [steps, dif_pos rfl]

/-- The steps of a text start with a given one exactly when it can be taken there and the others are
the steps of what it leaves. -/
theorem steps_cons_iff {text : Text} {step : Step} {later : List Step} :
    steps text = step :: later ↔ ∃ rest, Takes text step rest ∧ steps rest = later := by
  constructor
  · intro h
    have hne : text ≠ [] := by
      intro hnil
      rw [hnil, steps_nil] at h
      cases h
    obtain ⟨first, rest, htakes⟩ := exists_takes hne
    obtain ⟨rfl, rfl⟩ : first = step ∧ steps rest = later := by
      simpa using (steps_of_takes htakes).symm.trans h
    exact ⟨rest, htakes, rfl⟩
  · intro h
    obtain ⟨rest, htakes, rfl⟩ := h
    exact steps_of_takes htakes

/-- A step takes its text from the start and leaves the rest. -/
theorem Takes.parts {text rest : Text} {step : Step} (h : Takes text step rest) :
    text = step.consumed ++ rest := by
  cases h with
  | passed _ htoken => exact htoken.parts
  | unread htoken => simpa [Step.consumed] using htoken.parts
  | read htoken => simpa [Step.consumed] using htoken.parts

/-- What stands between a keyword and an identifier taken for it is a space. -/
theorem Takes.gap_eq {text token gap rest : Text} {keyword : Keyword} {identifier : Identifier}
    (h : Takes text (.clause keyword token gap (some identifier)) rest) : gap = [' '] := by
  cases h with
  | read htoken _ hformed _ =>
      rcases htoken.gap with hgap | ⟨-, hnil⟩
      · exact hgap
      · exact absurd (List.append_eq_nil_iff.1 hnil).1 (Identifier.literal_ne_nil hformed)

/-- A row of steps, each taken where the one before it ended, from a text up to what is left. -/
inductive Scans : Text → List Step → Text → Prop where
  | nil (text : Text) : Scans text [] text
  | cons {text middle rest : Text} {step : Step} {later : List Step}
      (hstep : Takes text step middle) (hlater : Scans middle later rest) :
      Scans text (step :: later) rest

namespace Scans

/-- A row of steps followed by another scans what both scan in turn. -/
theorem append_iff {text rest : Text} {earlier later : List Step} :
    Scans text (earlier ++ later) rest ↔
      ∃ middle, Scans text earlier middle ∧ Scans middle later rest := by
  induction earlier generalizing text with
  | nil =>
      constructor
      · intro h
        exact ⟨text, .nil text, h⟩
      · intro h
        obtain ⟨_, hnil, hrest⟩ := h
        cases hnil
        exact hrest
  | cons step earlier ih =>
      constructor
      · intro h
        cases h with
        | cons hstep hlater =>
            obtain ⟨middle, hearlier, hrest⟩ := ih.1 hlater
            exact ⟨middle, .cons hstep hearlier, hrest⟩
      · intro h
        obtain ⟨middle, hearlier, hrest⟩ := h
        cases hearlier with
        | cons hstep hearlier => exact .cons hstep (ih.2 ⟨middle, hearlier, hrest⟩)

/-- The texts that the steps take, and what is left, make up the text. -/
theorem parts {text rest : Text} {earlier : List Step} (h : Scans text earlier rest) :
    text = earlier.flatMap Step.consumed ++ rest := by
  induction h with
  | nil text => rfl
  | cons hstep _ ih => rw [hstep.parts, ih, List.flatMap_cons, List.append_assoc]

end Scans

/-- The steps of a text start with a given row exactly when it scans the text up to a place from
which the others start. -/
theorem steps_append_iff {text : Text} {earlier later : List Step} :
    steps text = earlier ++ later ↔ ∃ rest, Scans text earlier rest ∧ steps rest = later := by
  induction earlier generalizing text with
  | nil =>
      constructor
      · intro h
        exact ⟨text, .nil text, h⟩
      · intro h
        obtain ⟨_, hnil, hrest⟩ := h
        cases hnil
        exact hrest
  | cons step earlier ih =>
      rw [List.cons_append, steps_cons_iff]
      constructor
      · intro h
        obtain ⟨middle, hstep, hlater⟩ := h
        obtain ⟨rest, hscans, hrest⟩ := ih.1 hlater
        exact ⟨rest, .cons hstep hscans, hrest⟩
      · intro h
        obtain ⟨rest, hscans, hrest⟩ := h
        cases hscans with
        | cons hstep hlater => exact ⟨_, hstep, ih.2 ⟨rest, hlater, hrest⟩⟩

/-- The steps of a text scan all of it. -/
theorem Scans.of_steps (text : Text) : Scans text (steps text) [] := by
  obtain ⟨rest, hscans, hrest⟩ := steps_append_iff.1 (List.append_nil (steps text)).symm
  -- Were anything left, there would be one more step.
  cases rest with
  | nil => exact hscans
  | cons c rest =>
      obtain ⟨step, after, htakes⟩ := exists_takes (List.cons_ne_nil c rest)
      exact absurd hrest (by simp [steps_of_takes htakes])

/-- Where the scan comes to before the end, it is at the start of the text, behind a space, or
behind an identifier that ends there. -/
theorem Scans.boundary {text rest : Text} {earlier : List Step} (h : Scans text earlier rest)
    (hne : rest ≠ []) :
    earlier = [] ∨ (earlier.flatMap Step.consumed).getLast? = some ' ' ∨
      ∃ front keyword token gap identifier,
        earlier = front ++ [.clause keyword token gap (some identifier)] ∧
          identifier.WellFormed ∧ identifier.EndsBefore rest := by
  rcases List.eq_nil_or_concat' earlier with rfl | ⟨front, last, rfl⟩
  · exact .inl rfl
  right
  obtain ⟨middle, -, hlast⟩ := Scans.append_iff.1 h
  cases hlast with
  | cons hstep hnil =>
      cases hnil
      cases hstep with
      | passed _ htoken _ | unread htoken _ _ =>
          left
          rcases htoken.gap with rfl | ⟨-, rfl⟩
          · simp [Step.consumed]
          · exact absurd rfl hne
      | read _ _ hformed hends => exact .inr ⟨front, _, _, _, _, rfl, hformed, hends⟩

/-- A clause with an identifier among the steps stands in the text as keyword, space and literal,
and what follows does not belong to the identifier. -/
theorem clause_of_steps {text token gap : Text} {keyword : Keyword} {identifier : Identifier}
    {earlier later : List Step}
    (h : steps text = earlier ++ .clause keyword token gap (some identifier) :: later) :
    ∃ rest, Scans text earlier (token ++ ' ' :: (identifier.literal ++ rest)) ∧ gap = [' '] ∧
      Keyword.ofToken? token = some keyword ∧ identifier.WellFormed ∧
      identifier.EndsBefore rest ∧ steps rest = later := by
  obtain ⟨middle, hearlier, hclause⟩ := steps_append_iff.1 h
  obtain ⟨rest, htakes, hlater⟩ := steps_cons_iff.1 hclause
  have hgap := htakes.gap_eq
  cases htakes with
  | read htoken hkeyword hformed hends =>
      have hmiddle := htoken.parts
      rw [hgap, List.append_assoc, List.singleton_append] at hmiddle
      exact ⟨rest, hmiddle ▸ hearlier, hgap, hkeyword, hformed, hends, hlater⟩

end QueryTables
