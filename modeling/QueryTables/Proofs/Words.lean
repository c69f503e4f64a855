import QueryTables.Proofs.Spacing

/-!
# Squeezed texts by their words

A squeezed text is told by its words and by whether it starts and ends with a space. Read
`Text.IsSqueezed.eq_spaced` first: it is its words with single spaces between them, and one at
either end where there is one. So squeezing gives the only squeezed text that has the words of
a text and blanks at the same ends (`squeezed_form_exact`), and without the spaces at its ends it is
told by its words alone (`trimmed_squeeze_eq_iff`).
-/

namespace QueryTables

open Text

/-- A text without the space at its end, where it has one. -/
def withoutLastSpace (text : Text) : Text :=
  if text.getLast? = some ' ' then text.dropLast else text

/-- Trimming leaves a space at the end out after one at the start. -/
theorem trimmed_once_eq (text : Text) :
    trimmedOnce text = withoutLastSpace (if text.head? = some ' ' then text.drop 1 else text) :=
  rfl

/-- A text consists of what is left without a space at its end, and of that space. There is none
behind a text that is left as it is. -/
theorem last_space_parts (text : Text) :
    ∃ trail, text = withoutLastSpace text ++ trail ∧
      (trail = [' '] ∨ trail = [] ∧ (withoutLastSpace text).getLast? ≠ some ' ') := by
  unfold withoutLastSpace
  by_cases hlast : text.getLast? = some ' '
  · rw [if_pos hlast]
    exact ⟨[' '], (List.dropLast_append_getLast? ' ' hlast).symm, .inl rfl⟩
  · rw [if_neg hlast]
    exact ⟨[], (List.append_nil text).symm, .inr ⟨rfl, hlast⟩⟩

/-- A text consists of what is left when it is trimmed, and of at most one space at either end. An
end at which none is taken away has none. -/
theorem trimmed_once_parts (text : Text) :
    ∃ lead trail, text = lead ++ trimmedOnce text ++ trail ∧
      (lead = [' '] ∧ text.head? = some ' ' ∨ lead = [] ∧ text.head? ≠ some ' ') ∧
      (trail = [' '] ∨ trail = [] ∧ (trimmedOnce text).getLast? ≠ some ' ') := by
  rw [trimmed_once_eq]
  by_cases hfirst : text.head? = some ' '
  · obtain ⟨rest, rfl⟩ := List.head?_eq_some_iff.1 hfirst
    rw [if_pos hfirst]
    obtain ⟨trail, hparts, hends⟩ := last_space_parts rest
    exact ⟨[' '], trail, congrArg (' ' :: ·) hparts, .inl ⟨rfl, rfl⟩, hends⟩
  · rw [if_neg hfirst]
    obtain ⟨trail, hparts, hends⟩ := last_space_parts text
    exact ⟨[], trail, hparts, .inr ⟨rfl, hfirst⟩, hends⟩

/-- A blank at the end of a text belongs to no word. -/
theorem words_append_blank {c : Char} (h : isBlank c = true) (text : Text) :
    words (text ++ [c]) = words text := by
  induction text with
  | nil => simp [words, h]
  | cons d text ih =>
      have hnext : (text ++ [c]).head?.all isBlank = text.head?.all isBlank := by
        cases text <;> simp [h]
      rw [List.cons_append, words, words, hnext, ih]

/-- A trimmed text has the words of the text. -/
theorem words_trimmed_once (text : Text) : words (trimmedOnce text) = words text := by
  obtain ⟨lead, trail, hparts, hlead, htrail⟩ := trimmed_once_parts text
  have hbefore : words text = words (trimmedOnce text ++ trail) := by
    rw [List.append_assoc] at hparts
    rcases hlead with ⟨rfl, -⟩ | ⟨rfl, -⟩
    · exact (congrArg words hparts).trans (words_cons_blank space_is_blank _)
    · exact congrArg words hparts
  rcases htrail with rfl | ⟨rfl, -⟩
  · rw [hbefore, words_append_blank space_is_blank]
  · rw [hbefore, List.append_nil]

/-- A character in front of the first word goes to the front of the joined words. -/
theorem joined_by_cons (separator : Text) (c : Char) (word : Text) (others : List Text) :
    joinedBy separator ((c :: word) :: others) = c :: joinedBy separator (word :: others) := by
  cases others <;> rfl

/-- The words of a squeezed text that ends in no space, with single spaces between them, are the
text but for a space at its start. -/
theorem joined_words {text : Text} (hsqueezed : IsSqueezed text)
    (hlast : text.getLast? ≠ some ' ') :
    joinedBy [' '] (words text) = if text.head? = some ' ' then text.drop 1 else text := by
  induction text with
  | nil => rfl
  | cons c rest ih =>
      have hrest : IsSqueezed rest :=
        IsSqueezed.right_of_append (show IsSqueezed ([c] ++ rest) from hsqueezed)
      have hjoined := ih hrest fun hspace => hlast (by simp [List.getLast?_cons, hspace])
      cases hc : isBlank c with
      | true =>
          obtain rfl := hsqueezed.blanks c (by simp) hc
          have hsingle : rest.head? ≠ some ' ' := by
            intro hhead
            exact (List.isChain_cons.1 hsqueezed.single).1 ' ' hhead rfl rfl
          rw [if_neg hsingle] at hjoined
          rw [words_cons_blank hc, hjoined]
          rfl
      | false =>
          have hfirst : (c :: rest).head? ≠ some ' ' := by
            simpa using ne_space_of_not_blank hc
          rw [if_neg hfirst]
          cases rest with
          | nil => rw [words_cons_end hc rfl]; rfl
          | cons d rest =>
              cases hd : isBlank d with
              | true =>
                  -- The word ends here, and another follows, for the text does not end in a space.
                  obtain rfl := hsqueezed.blanks d (by simp) hd
                  have hjoined : joinedBy [' '] (words (' ' :: rest)) = rest := hjoined
                  have hne : words (' ' :: rest) ≠ [] := by
                    intro hnil
                    rw [hnil] at hjoined
                    exact hlast (by rw [← hjoined]; rfl)
                  obtain ⟨word, others, hwords⟩ := List.exists_cons_of_ne_nil hne
                  rw [words_cons_end hc (by simpa using hd), hwords]
                  rw [hwords] at hjoined
                  show [c] ++ [' '] ++ joinedBy [' '] (word :: others) = _
                  rw [hjoined]
                  rfl
              | false =>
                  obtain ⟨word, others, hwords, hlonger⟩ := words_cons_inside hc hd rest
                  have hnext : (d :: rest).head? ≠ some ' ' := by
                    simpa using ne_space_of_not_blank hd
                  rw [hwords, if_neg hnext] at hjoined
                  rw [hlonger, joined_by_cons, hjoined]

/-- A squeezed text, trimmed, is its words with single spaces between them. -/
theorem trimmed_once_eq_joined {text : Text} (h : IsSqueezed text) :
    trimmedOnce text = joinedBy [' '] (words text) := by
  obtain ⟨lead, trail, hparts, hlead, htrail⟩ := trimmed_once_parts text
  rw [hparts] at h
  have hmiddle : IsSqueezed (trimmedOnce text) := h.left_of_append.right_of_append
  have hlast : (trimmedOnce text).getLast? ≠ some ' ' := by
    intro hspace
    rcases htrail with rfl | ⟨-, hends⟩
    · rw [List.append_assoc] at h
      obtain ⟨-, -, hseam⟩ := List.isChain_append.1 h.right_of_append.single
      exact hseam ' ' hspace ' ' rfl rfl rfl
    · exact hends hspace
  have hfirst : (trimmedOnce text).head? ≠ some ' ' := by
    intro hspace
    rcases hlead with ⟨rfl, -⟩ | ⟨rfl, hstarts⟩
    · obtain ⟨-, -, hseam⟩ := List.isChain_append.1 h.left_of_append.single
      exact hseam ' ' rfl ' ' hspace rfl rfl
    · obtain ⟨rest, hrest⟩ := List.head?_eq_some_iff.1 hspace
      rw [hparts, hrest] at hstarts
      exact hstarts rfl
  rw [← words_trimmed_once, joined_words hmiddle hlast, if_neg hfirst]

/-- The squeezed form of a text, trimmed, is the words of the text with single spaces between
them. -/
theorem trimmed_squeeze_eq_joined (text : Text) :
    trimmedOnce (squeeze text) = joinedBy [' '] (words text) := by
  rw [trimmed_once_eq_joined (squeeze_is_squeezed text), words_squeeze]

/-- Squeezed texts are the same, when trimmed, exactly for texts with the same words. -/
theorem trimmed_squeeze_eq_iff (text other : Text) :
    trimmedOnce (squeeze text) = trimmedOnce (squeeze other) ↔ words text = words other := by
  constructor
  · intro h
    have hwords := congrArg words h
    rwa [words_trimmed_once, words_trimmed_once, words_squeeze, words_squeeze] at hwords
  · intro h
    rw [trimmed_squeeze_eq_joined, trimmed_squeeze_eq_joined, h]

/-- The words of a text are what stands between its blanks, where that is not empty. -/
theorem words_eq_split (text : Text) :
    words text = (text.splitOnP isBlank).filter fun piece => !piece.isEmpty := by
  induction text with
  | nil => rfl
  | cons c rest ih =>
      rw [List.splitOnP_cons_eq_if_modifyHead]
      cases hc : isBlank c with
      | true => simp [words_cons_blank hc, ih]
      | false =>
          cases rest with
          | nil => simp [words, hc, List.splitOnP_nil]
          | cons d rest =>
              rw [List.splitOnP_cons_eq_if_modifyHead] at ih ⊢
              cases hd : isBlank d with
              | true =>
                  rw [hd] at ih
                  simpa [words_cons_end hc, hd] using ih
              | false =>
                  -- The piece that the character goes into is not empty, so it is the first word.
                  obtain ⟨word, others, hwords, hlonger⟩ := words_cons_inside hc hd rest
                  obtain ⟨piece, pieces, hpieces⟩ :=
                    List.exists_cons_of_ne_nil (List.splitOnP_ne_nil isBlank rest)
                  rw [hwords, hd, hpieces] at ih
                  obtain ⟨rfl, rfl⟩ : word = d :: piece ∧
                      others = pieces.filter fun piece => !piece.isEmpty := by simpa using ih
                  rw [hlonger, hpieces]
                  simp

/-- Words with single spaces between them, and with a space before and behind them where there is to
be one. Without words, the space behind them is the one before them. -/
def spaced (leading : Bool) (row : List Text) (trailing : Bool) : Text :=
  (if leading = true then [' '] else []) ++ joinedBy [' '] row ++
    if trailing = true ∧ row ≠ [] then [' '] else []

/-- A squeezed text starts with a blank where it starts with a space. -/
theorem Text.IsSqueezed.starts_blank_iff {text : Text} (h : IsSqueezed text) :
    startsBlank text = true ↔ text.head? = some ' ' := by
  cases text with
  | nil => simp [startsBlank]
  | cons c rest =>
      have hblank : isBlank c = true ↔ c = ' ' :=
        ⟨h.blanks c (by simp), fun heq => heq ▸ space_is_blank⟩
      simpa [startsBlank] using hblank

/-- A squeezed text ends with a blank where it ends with a space. -/
theorem Text.IsSqueezed.ends_blank_iff {text : Text} (h : IsSqueezed text) :
    endsBlank text = true ↔ text.getLast? = some ' ' := by
  rw [← last_squeeze_iff, squeeze_eq_self h]

/-- The space at the end of a squeezed text stands behind words: without words, it would be the one
at the start. -/
theorem Text.IsSqueezed.words_ne_nil {text lead : Text} (h : IsSqueezed text)
    (hparts : text = lead ++ trimmedOnce text ++ [' '])
    (hlead : lead = [' '] ∧ text.head? = some ' ' ∨ lead = [] ∧ text.head? ≠ some ' ') :
    words text ≠ [] := by
  intro hnil
  have hmiddle : trimmedOnce text = [] := by
    rw [trimmed_once_eq_joined h, hnil]
    rfl
  rw [hmiddle, List.append_nil] at hparts
  rcases hlead with ⟨rfl, -⟩ | ⟨rfl, hfirst⟩
  · rw [hparts] at h
    exact (List.isChain_cons.1 h.single).1 ' ' rfl rfl rfl
  · rw [hparts] at hfirst
    exact hfirst rfl

/-- A squeezed text is its words with single spaces between them, and with a space at either end
where it has one. -/
theorem Text.IsSqueezed.eq_spaced {text : Text} (h : IsSqueezed text) :
    text = spaced (startsBlank text) (words text) (endsBlank text) := by
  obtain ⟨lead, trail, hparts, hlead, htrail⟩ := trimmed_once_parts text
  have hfront : lead = if startsBlank text = true then [' '] else [] := by
    rw [if_congr h.starts_blank_iff rfl rfl]
    rcases hlead with ⟨rfl, hfirst⟩ | ⟨rfl, hfirst⟩
    · rw [if_pos hfirst]
    · rw [if_neg hfirst]
  have hback : trail = if endsBlank text = true ∧ words text ≠ [] then [' '] else [] := by
    rw [if_congr (and_congr_left' h.ends_blank_iff) rfl rfl]
    rcases htrail with rfl | ⟨rfl, hends⟩
    · have hlast : text.getLast? = some ' ' := by
        rw [hparts]
        exact List.getLast?_concat
      rw [if_pos ⟨hlast, h.words_ne_nil hparts hlead⟩]
    · rw [if_neg]
      rintro ⟨hlast, hwords⟩
      -- With words, the text ends as what is left of it when it is trimmed, and not in a space.
      have hmiddle : trimmedOnce text ≠ [] := by
        intro hnil
        rw [← words_trimmed_once, hnil] at hwords
        exact hwords rfl
      rw [hparts, List.append_nil, List.getLast?_append_of_ne_nil _ hmiddle] at hlast
      exact hends hlast
  rw [hfront, hback, trimmed_once_eq_joined h] at hparts
  exact hparts

/-- A text and its squeezed form start with a blank, or not, alike. -/
theorem starts_blank_squeeze (text : Text) : startsBlank (squeeze text) = startsBlank text := by
  cases text with
  | nil => rfl
  | cons c rest =>
      cases hc : isBlank c <;>
        simp [startsBlank, squeeze, squeezeAfter, hc, space_is_blank]

/-- A text and its squeezed form end with a blank, or not, alike. -/
theorem ends_blank_squeeze (text : Text) : endsBlank (squeeze text) = endsBlank text := by
  rw [Bool.eq_iff_iff, (squeeze_is_squeezed text).ends_blank_iff, last_squeeze_iff]

/-- The squeezed form of a text is its words with single spaces between them, and with a space at
either end where the text has blanks. -/
theorem squeeze_eq_spaced (text : Text) :
    squeeze text = spaced (startsBlank text) (words text) (endsBlank text) := by
  rw [(squeeze_is_squeezed text).eq_spaced, starts_blank_squeeze, words_squeeze, ends_blank_squeeze]

/-- Squeezed texts are the same exactly for texts with the same words and with blanks at the same
ends. -/
theorem squeeze_eq_iff {text other : Text} :
    squeeze text = squeeze other ↔
      words text = words other ∧ startsBlank text = startsBlank other ∧
        endsBlank text = endsBlank other := by
  constructor
  · intro h
    refine ⟨?_, ?_, ?_⟩
    · rw [← words_squeeze, h, words_squeeze]
    · rw [← starts_blank_squeeze, h, starts_blank_squeeze]
    · rw [← ends_blank_squeeze, h, ends_blank_squeeze]
  · rintro ⟨hwords, hstarts, hends⟩
    rw [squeeze_eq_spaced, squeeze_eq_spaced, hwords, hstarts, hends]

/-- Squeezing twice is squeezing once. The second time, a blank before the text matters as it would
the first time. -/
theorem squeeze_after_squeeze_after (outer inner : Bool) (text : Text) :
    squeezeAfter outer (squeezeAfter inner text) = squeezeAfter (outer || inner) text := by
  induction text generalizing outer inner with
  | nil => rfl
  | cons c rest ih =>
      cases hc : isBlank c with
      | true => cases outer <;> cases inner <;> simp [squeezeAfter, hc, space_is_blank, ih]
      | false => simp [squeezeAfter, hc, ih]

/-- Parts of a text can be squeezed before the whole. -/
theorem squeeze_squeezed_parts (left right : Text) :
    squeeze (squeeze left ++ squeeze right) = squeeze (left ++ right) := by
  calc squeeze (squeeze left ++ squeeze right)
      = squeeze (squeeze left) ++ squeezeAfter (endsBlank left) (squeeze right) := by
        rw [squeeze_append, ends_blank_squeeze]
    _ = squeeze left ++ squeezeAfter (endsBlank left) right := by
        simp only [squeeze, squeeze_after_squeeze_after, Bool.or_false]
    _ = squeeze (left ++ right) := (squeeze_append left right).symm

/-- A text has the form in which another is squeezed: its only blanks are single spaces, and it has
the words of the other and a space at the ends at which that has blanks. -/
structure SqueezedForm (text form : Text) : Prop where
  squeezed : IsSqueezed form
  sameWords : words form = words text
  starts : form.head? = some ' ' ↔ startsBlank text = true
  ends : form.getLast? = some ' ' ↔ endsBlank text = true

/-- There is one text of this form, which squeezing gives. -/
theorem squeezed_form_iff {text form : Text} : SqueezedForm text form ↔ form = squeeze text := by
  constructor
  · intro h
    have hstarts : startsBlank form = startsBlank text :=
      Bool.eq_iff_iff.2 (h.squeezed.starts_blank_iff.trans h.starts)
    have hends : endsBlank form = endsBlank text :=
      Bool.eq_iff_iff.2 (h.squeezed.ends_blank_iff.trans h.ends)
    rw [← squeeze_eq_self h.squeezed]
    exact squeeze_eq_iff.2 ⟨h.sameWords, hstarts, hends⟩
  · rintro rfl
    have hsqueezed := squeeze_is_squeezed text
    refine ⟨hsqueezed, words_squeeze text, ?_, last_squeeze_iff⟩
    rw [← hsqueezed.starts_blank_iff, starts_blank_squeeze]

/-- Squeezing is exact. It gives the one text that has the words of a text, single spaces as its
only blanks, and one at the ends at which the text has blanks. So texts are squeezed alike exactly
when they have the same words and blanks at the same ends, a squeezed text is squeezed to itself, and
the parts of a text can be squeezed before the whole. The words are what stands between the blanks,
where that is not empty. -/
theorem squeezed_form_exact (text : Text) :
    (∀ form, SqueezedForm text form ↔ form = squeeze text) ∧
    (∀ other, squeeze text = squeeze other ↔
      words text = words other ∧ startsBlank text = startsBlank other ∧
        endsBlank text = endsBlank other) ∧
    squeeze (squeeze text) = squeeze text ∧
    (∀ tail, squeeze (text ++ tail) = squeeze (squeeze text ++ squeeze tail)) ∧
    words text = (text.splitOnP isBlank).filter fun piece => !piece.isEmpty := by
  refine ⟨fun form => squeezed_form_iff, fun other => squeeze_eq_iff, ?_, fun tail => ?_,
    words_eq_split text⟩
  · exact squeeze_eq_self (squeeze_is_squeezed text)
  · exact (squeeze_squeezed_parts text tail).symm

/-- Of a text that is all blanks one space is left, at which the text both starts and ends. -/
example : squeeze "\t \n".toList = [' '] ∧ words "\t \n".toList = [] := by
  decide

end QueryTables
