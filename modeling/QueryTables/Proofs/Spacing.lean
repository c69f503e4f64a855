import Mathlib.Data.List.Chain
import Mathlib.Data.List.Induction
import QueryTables.Text.Spacing
import QueryTables.Text.WordCharacter

/-!
# Squeezed texts and delimited tokens

A squeezed text has no blank but single spaces. `squeeze_is_squeezed` and `squeeze_eq_self` say that
squeezing gives such a text and changes no other. Its tokens, cut out at the spaces, are then the
words of the text it was made from: `mem_words_of_delimited`.
-/

namespace QueryTables.Text

/-- The text has no blank but the space, and no two spaces next to each other. -/
structure IsSqueezed (text : Text) : Prop where
  blanks : ∀ c ∈ text, isBlank c = true → c = ' '
  single : text.IsChain fun left right => left = ' ' → right ≠ ' '

/-- The token stands between the two other parts of the text without a space in it, and with a
space or an end of the text on either side. -/
structure Delimited (text before token after : Text) : Prop where
  parts : text = before ++ token ++ after
  noSpace : ' ' ∉ token
  starts : before = [] ∨ before.getLast? = some ' '
  ends : after = [] ∨ after.head? = some ' '

/-- No token goes on from the first text to the second: a space ends the one or starts the other, or
nothing follows. -/
def Apart (left right : Text) : Prop :=
  left.getLast? = some ' ' ∨ right = [] ∨ right.head? = some ' '

/-- A row of characters with a property is what is taken from a text that continues with a character
without it. -/
theorem take_run {p : Char → Bool} {run rest : Text} (hrun : ∀ c ∈ run, p c = true)
    (hrest : rest.head?.any p = false) : (run ++ rest).takeWhile p = run := by
  rw [List.takeWhile_append_of_pos hrun]
  cases rest with
  | nil => simp
  | cons c rest =>
      have hc : p c = false := by simpa using hrest
      simp [hc]

/-- What follows a row of characters with a property is left when they are dropped. -/
theorem drop_run {p : Char → Bool} {run rest : Text} (hrun : ∀ c ∈ run, p c = true)
    (hrest : rest.head?.any p = false) : (run ++ rest).dropWhile p = rest := by
  rw [List.dropWhile_append_of_pos hrun]
  cases rest with
  | nil => simp
  | cons c rest =>
      have hc : p c = false := by simpa using hrest
      simp [hc]

/-- The space is a blank. -/
theorem space_is_blank : isBlank ' ' = true := by decide

/-- A character that is no blank is no space. -/
theorem ne_space_of_not_blank {c : Char} (h : isBlank c = false) : c ≠ ' ' := by
  intro heq
  rw [heq, space_is_blank] at h
  exact Bool.false_ne_true h.symm

/-- A code point that a list of ranges contains lies between the ends of one of them. -/
theorem CodeRanges.exists_range_of_contains {ranges : CodeRanges} {n : Nat}
    (h : ranges.contains n = true) : ∃ range ∈ ranges, range.1 ≤ n ∧ n ≤ range.2 := by
  induction ranges with
  | nil => simp [CodeRanges.contains] at h
  | cons range ranges ih =>
      simp only [CodeRanges.contains] at h
      split at h
      · exact absurd h (by simp)
      · split at h
        · exact ⟨range, by simp, by omega, by omega⟩
        · obtain ⟨other, hother, hbounds⟩ := ih h
          exact ⟨other, by simp [hother], hbounds⟩

/-- The ranges of blanks and those of letters and numbers lie apart. -/
theorem blank_ranges_apart : ∀ blank ∈ blankRanges, ∀ word ∈ alphanumericRanges,
    blank.2 < word.1 ∨ word.2 < blank.1 := by
  decide +kernel

/-- No word character is a blank. -/
theorem word_character_not_blank {c : Char} (h : isWordCharacter c = true) :
    isBlank c = false := by
  simp only [isWordCharacter, Bool.or_eq_true, beq_iff_eq] at h
  rcases h with h | rfl
  · by_contra hblank
    obtain ⟨blank, hmem, hlow, hhigh⟩ :=
      CodeRanges.exists_range_of_contains (Bool.not_eq_false _ ▸ hblank)
    obtain ⟨word, hword, hwlow, hwhigh⟩ := CodeRanges.exists_range_of_contains h
    have hapart := blank_ranges_apart blank hmem word hword
    omega
  · decide

/-- The first part of a squeezed text is squeezed. -/
theorem IsSqueezed.left_of_append {left right : Text} (h : IsSqueezed (left ++ right)) :
    IsSqueezed left where
  blanks c hc := h.blanks c (List.mem_append_left right hc)
  single := h.single.left_of_append

/-- The last part of a squeezed text is squeezed. -/
theorem IsSqueezed.right_of_append {left right : Text} (h : IsSqueezed (left ++ right)) :
    IsSqueezed right where
  blanks c hc := h.blanks c (List.mem_append_right left hc)
  single := h.single.right_of_append

/-- A character before a squeezed text leaves it squeezed when it is no blank, or is a space that
no further space follows. -/
theorem IsSqueezed.cons {c : Char} {rest : Text} (h : IsSqueezed rest)
    (hblank : isBlank c = true → c = ' ' ∧ rest.head? ≠ some ' ') : IsSqueezed (c :: rest) where
  blanks d hd hdblank := by
    rcases List.mem_cons.1 hd with rfl | hd
    · exact (hblank hdblank).1
    · exact h.blanks d hd hdblank
  single := by
    refine List.isChain_cons.2 ⟨?_, h.single⟩
    intro d hd hspace hnext
    rw [hspace] at hblank
    exact (hblank space_is_blank).2 (hnext ▸ hd)

/-- Squeezing gives a squeezed text, which does not start with a space right after a blank. -/
theorem squeeze_after_is_squeezed (afterBlank : Bool) (text : Text) :
    IsSqueezed (squeezeAfter afterBlank text) ∧
      (afterBlank = true → (squeezeAfter afterBlank text).head? ≠ some ' ') := by
  induction text generalizing afterBlank with
  | nil => exact ⟨⟨by simp [squeezeAfter], List.isChain_nil⟩, by simp [squeezeAfter]⟩
  | cons c rest ih =>
      simp only [squeezeAfter]
      -- The flag carries whether a space was the last thing put out, so no second one follows it.
      cases hc : isBlank c with
      | true =>
          cases afterBlank with
          | true => simpa using ih true
          | false => exact ⟨(ih true).1.cons fun _ => ⟨rfl, (ih true).2 rfl⟩, by simp⟩
      | false =>
          refine ⟨(ih false).1.cons (by simp [hc]), fun _ => ?_⟩
          simpa using ne_space_of_not_blank hc

/-- Squeezing gives a squeezed text. -/
theorem squeeze_is_squeezed (text : Text) : IsSqueezed (squeeze text) :=
  (squeeze_after_is_squeezed false text).1

/-- Squeezing brings no character but the space into a text. -/
theorem mem_of_mem_squeeze_after {c : Char} {afterBlank : Bool} {text : Text}
    (h : c ∈ squeezeAfter afterBlank text) : c ∈ text ∨ c = ' ' := by
  induction text generalizing afterBlank with
  | nil => simp [squeezeAfter] at h
  | cons d rest ih =>
      unfold squeezeAfter at h
      split at h
      · split at h
        · exact (ih h).imp_left (List.mem_cons_of_mem d)
        · rcases List.mem_cons.1 h with rfl | h
          · exact .inr rfl
          · exact (ih h).imp_left (List.mem_cons_of_mem d)
      · rcases List.mem_cons.1 h with rfl | h
        · simp
        · exact (ih h).imp_left (List.mem_cons_of_mem d)

/-- Squeezing changes no squeezed text that starts without a second space. -/
theorem squeeze_after_eq_self {text : Text} (h : IsSqueezed text) {afterBlank : Bool}
    (hstart : afterBlank = true → text.head? ≠ some ' ') : squeezeAfter afterBlank text = text := by
  induction text generalizing afterBlank with
  | nil => rfl
  | cons c rest ih =>
      have hrest : IsSqueezed rest :=
        IsSqueezed.right_of_append (show IsSqueezed ([c] ++ rest) from h)
      cases hc : isBlank c with
      | true =>
          obtain rfl := h.blanks c (by simp) hc
          have hsingle : rest.head? ≠ some ' ' := fun hhead =>
            (List.isChain_cons.1 h.single).1 ' ' hhead rfl rfl
          have hfirst : afterBlank = false := by
            cases afterBlank with
            | true => exact absurd rfl (hstart rfl)
            | false => rfl
          simp [squeezeAfter, hc, hfirst, ih hrest fun _ => hsingle]
      | false =>
          have htail : squeezeAfter false rest = rest := ih hrest (by simp)
          simp [squeezeAfter, hc, htail]

/-- Squeezing changes no squeezed text. -/
theorem squeeze_eq_self {text : Text} (h : IsSqueezed text) : squeeze text = text :=
  squeeze_after_eq_self h (by simp)

/-- A text behind another is squeezed after a blank when the other ends in one. -/
theorem squeeze_after_append (afterBlank : Bool) (left right : Text) :
    squeezeAfter afterBlank (left ++ right) = squeezeAfter afterBlank left ++
      squeezeAfter ((left.getLast?.map isBlank).getD afterBlank) right := by
  induction left generalizing afterBlank with
  | nil => rfl
  | cons c left ih =>
      have hlast : (((c :: left).getLast?).map isBlank).getD afterBlank =
          (left.getLast?.map isBlank).getD (isBlank c) := by
        cases left with
        | nil => rfl
        | cons d left => simp [List.getLast?_cons]
      rw [hlast]
      cases hc : isBlank c with
      | true => cases afterBlank <;> simp [squeezeAfter, hc, ih]
      | false => simp [squeezeAfter, hc, ih]

/-- A text behind another is squeezed after a blank exactly when the other ends in one. -/
theorem squeeze_append (left right : Text) :
    squeeze (left ++ right) = squeeze left ++ squeezeAfter (endsBlank left) right := by
  have hends : (left.getLast?.map isBlank).getD false = endsBlank left := by
    unfold endsBlank
    cases left.getLast? <;> rfl
  rw [squeeze, squeeze_after_append, hends, squeeze]

/-- A squeezed text ends in a space exactly when the text ends in a blank. -/
theorem last_squeeze_iff {text : Text} :
    (squeeze text).getLast? = some ' ' ↔ endsBlank text = true := by
  induction text using List.reverseRecOn with
  | nil => simp [squeeze, squeezeAfter, endsBlank]
  | append_singleton front c ih =>
      have hends : endsBlank (front ++ [c]) = isBlank c := by simp [endsBlank]
      rw [squeeze_append, hends]
      cases hc : isBlank c with
      | true =>
          -- The blank is written as a space unless one stands there already.
          cases hfront : endsBlank front with
          | true => simp [squeezeAfter, hc, ih.2 hfront]
          | false => simp [squeezeAfter, hc]
      | false => simpa [squeezeAfter, hc] using ne_space_of_not_blank hc

/-- A text and its squeezed form end a word before them, or not, alike. -/
theorem head_blank_squeeze_after (text : Text) :
    (squeezeAfter false text).head?.all isBlank = text.head?.all isBlank := by
  cases text with
  | nil => rfl
  | cons c rest => cases hc : isBlank c <;> simp [squeezeAfter, hc, space_is_blank]

/-- Squeezing keeps the words of a text. -/
theorem words_squeeze_after (afterBlank : Bool) (text : Text) :
    words (squeezeAfter afterBlank text) = words text := by
  induction text generalizing afterBlank with
  | nil => rfl
  | cons c rest ih =>
      cases hc : isBlank c with
      | true => cases afterBlank <;> simp [squeezeAfter, words, hc, space_is_blank, ih]
      | false => simp [squeezeAfter, words, hc, ih, head_blank_squeeze_after]

/-- A text and its squeezed form have the same words. -/
theorem words_squeeze (text : Text) : words (squeeze text) = words text :=
  words_squeeze_after false text

/-- A blank belongs to no word. -/
theorem words_cons_blank {c : Char} (h : isBlank c = true) (rest : Text) :
    words (c :: rest) = words rest := by
  simp [words, h]

/-- A character before a blank or the end of the text is the end of a word. -/
theorem words_cons_end {c : Char} (h : isBlank c = false) {rest : Text}
    (hrest : rest.head?.all isBlank = true) : words (c :: rest) = [c] :: words rest := by
  simp [words, h, hrest]

/-- A character before another that is no blank belongs to the same word. -/
theorem words_cons_inside {c d : Char} (h : isBlank c = false) (hd : isBlank d = false)
    (rest : Text) : ∃ word others, words (d :: rest) = word :: others ∧
      words (c :: d :: rest) = (c :: word) :: others := by
  have hne : words (d :: rest) ≠ [] := by
    rw [words]
    simp only [hd, Bool.false_eq_true, if_false]
    split
    · simp
    · split <;> simp
  obtain ⟨word, others, hwords⟩ := List.exists_cons_of_ne_nil hne
  refine ⟨word, others, hwords, ?_⟩
  rw [words]
  simp [h, hd, hwords]

/-- Behind a blank, the words start anew. -/
theorem words_append {before : Text} (h : before.getLast?.all isBlank = true) (rest : Text) :
    words (before ++ rest) = words before ++ words rest := by
  induction before with
  | nil => rfl
  | cons c before ih =>
      cases before with
      | nil =>
          have hc : isBlank c = true := by simpa using h
          simp [words, hc]
      | cons d before =>
          have hwords := ih (by simpa using h)
          simp only [List.cons_append] at hwords ⊢
          cases hc : isBlank c with
          | true => rw [words_cons_blank hc, words_cons_blank hc, hwords]
          | false =>
              cases hd : isBlank d with
              | true => rw [words_cons_end hc (by simpa), words_cons_end hc (by simpa), hwords,
                  List.cons_append]
              | false =>
                  -- Both sides put the character into the first of the words that they have without
                  -- it, which is the same word on both.
                  obtain ⟨word, others, hfirst, hlonger⟩ := words_cons_inside hc hd before
                  obtain ⟨_, _, hfirst', hlonger'⟩ := words_cons_inside hc hd (before ++ rest)
                  rw [hfirst, hfirst', List.cons_append, List.cons.injEq] at hwords
                  rw [hlonger, hlonger', hwords.1, hwords.2, List.cons_append]

/-- A row of characters that are no blanks is the first word where a blank or nothing follows. -/
theorem words_token {token : Text} (hne : token ≠ []) (htoken : ∀ c ∈ token, isBlank c = false)
    {after : Text} (hafter : after.head?.all isBlank = true) :
    words (token ++ after) = token :: words after := by
  induction token with
  | nil => exact absurd rfl hne
  | cons c token ih =>
      have hc := htoken c (by simp)
      cases token with
      | nil => simp [words, hc, hafter]
      | cons d token =>
          have hd := htoken d (by simp)
          have hwords := ih (by simp) fun e he => htoken e (by simp [he])
          simp only [List.cons_append] at hwords ⊢
          rw [words]
          simp [hc, hd, hwords]

/-- A token of a squeezed text, when there is anything in it, is one of the words. -/
theorem mem_words_of_delimited {text before token after : Text} (hsqueezed : IsSqueezed text)
    (h : Delimited text before token after) (hne : token ≠ []) : token ∈ words text := by
  obtain ⟨rfl, hspace, hstarts, hends⟩ := h
  have htoken : ∀ c ∈ token, isBlank c = false := by
    intro c hc
    by_contra hblank
    have := hsqueezed.blanks c (by simp [hc]) (by simpa using hblank)
    exact hspace (this ▸ hc)
  have hbefore : before.getLast?.all isBlank = true := by
    rcases hstarts with rfl | hlast
    · rfl
    · simp [hlast, space_is_blank]
  have hafter : after.head?.all isBlank = true := by
    rcases hends with rfl | hfirst
    · rfl
    · simp [hfirst, space_is_blank]
  rw [List.append_assoc, words_append hbefore, words_token hne htoken hafter]
  simp

end QueryTables.Text
