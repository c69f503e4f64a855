import QueryTables.Proofs.Spacing

/-!
# Texts in small letters

Read `lower_cases` first: taking the small form changes nothing but the ASCII capitals. These are
word characters of one byte, as their small forms are, so that words, blanks and lengths are the
same in a text in small letters (`squeeze_lowered`, `byteLength_lowered`).
-/

namespace QueryTables.Text

/-- A character is its own small form, or a capital letter whose small form stands 32 places behind
it. -/
theorem lower_cases (c : Char) :
    c.toLower = c ∨ 65 ≤ c.toNat ∧ c.toNat ≤ 90 ∧ c.toLower.toNat = c.toNat + 32 := by
  by_cases hcapital : c.val ≥ 'A'.val ∧ c.val ≤ 'Z'.val
  · right
    have hlow : 65 ≤ c.toNat := hcapital.1
    have hhigh : c.toNat ≤ 90 := hcapital.2
    have hform : c.toLower = ⟨c.val + 32, _⟩ := dif_pos hcapital
    have hsmall : c.toLower.val = c.val + 32 := congrArg Char.val hform
    have hsum := congrArg UInt32.toNat hsmall
    rw [UInt32.toNat_add] at hsum
    exact ⟨hlow, hhigh, hsum.trans (Nat.mod_eq_of_lt (show c.toNat + 32 < 2 ^ 32 by omega))⟩
  · exact .inl (dif_neg hcapital)

/-- A letter is known by its code point. -/
theorem is_alpha_iff {c : Char} :
    c.isAlpha = true ↔ 65 ≤ c.toNat ∧ c.toNat ≤ 90 ∨ 97 ≤ c.toNat ∧ c.toNat ≤ 122 := by
  have hranges : c.isAlpha = (decide (c.val ≥ 'A'.val ∧ c.val ≤ 'Z'.val) ||
      decide (c.val ≥ 'a'.val) && decide (c.val ≤ 'z'.val)) := rfl
  simp only [hranges, Bool.or_eq_true, Bool.and_eq_true, decide_eq_true_eq]
  exact Iff.rfl

/-- The small form of a character is a mark that is no letter only when the character is. -/
theorem lower_eq_iff {c mark : Char} (h : mark.isAlpha = false) :
    c.toLower = mark ↔ c = mark := by
  rcases lower_cases c with hsame | ⟨hlow, hhigh, hsmall⟩
  · rw [hsame]
  · have hmark : ¬ mark.isAlpha = true := by simpa using h
    rw [is_alpha_iff] at hmark
    constructor
    · rintro rfl
      omega
    · rintro rfl
      omega

/-- No visible ASCII character is a blank. -/
theorem not_blank_of_visible {n : Nat} (hlow : 33 ≤ n) (hhigh : n ≤ 126) :
    blankRanges.contains n = false := by
  have hapart : ∀ range ∈ blankRanges, range.2 < 33 ∨ 126 < range.1 := by decide
  by_contra hblank
  obtain ⟨range, hmem, hbounds⟩ :=
    CodeRanges.exists_range_of_contains (Bool.not_eq_false _ ▸ hblank)
  have := hapart range hmem
  omega

/-- A character is a blank exactly when its small form is. -/
theorem is_blank_lower (c : Char) : isBlank c.toLower = isBlank c := by
  rcases lower_cases c with hsame | ⟨hlow, hhigh, hsmall⟩
  · rw [hsame]
  · rw [isBlank, isBlank, not_blank_of_visible (by omega) (by omega),
      not_blank_of_visible (by omega) (by omega)]

/-- A character is a word character exactly when its small form is. -/
theorem is_word_character_lower (c : Char) : isWordCharacter c.toLower = isWordCharacter c := by
  rcases lower_cases c with hsame | ⟨hlow, hhigh, hsmall⟩
  · rw [hsame]
  · -- The ranges start with the digits, the capitals and the small letters.
    have hcapital : isAlphanumeric c = true := by
      rw [isAlphanumeric, alphanumericRanges, CodeRanges.contains, CodeRanges.contains,
        if_neg (by omega), if_neg (by omega), if_neg (by omega), if_pos hhigh]
    have hletter : isAlphanumeric c.toLower = true := by
      rw [isAlphanumeric, alphanumericRanges, CodeRanges.contains, CodeRanges.contains,
        CodeRanges.contains, if_neg (by omega), if_neg (by omega), if_neg (by omega),
        if_neg (by omega), if_neg (by omega), if_pos (by omega)]
    rw [isWordCharacter, isWordCharacter, hcapital, hletter]
    rfl

/-- A character has as many bytes as its small form. -/
theorem size_lower (c : Char) : c.toLower.utf8Size = c.utf8Size := by
  have hone : ∀ d : Char, d.toNat ≤ 127 → d.utf8Size = 1 := fun d hd => if_pos hd
  rcases lower_cases c with hsame | ⟨hlow, hhigh, hsmall⟩
  · rw [hsame]
  · rw [hone c (by omega), hone c.toLower (by omega)]

/-- A text in small letters has as many bytes as the text. -/
@[simp] theorem byteLength_lowered (text : Text) : byteLength (lowered text) = byteLength text := by
  induction text with
  | nil => rfl
  | cons c rest ih => exact congrArg₂ (· + ·) (size_lower c) ih

/-- Two texts after one another are in small letters when both are. -/
@[simp] theorem lowered_append (left right : Text) :
    lowered (left ++ right) = lowered left ++ lowered right :=
  List.map_append

/-- The first character of a text in small letters is the small form of the first character. -/
@[simp] theorem lowered_cons (c : Char) (rest : Text) :
    lowered (c :: rest) = c.toLower :: lowered rest :=
  rfl

/-- The empty text has no letters. -/
@[simp] theorem lowered_nil : lowered [] = [] := rfl

/-- A text in small letters has no others. -/
theorem lowered_lowered (text : Text) : lowered (lowered text) = lowered text := by
  have hsame : Char.toLower ∘ Char.toLower = Char.toLower := by
    funext c
    rcases lower_cases c with hsame | ⟨hlow, hhigh, hsmall⟩
    · exact congrArg Char.toLower hsame
    · rcases lower_cases c.toLower with hsame | hcapital
      · exact hsame
      · omega
  rw [lowered, lowered, List.map_map, hsame]

/-- What is taken from a text as long as characters have a property does not depend on the case of
letters when the property does not. -/
theorem take_while_lowered {p : Char → Bool} (h : ∀ c : Char, p c.toLower = p c) (text : Text) :
    (lowered text).takeWhile p = lowered (text.takeWhile p) := by
  have hsame : p ∘ Char.toLower = p := funext h
  rw [lowered, List.takeWhile_map, hsame]
  rfl

/-- What is left when characters with such a property are dropped does not depend on the case of
letters either. -/
theorem drop_while_lowered {p : Char → Bool} (h : ∀ c : Char, p c.toLower = p c) (text : Text) :
    (lowered text).dropWhile p = lowered (text.dropWhile p) := by
  have hsame : p ∘ Char.toLower = p := funext h
  rw [lowered, List.dropWhile_map, hsame]
  rfl

/-- A text in small letters is squeezed as the text is. -/
theorem squeeze_after_lowered (afterBlank : Bool) (text : Text) :
    squeezeAfter afterBlank (lowered text) = lowered (squeezeAfter afterBlank text) := by
  induction text generalizing afterBlank with
  | nil => rfl
  | cons c rest ih =>
      rw [lowered_cons, squeezeAfter, squeezeAfter, is_blank_lower, ih, ih]
      split
      · split <;> rfl
      · rfl

/-- Squeezing and taking small letters can be done in either order. -/
theorem squeeze_lowered (text : Text) : squeeze (lowered text) = lowered (squeeze text) :=
  squeeze_after_lowered false text

end QueryTables.Text
