import QueryTables.Proofs.Grammar
import QueryTables.Slices

/-!
# Slices in range

Every slice that is taken to find out how far an identifier reaches is at the end of a part that has
just been read, and so in range and between two characters (`slice_behind`). So no slice fails, and
offsets say the same as the texts that are read and left: `first_extent_eq` for identifiers and
`cut_head_at_eq` for literals that are cut in two.
-/

namespace QueryTables

open Text

namespace Text

/-- A text is cut at a byte offset where a front of it has that length. -/
theorem cut_at_iff {offset : Nat} {text left right : Text} :
    cutAt? offset text = some (left, right) ↔ text = left ++ right ∧ byteLength left = offset := by
  fun_induction cutAt? offset text generalizing left with
  | case1 text =>
      constructor
      · intro h
        cases h
        exact ⟨rfl, rfl⟩
      · rintro ⟨rfl, hlength⟩
        cases left with
        | nil => rfl
        | cons c left =>
            have hsize := c.utf8Size_pos
            rw [byteLength_cons] at hlength
            omega
  | case2 offset =>
      refine ⟨nofun, ?_⟩
      rintro ⟨hnil, hlength⟩
      rw [(List.append_eq_nil_iff.1 hnil.symm).1] at hlength
      cases hlength
  | case3 offset c rest hsize ih =>
      rw [Option.map_eq_some_iff]
      constructor
      · rintro ⟨⟨front, back⟩, hcut, hparts⟩
        cases hparts
        obtain ⟨rfl, hlength⟩ := ih.1 hcut
        simp only [byteLength_cons]
        exact ⟨rfl, by omega⟩
      · rintro ⟨hparts, hlength⟩
        cases left with
        | nil => cases hlength
        | cons d left =>
            obtain ⟨rfl, rfl⟩ := List.cons.inj hparts
            rw [byteLength_cons] at hlength
            exact ⟨(left, right), ih.2 ⟨rfl, by omega⟩, rfl⟩
  | case4 offset c rest hsize =>
      refine ⟨nofun, ?_⟩
      rintro ⟨hparts, hlength⟩
      cases left with
      | nil => cases hlength
      | cons d left =>
          obtain ⟨rfl, rfl⟩ := List.cons.inj hparts
          rw [byteLength_cons] at hlength
          omega

/-- A text is not cut inside a character. -/
example : cutAt? 1 ['é'] = none := rfl

/-- A character behind a run of others is found behind the bytes of the run. -/
theorem offset_behind_run {p : Char → Bool} {run : Text} (hrun : ∀ c ∈ run, p c = false) {c : Char}
    (hc : p c = true) (rest : Text) : offset? p (run ++ c :: rest) = some (byteLength run) := by
  induction run with
  | nil => exact if_pos hc
  | cons d run ih =>
      rw [List.forall_mem_cons] at hrun
      rw [List.cons_append, offset?, if_neg (by simp [hrun.1]), ih hrun.2]
      rfl

/-- A character that is nowhere in a text is not found. -/
theorem offset_eq_none {p : Char → Bool} {text : Text} (h : ∀ c ∈ text, p c = false) :
    offset? p text = none := by
  induction text with
  | nil => rfl
  | cons c text ih =>
      rw [List.forall_mem_cons] at h
      rw [offset?, if_neg (by simp [h.1]), ih h.2]
      rfl

/-- A character is nowhere in a text, or behind a run of others. -/
theorem nowhere_or_behind_run (p : Char → Bool) (text : Text) :
    (∀ c ∈ text, p c = false) ∨
      ∃ run c rest, text = run ++ c :: rest ∧ (∀ c ∈ run, p c = false) ∧ p c = true := by
  induction text with
  | nil => exact .inl nofun
  | cons c text ih =>
      cases hc : p c with
      | true => exact .inr ⟨[], c, text, rfl, nofun, hc⟩
      | false =>
          rcases ih with h | ⟨run, d, rest, rfl, hrun, hd⟩
          · exact .inl (List.forall_mem_cons.2 ⟨hc, h⟩)
          · exact .inr ⟨c :: run, d, rest, rfl, List.forall_mem_cons.2 ⟨hc, hrun⟩, hd⟩

/-- A text with a character takes bytes. -/
theorem byte_length_pos {text : Text} (h : text ≠ []) : 0 < byteLength text := by
  obtain ⟨c, rest, rfl⟩ := List.exists_cons_of_ne_nil h
  rw [byteLength_cons]
  exact Nat.add_pos_left c.utf8Size_pos _

end Text

/-- A slice at the end of a front is in range. -/
theorem slice_behind (left right : Text) :
    slice (left ++ right) (byteLength left) = .ok (left, right) := by
  rw [slice, cut_at_iff.2 ⟨rfl, rfl⟩]

/-- A part between quote marks takes two bytes more than by itself. -/
theorem byte_length_in_quotes (inner : Text) :
    byteLength (Identifier.inQuotes inner) = byteLength inner + 2 := by
  have hmark : quoteMark.utf8Size = 1 := rfl
  rw [Identifier.inQuotes, byteLength_cons, byteLength_append, byteLength_cons, byteLength_nil,
    hmark]
  omega

/-- No quoted part is read where its quote mark is not closed. -/
theorem read_quoted_unclosed {inner : Text} (h : ∀ c ∈ inner, (c == quoteMark) = false) :
    readQuoted? (quoteMark :: inner) = none := by
  rw [Option.eq_none_iff_forall_ne_some]
  rintro ⟨part, rest⟩ hread
  obtain ⟨hparts, -⟩ := read_quoted_iff.1 hread
  have hinner : inner = part ++ quoteMark :: rest := by
    simpa [Identifier.inQuotes] using hparts
  exact absurd (h quoteMark (by simp [hinner])) (by simp)

/-- A quoted part reaches as far as it is read. -/
theorem quoted_extent_eq (text : Text) :
    quotedExtent text =
      (readQuoted? text).map fun found => byteLength (Identifier.inQuotes found.1) := by
  cases text with
  | nil => rfl
  | cons c inner =>
      rw [quotedExtent]
      split
      case isFalse hmark =>
        rw [read_quoted_eq_none (by simpa using hmark)]
        rfl
      case isTrue hmark =>
        subst hmark
        rcases nowhere_or_behind_run (· == quoteMark) inner with
          hnowhere | ⟨run, c, rest, rfl, hrun, hc⟩
        · rw [offset_eq_none hnowhere, read_quoted_unclosed hnowhere]
          rfl
        · have hclose : c = quoteMark := by simpa using hc
          subst hclose
          rw [offset_behind_run hrun hc]
          cases run with
          | nil => rfl
          | cons first run =>
              have hpart : Identifier.IsQuotedPart (first :: run) :=
                ⟨List.cons_ne_nil _ _, fun hmem => by simpa using hrun _ hmem⟩
              have hspelled : quoteMark :: (first :: run ++ quoteMark :: rest) =
                  Identifier.inQuotes (first :: run) ++ rest := by
                simp [Identifier.inQuotes]
              have hpos := byte_length_pos (List.cons_ne_nil first run)
              rw [hspelled, read_quoted_append hpart, Option.map_some, byte_length_in_quotes]
              exact if_pos hpos

/-- A word reaches as far as it is read. -/
theorem word_extent_eq (text : Text) :
    wordExtent text = (readWord? text).map fun found => byteLength found.1 := by
  have hword {run rest : Text} (hrun : ∀ c ∈ run, (!isWordCharacter c) = false)
      (hstop : rest.head?.any isWordCharacter = false) :
      (if 0 < byteLength run then some (byteLength run) else none) =
        (readWord? (run ++ rest)).map fun found => byteLength found.1 := by
    cases run with
    | nil =>
        have hnone : readWord? rest = none := by
          cases rest with
          | nil => rfl
          | cons c rest =>
              have hc : isWordCharacter c = false := by simpa using hstop
              simp [readWord?, hc]
        rw [List.nil_append, hnone]
        rfl
    | cons first run =>
        have hall : Identifier.IsWord (first :: run) :=
          ⟨List.cons_ne_nil _ _, fun c hc => by simpa using hrun c hc⟩
        rw [if_pos (byte_length_pos (List.cons_ne_nil first run)), read_word_append hall hstop]
        rfl
  rcases nowhere_or_behind_run (fun c => !isWordCharacter c) text with
    hnowhere | ⟨run, c, rest, rfl, hrun, hc⟩
  · have hwhole := @hword text [] hnowhere rfl
    rw [List.append_nil] at hwhole
    rw [wordExtent, offset_eq_none hnowhere]
    exact hwhole
  · rw [wordExtent, offset_behind_run hrun hc]
    exact hword hrun (by simpa using hc)

section Parts

variable {first second : Text → Option (Text × Text)} {spellFirst spellSecond : Text → Text}

/-- With a dot and a second part behind it, the first part of an identifier is in range, and both
reach as far as they are read. -/
theorem dotted_extent_eq {join : Text → Text → Identifier}
    (hfirst : ∀ text part rest, first text = some (part, rest) → text = spellFirst part ++ rest)
    (hjoin : ∀ schema table,
      (join schema table).literal = spellFirst schema ++ '.' :: spellSecond table) (text : Text) :
    (extentFrom ((first text).map fun found => byteLength (spellFirst found.1)) fun head =>
        dottedExtent text head fun after =>
          (second after).map fun found => byteLength (spellSecond found.1)) =
      .ok ((do
        let (schema, text) ← first text
        let text ← readDot? text
        let (table, text) ← second text
        some (join schema table, text)).map
          fun found : Identifier × Text => byteLength found.1.literal) := by
  cases hread : first text with
  | none => rfl
  | some found =>
      obtain ⟨schema, behind⟩ := found
      obtain rfl := hfirst text schema behind hread
      simp only [Option.map_some, extentFrom, dottedExtent, slice_behind, Except.map,
        Option.bind_eq_bind, Option.bind_some]
      cases readDot? behind with
      | none => rfl
      | some after =>
          simp only [Option.bind_some]
          cases second after with
          | none => rfl
          | some found =>
              have hdot : '.'.utf8Size = 1 := rfl
              simp [hjoin, hdot, Nat.add_assoc]

/-- Without a dot behind it, a part that is an identifier is in range and reaches as far as it is
read. -/
theorem undotted_extent_eq {single : Text → Identifier}
    (hfirst : ∀ text part rest, first text = some (part, rest) → text = spellFirst part ++ rest)
    (hsingle : ∀ table, (single table).literal = spellFirst table) (text : Text) :
    (extentFrom ((first text).map fun found => byteLength (spellFirst found.1)) fun length =>
        undottedExtent text length) =
      .ok ((do
        let (table, text) ← first text
        if (readDot? text).isSome then none else some (single table, text)).map
          fun found : Identifier × Text => byteLength found.1.literal) := by
  cases hread : first text with
  | none => rfl
  | some found =>
      obtain ⟨table, behind⟩ := found
      obtain rfl := hfirst text table behind hread
      simp only [Option.map_some, extentFrom, undottedExtent, slice_behind, Except.map,
        Option.bind_eq_bind, Option.bind_some]
      split
      · rfl
      · rw [Option.map_some, hsingle]

end Parts

/-- No slice fails where an identifier of a shape is looked for, and it reaches as far as it is
read. -/
theorem Shape.extent_eq (shape : Shape) (text : Text) :
    shape.extent text =
      .ok ((shape.read? text).map fun found => byteLength found.1.literal) := by
  have hquoted : quotedExtent = fun text =>
      (readQuoted? text).map fun found => byteLength (Identifier.inQuotes found.1) :=
    funext quoted_extent_eq
  have hword : wordExtent = fun text => (readWord? text).map fun found => byteLength (id found.1) :=
    funext word_extent_eq
  have hinner : ∀ text inner rest, readQuoted? text = some (inner, rest) →
      text = Identifier.inQuotes inner ++ rest := fun _ _ _ => inQuotes_append_of_readQuoted?
  have hown : ∀ text word rest, readWord? text = some (word, rest) → text = id word ++ rest :=
    fun _ _ _ => append_of_readWord?
  cases shape with
  | quotedQualified =>
      rw [Shape.extent, hquoted]
      exact dotted_extent_eq hinner (fun _ _ => rfl) text
  | quotedSchemaQualified =>
      rw [Shape.extent, hquoted, hword]
      exact dotted_extent_eq hinner (fun _ _ => rfl) text
  | qualified =>
      rw [Shape.extent, hword]
      exact dotted_extent_eq hown (fun _ _ => rfl) text
  | quoted =>
      rw [Shape.extent, hquoted]
      exact undotted_extent_eq hinner (fun _ => rfl) text
  | bare =>
      rw [Shape.extent, hword]
      exact undotted_extent_eq hown (fun _ => rfl) text

/-- No slice fails where an identifier is looked for, and it reaches as far as it is read. -/
theorem first_extent_eq (text : Text) :
    firstExtent text Shape.all = .ok (Identifier.extent? text) := by
  have hshapes (shapes : List Shape) : firstExtent text shapes =
      .ok ((shapes.findSome? fun shape => shape.read? text).map
        fun found => (byteLength found.1.literal, found.1.shape)) := by
    induction shapes with
    | nil => rfl
    | cons shape shapes ih =>
        rw [firstExtent, Shape.extent_eq, List.findSome?_cons]
        cases hread : shape.read? text with
        | none => exact ih
        | some found =>
            rw [← (Shape.sound_of_read hread).1]
            rfl
  exact hshapes Shape.all

/-- No slice fails where a literal is cut in two, and it is cut where its first part ends. -/
theorem cut_head_at_eq (literal : Text) : cutHeadAt literal = .ok (cutHead literal) := by
  rw [cutHeadAt, cutHead, quoted_extent_eq]
  cases hread : readQuoted? literal with
  | some found =>
      obtain rfl := inQuotes_append_of_readQuoted? hread
      exact slice_behind _ _
  | none =>
      have hcut {run rest : Text} (hrun : ∀ c ∈ run, (c == '.') = false)
          (hstop : rest.head?.any (· != '.') = false) :
          (run ++ rest).takeWhile (· != '.') = run ∧ (run ++ rest).dropWhile (· != '.') = rest := by
        have hbefore : ∀ c ∈ run, (c != '.') = true := fun c hc => by simpa using hrun c hc
        exact ⟨take_run hbefore hstop, drop_run hbefore hstop⟩
      rcases nowhere_or_behind_run (· == '.') literal with
        hnowhere | ⟨run, c, rest, rfl, hrun, hc⟩
      · obtain ⟨htake, hdrop⟩ := @hcut literal [] hnowhere rfl
        rw [List.append_nil] at htake hdrop
        rw [Option.map_none, offset_eq_none hnowhere, htake, hdrop]
      · obtain ⟨htake, hdrop⟩ := @hcut run (c :: rest) hrun (by simpa using hc)
        rw [Option.map_none, offset_behind_run hrun hc, htake, hdrop]
        exact slice_behind run (c :: rest)

end QueryTables
