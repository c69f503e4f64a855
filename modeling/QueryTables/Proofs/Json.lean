import QueryTables.Json.Reader
import QueryTables.Proofs.Spacing

/-!
# JSON values read back

The compact form of a value is read as that value (`read_render`), so different values have
different forms, and it is one line of characters that need no escape (`no_control_render`).
A text is read back character by character: each escape is told by what stands behind its backslash
(`read_escape`). A value is read back together with whatever follows it, which is how its place in
an array or an object is left open; the reader's bound on depth is met by the length of the form
(`read_value`).
-/

namespace QueryTables.Json

open Text

/-- A character that may not stand between parts is not skipped. -/
theorem skip_space_cons {c : Char} (h : isSpace c = false) (rest : Text) :
    skipSpace (c :: rest) = c :: rest := by
  simp [skipSpace, h]

/-- A hexadecimal digit is read as the number that it was written for. -/
theorem hex_value_digit : ∀ d < 16, hexValue? (hexDigit d) = some d := by
  decide

/-- The four digits for the code of a control character are read as this character. -/
theorem code_unit_control {c : Char} (h : c.toNat < 32) :
    (codeUnit? '0' '0' (hexDigit (c.toNat / 16)) (hexDigit (c.toNat % 16))).bind single? =
      some c := by
  have hzero : hexValue? '0' = some 0 := by decide
  have hhigh := hex_value_digit (c.toNat / 16) (by omega)
  have hlow := hex_value_digit (c.toNat % 16) (by omega)
  have hcode : codeUnit? '0' '0' (hexDigit (c.toNat / 16)) (hexDigit (c.toNat % 16)) =
      some c.toNat := by
    simp only [codeUnit?, hzero, hhigh, hlow, Option.bind_eq_bind, Option.bind_some,
      Option.some.injEq]
    omega
  rw [hcode, Option.bind_some, single?, if_pos (by omega), Char.ofNat_toNat]

/-- An escape by a code that stands for a character alone is read as this character. -/
theorem read_characters_unit {a b c d first : Char}
    (h : (codeUnit? a b c d).bind single? = some first) (rest : Text) :
    readCharacters? ('\\' :: 'u' :: a :: b :: c :: d :: rest) =
      (readCharacters? rest).map fun (value, rest) => (first :: value, rest) := by
  -- The code could be the first of a pair only if another followed.
  by_cases hpair : ∃ e f g h others, rest = '\\' :: 'u' :: e :: f :: g :: h :: others
  · obtain ⟨e, f, g, h', others, rfl⟩ := hpair
    rw [readCharacters?, h]
  · have halone : ∀ e f g h others, rest = '\\' :: 'u' :: e :: f :: g :: h :: others → False :=
      fun e f g h others heq => hpair ⟨e, f, g, h, others, heq⟩
    rw [readCharacters?.eq_4 _ _ _ _ _ halone, h]
    cases readCharacters? rest <;> rfl

/-- An escape by a letter is read as the character that the letter stands for. -/
theorem read_characters_letter {c first : Char} (h : unescape? c = some first) (rest : Text) :
    readCharacters? ('\\' :: c :: rest) =
      (readCharacters? rest).map fun (value, rest) => (first :: value, rest) := by
  have hcode : c ≠ 'u' := by
    rintro rfl
    have hnone : unescape? 'u' = none := by decide
    simp [hnone] at h
  rw [readCharacters?.eq_5 _ _ (fun _ _ _ _ _ _ _ _ _ heq => absurd heq hcode)
    (fun _ _ _ _ _ heq => absurd heq hcode), h]
  cases readCharacters? rest <;> rfl

/-- A character that needs no escape is read as itself. -/
theorem read_characters_plain {c : Char} (hquote : c ≠ '"') (hbackslash : c ≠ '\\')
    (hcontrol : 32 ≤ c.toNat) (rest : Text) :
    readCharacters? (c :: rest) =
      (readCharacters? rest).map fun (value, rest) => (c :: value, rest) := by
  rw [readCharacters?.eq_6 _ _ hquote (fun _ _ _ _ _ _ _ _ _ heq => absurd heq hbackslash)
    (fun _ _ _ _ _ heq => absurd heq hbackslash) (fun _ _ heq => absurd heq hbackslash)]
  exact if_neg (by simp [hbackslash, hcontrol])

/-- An escaped character is read as the character. -/
theorem read_escape (c : Char) (rest : Text) :
    readCharacters? (escape c ++ rest) =
      (readCharacters? rest).map fun (value, rest) => (c :: value, rest) := by
  fun_cases escape c with
  | case8 _ _ _ _ _ _ _ hcontrol => exact read_characters_unit (code_unit_control hcontrol) rest
  | case9 hquote hbackslash _ _ _ _ _ hcontrol =>
      exact read_characters_plain hquote hbackslash (Nat.le_of_not_lt hcontrol) rest
  | _ =>
      -- The character is known, and has a letter behind the backslash.
      subst_vars
      exact read_characters_letter (by decide) rest

/-- The characters between quotation marks are read as the text they were written for. -/
theorem read_characters (value rest : Text) :
    readCharacters? (value.flatMap escape ++ '"' :: rest) = some (value, rest) := by
  induction value with
  | nil => rfl
  | cons c value ih =>
      rw [List.flatMap_cons, List.append_assoc, read_escape, ih]
      rfl

/-- A text between quotation marks is read whatever follows. -/
theorem read_quoted (value rest : Text) :
    readText? (quoted value ++ rest) = some (value, rest) := by
  have hparts : quoted value ++ rest = '"' :: (value.flatMap escape ++ '"' :: rest) := by
    simp [quoted]
  rw [hparts]
  exact read_characters value rest

/-- A numeral is read before anything but a digit. -/
theorem read_numeral (n : Nat) {rest : Text} (h : rest.head?.any Char.isDigit = false) :
    readNumber? (Decimal.numeral n ++ rest) = some (n, rest) := by
  have hdigits : ∀ c ∈ Decimal.numeral n, c.isDigit = true :=
    fun c hc => Decimal.isDigit_of_mem_numeral hc
  unfold readNumber?
  rw [take_run hdigits h, drop_run hdigits h]
  have hvalue := Decimal.value_numeral n
  split
  · rename_i hnil
    exact absurd hnil (Decimal.numeral_ne_nil n)
  · rename_i hzero
    rw [hzero] at hvalue
    rw [← hvalue]
    rfl
  · rename_i digits hmore hzero
    -- Only the numeral of zero starts with a zero, and that has no further digit.
    have hn : n = 0 := by
      by_contra hne
      exact Decimal.head?_numeral_ne_zero hne (by simp [hzero])
    rw [hn, Decimal.numeral_eq_toDigits] at hzero
    exact absurd (List.cons.inj hzero).2.symm hmore
  · rw [hvalue]

/-- No digit is a mark. -/
theorem ne_of_digit {c mark : Char} (h : c.isDigit = true) (hmark : mark.isDigit = false) :
    c ≠ mark := by
  rintro rfl
  exact Bool.false_ne_true (hmark.symm.trans h)

/-- A digit may not stand between parts. -/
theorem not_space_of_digit {c : Char} (h : c.isDigit = true) : isSpace c = false := by
  have hne : ∀ mark : Char, mark.isDigit = false → (c == mark) = false :=
    fun mark hmark => beq_eq_false_iff_ne.2 (ne_of_digit h hmark)
  simp [isSpace, hne ' ' (by decide), hne '\t' (by decide), hne '\n' (by decide),
    hne '\r' (by decide)]

/-- The form of a value starts with a character that no blank is, nor the end of an array. -/
theorem first_of_render (value : Json) :
    ∃ c text, render value = c :: text ∧ isSpace c = false ∧ c ≠ ']' := by
  cases value with
  | text value => exact ⟨'"', _, rfl, by decide, by decide⟩
  | number n =>
      obtain ⟨first, digits, hnumeral⟩ := List.exists_cons_of_ne_nil (Decimal.numeral_ne_nil n)
      have hmem : first ∈ Decimal.numeral n := by simp [hnumeral]
      have hdigit := Decimal.isDigit_of_mem_numeral hmem
      exact ⟨first, digits, hnumeral, not_space_of_digit hdigit, ne_of_digit hdigit (by decide)⟩
  | array items => exact ⟨'[', _, rfl, by decide, by decide⟩
  | object members => exact ⟨'\x7b', _, rfl, by decide, by decide⟩

/-- Where a digit stands, a number is read. -/
theorem read_value_digit {c : Char} (h : c.isDigit = true) (depth : Nat) (text : Text) :
    readValue? (depth + 1) (c :: text) =
      (readNumber? (c :: text)).map fun (value, rest) => (.number value, rest) := by
  have hquote : c ≠ '"' := ne_of_digit h (by decide)
  have hbracket : c ≠ '[' := ne_of_digit h (by decide)
  have hbrace : c ≠ '\x7b' := ne_of_digit h (by decide)
  simp [readValue?, skip_space_cons (not_space_of_digit h), hquote, hbracket, hbrace]

/-- Behind an opening bracket, the items of an array are read unless it closes at once. -/
theorem read_value_array {source : Text} (hspace : skipSpace source = source)
    (hclose : source.head? ≠ some ']') (depth : Nat) :
    readValue? (depth + 1) ('[' :: source) =
      (readItems? depth source).map fun (items, rest) => (.array items, rest) := by
  have hopen : isSpace '[' = false := by decide
  cases source <;> simp_all [readValue?, skip_space_cons hopen]

/-- Behind an opening brace, the members of an object are read unless it closes at once. -/
theorem read_value_object {source : Text} (hspace : skipSpace source = source)
    (hclose : source.head? ≠ some '\x7d') (depth : Nat) :
    readValue? (depth + 1) ('\x7b' :: source) =
      (readMembers? depth source).map fun (members, rest) => (.object members, rest) := by
  have hopen : isSpace '\x7b' = false := by decide
  cases source <;> simp_all [readValue?, skip_space_cons hopen]

/-- An item before the end of an array is the last. -/
theorem read_items_last {depth : Nat} {source rest : Text} {item : Json}
    (h : readValue? depth source = some (item, ']' :: rest)) :
    readItems? (depth + 1) source = some ([item], rest) := by
  have hclose : isSpace ']' = false := by decide
  simp [readItems?, h, skip_space_cons hclose]

/-- Behind an item and a comma, the further items are read. -/
theorem read_items_more {depth : Nat} {source others : Text} {item : Json}
    (h : readValue? depth source = some (item, ',' :: others)) :
    readItems? (depth + 1) source =
      (readItems? depth others).map fun (items, rest) => (item :: items, rest) := by
  have hcomma : isSpace ',' = false := by decide
  simp [readItems?, h, skip_space_cons hcomma]

/-- A member before the end of an object is the last. -/
theorem read_members_last {depth : Nat} {key after rest : Text} {value : Json}
    (h : readValue? depth after = some (value, '\x7d' :: rest)) :
    readMembers? (depth + 1) (quoted key ++ ':' :: after) = some ([(key, value)], rest) := by
  have hkey := read_quoted key (':' :: after)
  have hquote : skipSpace (quoted key ++ ':' :: after) = quoted key ++ ':' :: after :=
    skip_space_cons (by decide) _
  have hcolon : isSpace ':' = false := by decide
  have hclose : isSpace '\x7d' = false := by decide
  simp [readMembers?, hquote, hkey, skip_space_cons hcolon, h, skip_space_cons hclose]

/-- Behind a member and a comma, the further members are read. -/
theorem read_members_more {depth : Nat} {key after others : Text} {value : Json}
    (h : readValue? depth after = some (value, ',' :: others)) :
    readMembers? (depth + 1) (quoted key ++ ':' :: after) =
      (readMembers? depth others).map fun (members, rest) => ((key, value) :: members, rest) := by
  have hkey := read_quoted key (':' :: after)
  have hquote : skipSpace (quoted key ++ ':' :: after) = quoted key ++ ':' :: after :=
    skip_space_cons (by decide) _
  have hcolon : isSpace ':' = false := by decide
  have hcomma : isSpace ',' = false := by decide
  simp [readMembers?, hquote, hkey, skip_space_cons hcolon, h, skip_space_cons hcomma]

/-- The first item of an array stands right behind the bracket, which it does not close. -/
theorem start_of_items (item : Json) (items : List Json) (rest : Text) :
    skipSpace (renderItems (item :: items) ++ rest) = renderItems (item :: items) ++ rest ∧
      (renderItems (item :: items) ++ rest).head? ≠ some ']' := by
  obtain ⟨c, text, hitem, hspace, hclose⟩ := first_of_render item
  rw [renderItems, hitem]
  exact ⟨skip_space_cons hspace _, by simpa using hclose⟩

/-- The first member of an object stands right behind the brace, which it does not close. -/
theorem start_of_members (member : Text × Json) (members : List (Text × Json)) (rest : Text) :
    skipSpace (renderMembers (member :: members) ++ rest) =
        renderMembers (member :: members) ++ rest ∧
      (renderMembers (member :: members) ++ rest).head? ≠ some '\x7d' := by
  have hquote : isSpace '"' = false := by decide
  obtain ⟨key, value⟩ := member
  rw [renderMembers, renderMember, quoted]
  exact ⟨skip_space_cons hquote _, by simp⟩

/-- Each further item of an array stands behind a comma. -/
theorem render_items_cons (item next : Json) (items : List Json) :
    renderItems (item :: next :: items) = render item ++ ',' :: renderItems (next :: items) := rfl

/-- Each further member of an object stands behind a comma. -/
theorem render_members_cons (key : Text) (value : Json) (next : Text × Json)
    (members : List (Text × Json)) :
    renderMembers ((key, value) :: next :: members) =
      quoted key ++ ':' :: (render value ++ ',' :: renderMembers (next :: members)) := by
  simp [renderMembers, renderFurtherMembers, renderMember]

mutual

/-- The form of a value is read as the value, before anything but a digit and with a depth that its
length allows for. -/
theorem read_value (value : Json) {depth : Nat} {rest : Text}
    (hdepth : (render value).length ≤ depth) (hrest : rest.head?.any Char.isDigit = false) :
    readValue? depth (render value ++ rest) = some (value, rest) := by
  obtain ⟨first, others, hfirst, -⟩ := first_of_render value
  obtain ⟨depth, rfl⟩ : ∃ less, depth = less + 1 := by
    rw [hfirst, List.length_cons] at hdepth
    exact ⟨depth - 1, by omega⟩
  cases value with
  | text value =>
      have hquote : isSpace '"' = false := by decide
      simp [render, quoted, readValue?, skip_space_cons hquote, read_characters]
  | number n =>
      obtain ⟨first, digits, hnumeral⟩ := List.exists_cons_of_ne_nil (Decimal.numeral_ne_nil n)
      have hmem : first ∈ Decimal.numeral n := by simp [hnumeral]
      have hnumber := read_numeral n hrest
      rw [hnumeral, List.cons_append] at hnumber
      rw [render, hnumeral, List.cons_append,
        read_value_digit (Decimal.isDigit_of_mem_numeral hmem), hnumber]
      rfl
  | array items =>
      cases items with
      | nil => rfl
      | cons item items =>
          obtain ⟨hspace, hclose⟩ := start_of_items item items (']' :: rest)
          have hlength : (renderItems (item :: items)).length < depth := by
            simpa [render, Nat.succ_le_iff] using hdepth
          have hitems : readItems? depth (renderItems (item :: items) ++ ']' :: rest) =
              some (item :: items, rest) := read_items _ (List.cons_ne_nil _ _) hlength
          rw [render, List.cons_append, List.append_assoc, List.singleton_append,
            read_value_array hspace hclose, hitems]
          rfl
  | object members =>
      cases members with
      | nil => rfl
      | cons member members =>
          obtain ⟨hspace, hclose⟩ := start_of_members member members ('\x7d' :: rest)
          have hlength : (renderMembers (member :: members)).length < depth := by
            simpa [render, Nat.succ_le_iff] using hdepth
          have hmembers : readMembers? depth (renderMembers (member :: members) ++ '\x7d' :: rest) =
              some (member :: members, rest) := read_members _ (List.cons_ne_nil _ _) hlength
          rw [render, List.cons_append, List.append_assoc, List.singleton_append,
            read_value_object hspace hclose, hmembers]
          rfl

/-- The items of an array are read up to its end. -/
theorem read_items (items : List Json) (hne : items ≠ []) {depth : Nat} {rest : Text}
    (hdepth : (renderItems items).length < depth) :
    readItems? depth (renderItems items ++ ']' :: rest) = some (items, rest) := by
  obtain ⟨depth, rfl⟩ : ∃ less, depth = less + 1 := ⟨depth - 1, by omega⟩
  cases items with
  | nil => exact absurd rfl hne
  | cons item items =>
      cases items with
      | nil =>
          have hlength : (render item).length ≤ depth := by
            simpa [renderItems, renderFurtherItems, Nat.lt_succ_iff] using hdepth
          have hitem : readValue? depth (render item ++ ']' :: rest) = some (item, ']' :: rest) :=
            read_value item hlength rfl
          rw [renderItems, renderFurtherItems, List.append_nil, read_items_last hitem]
      | cons next items =>
          rw [render_items_cons, List.length_append, List.length_cons] at hdepth
          have hitem : readValue? depth
              (render item ++ ',' :: (renderItems (next :: items) ++ ']' :: rest)) =
                some (item, ',' :: (renderItems (next :: items) ++ ']' :: rest)) :=
            read_value item (by omega) rfl
          have hitems : readItems? depth (renderItems (next :: items) ++ ']' :: rest) =
              some (next :: items, rest) := read_items _ (List.cons_ne_nil _ _) (by omega)
          rw [render_items_cons, List.append_assoc, List.cons_append, read_items_more hitem, hitems]
          rfl

/-- The members of an object are read up to its end. -/
theorem read_members (members : List (Text × Json)) (hne : members ≠ []) {depth : Nat} {rest : Text}
    (hdepth : (renderMembers members).length < depth) :
    readMembers? depth (renderMembers members ++ '\x7d' :: rest) = some (members, rest) := by
  obtain ⟨depth, rfl⟩ : ∃ less, depth = less + 1 := ⟨depth - 1, by omega⟩
  cases members with
  | nil => exact absurd rfl hne
  | cons member members =>
      obtain ⟨key, value⟩ := member
      cases members with
      | nil =>
          have hform : renderMembers [(key, value)] = quoted key ++ ':' :: render value := by
            simp [renderMembers, renderFurtherMembers, renderMember]
          rw [hform] at hdepth ⊢
          simp only [List.length_append, List.length_cons] at hdepth
          have hvalue : readValue? depth (render value ++ '\x7d' :: rest) =
              some (value, '\x7d' :: rest) := read_value value (by omega) rfl
          rw [List.append_assoc, List.cons_append, read_members_last hvalue]
      | cons next members =>
          rw [render_members_cons] at hdepth
          simp only [List.length_append, List.length_cons] at hdepth
          have hvalue : readValue? depth
              (render value ++ ',' :: (renderMembers (next :: members) ++ '\x7d' :: rest)) =
                some (value, ',' :: (renderMembers (next :: members) ++ '\x7d' :: rest)) :=
            read_value value (by omega) rfl
          have hmembers : readMembers? depth (renderMembers (next :: members) ++ '\x7d' :: rest) =
              some (next :: members, rest) := read_members _ (List.cons_ne_nil _ _) (by omega)
          rw [render_members_cons]
          simp only [List.append_assoc, List.cons_append]
          rw [read_members_more hvalue, hmembers]
          rfl

end

/-- The compact form of a value is read as the value. -/
theorem read_render (value : Json) : read? (render value) = some value := by
  have hvalue : readValue? ((render value).length + 1) (render value ++ []) = some (value, []) :=
    read_value value (Nat.le_succ _) rfl
  rw [List.append_nil] at hvalue
  rw [read?, hvalue]
  rfl

/-- Values with the same form are the same. -/
theorem render_injective {first second : Json} (h : render first = render second) :
    first = second := by
  have hfirst := read_render first
  rw [h, read_render] at hfirst
  exact (Option.some.inj hfirst).symm

/-- There is no control character below U+0020 in the text. -/
def NoControl (text : Text) : Prop :=
  ∀ c ∈ text, 32 ≤ c.toNat

@[simp] theorem no_control_nil : NoControl [] := List.forall_mem_nil _

@[simp] theorem no_control_cons {c : Char} {text : Text} :
    NoControl (c :: text) ↔ 32 ≤ c.toNat ∧ NoControl text :=
  List.forall_mem_cons

@[simp] theorem no_control_append {left right : Text} :
    NoControl (left ++ right) ↔ NoControl left ∧ NoControl right :=
  List.forall_mem_append

/-- No control character is left in an escape. -/
theorem no_control_escape (c : Char) : NoControl (escape c) := by
  have hhex : ∀ n < 16, 32 ≤ (hexDigit n).toNat := by decide
  fun_cases escape c with
  | case8 _ _ _ _ _ _ _ hcontrol =>
      simp [hhex (c.toNat / 16) (by omega), hhex (c.toNat % 16) (by omega)]
  | case9 _ _ _ _ _ _ _ hplain => simpa using hplain
  | _ => simp

/-- No control character is left in a text between quotation marks. -/
theorem no_control_quoted (value : Text) : NoControl (quoted value) := by
  have hescapes : NoControl (value.flatMap escape) := by
    intro d hd
    obtain ⟨c, -, hescape⟩ := List.mem_flatMap.1 hd
    exact no_control_escape c d hescape
  simp [quoted, hescapes]

/-- There is no control character in a numeral. -/
theorem no_control_numeral (n : Nat) : NoControl (Decimal.numeral n) := by
  intro c hc
  have hzero : 32 ≤ '0'.toNat := by decide
  exact hzero.trans (Char.isDigit_iff_toNat.1 (Decimal.isDigit_of_mem_numeral hc)).1

mutual

/-- There is no control character in the form of a value. -/
theorem no_control_render (value : Json) : NoControl (render value) := by
  cases value with
  | text value => exact no_control_quoted value
  | number n => exact no_control_numeral n
  | array items =>
      cases items with
      | nil => simp [render, renderItems]
      | cons item items =>
          have hitem := no_control_render item
          have hitems := no_control_further_items items
          simp [render, renderItems, hitem, hitems]
  | object members =>
      cases members with
      | nil => simp [render, renderMembers]
      | cons member members =>
          obtain ⟨key, value⟩ := member
          have hvalue := no_control_render value
          have hmembers := no_control_further_members members
          simp [render, renderMembers, renderMember, no_control_quoted, hvalue, hmembers]

/-- There is no control character in the items of an array that follow another. -/
theorem no_control_further_items (items : List Json) : NoControl (renderFurtherItems items) := by
  cases items with
  | nil => simp [renderFurtherItems]
  | cons item items =>
      have hitem := no_control_render item
      have hitems := no_control_further_items items
      simp [renderFurtherItems, hitem, hitems]

/-- There is no control character in the members of an object that follow another. -/
theorem no_control_further_members (members : List (Text × Json)) :
    NoControl (renderFurtherMembers members) := by
  cases members with
  | nil => simp [renderFurtherMembers]
  | cons member members =>
      obtain ⟨key, value⟩ := member
      have hvalue := no_control_render value
      have hmembers := no_control_further_members members
      simp [renderFurtherMembers, renderMember, no_control_quoted, hvalue, hmembers]

end

end QueryTables.Json
