import Mathlib.Data.List.Basic
import QueryTables.Environment
import QueryTables.Proofs.Bytes
import QueryTables.Proofs.Letters

/-!
# Lines that set variables

A line of a settings file that sets a variable has its name, an equals sign and its value, which may
stand between single or double quotation marks; between the latter every value can be written
(`Spells`). A file of such lines adds exactly the variables that are not set yet, each with the
value of its first line (`value_of_assignments`), unless one of these values cannot be set
(`settable_of_assignments_iff`). No file at all changes a variable that is set (`value_kept`).
-/

namespace QueryTables

namespace Settings

open Text

/-- A variable can have this name: a letter or an underscore, and then letters, digits, underscores
and dots. -/
def IsName : Text → Prop
  | [] => False
  | first :: rest =>
      (first.isAlpha = true ∨ first = '_') ∧
        ∀ c ∈ rest, c.isAlphanum = true ∨ c = '_' ∨ c = '.'

/-- A text is a name exactly when a check of its characters succeeds. -/
theorem is_name_iff {name : Text} :
    IsName name ↔ (name.head?.any fun c => c.isAlpha || c == '_') = true ∧
      (name.tail.all fun c => c.isAlphanum || c == '_' || c == '.') = true := by
  cases name with
  | nil => simp [IsName]
  | cons first rest => simp [IsName, or_assoc]

instance (name : Text) : Decidable (IsName name) :=
  decidable_of_iff _ is_name_iff.symm

/-- The character stands for itself outside quotation marks. -/
structure IsPlain (c : Char) : Prop where
  notBlank : isBlank c = false
  notSpecial : c ∉ ['\\', '\'', '"', '$']

/-- A character between double quotation marks. -/
def escaped (c : Char) : Text :=
  if c = '\n' then ['\\', 'n'] else if c ∈ ['\\', '"', '$'] then ['\\', c] else [c]

/-- The ways to write a value. -/
inductive Spells : Text → Text → Prop where
  | plain {value : Text} (hplain : ∀ c ∈ value, IsPlain c) (hcomment : value.head? ≠ some '#') :
      Spells value value
  | single {value : Text} (hvalue : ∀ c ∈ value, c ∉ ['\'', '\\', '\n']) :
      Spells ('\'' :: (value ++ ['\''])) value
  | double (value : Text) : Spells ('"' :: (value.flatMap escaped ++ ['"'])) value

/-- A line that sets a variable to a value. -/
structure SetsLine (line name value : Text) : Prop where
  parts : ∃ spelling, line = name ++ '=' :: spelling ∧ Spells spelling value
  name : IsName name

/-- A text of lines that set variables, the last of which may have no line end. -/
inductive Assigns : Text → List (Text × Text) → Prop where
  | nil : Assigns [] []
  | last {line name value : Text} (hline : SetsLine line name value) :
      Assigns line [(name, value)]
  | cons {line name value rest : Text} {others : List (Text × Text)}
      (hline : SetsLine line name value) (hrest : Assigns rest others) :
      Assigns (line ++ '\n' :: rest) ((name, value) :: others)

/-- A letter is plain, as is everything else in a name and the equals sign behind it. -/
theorem plain_of_name_character {c : Char}
    (h : c.isAlphanum = true ∨ c = '_' ∨ c = '.' ∨ c = '=') : IsPlain c := by
  have hcode : 48 ≤ c.toNat ∧ c.toNat ≤ 57 ∨ 65 ≤ c.toNat ∧ c.toNat ≤ 90 ∨
      97 ≤ c.toNat ∧ c.toNat ≤ 122 ∨ c.toNat = 95 ∨ c.toNat = 46 ∨ c.toNat = 61 := by
    rcases h with h | rfl | rfl | rfl
    · rw [Char.isAlphanum, Bool.or_eq_true, is_alpha_iff] at h
      rcases h with h | h
      · omega
      · simp only [Char.isDigit, Bool.and_eq_true, decide_eq_true_eq] at h
        exact .inl h
    · decide
    · decide
    · decide
  refine ⟨not_blank_of_visible (by omega) (by omega), ?_⟩
  simp only [List.mem_cons, List.not_mem_nil, or_false]
  rintro (rfl | rfl | rfl | rfl) <;> revert hcode <;> decide

section Lines

/-- The state at the end of a line that does not end at a comment is that behind its first
character and then behind the others. -/
theorem scan_line_cons {state : LineState} {c : Char} (h : state.next c ≠ .comment) (rest : Text) :
    (scanLine state (c :: rest)).1 = (scanLine (state.next c) rest).1 := by
  rw [scanLine]
  split
  · rename_i hcomment
    exact absurd hcomment h
  · rfl

/-- Characters that leave the state of a line as it is are passed over. -/
theorem scan_line_run {state : LineState} {run : Text} (hrun : ∀ c ∈ run, state.next c = state)
    (hstate : state ≠ .comment) (rest : Text) :
    (scanLine state (run ++ rest)).1 = (scanLine state rest).1 := by
  induction run with
  | nil => rfl
  | cons c run ih =>
      rw [List.forall_mem_cons] at hrun
      rw [List.cons_append, scan_line_cons (by rwa [hrun.1]), hrun.1, ih hrun.2]

/-- A plain character outside quotation marks leaves a line there. -/
theorem next_of_plain {c : Char} (h : IsPlain c) : LineState.outside.next c = .outside := by
  obtain ⟨hblank, hspecial⟩ := h
  simp only [List.mem_cons, List.not_mem_nil, or_false, not_or] at hspecial
  simp [LineState.next, LineState.enter, hblank, hspecial]

/-- What stands between double quotation marks leaves a line there. -/
theorem scan_line_escaped (value rest : Text) :
    (scanLine .double (value.flatMap escaped ++ rest)).1 = (scanLine .double rest).1 := by
  induction value with
  | nil => rfl
  | cons c value ih =>
      rw [List.flatMap_cons, List.append_assoc, ← ih, escaped]
      split
      · rfl
      · split
        · rfl
        · rename_i hspecial
          simp only [List.mem_cons, List.not_mem_nil, or_false, not_or] at hspecial
          have hnext : LineState.double.next c = .double := by
            simp [LineState.next, hspecial]
          rw [List.singleton_append, scan_line_cons (by rw [hnext]; exact nofun), hnext]

/-- A value that is written out leaves a line outside quotation marks. -/
theorem Spells.scan_line {spelling value : Text} (h : Spells spelling value) (rest : Text) :
    (scanLine .outside (spelling ++ rest)).1 = (scanLine .outside rest).1 := by
  cases h with
  | plain hplain => exact scan_line_run (fun c hc => next_of_plain (hplain c hc)) nofun rest
  | single hvalue =>
      have hrun : ∀ c ∈ value, LineState.single.next c = .single := by
        intro c hc
        have hspecial := hvalue c hc
        simp only [List.mem_cons, List.not_mem_nil, or_false, not_or] at hspecial
        simp [LineState.next, hspecial]
      have hinside := scan_line_run hrun nofun ('\'' :: rest)
      rw [List.cons_append, List.append_assoc, List.singleton_append]
      exact hinside
  | double =>
      have hinside := scan_line_escaped value ('"' :: rest)
      rw [List.cons_append, List.append_assoc, List.singleton_append]
      exact hinside

/-- The first character of a name is a letter or an underscore, and all of them are plain and can
stand in a name. -/
theorem IsName.parts {name : Text} (h : IsName name) :
    ∃ first rest, name = first :: rest ∧ (first.isAlpha = true ∨ first = '_') ∧
      ∀ c ∈ name, c.isAlphanum = true ∨ c = '_' ∨ c = '.' := by
  cases name with
  | nil => exact h.elim
  | cons first rest =>
      refine ⟨first, rest, rfl, h.1, List.forall_mem_cons.2 ⟨?_, h.2⟩⟩
      rcases h.1 with hletter | hunderscore
      · exact .inl (by rw [Char.isAlphanum, hletter, Bool.true_or])
      · exact .inr (.inl hunderscore)

end Lines

section Values

variable (stands : Text → Text)

/-- Plain characters are read as they are. -/
theorem read_value_plain {run : Text} (hrun : ∀ c ∈ run, IsPlain c) (read : Text) :
    readValue? stands .plain false read run = some (read ++ run) := by
  induction run generalizing read with
  | nil => simp [readValue?]
  | cons c run ih =>
      rw [List.forall_mem_cons] at hrun
      obtain ⟨hblank, hspecial⟩ := hrun.1
      have hspace : c ≠ ' ' ∧ c ≠ '\t' := by
        constructor <;> rintro rfl <;> exact absurd hblank (by decide)
      simp only [List.mem_cons, List.not_mem_nil, or_false, not_or] at hspecial
      rw [readValue?]
      simp only [hspecial, hspace, if_false, or_self, and_false]
      rw [ih hrun.2, List.append_assoc, List.singleton_append]

/-- What stands between single quotation marks is read as it is. -/
theorem read_value_single {value : Text} (hvalue : '\'' ∉ value) (read : Text) :
    readValue? stands .single false read (value ++ ['\'']) = some (read ++ value) := by
  induction value generalizing read with
  | nil => simp [readValue?]
  | cons c value ih =>
      rw [List.mem_cons, not_or] at hvalue
      rw [List.cons_append, readValue?, if_neg (Ne.symm hvalue.1), ih hvalue.2, List.append_assoc,
        List.singleton_append]

/-- A character between double quotation marks is read as what it stands for. -/
theorem read_value_escaped (c : Char) (read rest : Text) :
    readValue? stands .plain true read (escaped c ++ rest) =
      readValue? stands .plain true (read ++ [c]) rest := by
  rw [escaped]
  split
  · rename_i hline
    rw [hline]
    simp [readValue?]
  · split
    · rename_i hspecial
      simp only [List.mem_cons, List.not_mem_nil, or_false] at hspecial
      rcases hspecial with rfl | rfl | rfl <;> simp [readValue?]
    · rename_i hspecial
      simp only [List.mem_cons, List.not_mem_nil, or_false, not_or] at hspecial
      simp [readValue?, hspecial]

/-- What stands between double quotation marks is read as what it stands for. -/
theorem read_value_double (value read : Text) :
    readValue? stands .plain true read (value.flatMap escaped ++ ['"']) = some (read ++ value) := by
  induction value generalizing read with
  | nil => simp [readValue?]
  | cons c value ih =>
      rw [List.flatMap_cons, List.append_assoc, read_value_escaped, ih, List.append_assoc,
        List.singleton_append]

/-- A value that is written out is read back, whatever variables stand for. -/
theorem Spells.read {spelling value : Text} (h : Spells spelling value) :
    readValue? stands .plain false [] spelling = some value := by
  cases h with
  | plain hplain => exact read_value_plain stands hplain []
  | single hvalue =>
      have hquote : '\'' ∉ value := fun hmem => hvalue _ hmem List.mem_cons_self
      have hinside := read_value_single stands hquote []
      rw [readValue?]
      exact hinside
  | double =>
      have hinside := read_value_double stands value []
      rw [readValue?]
      exact hinside

/-- A value that is written out starts with no blank and with no comment. -/
theorem Spells.head {spelling value : Text} (h : Spells spelling value) :
    skipBlanks spelling = spelling ∧ spelling.head? ≠ some '#' := by
  have hquotes : isBlank '\'' = false ∧ isBlank '"' = false := by decide
  cases h with
  | plain hplain hcomment =>
      refine ⟨?_, hcomment⟩
      cases spelling with
      | nil => rfl
      | cons c rest =>
          have hfirst := (hplain c List.mem_cons_self).notBlank
          exact List.dropWhile_cons_of_neg (by simp [hfirst])
  | single => exact ⟨List.dropWhile_cons_of_neg (by simp [hquotes.1]), nofun⟩
  | double => exact ⟨List.dropWhile_cons_of_neg (by simp [hquotes.2]), nofun⟩

/-- A value that is written out takes one line, and no blank ends it. -/
theorem Spells.line {spelling value : Text} (h : Spells spelling value) :
    '\n' ∉ spelling ∧ ∀ c, spelling.getLast? = some c → isBlank c = false := by
  have hquotes : isBlank '\'' = false ∧ isBlank '"' = false := by decide
  cases h with
  | plain hplain =>
      refine ⟨fun hline => absurd (hplain _ hline).notBlank (by decide), fun c hc => ?_⟩
      exact (hplain c (List.mem_of_getLast? hc)).notBlank
  | single hvalue =>
      refine ⟨fun hline => ?_, fun c hc => ?_⟩
      · simp only [List.mem_cons, List.mem_append, List.not_mem_nil, or_false] at hline
        rcases hline with hline | hline | hline
        · cases hline
        · exact absurd (hvalue _ hline) (by decide)
        · cases hline
      · rw [← List.cons_append, List.getLast?_concat] at hc
        exact Option.some.inj hc ▸ hquotes.1
  | double =>
      refine ⟨fun hline => ?_, fun c hc => ?_⟩
      · simp only [List.mem_cons, List.mem_append, List.not_mem_nil, or_false,
          List.mem_flatMap] at hline
        rcases hline with hline | ⟨c, -, hline⟩ | hline
        · cases hline
        · rw [escaped] at hline
          split at hline
          · revert hline
            decide
          · rename_i hother
            have hsame : '\n' = c := by
              split at hline <;> simpa using hline
            exact hother hsame.symm
        · cases hline
      · rw [← List.cons_append, List.getLast?_concat] at hc
        exact Option.some.inj hc ▸ hquotes.2

end Values

section Assignments

variable {line name value : Text}

/-- A line that sets a variable starts with a visible character that no comment starts with. -/
theorem SetsLine.head (h : SetsLine line name value) :
    ∃ c rest, line = c :: rest ∧ isBlank c = false ∧ c ≠ '#' ∧ c.toNat < 128 := by
  obtain ⟨⟨spelling, rfl, -⟩, hname⟩ := h
  obtain ⟨first, rest, rfl, hfirst, hall⟩ := hname.parts
  have hplain : IsPlain first :=
    plain_of_name_character ((hall first List.mem_cons_self).imp_right (Or.imp_right .inl))
  refine ⟨first, rest ++ '=' :: spelling, rfl, hplain.notBlank, ?_, ?_⟩
  · rintro rfl
    revert hfirst
    decide
  · rcases hfirst with hletter | rfl
    · rw [is_alpha_iff] at hletter
      omega
    · decide

/-- A line that sets a variable is one line, and no blank ends it. -/
theorem SetsLine.single_line (h : SetsLine line name value) :
    '\n' ∉ line ∧ ∃ front c, line = front ++ [c] ∧ isBlank c = false := by
  obtain ⟨⟨spelling, rfl, hspells⟩, hname⟩ := h
  obtain ⟨hline, hlast⟩ := hspells.line
  obtain ⟨first, rest, -, -, hall⟩ := hname.parts
  constructor
  · rw [List.mem_append, List.mem_cons, not_or, not_or]
    refine ⟨fun hmem => ?_, nofun, hline⟩
    have hplain := plain_of_name_character ((hall _ hmem).imp_right (Or.imp_right .inl))
    exact absurd hplain.notBlank (by decide)
  · rcases List.eq_nil_or_concat' spelling with rfl | ⟨front, c, rfl⟩
    · exact ⟨name, '=', rfl, by decide⟩
    · refine ⟨name ++ '=' :: front, c, by simp, hlast c List.getLast?_concat⟩

/-- The name and the equals sign of a line that sets a variable are plain. -/
theorem IsName.plain (h : IsName name) : ∀ c ∈ name ++ ['='], IsPlain c := by
  obtain ⟨first, rest, -, -, hall⟩ := h.parts
  intro c hc
  rw [List.mem_append, List.mem_singleton] at hc
  rcases hc with hname | rfl
  · exact plain_of_name_character ((hall c hname).imp_right (Or.imp_right .inl))
  · exact plain_of_name_character (.inr (.inr (.inr rfl)))

/-- A line that sets a variable ends outside quotation marks, with a line end or without. -/
theorem SetsLine.scan_line (h : SetsLine line name value) {ending : Text}
    (hending : ending = [] ∨ ending = ['\n']) :
    (scanLine .outside (line ++ ending)).1 = .outside := by
  obtain ⟨⟨spelling, rfl, hspells⟩, hname⟩ := h
  have hfront := scan_line_run (fun c hc => next_of_plain (hname.plain c hc)) nofun
    (spelling ++ ending)
  rw [← List.singleton_append, ← List.append_assoc, List.append_assoc (name ++ ['=']), hfront,
    hspells.scan_line]
  rcases hending with rfl | rfl <;> rfl

/-- A line that sets a variable is what is left without its line end. -/
theorem SetsLine.without_line_end (h : SetsLine line name value) {ending : Text}
    (hending : ending = [] ∨ ending = ['\n']) : withoutLineEnd (line ++ ending) = line := by
  obtain ⟨-, front, c, rfl, hblank⟩ := h.single_line
  have hline : c ≠ '\n' ∧ c ≠ '\r' := by
    constructor <;> rintro rfl <;> exact absurd hblank (by decide)
  rw [withoutLineEnd]
  rcases hending with rfl | rfl
  · simp [hline.1]
  · simp [hline.2]

/-- A line that sets a variable is complete, and what stands behind it is read by itself. -/
theorem SetsLine.logical_lines (h : SetsLine line name value) {ending : Text}
    (hending : ending = [] ∨ ending = ['\n']) (rest : List (Option Text)) :
    logicalLines .outside [] (some (line ++ ending) :: rest) =
      some line :: logicalLines .outside [] rest := by
  have hscan := h.scan_line hending
  have hend := h.without_line_end hending
  obtain ⟨c, tail, rfl, hblank, hcomment, -⟩ := h.head
  rw [logicalLines, List.nil_append, if_neg (by simp [hblank, hcomment])]
  split
  · rename_i hstate
    rw [hstate] at hscan
    cases hscan
  · rw [hend]
  · rename_i houtside hstate
    rw [hstate] at hscan
    exact (houtside hscan).elim

end Assignments

section Files

/-- The lines that bytes stand for. -/
def linesOf (bytes : List UInt8) : List (Option Text) :=
  (byteLines [] bytes).map fun line => ofBytes? ⟨line.toArray⟩

/-- Bytes up to a line feed are a line. -/
theorem byte_lines_line {front : List UInt8} (h : 10 ∉ front) (current rest : List UInt8) :
    byteLines current (front ++ 10 :: rest) =
      (current.reverse ++ front ++ [10]) :: byteLines [] rest := by
  induction front generalizing current with
  | nil => simp [byteLines]
  | cons byte front ih =>
      rw [List.mem_cons, not_or] at h
      rw [List.cons_append, byteLines, if_neg (Ne.symm h.1), ih h.2]
      simp

/-- Bytes without a line feed are the last line. -/
theorem byte_lines_last {front : List UInt8} (h : 10 ∉ front) (current : List UInt8) :
    byteLines current front =
      if current.reverse ++ front = [] then [] else [current.reverse ++ front] := by
  induction front generalizing current with
  | nil => simp [byteLines]
  | cons byte front ih =>
      rw [List.mem_cons, not_or] at h
      rw [byteLines, if_neg (Ne.symm h.1), ih h.2]
      simp

/-- A line of a text is the first line of its bytes. -/
theorem lines_of_line {line : Text} (h : '\n' ∉ line) (rest : Text) :
    linesOf (toBytes (line ++ '\n' :: rest)).toList =
      some (line ++ ['\n']) :: linesOf (toBytes rest).toList := by
  have hfeed : (toBytes ['\n']).toList = [10] := bytes_eq ['\n']
  have hbytes : (toBytes (line ++ '\n' :: rest)).toList =
      (toBytes line).toList ++ 10 :: (toBytes rest).toList := by
    rw [bytes_append, ← List.singleton_append, bytes_append, hfeed, List.singleton_append]
  have hfirst : (toBytes line).toList ++ [10] = (toBytes (line ++ ['\n'])).toList := by
    rw [bytes_append, hfeed]
  rw [hbytes, linesOf, byte_lines_line (no_line_feed h), List.map_cons, List.reverse_nil,
    List.nil_append, hfirst, read_bytes]
  rfl

/-- A text of one line has no other. -/
theorem lines_of_last {line : Text} (h : '\n' ∉ line) (hne : line ≠ []) :
    linesOf (toBytes line).toList = [some line] := by
  have hbytes : (toBytes line).toList ≠ [] := by
    obtain ⟨c, rest, rfl⟩ := List.exists_cons_of_ne_nil hne
    rw [bytes_eq, List.flatMap_cons]
    exact List.append_ne_nil_of_left_ne_nil String.utf8EncodeChar_ne_nil _
  rw [linesOf, byte_lines_last (no_line_feed h), List.reverse_nil, List.nil_append, if_neg hbytes,
    List.map_singleton, read_bytes]

/-- Where a text starts with an ASCII character, or is empty, no byte order mark is dropped. -/
theorem lines_of_text {text : Text} (h : ∀ c, text.head? = some c → c.toNat < 128) :
    lines (toBytes text) = linesOf (toBytes text).toList := by
  have hmark : (toBytes text).toList.take 3 ≠ [0xef, 0xbb, 0xbf] := by
    intro hmark
    cases text with
    | nil =>
        rw [bytes_eq] at hmark
        cases hmark
    | cons c rest =>
        have hsize : c.utf8Size = 1 := Char.utf8Size_eq_one_iff.2 (Nat.le_of_lt_succ (h c rfl))
        have hcode := h c rfl
        rw [bytes_eq, List.flatMap_cons, String.utf8EncodeChar_eq_singleton hsize] at hmark
        have hfirst : c.val.toUInt8 = 0xef := (List.cons.inj hmark).1
        have hbyte := congrArg UInt8.toNat hfirst
        rw [UInt32.toNat_toUInt8] at hbyte
        have hvalue : c.val.toNat < 128 := hcode
        have hlarge : (0xef : UInt8).toNat = 239 := rfl
        omega
  rw [lines]
  simp only [if_neg hmark]
  rfl

end Files

section Variables

/-- What stands for a variable in a value: what it is set to, or what an earlier line says. -/
def standsFor (environment : Environment) (earlier : List (Text × Text)) (name : Text) : Text :=
  ((environment.value? name).or (earlier.lookup name)).getD []

/-- The variable that a line sets, and its value, given what stands for each variable. -/
def settingOf? (stands : Text → Text) (line : Text) : Option (Text × Text) := do
  let (name, source) ← readAssigned? line
  if (skipBlanks source).head? = some '#' then some (name, [])
  else (readValue? stands .plain false [] (skipBlanks source)).map fun value => (name, value)

/-- A line is passed over when it is empty or a comment. Otherwise it sets a variable that is not
set yet, or ends the file, because it cannot be read or the variable cannot be set. -/
theorem add_lines_cons (environment : Environment) (earlier : List (Text × Text)) (line : Text)
    (rest : List (Option Text)) :
    addLines environment earlier (some line :: rest) =
      if skipBlanks (dropLastBlanks line) = [] ∨
          (skipBlanks (dropLastBlanks line)).head? = some '#' then
        addLines environment earlier rest
      else
        match settingOf? (standsFor environment earlier) (skipBlanks (dropLastBlanks line)) with
        | none => ⟨environment, none⟩
        | some (name, value) =>
            if environment.Accepts name value then
              addLines (environment.addNew name value) ((name, value) :: earlier) rest
            else ⟨environment, some (name, value)⟩ :=
  rfl

/-- A variable has its value, or else the one that it is set to. -/
theorem value_of_add_new (environment : Environment) (name value other : Text) :
    (environment.addNew name value).value? other =
      (environment.value? other).or (if other = name then some value else none) := by
  rw [Environment.addNew]
  split
  · rename_i hset
    obtain ⟨before, hbefore⟩ := Option.isSome_iff_exists.1 hset
    split
    · rename_i hname
      rw [hname, hbefore, Option.some_or]
    · rw [Option.or_none]
  · rw [Environment.value?, List.lookup_append, Environment.value?]
    by_cases hname : other = name
    · simp [hname]
    · simp [List.lookup_cons, beq_eq_false_iff_ne.2 hname, hname]

/-- Behind a variable that is set, further ones are looked up as behind its entry. -/
theorem value_behind_new (environment : Environment) (name value other : Text)
    (others : List (Text × Text)) :
    ((environment.addNew name value).value? other).or (others.lookup other) =
      (environment.value? other).or (((name, value) :: others).lookup other) := by
  rw [value_of_add_new, Option.or_assoc, List.lookup_cons]
  by_cases hname : other = name
  · simp [hname]
  · simp [beq_eq_false_iff_ne.2 hname, hname]

/-- A variable that is set keeps its value, whatever lines follow. -/
theorem value_of_add_lines {name value : Text} {environment : Environment}
    (h : environment.value? name = some value) (earlier : List (Text × Text))
    (following : List (Option Text)) :
    (addLines environment earlier following).environment.value? name = some value := by
  induction following generalizing environment earlier with
  | nil => exact h
  | cons line following ih =>
      cases line with
      | none => exact h
      | some line =>
          rw [add_lines_cons]
          split
          · exact ih h earlier
          · split
            · exact h
            · split
              · refine ih ?_ _
                rw [value_of_add_new, h, Option.some_or]
              · exact h

/-- No settings file changes a variable that is set. -/
theorem value_kept {name value : Text} {environment : Environment}
    (h : environment.value? name = some value) (content : ByteArray) :
    (addTo environment content).environment.value? name = some value :=
  value_of_add_lines h [] _

/-- The variable of a line that sets one is found, whatever the others stand for. -/
theorem SetsLine.setting {line name value : Text} (h : SetsLine line name value)
    (stands : Text → Text) : settingOf? stands line = some (name, value) := by
  obtain ⟨⟨spelling, rfl, hspells⟩, hname⟩ := h
  obtain ⟨hblank, hcomment⟩ := hspells.head
  obtain ⟨first, rest, rfl, hfirst, hall⟩ := hname.parts
  have hassigned : readAssigned? (first :: rest ++ '=' :: spelling) =
      some (first :: rest, spelling) := by
    have hrun : ∀ c ∈ first :: rest, (c.isAlphanum || c == '_' || c == '.') = true := by
      intro c hc
      simpa [or_assoc] using hall c hc
    have hstop : ('=' :: spelling).head?.any (fun c => c.isAlphanum || c == '_' || c == '.') =
        false := by
      show ('='.isAlphanum || '=' == '_' || '=' == '.') = false
      decide
    have hread : readName? (first :: (rest ++ '=' :: spelling)) =
        some (first :: rest, '=' :: spelling) := by
      rw [readName?]
      simp only [if_pos hfirst]
      rw [← List.cons_append, take_run hrun hstop, drop_run hrun hstop]
    have hequals : skipBlanks ('=' :: spelling) = '=' :: spelling :=
      List.dropWhile_cons_of_neg (by decide)
    rw [List.cons_append, readAssigned?, hread]
    simp only [Option.bind_eq_bind, Option.bind_some, hequals]
  rw [settingOf?, hassigned]
  simp only [Option.bind_eq_bind, Option.bind_some, hblank, if_neg hcomment, hspells.read,
    Option.map_some]

/-- A line that sets a variable has nothing to be trimmed. -/
theorem SetsLine.trimmed {line name value : Text} (h : SetsLine line name value) :
    skipBlanks (dropLastBlanks line) = line := by
  have hlast : dropLastBlanks line = line := by
    obtain ⟨-, front, c, rfl, hblank⟩ := h.single_line
    simp [dropLastBlanks, hblank]
  obtain ⟨c, rest, rfl, hblank, -, -⟩ := h.head
  rw [hlast, skipBlanks, List.dropWhile_cons_of_neg (by simp [hblank])]

/-- A line that sets a variable adds it, unless it is set already or cannot be set. -/
theorem SetsLine.add {line name value : Text} (h : SetsLine line name value)
    (environment : Environment) (earlier : List (Text × Text)) (rest : List (Option Text)) :
    addLines environment earlier (some line :: rest) =
      if environment.Accepts name value then
        addLines (environment.addNew name value) ((name, value) :: earlier) rest
      else ⟨environment, some (name, value)⟩ := by
  have hsetting := h.setting (standsFor environment earlier)
  have htrimmed := h.trimmed
  obtain ⟨c, tail, rfl, -, hcomment, -⟩ := h.head
  rw [add_lines_cons, htrimmed, if_neg (by simpa using hcomment), hsetting]

/-- There is no NUL in the values that assignments give to variables that are not set: each of these
has the value of its first assignment. -/
def CanAssign (environment : Environment) (assignments : List (Text × Text)) : Prop :=
  ∀ name value, environment.value? name = none → assignments.lookup name = some value →
    '\x00' ∉ value

/-- Nothing is in the way of no assignments. -/
theorem can_assign_nil (environment : Environment) : CanAssign environment [] :=
  fun _ _ _ hgiven => nomatch hgiven

/-- Values without a NUL can all be set. -/
theorem can_assign_of_clear {assignments : List (Text × Text)}
    (h : ∀ assignment ∈ assignments, '\x00' ∉ assignment.2) (environment : Environment) :
    CanAssign environment assignments := by
  intro name value _ hgiven
  obtain ⟨before, behind, rfl, -⟩ := List.lookup_eq_some_iff.1 hgiven
  exact h (name, value) (List.mem_append_right _ List.mem_cons_self)

/-- Assignments can be made one after another. -/
theorem can_assign_cons (environment : Environment) (name value : Text)
    (others : List (Text × Text)) :
    CanAssign environment ((name, value) :: others) ↔
      environment.Accepts name value ∧ CanAssign (environment.addNew name value) others := by
  have hlookup {other : Text} (hne : other ≠ name) :
      ((name, value) :: others).lookup other = others.lookup other := by
    rw [List.lookup_cons, beq_eq_false_iff_ne.2 hne]
  have hadded {other : Text} (hne : other ≠ name) :
      (environment.addNew name value).value? other = environment.value? other := by
    rw [value_of_add_new, if_neg hne, Option.or_none]
  constructor
  · intro h
    refine ⟨?_, fun other given hunset hgiven => ?_⟩
    · cases hset : environment.value? name with
      | some before => exact .inl (by rw [hset]; rfl)
      | none => exact .inr (h name value hset List.lookup_cons_self)
    · have hne : other ≠ name := by
        rintro rfl
        rw [value_of_add_new, if_pos rfl] at hunset
        cases hvalue : environment.value? other <;> rw [hvalue] at hunset <;> cases hunset
      exact h other given (hadded hne ▸ hunset) ((hlookup hne).trans hgiven)
  · rintro ⟨haccepts, hothers⟩ other given hunset hgiven
    by_cases hname : other = name
    · subst hname
      rw [List.lookup_cons_self] at hgiven
      cases hgiven
      refine haccepts.resolve_left ?_
      rw [hunset]
      exact Bool.false_ne_true
    · exact hothers other given ((hadded hname).trans hunset) ((hlookup hname).symm.trans hgiven)

/-- The lines that set variables lead to an assignment each, as long as these can be made. -/
theorem Assigns.add {text : Text} {assignments : List (Text × Text)} (h : Assigns text assignments)
    (environment : Environment) (earlier : List (Text × Text)) :
    let added := addLines environment earlier
      (logicalLines .outside [] (linesOf (toBytes text).toList))
    (added.unsettable? = none ↔ CanAssign environment assignments) ∧
      (added.unsettable? = none → ∀ name, added.environment.value? name =
        (environment.value? name).or (assignments.lookup name)) := by
  induction h generalizing environment earlier with
  | nil =>
      rw [bytes_eq]
      exact ⟨⟨fun _ => can_assign_nil environment, fun _ => rfl⟩,
        fun _ _ => Option.or_none.symm⟩
  | @last line own value hline =>
      have hlogical := hline.logical_lines (.inl rfl) []
      rw [List.append_nil] at hlogical
      obtain ⟨c, tail, hhead, -⟩ := hline.head
      rw [lines_of_last hline.single_line.1 (by simp [hhead]), hlogical, hline.add,
        can_assign_cons]
      split
      · rename_i haccepts
        refine ⟨⟨fun _ => ⟨haccepts, can_assign_nil _⟩, fun _ => rfl⟩, fun _ name => ?_⟩
        rw [← value_behind_new]
        exact Option.or_none.symm
      · rename_i hrefused
        exact ⟨⟨nofun, fun hassign => absurd hassign.1 hrefused⟩, nofun⟩
  | @cons line own value rest others hline hrest ih =>
      rw [lines_of_line hline.single_line.1, hline.logical_lines (.inr rfl), hline.add,
        can_assign_cons]
      split
      · rename_i haccepts
        obtain ⟨hsettable, hvalue⟩ := ih (environment.addNew own value) ((own, value) :: earlier)
        refine ⟨hsettable.trans ⟨fun hassign => ⟨haccepts, hassign⟩, And.right⟩,
          fun hset name => ?_⟩
        rw [hvalue hset, value_behind_new]
      · rename_i hrefused
        exact ⟨⟨nofun, fun hassign => absurd hassign.1 hrefused⟩, nofun⟩

/-- The lines of a text that sets variables are those of its bytes. -/
theorem Assigns.lines {text : Text} {assignments : List (Text × Text)}
    (h : Assigns text assignments) : lines (toBytes text) = linesOf (toBytes text).toList := by
  refine lines_of_text fun c hc => ?_
  cases h with
  | nil => cases hc
  | last hline | cons hline =>
      obtain ⟨first, rest, rfl, -, -, hcode⟩ := hline.head
      exact Option.some.inj hc ▸ hcode

/-- The variables of a file of lines that set variables can be set exactly when there is no NUL in
the values for those that are not set yet. -/
theorem settable_of_assignments_iff {text : Text} {assignments : List (Text × Text)}
    (h : Assigns text assignments) (environment : Environment) :
    (addTo environment (toBytes text)).unsettable? = none ↔ CanAssign environment assignments := by
  rw [addTo, h.lines]
  exact (h.add environment []).1

/-- A file of lines that set variables adds those that are not set yet, each with the value of its
first line, if these can be set. -/
theorem value_of_assignments {text : Text} {assignments : List (Text × Text)}
    (h : Assigns text assignments) {environment : Environment}
    (hset : (addTo environment (toBytes text)).unsettable? = none) (name : Text) :
    (addTo environment (toBytes text)).environment.value? name =
      (environment.value? name).or (assignments.lookup name) := by
  rw [addTo, h.lines] at hset ⊢
  exact (h.add environment []).2 hset name

end Variables

end Settings

end QueryTables
