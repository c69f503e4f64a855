import QueryTables.Text.Blank
import QueryTables.Text.WordCharacter

/-!
# Variables and the settings file

A run sees variables by name. A settings file can add variables that are not set, one to a line, as
in `NAME=value`; it never changes one that is. Values may be quoted, go over several lines inside
quotation marks, and refer to variables set before. The first line that cannot be read ends the
file, and what stands before it counts. No variable can be set to a value with a NUL character in
it, and an attempt to do so ends more than the file (`Added.unsettable?`).
-/

namespace QueryTables

/-- Variables by name. The first entry for a name counts. -/
abbrev Environment := List (Text × Text)

namespace Environment

/-- The value of a variable that is set. -/
def value? (environment : Environment) (name : Text) : Option Text :=
  environment.lookup name

/-- A variable has a value already, or can be set to the given one: there is no NUL in it. -/
def Accepts (environment : Environment) (name value : Text) : Prop :=
  (environment.value? name).isSome ∨ '\x00' ∉ value

instance (environment : Environment) (name value : Text) :
    Decidable (environment.Accepts name value) :=
  inferInstanceAs (Decidable (_ ∨ _))

/-- The environment with a variable set, unless it is set already. -/
def addNew (environment : Environment) (name value : Text) : Environment :=
  if (environment.value? name).isSome then environment else environment ++ [(name, value)]

end Environment

namespace Settings

/-- Where the reading of a line stands: outside quotation marks, behind a blank there, inside one
kind of quotation mark, behind a backslash, or at a comment. -/
inductive LineState where
  | outside
  | afterBlank
  | single
  | double
  | escaped (within : LineState)
  | comment
deriving DecidableEq, Repr

/-- The state behind a character outside quotation marks. -/
def LineState.enter (c : Char) : LineState :=
  if c = '\\' then .escaped .outside
  else if c = '"' then .double
  else if c = '\'' then .single
  else .outside

/-- The state behind a further character. -/
def LineState.next (state : LineState) (c : Char) : LineState :=
  match state with
  | .outside =>
      if Text.isBlank c ∧ c ≠ '\n' ∧ c ≠ '\r' then .afterBlank else LineState.enter c
  | .afterBlank => if c = '#' then .comment else LineState.enter c
  | .single => if c = '\\' then .escaped .single else if c = '\'' then .outside else .single
  | .double => if c = '\\' then .escaped .double else if c = '"' then .outside else .double
  | .escaped within => within
  | .comment => .comment

/-- The state at the end of a line, and the line up to a comment in it. -/
def scanLine (state : LineState) : Text → LineState × Text
  | [] => (state, [])
  | c :: rest =>
      match state.next c with
      | .comment => (.comment, [])
      | state =>
          let (final, kept) := scanLine state rest
          (final, c :: kept)

/-- The bytes of a file cut behind each line feed. -/
def byteLines (current : List UInt8) : List UInt8 → List (List UInt8)
  | [] => if current.isEmpty then [] else [current.reverse]
  | byte :: rest =>
      if byte = 10 then (byte :: current).reverse :: byteLines [] rest
      else byteLines (byte :: current) rest

/-- The lines of a file with their line ends, as far as they are text. -/
def lines (content : ByteArray) : List (Option Text) :=
  let bytes := content.toList
  let body := if bytes.take 3 = [0xef, 0xbb, 0xbf] then bytes.drop 3 else bytes
  (byteLines [] body).map fun line => Text.ofBytes? ⟨line.toArray⟩

/-- A line without its line end. -/
def withoutLineEnd (line : Text) : Text :=
  if line.getLast? = some '\n' then
    if line.dropLast.getLast? = some '\r' then line.dropLast.dropLast else line.dropLast
  else line

/-- The lines put together where quotation marks go over line ends, without comments. Nothing stands
for a line that cannot be read. -/
def logicalLines (state : LineState) (before : Text) : List (Option Text) → List (Option Text)
  | [] => if state = .outside then [] else [none]
  | none :: _ => [none]
  | some line :: rest =>
      if ((before ++ line).dropWhile Text.isBlank).head? = some '#' then
        some [] :: logicalLines .outside [] rest
      else match scanLine state line with
        | (.comment, kept) => some (before ++ kept) :: logicalLines .outside [] rest
        | (.outside, _) => some (withoutLineEnd (before ++ line)) :: logicalLines .outside [] rest
        | (state, _) => logicalLines state (before ++ line) rest

/-- Where the reading of a value stands: at plain text, behind its end, behind a backslash, inside
single quotation marks, or in the name of a variable, which may stand in braces. -/
inductive ValueState where
  | plain
  | ended
  | escaped
  | single
  | name (spelled : Text)
  | braced (spelled : Text)
deriving DecidableEq, Repr

/-- Reads a value, given what stands for each variable, whether double quotation marks are open, and
what has been read. -/
def readValue? (stands : Text → Text) : ValueState → Bool → Text → Text → Option Text
  | .plain, false, read, [] => some read
  | .ended, false, read, [] => some read
  | .escaped, false, read, [] => some read
  | .name spelled, false, read, [] => some (read ++ stands spelled)
  | _, _, _, [] => none
  | .ended, double, read, c :: rest =>
      if c = ' ' ∨ c = '\t' then readValue? stands .ended double read rest
      else if c = '#' then some read
      else none
  | .escaped, double, read, c :: rest =>
      if c = 'n' then readValue? stands .plain double (read ++ ['\n']) rest
      else if c = '\\' ∨ c = '\'' ∨ c = '"' ∨ c = '$' ∨ c = ' ' then
        readValue? stands .plain double (read ++ [c]) rest
      else none
  | .single, double, read, c :: rest =>
      if c = '\'' then readValue? stands .plain double read rest
      else readValue? stands .single double (read ++ [c]) rest
  | .name spelled, double, read, c :: rest =>
      if Text.isAlphanumeric c then readValue? stands (.name (spelled ++ [c])) double read rest
      else if c = '\x7b' ∧ spelled = [] then readValue? stands (.braced []) double read rest
      else if c = '$' then readValue? stands (.name []) double (read ++ stands spelled) rest
      else readValue? stands .plain double (read ++ stands spelled ++ [c]) rest
  | .braced spelled, double, read, c :: rest =>
      if c = '\x7d' then readValue? stands .plain double (read ++ stands spelled) rest
      else readValue? stands (.braced (spelled ++ [c])) double read rest
  | .plain, double, read, c :: rest =>
      if c = '$' then readValue? stands (.name []) double read rest
      else if c = '"' then readValue? stands .plain (!double) read rest
      else if c = '\\' then readValue? stands .escaped double read rest
      else if double = false ∧ c = '\'' then readValue? stands .single double read rest
      else if double = false ∧ (c = ' ' ∨ c = '\t') then readValue? stands .ended double read rest
      else readValue? stands .plain double (read ++ [c]) rest

/-- A text without the blanks it starts with. -/
def skipBlanks (text : Text) : Text :=
  text.dropWhile Text.isBlank

/-- A text without the blanks it ends with. -/
def dropLastBlanks (text : Text) : Text :=
  (text.reverse.dropWhile Text.isBlank).reverse

/-- Reads the name of a variable. -/
def readName? (line : Text) : Option (Text × Text) :=
  let isNameCharacter (c : Char) : Bool := c.isAlphanum || c == '_' || c == '.'
  match line with
  | [] => none
  | c :: _ =>
      if c.isAlpha ∨ c = '_' then
        some (line.takeWhile isNameCharacter, line.dropWhile isNameCharacter)
      else none

/-- Reads a name and the equals sign behind it. The word export may stand before the name. -/
def readAssigned? (line : Text) : Option (Text × Text) := do
  let (name, rest) ← readName? line
  match skipBlanks rest with
  | '=' :: rest => some (name, rest)
  | rest =>
      if name = "export".toList then do
        let (name, rest) ← readName? rest
        match skipBlanks rest with
        | '=' :: rest => some (name, rest)
        | _ => none
      else none

/-- What comes of the lines of a settings file: the variables that are set, and the name and the
value of the one that could not be set, if there is one. -/
structure Added where
  environment : Environment
  unsettable? : Option (Text × Text)

/-- The names and values that lines set, up to the first that cannot be read or set, added to an
environment. Values set by earlier lines can be referred to, but what is set already wins. -/
def addLines (environment : Environment) (earlier : List (Text × Text)) :
    List (Option Text) → Added
  | [] => ⟨environment, none⟩
  | none :: _ => ⟨environment, none⟩
  | some line :: rest =>
      let line := skipBlanks (dropLastBlanks line)
      if line = [] ∨ line.head? = some '#' then addLines environment earlier rest
      else
        let stands (name : Text) : Text :=
          ((environment.value? name).or (earlier.lookup name)).getD []
        let setting? : Option (Text × Text) := do
          let (name, source) ← readAssigned? line
          let source := skipBlanks source
          if source.head? = some '#' then some (name, [])
          else (readValue? stands .plain false [] source).map fun value => (name, value)
        match setting? with
        | none => ⟨environment, none⟩
        | some (name, value) =>
            if environment.Accepts name value then
              addLines (environment.addNew name value) ((name, value) :: earlier) rest
            else ⟨environment, some (name, value)⟩

/-- The environment with the variables of a settings file added. -/
def addTo (environment : Environment) (content : ByteArray) : Added :=
  addLines environment [] (logicalLines .outside [] (lines content))

end Settings

end QueryTables
