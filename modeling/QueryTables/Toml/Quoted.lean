import QueryTables.Text

/-!
# Quoted texts in TOML

A text stands between quotation marks, in which a backslash starts an escape, or between
apostrophes, in which nothing is escaped. Three marks in a row open a text that may go over several
lines; a line end right behind them is dropped, and every line end counts as a line feed.
-/

namespace QueryTables.Toml

/-- The character may stand in a comment or a text as it is: the tabulator and everything but the
ASCII control characters. -/
def isPlain (c : Char) : Bool :=
  c == '\t' || (32 ≤ c.toNat && c.toNat != 127)

/-- The number a hexadecimal digit stands for. -/
def hexValue? (c : Char) : Option Nat :=
  if c.isDigit then some (c.toNat - 48)
  else if 'a' ≤ c.toLower ∧ c.toLower ≤ 'f' then some (c.toLower.toNat - 87)
  else none

/-- The character with the code that hexadecimal digits give, if there is one. -/
def characterOf? (digits : Text) : Option Char := do
  let values ← digits.mapM hexValue?
  let code := values.foldl (fun code digit => 16 * code + digit) 0
  if code < 0xd800 ∨ (0xdfff < code ∧ code < 0x110000) then some (Char.ofNat code) else none

/-- Reads an escape behind its backslash. -/
def readEscape? : Text → Option (Char × Text)
  | 'b' :: rest => some ('\x08', rest)
  | 't' :: rest => some ('\t', rest)
  | 'n' :: rest => some ('\n', rest)
  | 'f' :: rest => some ('\x0c', rest)
  | 'r' :: rest => some ('\r', rest)
  | '"' :: rest => some ('"', rest)
  | '\\' :: rest => some ('\\', rest)
  | 'u' :: rest => coded 4 rest
  | 'U' :: rest => coded 8 rest
  | _ => none
where
  coded (width : Nat) (rest : Text) : Option (Char × Text) :=
    if rest.length < width then none
    else (characterOf? (rest.take width)).map fun c => (c, rest.drop width)

/-- Reads a line end, which is a line feed with or without a carriage return before it. -/
def readLineEnd? : Text → Option Text
  | '\n' :: rest => some rest
  | '\r' :: '\n' :: rest => some rest
  | _ => none

/-- The character is a blank within a line. -/
def isLineSpace (c : Char) : Bool :=
  c == ' ' || c == '\t'

/-- A text without the blanks of its first line that it starts with. -/
def skipLineSpace (text : Text) : Text :=
  text.dropWhile isLineSpace

/-- A text without the blanks and line ends that it starts with. -/
def skipSpaceAndLineEnds : Text → Text
  | '\r' :: '\n' :: rest => skipSpaceAndLineEnds rest
  | c :: rest => if isLineSpace c || c == '\n' then skipSpaceAndLineEnds rest else c :: rest
  | [] => []

/-- Reads the characters of a text on one line up to its closing mark. Escapes are read if there
are any in a text with this mark. At most so many characters are read. -/
def readOnLine? (mark : Char) (escapes : Bool) : Nat → Text → Option (Text × Text)
  | 0, _ => none
  | _, [] => none
  | limit + 1, c :: rest =>
      if c = mark then some ([], rest)
      else if escapes ∧ c = '\\' then do
        let (c, rest) ← readEscape? rest
        (readOnLine? mark escapes limit rest).map fun (value, rest) => (c :: value, rest)
      else if isPlain c then
        (readOnLine? mark escapes limit rest).map fun (value, rest) => (c :: value, rest)
      else none

/-- Reads the characters of a text over several lines up to its three closing marks, before which
two more may stand that belong to it. A backslash at the end of a line removes the line end and the
blanks and line ends behind it. At most so many characters are read. -/
def readOverLines? (mark : Char) (escapes : Bool) : Nat → Text → Option (Text × Text)
  | 0, _ => none
  | _, [] => none
  | limit + 1, c :: rest =>
      if c = mark then
        let marks := (c :: rest).takeWhile (· == mark)
        if marks.length < 3 then
          (readOverLines? mark escapes limit rest).map fun (value, rest) => (c :: value, rest)
        else if marks.length ≤ 5 then some (marks.drop 3, (c :: rest).drop marks.length)
        else none
      else if escapes ∧ c = '\\' then
        match readLineEnd? (skipLineSpace rest) with
        | some rest => readOverLines? mark escapes limit (skipSpaceAndLineEnds rest)
        | none => do
            let (c, rest) ← readEscape? rest
            (readOverLines? mark escapes limit rest).map fun (value, rest) => (c :: value, rest)
      else match readLineEnd? (c :: rest) with
        | some rest =>
            (readOverLines? mark escapes limit rest).map fun (value, rest) => ('\n' :: value, rest)
        | none =>
            if isPlain c then
              (readOverLines? mark escapes limit rest).map fun (value, rest) => (c :: value, rest)
            else none

/-- Reads a text on one line, from its opening mark. -/
def readLineText? : Text → Option (Text × Text)
  | '"' :: rest => readOnLine? '"' true (rest.length + 1) rest
  | '\'' :: rest => readOnLine? '\'' false (rest.length + 1) rest
  | _ => none

/-- Reads a text of either kind, from its opening mark. -/
def readText? (text : Text) : Option (Text × Text) :=
  match text with
  | '"' :: '"' :: '"' :: rest => overLines '"' true rest
  | '\'' :: '\'' :: '\'' :: rest => overLines '\'' false rest
  | _ => readLineText? text
where
  overLines (mark : Char) (escapes : Bool) (rest : Text) : Option (Text × Text) :=
    let rest := (readLineEnd? rest).getD rest
    readOverLines? mark escapes (rest.length + 1) rest

end QueryTables.Toml
