import QueryTables.Json

/-!
# Reading JSON

The reader for the values reports are written in. It accepts them in any layout, with blanks
between the parts and with every escape that JSON has for a character.
-/

namespace QueryTables.Json

/-- A character that may stand between the parts of a value. -/
def isSpace (c : Char) : Bool :=
  c == ' ' || c == '\t' || c == '\n' || c == '\r'

/-- A text without the blanks at its start. -/
def skipSpace (text : Text) : Text :=
  text.dropWhile isSpace

/-- The number a hexadecimal digit stands for. -/
def hexValue? (c : Char) : Option Nat :=
  if '0' ≤ c ∧ c ≤ '9' then some (c.toNat - 48)
  else if 'a' ≤ c ∧ c ≤ 'f' then some (c.toNat - 87)
  else if 'A' ≤ c ∧ c ≤ 'F' then some (c.toNat - 55)
  else none

/-- The number that four hexadecimal digits stand for. -/
def codeUnit? (a b c d : Char) : Option Nat := do
  let a ← hexValue? a
  let b ← hexValue? b
  let c ← hexValue? c
  let d ← hexValue? d
  some (((a * 16 + b) * 16 + c) * 16 + d)

/-- The character that the code of one escape stands for. A code from the surrogate range needs a
second one. -/
def single? (unit : Nat) : Option Char :=
  if unit < 0xd800 ∨ 0xdfff < unit then some (Char.ofNat unit) else none

/-- The character that a pair of surrogate codes stands for. -/
def pair? (high low : Nat) : Option Char :=
  if 0xd800 ≤ high ∧ high < 0xdc00 ∧ 0xdc00 ≤ low ∧ low < 0xe000 then
    some (Char.ofNat (0x10000 + (high - 0xd800) * 0x400 + (low - 0xdc00)))
  else none

/-- The character that a single letter behind a backslash stands for. -/
def unescape? (c : Char) : Option Char :=
  if c = '"' ∨ c = '\\' ∨ c = '/' then some c
  else if c = 'b' then some '\x08'
  else if c = 't' then some '\t'
  else if c = 'n' then some '\n'
  else if c = 'f' then some '\x0c'
  else if c = 'r' then some '\r'
  else none

/-- Reads the characters of a text up to its closing quotation mark. -/
def readCharacters? : Text → Option (Text × Text)
  | [] => none
  | '"' :: rest => some ([], rest)
  | '\\' :: 'u' :: a :: b :: c :: d :: '\\' :: 'u' :: e :: f :: g :: h :: rest =>
      match (codeUnit? a b c d).bind single? with
      | some first => (readCharacters? ('\\' :: 'u' :: e :: f :: g :: h :: rest)).map
          fun (value, rest) => (first :: value, rest)
      | none => do
          let joined ← pair? (← codeUnit? a b c d) (← codeUnit? e f g h)
          let (value, rest) ← readCharacters? rest
          some (joined :: value, rest)
  | '\\' :: 'u' :: a :: b :: c :: d :: rest => do
      let first ← (codeUnit? a b c d).bind single?
      let (value, rest) ← readCharacters? rest
      some (first :: value, rest)
  | '\\' :: c :: rest => do
      let first ← unescape? c
      let (value, rest) ← readCharacters? rest
      some (first :: value, rest)
  | c :: rest =>
      if c.toNat < 32 ∨ c = '\\' then none
      else (readCharacters? rest).map fun (value, rest) => (c :: value, rest)

/-- Reads a text between quotation marks. -/
def readText? : Text → Option (Text × Text)
  | '"' :: rest => readCharacters? rest
  | _ => none

/-- Reads a numeral, which has no leading zero. -/
def readNumber? (text : Text) : Option (Nat × Text) :=
  match text.takeWhile Char.isDigit with
  | [] => none
  | ['0'] => some (0, text.dropWhile Char.isDigit)
  | '0' :: _ => none
  | digits => some (Decimal.value digits, text.dropWhile Char.isDigit)

mutual

/-- Reads a value at the start of a text, at most so many levels and items deep. -/
def readValue? : Nat → Text → Option (Json × Text)
  | 0, _ => none
  | depth + 1, source =>
      match skipSpace source with
      | '"' :: rest => (readCharacters? rest).map fun (value, rest) => (.text value, rest)
      | '[' :: rest =>
          match skipSpace rest with
          | ']' :: rest => some (.array [], rest)
          | rest => (readItems? depth rest).map fun (items, rest) => (.array items, rest)
      | '\x7b' :: rest =>
          match skipSpace rest with
          | '\x7d' :: rest => some (.object [], rest)
          | rest => (readMembers? depth rest).map fun (members, rest) => (.object members, rest)
      | rest => (readNumber? rest).map fun (value, rest) => (.number value, rest)

/-- Reads the items of an array and its closing bracket. -/
def readItems? : Nat → Text → Option (List Json × Text)
  | 0, _ => none
  | depth + 1, source => do
      let (item, rest) ← readValue? depth source
      match skipSpace rest with
      | ',' :: rest => (readItems? depth rest).map fun (items, rest) => (item :: items, rest)
      | ']' :: rest => some ([item], rest)
      | _ => none

/-- Reads the members of an object and its closing brace. -/
def readMembers? : Nat → Text → Option (List (Text × Json) × Text)
  | 0, _ => none
  | depth + 1, source => do
      let (key, rest) ← readText? (skipSpace source)
      match skipSpace rest with
      | ':' :: rest =>
          let (value, rest) ← readValue? depth rest
          match skipSpace rest with
          | ',' :: rest =>
              (readMembers? depth rest).map fun (members, rest) => ((key, value) :: members, rest)
          | '\x7d' :: rest => some ([(key, value)], rest)
          | _ => none
      | _ => none

end

/-- The value that a text is a form of. -/
def read? (source : Text) : Option Json :=
  match readValue? (source.length + 1) source with
  | some (value, rest) => if skipSpace rest = [] then some value else none
  | none => none

end QueryTables.Json
