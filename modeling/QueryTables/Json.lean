import QueryTables.Text.Decimal

/-!
# JSON values

The part of JSON that reports are written in: texts, natural numbers, arrays and objects. A value
is written compactly, without blanks. In a text the quotation mark, the backslash and the control
characters below U+0020 are escaped, and nothing else.
-/

namespace QueryTables

/-- A JSON value. The members of an object keep their order. -/
inductive Json where
  | text (value : Text)
  | number (value : Nat)
  | array (items : List Json)
  | object (members : List (Text × Json))

namespace Json

/-- The hexadecimal digit for a number below sixteen, in small letters. -/
def hexDigit (d : Nat) : Char :=
  if d < 10 then Char.ofNat (48 + d) else Char.ofNat (87 + d)

/-- A character as it is written inside a text. -/
def escape (c : Char) : Text :=
  if c = '"' then ['\\', '"']
  else if c = '\\' then ['\\', '\\']
  else if c = '\x08' then ['\\', 'b']
  else if c = '\t' then ['\\', 't']
  else if c = '\n' then ['\\', 'n']
  else if c = '\x0c' then ['\\', 'f']
  else if c = '\r' then ['\\', 'r']
  else if c.toNat < 32 then
    ['\\', 'u', '0', '0', hexDigit (c.toNat / 16), hexDigit (c.toNat % 16)]
  else [c]

/-- A text between quotation marks, its characters escaped. -/
def quoted (value : Text) : Text :=
  '"' :: (value.flatMap escape ++ ['"'])

mutual

/-- The compact form of a value. -/
def render : Json → Text
  | text value => quoted value
  | number value => Decimal.numeral value
  | array items => '[' :: (renderItems items ++ [']'])
  | object members => '\x7b' :: (renderMembers members ++ ['\x7d'])

/-- The items of an array with commas between them. -/
def renderItems : List Json → Text
  | [] => []
  | item :: rest => render item ++ renderFurtherItems rest

/-- The items of an array that follow another, each behind a comma. -/
def renderFurtherItems : List Json → Text
  | [] => []
  | item :: rest => ',' :: (render item ++ renderFurtherItems rest)

/-- The members of an object with commas between them. -/
def renderMembers : List (Text × Json) → Text
  | [] => []
  | member :: rest => renderMember member ++ renderFurtherMembers rest

/-- The members of an object that follow another, each behind a comma. -/
def renderFurtherMembers : List (Text × Json) → Text
  | [] => []
  | member :: rest => ',' :: (renderMember member ++ renderFurtherMembers rest)

/-- A member of an object: its key, a colon and its value. -/
def renderMember : Text × Json → Text
  | (key, value) => quoted key ++ ':' :: render value

end

end Json

end QueryTables
