import QueryTables.Text.Unprintable

/-!
# Quoted texts in messages

A message shows a text between quotation marks, with what cannot be seen written out.
-/

namespace QueryTables.Text

/-- A code point in hexadecimal, with small letters and no leading zero. -/
def hexadecimal (n : Nat) : Text :=
  Nat.toDigits 16 n

/-- A character as it is shown between quotation marks. -/
def shown (c : Char) : Text :=
  if c = '\x00' then ['\\', '0']
  else if c = '\t' then ['\\', 't']
  else if c = '\r' then ['\\', 'r']
  else if c = '\n' then ['\\', 'n']
  else if c = '"' ∨ c = '\\' then ['\\', c]
  else if isUnprintable c then ['\\', 'u', '\x7b'] ++ hexadecimal c.toNat ++ ['\x7d']
  else [c]

/-- A text between quotation marks. -/
def inQuotationMarks (text : Text) : Text :=
  '"' :: (text.flatMap shown ++ ['"'])

end QueryTables.Text
