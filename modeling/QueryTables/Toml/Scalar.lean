import QueryTables.Toml.Value

/-!
# Unquoted scalars

The words of a TOML document that stand for a value without quotation marks: booleans, integers,
floats, dates and times. Each is recognized as a whole. An integer must fit 64 bits with a sign.
-/

namespace QueryTables.Toml

/-- The character may stand in an unquoted scalar. -/
def isScalarCharacter (c : Char) : Bool :=
  c.isAlphanum || c == '_' || c == '+' || c == '-' || c == '.' || c == ':'

/-- A sign at the start of a text, as whether it is a minus, and the rest. -/
def splitSign : Text → Bool × Text
  | [] => (false, [])
  | c :: rest => if c = '-' then (true, rest) else if c = '+' then (false, rest) else (false, c :: rest)

/-- The digits of a numeral in which low lines may stand between digits, or nothing if it is none. -/
def groupedDigits? (isDigit : Char → Bool) (numeral : Text) : Option Text :=
  let groups := Text.pieces '_' numeral
  if groups.all fun group => !group.isEmpty && group.all isDigit then some groups.flatten else none

/-- The digits of a decimal numeral, which starts with zero only when it is zero. -/
def decimalDigits? (numeral : Text) : Option Text :=
  if numeral.head? = some '0' ∧ numeral ≠ ['0'] then none
  else groupedDigits? Char.isDigit numeral

/-- The number a digit stands for in bases up to sixteen. -/
def digitValue (c : Char) : Nat :=
  if c.isDigit then c.toNat - 48 else c.toLower.toNat - 87

/-- The number that digits stand for in a base. -/
def numberIn (base : Nat) (digits : Text) : Nat :=
  digits.foldl (fun number c => base * number + digitValue c) 0

/-- The digit is one of the base. -/
def isDigitIn (base : Nat) (c : Char) : Bool :=
  (c.isDigit || ('a' ≤ c.toLower && c.toLower ≤ 'f')) && digitValue c < base

/-- The integer, if it fits 64 bits with a sign. -/
def inRange? (value : Int) : Option Int :=
  if Int64.minValue.toInt ≤ value ∧ value ≤ Int64.maxValue.toInt then some value else none

/-- The integer that a word stands for: decimal with or without a sign, or in another base behind
its mark. -/
def integer? (word : Text) : Option Int :=
  match word with
  | '0' :: 'x' :: digits => based 16 digits
  | '0' :: 'o' :: digits => based 8 digits
  | '0' :: 'b' :: digits => based 2 digits
  | _ => do
      let (negative, numeral) := splitSign word
      let digits ← decimalDigits? numeral
      inRange? (if negative then -(numberIn 10 digits : Int) else numberIn 10 digits)
where
  based (base : Nat) (digits : Text) : Option Int := do
    let digits ← groupedDigits? (isDigitIn base) digits
    inRange? (numberIn base digits)

/-- The exponent behind the mark of a float. -/
def exponent? (word : Text) : Option Int := do
  let (negative, numeral) := splitSign word
  let digits ← groupedDigits? Char.isDigit numeral
  some (if negative then -(numberIn 10 digits : Int) else numberIn 10 digits)

/-- The character marks the exponent of a float. -/
def isExponentMark (c : Char) : Bool :=
  c == 'e' || c == 'E'

/-- The float that a word stands for: a decimal numeral with a fraction, an exponent or both, or a
word for infinity or for no number. A numeral too large for a finite float is refused, unless it
is negative. -/
def float? (word : Text) : Option Binary64 :=
  let (negative, body) := splitSign word
  if body = "inf".toList then some (.infinite negative)
  else if body = "nan".toList then some .nan
  else do
    let mantissa := body.takeWhile fun c => !isExponentMark c
    let whole := mantissa.takeWhile (· != '.')
    let wholeDigits ← decimalDigits? whole
    let fractionDigits ← match mantissa.drop whole.length with
      | [] => some []
      | _ :: fraction => groupedDigits? Char.isDigit fraction
    let exponent ← match body.drop mantissa.length with
      | [] => if mantissa.length = whole.length then none else some 0
      | _ :: exponent => exponent? exponent
    let value := Binary64.ofDecimal negative (numberIn 10 (wholeDigits ++ fractionDigits))
      (exponent - fractionDigits.length)
    if value = .infinite false then none else some value

/-- The number that exactly so many digits stand for. -/
def fixedNumber? (width : Nat) (digits : Text) : Option Nat :=
  if digits.length = width ∧ digits.all Char.isDigit then some (numberIn 10 digits) else none

/-- The number of days in a month. -/
def daysIn (year month : Nat) : Nat :=
  if month = 2 then
    if year % 4 = 0 ∧ (year % 100 ≠ 0 ∨ year % 400 = 0) then 29 else 28
  else if month = 4 ∨ month = 6 ∨ month = 9 ∨ month = 11 then 30
  else 31

/-- The word is a date that exists. -/
def isDate (word : Text) : Bool :=
  match Text.pieces '-' word with
  | [year, month, day] =>
      match fixedNumber? 4 year, fixedNumber? 2 month, fixedNumber? 2 day with
      | some year, some month, some day =>
          1 ≤ month && month ≤ 12 && 1 ≤ day && day ≤ daysIn year month
      | _, _, _ => false
  | _ => false

/-- The word is a number of so many digits that is at most the limit. -/
def isAtMost (width limit : Nat) (word : Text) : Bool :=
  (fixedNumber? width word).any (· ≤ limit)

/-- The word is a number of seconds, which may have a fraction. A minute can have a leap second. -/
def isSeconds (word : Text) : Bool :=
  match Text.pieces '.' word with
  | [whole] => isAtMost 2 60 whole
  | [whole, fraction] => isAtMost 2 60 whole && !fraction.isEmpty && fraction.all Char.isDigit
  | _ => false

/-- The word is a time of day. -/
def isTime (word : Text) : Bool :=
  match Text.pieces ':' word with
  | [hour, minute, second] => isAtMost 2 23 hour && isAtMost 2 59 minute && isSeconds second
  | _ => false

/-- The word is an offset from universal time, behind its sign. -/
def isOffset (word : Text) : Bool :=
  match Text.pieces ':' word with
  | [hour, minute] => isAtMost 2 23 hour && isAtMost 2 59 minute
  | _ => false

/-- The word is a time of day, perhaps with an offset from universal time. -/
def isTimeWithOffset (word : Text) : Bool :=
  let time := word.takeWhile fun c => c != 'Z' && c != 'z' && c != '+' && c != '-'
  match word.drop time.length with
  | [] => isTime time
  | mark :: rest => isTime time && if mark = 'Z' ∨ mark = 'z' then rest.isEmpty else isOffset rest

/-- The word is a date, a time of day, or both joined by the letter T. -/
def isMoment (word : Text) : Bool :=
  let date := word.take 10
  match word.drop 10 with
  | [] => isDate date || isTime word
  | mark :: rest =>
      if mark = 'T' ∨ mark = 't' then isDate date && isTimeWithOffset rest else isTime word

/-- The value that an unquoted word stands for. -/
def scalar? (word : Text) : Option Value :=
  if word = "true".toList then some (.boolean true)
  else if word = "false".toList then some (.boolean false)
  else if isMoment word then some .moment
  else match float? word with
    | some value => some (.float value)
    | none => (integer? word).map .integer

/-- Reads an unquoted scalar at the start of a text. A date may be followed by a space and a time
that belongs to it. -/
def readScalar? (text : Text) : Option (Value × Text) :=
  let word := text.takeWhile isScalarCharacter
  let rest := text.drop word.length
  let later := (rest.drop 1).takeWhile isScalarCharacter
  if rest.head? = some ' ' ∧ isDate word ∧ isTimeWithOffset later then
    some (.moment, rest.drop (1 + later.length))
  else (scalar? word).map fun value => (value, rest)

end QueryTables.Toml
