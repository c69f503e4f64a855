import QueryTables.Binary64

/-!
# The shortest decimal of a binary64 number

A finite number is written with the fewest digits that are read back as the same number, and among
those with the nearest. The decimals read back as a number fill an interval around it, which holds
its ends when the significand is even. On the grid of decimals with a given number of digits only
the two neighbours of the number have to be looked at.
-/

namespace QueryTables.Binary64

/-- A positive number and the ends of the interval of reals that round to it, over one
denominator. -/
structure Interval where
  low : Nat
  value : Nat
  high : Nat
  denominator : Nat
  closed : Bool

/-- The interval of the reals that round to `significand * 2 ^ exponent`. Below a power of two the
numbers are twice as dense as above. -/
def interval (significand : Nat) (exponent : Int) : Interval :=
  let scale := twoTo (exponent - 2).toNat
  let below := if significand = twoTo 52 ∧ leastExponent < exponent then 1 else 2
  { low := (4 * significand - below) * scale
    value := 4 * significand * scale
    high := (4 * significand + 2) * scale
    denominator := twoTo (2 - exponent).toNat
    closed := significand % 2 = 0 }

namespace Interval

/-- The point with the given numerator over `unit * denominator`, magnified like the interval,
lies in the interval. -/
def holds (interval : Interval) (magnification point : Nat) : Bool :=
  if interval.closed then
    interval.low * magnification ≤ point && point ≤ interval.high * magnification
  else interval.low * magnification < point && point < interval.high * magnification

/-- The least power of ten above the number, by its exponent. -/
def magnitude (interval : Interval) : Int :=
  if interval.denominator ≤ interval.value then
    (Decimal.numeral (interval.value / interval.denominator)).length
  else
    1 - (Decimal.numeral ((interval.denominator - 1) / interval.value)).length

/-- The multiple of the given power of ten that is next to the number and lies in the interval, if
there is one: the nearer of the two, and the greater when they are equally near. -/
def onGrid? (interval : Interval) (power : Int) : Option Nat :=
  let magnification := Decimal.tenTo (-power).toNat
  let unit := interval.denominator * Decimal.tenTo power.toNat
  let value := interval.value * magnification
  let below := value / unit
  match interval.holds magnification (below * unit),
      interval.holds magnification ((below + 1) * unit) with
  | true, true => if 2 * value < (2 * below + 1) * unit then some below else some (below + 1)
  | true, false => some below
  | false, true => some (below + 1)
  | false, false => none

/-- The first grid with a point in the interval, among those with so many digits and more, as the
multiple and the power of ten. -/
def search (interval : Interval) (digits : Nat) : Nat → Nat × Int
  | 0 => (0, 0)
  | tries + 1 =>
      let power := interval.magnitude - digits
      match interval.onGrid? power with
      | some multiple =>
          if multiple = Decimal.tenTo digits then (1, interval.magnitude) else (multiple, power)
      | none => search interval (digits + 1) tries

end Interval

/-- The shortest decimal of a positive number, as digits and a power of ten. Seventeen digits are
always enough. -/
def shortest (significand : Nat) (exponent : Int) : Nat × Int :=
  (interval significand exponent).search 1 17

/-- A decimal written without an exponent, with at least one digit on either side of the point. -/
def positional (digits : Nat) (power : Int) : Text :=
  let numeral := Decimal.numeral digits
  if 0 ≤ power then numeral ++ List.replicate power.toNat '0' ++ ['.', '0']
  else
    let places := (-power).toNat
    let padded := List.replicate (places + 1 - numeral.length) '0' ++ numeral
    padded.take (padded.length - places) ++ '.' :: padded.drop (padded.length - places)

/-- The text of a number: its shortest decimal written without an exponent, and words for what is
no finite number. -/
def text : Binary64 → Text
  | nan => "NaN".toList
  | infinite negative => (if negative then ['-'] else []) ++ "inf".toList
  | finite negative significand exponent =>
      let (digits, power) := if significand = 0 then (0, 0) else shortest significand exponent
      (if negative then ['-'] else []) ++ positional digits power

end QueryTables.Binary64
