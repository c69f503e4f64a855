import QueryTables.Text.Decimal

/-!
# Binary64 numbers

A finite number is a significand times a power of two, where the significand is below 2^53. A
decimal is rounded to the nearest such number, and a decimal halfway between two of them to the one
with the even significand. All of it is exact arithmetic on natural numbers.
-/

namespace QueryTables

/-- A binary64 number. A finite one stands for `significand * 2 ^ exponent` with its sign. -/
inductive Binary64 where
  | finite (negative : Bool) (significand : Nat) (exponent : Int)
  | infinite (negative : Bool)
  | nan
deriving DecidableEq, Repr

namespace Binary64

/-- A power of two. -/
def twoTo (exponent : Nat) : Nat :=
  Nat.pow 2 exponent

/-- The quotient rounded to the nearest natural number, a half to the even neighbour. -/
def roundedQuotient (numerator denominator : Nat) : Nat :=
  let quotient := numerator / denominator
  let twice := 2 * (numerator % denominator)
  if twice < denominator then quotient
  else if denominator < twice then quotient + 1
  else if quotient % 2 = 0 then quotient else quotient + 1

/-- The exponent of the largest power of two that is not above a positive quotient. -/
def floorLog2 (numerator denominator : Nat) : Int :=
  let guess : Int := numerator.log2 - denominator.log2
  if denominator * twoTo guess.toNat ≤ numerator * twoTo (-guess).toNat then guess else guess - 1

/-- The least exponent of a finite number. -/
def leastExponent : Int := -1074

/-- The greatest exponent of a finite number. -/
def greatestExponent : Int := 971

/-- The number nearest to a positive quotient. -/
def ofQuotient (negative : Bool) (numerator denominator : Nat) : Binary64 :=
  let exponent := max (floorLog2 numerator denominator - 52) leastExponent
  let significand :=
    roundedQuotient (numerator * twoTo (-exponent).toNat) (denominator * twoTo exponent.toNat)
  let (significand, exponent) :=
    if significand = twoTo 53 then (twoTo 52, exponent + 1) else (significand, exponent)
  if greatestExponent < exponent then infinite negative
  else finite negative significand exponent

/-- The number nearest to `digits * 10 ^ exponent`. Decimals far outside the range of finite
numbers are settled by their size alone. -/
def ofDecimal (negative : Bool) (digits : Nat) (exponent : Int) : Binary64 :=
  let size : Int := (Decimal.numeral digits).length + exponent
  if digits = 0 ∨ size < -330 then finite negative 0 leastExponent
  else if 310 < size then infinite negative
  else ofQuotient negative (digits * Decimal.tenTo exponent.toNat) (Decimal.tenTo (-exponent).toNat)

end Binary64

end QueryTables
