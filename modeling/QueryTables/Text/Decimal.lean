import QueryTables.Text

/-!
# Decimal numerals

Natural numbers written with the digits 0 to 9 and no leading zero. `value_numeral` says that the
numeral of a number is read back as that number.
-/

namespace QueryTables.Decimal

/-- The digit for a number below ten. -/
def digit (d : Nat) : Char :=
  Char.ofNat (48 + d)

/-- The number a digit stands for. -/
def digitValue (c : Char) : Nat :=
  c.toNat - 48

/-- The decimal numeral of a number. -/
def numeral (n : Nat) : Text :=
  if n < 10 then [digit n] else numeral (n / 10) ++ [digit (n % 10)]
termination_by n

/-- A power of ten. -/
def tenTo (exponent : Nat) : Nat :=
  Nat.pow 10 exponent

/-- The number that a row of digits stands for, read from the left. -/
def value (digits : Text) : Nat :=
  digits.foldl (fun number c => 10 * number + digitValue c) 0

/-- A digit is read back as the number it was written for. -/
theorem digitValue_digit {d : Nat} (h : d < 10) : digitValue (digit d) = d := by
  have hall : ∀ d < 10, digitValue (digit d) = d := by decide
  exact hall d h

/-- A numeral is read back as the number it was written for. -/
theorem value_numeral (n : Nat) : value (numeral n) = n := by
  fun_induction numeral n with
  | case1 n h => simp [value, digitValue_digit h]
  | case2 n h ih =>
      simp only [value] at ih
      simp only [value, List.foldl_append, ih, List.foldl_cons, List.foldl_nil,
        digitValue_digit (Nat.mod_lt n (by decide))]
      omega

/-- The numeral of a number consists of its digits to base ten. -/
theorem numeral_eq_toDigits (n : Nat) : numeral n = Nat.toDigits 10 n := by
  have hdigit : ∀ d < 10, digit d = Nat.digitChar d := by decide
  fun_induction numeral n with
  | case1 n h => rw [Nat.toDigits_of_lt_base h, hdigit n h]
  | case2 n h ih =>
      rw [ih, hdigit _ (Nat.mod_lt n (by decide)), ← Nat.toDigits_of_base_le (by decide) (by omega)]

/-- A numeral has at least one digit. -/
theorem numeral_ne_nil (n : Nat) : numeral n ≠ [] := by
  fun_cases numeral n <;> simp

/-- A numeral consists of digits. -/
theorem isDigit_of_mem_numeral {n : Nat} {c : Char} (h : c ∈ numeral n) : c.isDigit = true := by
  rw [numeral_eq_toDigits] at h
  exact Nat.isDigit_of_mem_toDigits (by decide) (by decide) h

/-- A numeral starts with a zero only for zero. -/
theorem head?_numeral_ne_zero {n : Nat} (h : n ≠ 0) : (numeral n).head? ≠ some '0' := by
  have hdigit : ∀ d < 10, d ≠ 0 → digit d ≠ '0' := by decide
  fun_induction numeral n with
  | case1 n hlow => simpa using hdigit n hlow h
  | case2 n hlow ih =>
      obtain ⟨first, digits, hnumeral⟩ := List.exists_cons_of_ne_nil (numeral_ne_nil (n / 10))
      simpa [hnumeral] using ih (by omega)

end QueryTables.Decimal
