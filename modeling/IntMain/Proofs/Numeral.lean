import IntMain.Token.IntegerValue

/-!
# Numerals are read back

Operands, addresses, temporaries and labels carry their numbers as decimal text. The
reader of digits inverts the writer on every number, so distinct numbers have distinct
texts and a text determines the number it was written for. A sign that is always
written and a sign that is written for negative numbers only are read alike.
-/

namespace IntMain.Text

/-- The character of a decimal digit has that digit's value. There are ten of them, and each is
looked up. -/
theorem digit_digitChar {value : Nat} (small : value < 10) :
    digit? 10 value.digitChar = some value := by
  have cases : ∀ digit : Fin 10, digit? 10 digit.val.digitChar = some digit.val := by decide
  exact cases ⟨value, small⟩

/-- Reading the decimal digits of a number gives the number back. The last digit is the
remainder, and what stands before it are the digits of the quotient. -/
theorem positional_toDigits (value : Nat) :
    positional? 10 (Nat.toDigits 10 value) = some value := by
  induction value using Nat.strongRecOn with
  | ind value inductionHypothesis =>
    by_cases small : value < 10
    · rw [Nat.toDigits_of_lt_base small]
      simp [positional?, digit_digitChar small]
    · have quotient : positional? 10 (Nat.toDigits 10 (value / 10)) = some (value / 10) :=
        inductionHypothesis (value / 10) (by omega)
      have remainder : digit? 10 (value % 10).digitChar = some (value % 10) :=
        digit_digitChar (Nat.mod_lt value (by decide))
      rw [Nat.toDigits_of_base_le (by decide) (by omega), positional?, List.foldlM_append]
      rw [positional?] at quotient
      simp only [quotient, Option.bind_eq_bind, Option.bind_some, List.foldlM_cons, remainder,
        Option.map_some, List.foldlM_nil, Option.pure_def, Option.some.injEq]
      omega

/-- The characters of a decimal numeral are the digits of its number, as the library writes them. -/
theorem decimal_toList (value : Nat) : (decimal value).toList = Nat.toDigits 10 value :=
  String.toList_ofList

/-- A decimal numeral is read back. There is no bound on the number here; where one applies, it is
checked behind the reading. -/
theorem numeral_decimal (value : Nat) : numeral? 10 (decimal value).toList = some value := by
  rw [decimal_toList]
  cases digits : Nat.toDigits 10 value with
  | nil => exact absurd digits Nat.toDigits_ne_nil
  | cons first later =>
    rw [numeral?, ← digits]
    · exact positional_toDigits value
    · exact List.cons_ne_nil first later

/-- Distinct numbers have distinct numerals, because a numeral is read back. -/
theorem decimal_injective {left right : Nat} (same : decimal left = decimal right) :
    left = right := by
  have read : numeral? 10 (decimal left).toList = numeral? 10 (decimal right).toList := by rw [same]
  simpa only [numeral_decimal, Option.some.injEq] using read

/-- A decimal numeral starts with a digit and with no sign. In particular it is not empty. -/
theorem decimal_head (value : Nat) :
    ∃ first later, (decimal value).toList = first :: later ∧ first ≠ '+' ∧ first ≠ '-' := by
  rw [decimal_toList]
  cases digits : Nat.toDigits 10 value with
  | nil => exact absurd digits Nat.toDigits_ne_nil
  | cons first later =>
    have isDigit : first.isDigit = true :=
      Nat.isDigit_of_mem_toDigits (by decide) (by decide) (digits ▸ List.mem_cons_self)
    refine ⟨first, later, rfl, ?_, ?_⟩
    · rintro rfl
      exact absurd isDigit (by decide)
    · rintro rfl
      exact absurd isDigit (by decide)

end IntMain.Text

namespace IntMain

/-- Without a sign in front, a numeral is read as it stands. -/
theorem signedNumeral_decimal (value : Nat) :
    signedNumeral? 10 (Text.decimal value).toList = some (Int.ofNat value) := by
  obtain ⟨first, later, digits, notPlus, notMinus⟩ := Text.decimal_head value
  have read : Text.numeral? 10 (first :: later) = some value := digits ▸ Text.numeral_decimal value
  rw [digits, signedNumeral?, read]
  · rfl
  · rintro rest same
    exact notPlus (List.cons.inj same).1
  · rintro rest same
    exact notMinus (List.cons.inj same).1

/-- The text of an integer is read back. A negative one is written with a sign, and any other
without. -/
theorem signedNumeral_integer (value : Int) :
    signedNumeral? 10 (Text.integer value).toList = some value := by
  cases value with
  | ofNat value => exact signedNumeral_decimal value
  | negSucc value =>
    simp only [Text.integer, String.toList_append]
    change (Text.numeral? 10 (Text.decimal (value + 1)).toList).map _ = _
    rw [Text.numeral_decimal]
    rfl

/-- The text of an integer with its sign always written is read back. This is how addresses are
written in the assembly. -/
theorem signedNumeral_signedInteger (value : Int) :
    signedNumeral? 10 (Text.signedInteger value).toList = some value := by
  cases value with
  | ofNat value =>
    simp only [Text.signedInteger, String.toList_append]
    change (Text.numeral? 10 (Text.decimal value).toList).map _ = _
    rw [Text.numeral_decimal]
    rfl
  | negSucc value =>
    simp only [Text.signedInteger, String.toList_append]
    change (Text.numeral? 10 (Text.decimal (value + 1)).toList).map _ = _
    rw [Text.numeral_decimal]
    rfl

end IntMain
