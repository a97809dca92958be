/-!
# Numerals

Natural numbers and integers as decimal text, and digits of a radix read back as
the number they denote. Only the ASCII digits and letters are digits.
-/

namespace IntMain.Text

/-- The decimal numeral of a natural number, without leading zeros. -/
def decimal (value : Nat) : String :=
  String.ofList (Nat.toDigits 10 value)

/-- The decimal numeral of an integer; a negative one starts with a minus sign. -/
def integer : Int → String
  | .ofNat value => decimal value
  | .negSucc value => "-" ++ decimal (value + 1)

/-- The numeral of an integer with its sign always written, a plus sign for zero. -/
def signedInteger : Int → String
  | .ofNat value => "+" ++ decimal value
  | .negSucc value => "-" ++ decimal (value + 1)

/-- The value of a digit in `radix`, a letter of either case standing for ten and
up. A character that is no digit of that radix has none. -/
def digit? (radix : Nat) (character : Char) : Option Nat :=
  let value :=
    if '0' ≤ character ∧ character ≤ '9' then some (character.toNat - '0'.toNat)
    else if 'a' ≤ character ∧ character ≤ 'z' then some (character.toNat - 'a'.toNat + 10)
    else if 'A' ≤ character ∧ character ≤ 'Z' then some (character.toNat - 'A'.toNat + 10)
    else none
  value.filter (· < radix)

/-- Whether a character is a digit of `radix`. -/
def isDigit (radix : Nat) (character : Char) : Bool :=
  (digit? radix character).isSome

/-- The positional value of a run of digits, or nothing when a character is not a
digit of `radix`. The empty run has value zero. -/
def positional? (radix : Nat) (digits : List Char) : Option Nat :=
  digits.foldlM (fun total character =>
    (digit? radix character).map (fun value => total * radix + value)) 0

/-- The value of a numeral, which has at least one digit. -/
def numeral? (radix : Nat) : List Char → Option Nat
  | [] => none
  | digits => positional? radix digits

end IntMain.Text
