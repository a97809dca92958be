import IntMain.Text.Decimal

/-!
# Values of integer literals

The integer an integer literal denotes. Single quotes between digits and a suffix
of `u` and `l` in either case mean nothing; `0x` and `0b` announce base sixteen and
two. A value has to fit a signed word of 64 bits.
-/

namespace IntMain

/-- Whether an integer fits a signed word of 64 bits. -/
def fitsWord (value : Int) : Bool :=
  decide (-9223372036854775808 ≤ value) && decide (value < 9223372036854775808)

/-- The integer of a numeral that may have a sign. -/
def signedNumeral? (radix : Nat) : List Char → Option Int
  | '+' :: digits => (Text.numeral? radix digits).map Int.ofNat
  | '-' :: digits => (Text.numeral? radix digits).map (fun value => -Int.ofNat value)
  | digits => (Text.numeral? radix digits).map Int.ofNat

/-- Drop the suffix of an integer literal. -/
def withoutSuffix (characters : List Char) : List Char :=
  (characters.reverse.dropWhile (['u', 'U', 'l', 'L'].contains ·)).reverse

/-- The digits of an integer literal and their radix. -/
def literalDigits : List Char → List Char × Nat
  | '0' :: 'x' :: digits => (digits, 16)
  | '0' :: 'X' :: digits => (digits, 16)
  | '0' :: 'b' :: digits => (digits, 2)
  | '0' :: 'B' :: digits => (digits, 2)
  | digits => (digits, 10)

/-- The value of an integer literal, if it has one that fits a word. -/
def integerValue? (lexeme : String) : Option Int :=
  let body := withoutSuffix (lexeme.toList.filter (· != '\''))
  let (digits, radix) := literalDigits body
  (signedNumeral? radix digits).filter fitsWord

end IntMain
