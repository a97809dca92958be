import IntMain.Proofs.Numeral
import IntMain.Proofs.TextLines
import Mathlib.Data.List.Induction
import Mathlib.Data.List.TakeWhile
import Mathlib.Data.Nat.Digits.Defs

/-!
# Spellings of integers

An integer can be written in many ways: in three radices, with letters of either case, with
quotes between the digits and with a suffix. `IntegerSpelling` has all of them and nothing else,
and its value is that of its digits in their places.

Two functions look at such a text, and neither knows the other. The scan finds out where a
literal ends, and `integerValue?` what it is worth. Here it is proved that both know the
spellings: the scan cuts nothing else out of any text as an integer literal, it takes a spelling
that stands alone as a whole, and the value that is found is the value of the spelling, as long as
it fits a word.
-/

namespace IntMain

open Text (isDigit digit? positional? numeral?)

/-!
## Spellings
-/

/-- What announces the radix of an integer: nothing, or a zero and a letter of either case. -/
inductive RadixMark
  | decimal
  | hexadecimal (capital : Bool)
  | binary (capital : Bool)
  deriving DecidableEq, Repr

namespace RadixMark

/-- The radix that is announced. -/
def radix : RadixMark → Nat
  | .decimal => 10
  | .hexadecimal _ => 16
  | .binary _ => 2

/-- How the radix is announced. -/
def characters : RadixMark → List Char
  | .decimal => []
  | .hexadecimal false => ['0', 'x']
  | .hexadecimal true => ['0', 'X']
  | .binary false => ['0', 'b']
  | .binary true => ['0', 'B']

end RadixMark

/-- A digit of a radix. If it is a letter it may be a capital one. -/
structure Digit (radix : Nat) where
  value : Fin radix
  capital : Bool
  deriving DecidableEq, Repr

namespace Digit

variable {radix : Nat}

/-- How a digit is written. -/
def character (digit : Digit radix) : Char :=
  if digit.capital then digit.value.val.digitChar.toUpper else digit.value.val.digitChar

/-- The value of digits in their places, the last of which counts ones. -/
def placeValue (digits : List (Digit radix)) : Nat :=
  Nat.ofDigits radix (digits.map (fun digit => digit.value.val)).reverse

end Digit

/-- Digits in a row. Each but the first may have a quote before it. -/
structure SeparatedDigits (radix : Nat) where
  first : Digit radix
  later : List (Bool × Digit radix)
  deriving DecidableEq, Repr

namespace SeparatedDigits

variable {radix : Nat}

/-- How a digit behind another one is written. -/
def separated : Bool × Digit radix → List Char
  | (true, digit) => ['\'', digit.character]
  | (false, digit) => [digit.character]

/-- How the digits are written. -/
def characters (digits : SeparatedDigits radix) : List Char :=
  digits.first.character :: digits.later.flatMap separated

/-- The digits without what stands between them. -/
def digits (digits : SeparatedDigits radix) : List (Digit radix) :=
  digits.first :: digits.later.map Prod.snd

/-- The value that the digits have in their places. -/
def value (digits : SeparatedDigits radix) : Nat := Digit.placeValue digits.digits

end SeparatedDigits

/-- The letters that may stand behind the digits. They mean nothing. -/
def suffixLetters : List Char := ['u', 'U', 'l', 'L']

/-- An integer as it is written in a program. There may be no digits at all, as behind a radix mark
that nothing follows; such a spelling is scanned as a literal and has no value. -/
structure IntegerSpelling where
  mark : RadixMark
  digits : Option (SeparatedDigits mark.radix)
  suffix : List Char
  isSuffix : ∀ letter ∈ suffix, letter ∈ suffixLetters

namespace IntegerSpelling

/-- The digits as they are written. -/
def digitCharacters (spelling : IntegerSpelling) : List Char :=
  spelling.digits.elim [] SeparatedDigits.characters

/-- The characters of a spelling. -/
def characters (spelling : IntegerSpelling) : List Char :=
  spelling.mark.characters ++ (spelling.digitCharacters ++ spelling.suffix)

/-- The text of a spelling. -/
def text (spelling : IntegerSpelling) : String := String.ofList spelling.characters

example : (⟨.hexadecimal true, some (⟨⟨7, false⟩, [(true, ⟨15, true⟩)]⟩ : SeparatedDigits 16),
    ['u', 'L'], by simp [suffixLetters]⟩ : IntegerSpelling).text = "0X7'FuL" := by
  decide

end IntegerSpelling

/-!
## Digits
-/

/-- No radix is above sixteen. The lemmas about digits need this bound, since the letters beyond `f`
are digits of higher radices. -/
theorem RadixMark.radix_le (mark : RadixMark) : mark.radix ≤ 16 := by
  unfold RadixMark.radix
  split <;> decide

/-- A digit of base sixteen is one of every radix above its value, with the same value. So digits
have to be looked at in one base only. -/
theorem digit?_of_hexadecimal {radix value : Nat} {character : Char}
    (hexadecimal : digit? 16 character = some value) (small : value < radix) :
    digit? radix character = some value := by
  rw [digit?, Option.filter_eq_some_iff] at hexadecimal ⊢
  exact ⟨hexadecimal.1, decide_eq_true small⟩

/-- A digit of a radix is one of base sixteen, with the same value. The bound on the radix is
needed, because letters beyond `f` are no digits in base sixteen. -/
theorem hexadecimal_of_digit? {radix value : Nat} {character : Char} (atMost : radix ≤ 16)
    (found : digit? radix character = some value) :
    digit? 16 character = some value ∧ value < radix := by
  rw [digit?, Option.filter_eq_some_iff] at found ⊢
  have small : value < radix := of_decide_eq_true found.2
  exact ⟨⟨found.1, decide_eq_true (by omega)⟩, small⟩

/-- A digit is read back with its value, whether it is written as a small letter or as a capital
one. -/
theorem Digit.digit?_character {radix : Nat} (atMost : radix ≤ 16) (digit : Digit radix) :
    digit? radix digit.character = some digit.value.val := by
  have cases : ∀ (value : Fin 16) (capital : Bool),
      digit? 16 (⟨value, capital⟩ : Digit 16).character = some value.val := by decide
  have small := digit.value.isLt
  exact digit?_of_hexadecimal (cases ⟨digit.value.val, by omega⟩ digit.capital) small

/-- What is written for a digit is a digit of the radix. -/
theorem Digit.isDigit_character {radix : Nat} (atMost : radix ≤ 16) (digit : Digit radix) :
    isDigit radix digit.character = true := by
  rw [isDigit, digit.digit?_character atMost, Option.isSome_some]

/-- Digits are ASCII characters, in every radix. Only finitely many characters are left to be looked
at. -/
theorem ascii_of_digit? {radix value : Nat} {character : Char}
    (found : digit? radix character = some value) : character.toNat < 128 := by
  rw [digit?, Option.filter_eq_some_iff] at found
  obtain ⟨isValue, -⟩ := found
  have atMost {last : Char} (ascii : last.toNat < 128) (bound : character ≤ last) :
      character.toNat < 128 := by
    have below : character.toNat ≤ last.toNat := bound
    omega
  split at isValue
  · rename_i between
    exact atMost (by decide) between.2
  split at isValue
  · rename_i between
    exact atMost (by decide) between.2
  split at isValue
  · rename_i between
    exact atMost (by decide) between.2
  · cases isValue

/-- Every digit that the scan knows can be written, so nothing else is taken for one. -/
theorem exists_digit {radix : Nat} {character : Char} (atMost : radix ≤ 16)
    (isDigit : isDigit radix character = true) :
    ∃ digit : Digit radix, digit.character = character := by
  -- All digits are among the first 128 characters, and these can be tried one by one.
  have cases : ∀ code : Fin 128, (digit? 16 (Char.ofNat code.val)).all (fun value =>
      value.digitChar == Char.ofNat code.val ||
        value.digitChar.toUpper == Char.ofNat code.val) = true := by decide
  obtain ⟨value, found⟩ := Option.isSome_iff_exists.mp isDigit
  obtain ⟨hexadecimal, small⟩ := hexadecimal_of_digit? atMost found
  have written := cases ⟨character.toNat, ascii_of_digit? found⟩
  simp only [Char.ofNat_toNat, hexadecimal, Option.all_some, Bool.or_eq_true,
    beq_iff_eq] at written
  rcases written with isSmall | isCapital
  · exact ⟨⟨⟨value, small⟩, false⟩, isSmall⟩
  · exact ⟨⟨⟨value, small⟩, true⟩, isCapital⟩

/-- What is no digit in base sixteen is none in any radix that occurs. -/
theorem isDigit_eq_false {radix : Nat} {character : Char} (atMost : radix ≤ 16)
    (noDigit : isDigit 16 character = false) : isDigit radix character = false := by
  rw [isDigit, Option.isSome_eq_false_iff, Option.isNone_iff_eq_none] at noDigit ⊢
  by_contra found
  obtain ⟨value, isValue⟩ := Option.ne_none_iff_exists'.mp found
  rw [(hexadecimal_of_digit? atMost isValue).1] at noDigit
  cases noDigit

/-- A digit is not written like a character that is no digit in base sixteen. Quotes, points and the
letters of suffixes are such characters. -/
theorem Digit.character_ne {radix : Nat} (atMost : radix ≤ 16) (digit : Digit radix)
    {other : Char} (noDigit : isDigit 16 other = false) : digit.character ≠ other := by
  intro same
  have isOther := isDigit_eq_false atMost noDigit
  rw [← same, digit.isDigit_character atMost] at isOther
  cases isOther

/-!
## Runs of digits
-/

section

variable {radix : Nat} (atMost : radix ≤ 16)

include atMost

/-- Behind a digit, the scan reads what is written, up to something that is neither a digit nor a
quote. -/
theorem digitRun_separated (later : List (Bool × Digit radix)) {rest : List Char}
    (noDigit : rest.head?.any (isDigit radix) = false) (noQuote : rest.head? ≠ some '\'') :
    digitRun radix true (later.flatMap SeparatedDigits.separated ++ rest) =
      later.flatMap SeparatedDigits.separated := by
  have isDigit (digit : Digit radix) := digit.isDigit_character atMost
  have quote : Text.isDigit radix '\'' = false := isDigit_eq_false atMost (by decide)
  induction later with
  | nil =>
    cases rest with
    | nil => rfl
    | cons character rest =>
      have other : character ≠ '\'' := fun same => noQuote (congrArg some same)
      rw [List.head?_cons, Option.any_some] at noDigit
      simp [digitRun, noDigit, other]
  | cons one later inductionHypothesis =>
    obtain ⟨isSeparated, digit⟩ := one
    cases isSeparated with
    | false => simp [SeparatedDigits.separated, digitRun, isDigit, inductionHypothesis]
    | true => simp [SeparatedDigits.separated, digitRun, isDigit, quote, inductionHypothesis]

/-- The scan reads digits as they are written, up to what follows. This must be neither a digit nor
a quote, for otherwise the scan would read on. -/
theorem digitRun_characters (digits : SeparatedDigits radix) {rest : List Char}
    (noDigit : rest.head?.any (isDigit radix) = false) (noQuote : rest.head? ≠ some '\'') :
    digitRun radix false (digits.characters ++ rest) = digits.characters := by
  rw [SeparatedDigits.characters, List.cons_append, digitRun,
    if_pos (digits.first.isDigit_character atMost),
    digitRun_separated atMost digits.later noDigit noQuote]

/-- Behind a digit, the scan reads digits, each of them behind a quote or not. A quote that no digit
follows is left out. -/
theorem exists_separated (characters : List Char) :
    ∃ later : List (Bool × Digit radix),
      digitRun radix true characters = later.flatMap SeparatedDigits.separated := by
  induction characters with
  | nil => exact ⟨[], rfl⟩
  | cons character rest inductionHypothesis =>
    obtain ⟨later, isLater⟩ := inductionHypothesis
    rw [digitRun]
    split
    · rename_i isDigit
      obtain ⟨digit, rfl⟩ := exists_digit atMost isDigit
      exact ⟨(false, digit) :: later, by rw [isLater]; rfl⟩
    split
    · rename_i isQuote
      simp only [Bool.and_eq_true, beq_iff_eq, Option.any_eq_true] at isQuote
      obtain ⟨⟨rfl, -⟩, next, isNext, isDigit⟩ := isQuote
      obtain ⟨digit, rfl⟩ := exists_digit atMost isDigit
      obtain ⟨others, rfl⟩ := List.head?_eq_some_iff.mp isNext
      rw [digitRun, if_pos isDigit] at isLater ⊢
      -- The digit behind the quote is the first of what is read there.
      cases later with
      | nil => cases isLater
      | cons one later =>
        obtain ⟨isSeparated, first⟩ := one
        cases isSeparated with
        | true =>
          exact absurd (List.cons.inj isLater).1 (digit.character_ne atMost (by decide))
        | false =>
          exact ⟨(true, first) :: later, by rw [isLater]; rfl⟩
    · exact ⟨[], rfl⟩

/-- What the scan reads as digits is nothing, or digits as they are written. It never starts with a
quote. -/
theorem digitRun_cases (characters : List Char) :
    digitRun radix false characters = [] ∨
      ∃ digits : SeparatedDigits radix, digitRun radix false characters = digits.characters := by
  cases characters with
  | nil => exact .inl rfl
  | cons character rest =>
    by_cases isDigit : isDigit radix character = true
    · obtain ⟨first, rfl⟩ := exists_digit atMost isDigit
      obtain ⟨later, isLater⟩ := exists_separated atMost rest
      refine .inr ⟨⟨first, later⟩, ?_⟩
      rw [digitRun, if_pos isDigit, isLater, SeparatedDigits.characters]
    · left
      simp [digitRun, isDigit]

end

/-!
## What the scan takes
-/

/-- A radix is announced by one of the marks, and without a mark it is ten. There is nothing in
between, whatever the characters are. -/
theorem radixMark_cases (characters : List Char) :
    ∃ mark : RadixMark, radixMark characters = (mark.characters, mark.radix) := by
  unfold radixMark
  split
  · exact ⟨.hexadecimal false, rfl⟩
  · exact ⟨.hexadecimal true, rfl⟩
  · exact ⟨.binary false, rfl⟩
  · exact ⟨.binary true, rfl⟩
  · exact ⟨.decimal, rfl⟩

/-- What the scan takes for an integer literal is a spelling. A number with a point, an exponent or
a letter of a floating-point suffix is no integer literal, so these parts are empty. -/
theorem number_spelling {characters : List Char}
    (isInteger : (number characters).role = .interned .intLiteral) :
    ∃ spelling : IntegerSpelling, spelling.characters = (number characters).lexeme := by
  obtain ⟨mark, isMark⟩ := radixMark_cases characters
  simp only [number, isMark] at isInteger ⊢
  -- An integer literal has neither a fraction nor an exponent, so the suffix follows the digits.
  have ofDigits := digitRun_cases mark.radix_le (characters.drop mark.characters.length)
  generalize digitRun mark.radix false (characters.drop mark.characters.length) = whole
    at isInteger ofDigits ⊢
  generalize (characters.drop mark.characters.length).drop whole.length = rest at isInteger ⊢
  simp only [Role.interned.injEq, ite_eq_right_iff, reduceCtorEq, imp_false, Bool.not_eq_true,
    Bool.or_eq_false_iff, Bool.not_eq_false', List.isEmpty_iff] at isInteger
  obtain ⟨⟨noFraction, noExponent⟩, noFloat⟩ := isInteger
  rw [noExponent, noFraction] at noFloat ⊢
  have isSuffix : ∀ letter ∈ rest.takeWhile isSuffix, letter ∈ suffixLetters := by
    intro letter member
    have mayEnd : IntMain.isSuffix letter = true :=
      List.all_eq_true.mp List.all_takeWhile letter member
    have noF := List.any_eq_false.mp noFloat letter member
    simp only [IntMain.isSuffix, suffixLetters, List.contains_iff_mem, List.mem_cons,
      List.not_mem_nil, or_false, not_or] at mayEnd noF ⊢
    tauto
  rcases ofDigits with rfl | ⟨digits, rfl⟩
  · refine ⟨⟨mark, none, _, isSuffix⟩, ?_⟩
    simp [IntegerSpelling.characters, IntegerSpelling.digitCharacters]
  · refine ⟨⟨mark, some digits, _, isSuffix⟩, ?_⟩
    simp [IntegerSpelling.characters, IntegerSpelling.digitCharacters]

/-- Written digits are digits of the radix and quotes, and nothing else. -/
theorem SeparatedDigits.mem_characters {radix : Nat} (atMost : radix ≤ 16)
    (digits : SeparatedDigits radix) {character : Char} (member : character ∈ digits.characters) :
    isDigit radix character = true ∨ character = '\'' := by
  rcases List.mem_cons.mp member with rfl | inLater
  · exact .inl (digits.first.isDigit_character atMost)
  · obtain ⟨⟨isSeparated, digit⟩, -, written⟩ := List.mem_flatMap.mp inLater
    cases isSeparated with
    | false =>
      rw [separated, List.mem_singleton] at written
      exact .inl (written ▸ digit.isDigit_character atMost)
    | true =>
      simp only [separated, List.mem_cons, List.not_mem_nil, or_false] at written
      rcases written with isQuote | rfl
      · exact .inr isQuote
      · exact .inl (digit.isDigit_character atMost)

/-- The letters that announce a radix. -/
def radixLetters : List Char := ['x', 'X', 'b', 'B']

/-- A mark is a zero and one of four letters, or nothing. -/
theorem RadixMark.characters_subset (mark : RadixMark) :
    mark.characters ⊆ '0' :: radixLetters := by
  unfold RadixMark.characters
  split <;> decide

/-- No decimal digit announces a radix. In base sixteen `b` would be a digit as well, which is why
the mark has to be the empty one. -/
theorem not_mem_radixLetters {mark : RadixMark} {character : Char} (isDecimal : mark = .decimal)
    (isDigit : isDigit mark.radix character = true) : character ∉ radixLetters := by
  intro isLetter
  rw [isDecimal, RadixMark.radix] at isDigit
  simp only [radixLetters, List.mem_cons, List.not_mem_nil, or_false] at isLetter
  rcases isLetter with rfl | rfl | rfl | rfl
  all_goals exact absurd isDigit (by decide)

/-- The scan knows the radix of what is written. Without a mark the rest must not have a letter that
announces a radix; with one the rest may be anything. -/
theorem radixMark_marked (mark : RadixMark) {rest : List Char}
    (noLetter : mark = .decimal → ∀ character ∈ rest, character ∉ radixLetters) :
    radixMark (mark.characters ++ rest) = (mark.characters, mark.radix) := by
  cases mark with
  | hexadecimal capital => cases capital <;> rfl
  | binary capital => cases capital <;> rfl
  | decimal =>
    rw [RadixMark.characters, List.nil_append]
    unfold radixMark
    split
    case h_5 => rfl
    all_goals
      exact absurd (by decide) (noLetter rfl _ (List.mem_cons_of_mem _ List.mem_cons_self))

/-- The radix is known as well when the value is found. The value is read from the text of the
literal by another function than the scan's, and both find the same mark. -/
theorem literalDigits_marked (mark : RadixMark) {digits : List Char}
    (noLetter : mark = .decimal → ∀ character ∈ digits, character ∉ radixLetters) :
    literalDigits (mark.characters ++ digits) = (digits, mark.radix) := by
  cases mark with
  | hexadecimal capital => cases capital <;> rfl
  | binary capital => cases capital <;> rfl
  | decimal =>
    rw [RadixMark.characters, List.nil_append]
    unfold literalDigits
    split
    case h_5 => rfl
    all_goals
      exact absurd (by decide) (noLetter rfl _ (List.mem_cons_of_mem _ List.mem_cons_self))

/-- A letter that is part of a number only as its suffix. -/
structure OnlySuffix (letter : Char) : Prop where
  noDigit : isDigit 16 letter = false
  noQuote : letter ≠ '\''
  noMark : letter ∉ '0' :: radixLetters
  noPoint : letter ≠ '.'
  noExponent : letter ∉ ['e', 'E', 'p', 'P']
  isSuffix : isSuffix letter = true
  noFloat : ['f', 'F'].contains letter = false

/-- The letters of a suffix are no part of a number besides: they are no digits in any radix,
announce nothing and start no exponent. -/
theorem onlySuffix_of_mem {letter : Char} (member : letter ∈ suffixLetters) :
    OnlySuffix letter := by
  simp only [suffixLetters, List.mem_cons, List.not_mem_nil, or_false] at member
  rcases member with rfl | rfl | rfl | rfl
  all_goals constructor <;> decide

namespace IntegerSpelling

variable (spelling : IntegerSpelling)

/-- The letters of a spelling's suffix are letters of suffixes, by its own well-formedness. -/
theorem onlySuffix {letter : Char} (member : letter ∈ spelling.suffix) : OnlySuffix letter :=
  onlySuffix_of_mem (spelling.isSuffix letter member)

/-- Between the mark and the suffix stand digits and quotes, or nothing if there are no digits. -/
theorem mem_digitCharacters {character : Char} (member : character ∈ spelling.digitCharacters) :
    isDigit spelling.mark.radix character = true ∨ character = '\'' := by
  rw [digitCharacters] at member
  cases isDigits : spelling.digits with
  | none =>
    rw [isDigits] at member
    cases member
  | some digits =>
    rw [isDigits] at member
    exact digits.mem_characters spelling.mark.radix_le member

/-- Behind the digits stands neither a digit nor a quote, so the scan stops where the suffix
starts. -/
theorem head?_suffix : spelling.suffix.head?.any (isDigit spelling.mark.radix) = false ∧
    spelling.suffix.head? ≠ some '\'' := by
  cases first : spelling.suffix.head? with
  | none => exact ⟨rfl, by simp⟩
  | some character =>
    have only := spelling.onlySuffix (List.mem_of_mem_head? first)
    refine ⟨isDigit_eq_false spelling.mark.radix_le only.noDigit, ?_⟩
    exact fun isQuote => only.noQuote (Option.some.inj isQuote)

/-- The scan knows the radix of a spelling. A spelling without a mark has decimal digits, a suffix
and quotes only, none of which announces a radix. -/
theorem radixMark_characters :
    radixMark spelling.characters = (spelling.mark.characters, spelling.mark.radix) := by
  apply radixMark_marked
  intro isDecimal character member isLetter
  rcases List.mem_append.mp member with inDigits | inSuffix
  · rcases spelling.mem_digitCharacters inDigits with isDigit | rfl
    · exact not_mem_radixLetters isDecimal isDigit isLetter
    · exact absurd isLetter (by decide)
  · exact (spelling.onlySuffix inSuffix).noMark (List.mem_cons_of_mem _ isLetter)

/-- The scan knows the digits of a spelling and takes all of them. -/
theorem digitRun_digits :
    digitRun spelling.mark.radix false (spelling.digitCharacters ++ spelling.suffix) =
      spelling.digitCharacters := by
  obtain ⟨noDigit, noQuote⟩ := spelling.head?_suffix
  rw [digitCharacters]
  cases spelling.digits with
  | some digits => exact digitRun_characters spelling.mark.radix_le digits noDigit noQuote
  | none =>
    rw [Option.elim_none, List.nil_append]
    cases isRest : spelling.suffix with
    | nil => rfl
    | cons character rest =>
      rw [isRest, List.head?_cons, Option.any_some] at noDigit
      simp [digitRun, noDigit]

/-- A suffix has neither a point nor an exponent, and the scan takes the whole of it for a suffix.
None of its letters makes the number a floating-point one. -/
theorem suffix_scanned :
    fraction spelling.mark.radix spelling.suffix = [] ∧
      exponent spelling.mark.radix spelling.suffix = [] ∧
      spelling.suffix.takeWhile IntMain.isSuffix = spelling.suffix ∧
      spelling.suffix.any (['f', 'F'].contains ·) = false := by
  have scanned : spelling.suffix.takeWhile IntMain.isSuffix = spelling.suffix :=
    List.takeWhile_eq_self_iff.mpr (fun letter member => (spelling.onlySuffix member).isSuffix)
  have noFloat : spelling.suffix.any (['f', 'F'].contains ·) = false :=
    List.any_eq_false.mpr (fun letter member =>
      Bool.eq_false_iff.mp (spelling.onlySuffix member).noFloat)
  refine ⟨?_, ?_, scanned, noFloat⟩
  · cases isRest : spelling.suffix with
    | nil => rfl
    | cons letter rest =>
      have only := spelling.onlySuffix (isRest ▸ List.mem_cons_self)
      simp [fraction, only.noPoint]
  · cases isRest : spelling.suffix with
    | nil => rfl
    | cons letter rest =>
      have noExponent := (spelling.onlySuffix (isRest ▸ List.mem_cons_self)).noExponent
      simp only [List.mem_cons, List.not_mem_nil, or_false, not_or] at noExponent
      simp [exponent, marksExponent, noExponent]

/-- The scan takes a spelling as a whole, and takes it for an integer literal. What follows the
spelling in a text is not considered here. -/
theorem number_characters :
    (number spelling.characters).role = .interned .intLiteral ∧
      (number spelling.characters).lexeme = spelling.characters := by
  obtain ⟨noFraction, noExponent, whole, noFloat⟩ := spelling.suffix_scanned
  have behindMark : spelling.characters.drop spelling.mark.characters.length =
      spelling.digitCharacters ++ spelling.suffix := List.drop_left
  simp only [number, spelling.radixMark_characters, behindMark, spelling.digitRun_digits,
    List.drop_left, noFraction, noExponent, List.length_nil, List.drop_zero, whole, noFloat]
  simp [characters]

end IntegerSpelling

/-!
## The value
-/

/-- One more digit moves the others by a place, so the value is multiplied by the radix. -/
theorem Digit.placeValue_concat {radix : Nat} (digits : List (Digit radix)) (last : Digit radix) :
    placeValue (digits ++ [last]) = placeValue digits * radix + last.value.val := by
  rw [placeValue, placeValue, List.map_append, List.reverse_append, List.map_singleton,
    List.reverse_singleton, List.singleton_append, Nat.ofDigits_cons, Nat.add_comm, Nat.mul_comm]

/-- Written digits are read as the value that they have in their places. The reader goes from the
first digit to the last and the value is defined from the last one on. -/
theorem positional?_characters {radix : Nat} (atMost : radix ≤ 16) (digits : List (Digit radix)) :
    positional? radix (digits.map Digit.character) = some (Digit.placeValue digits) := by
  -- From the right, since reading goes on behind the last digit.
  induction digits using List.reverseRecOn with
  | nil => rfl
  | append_singleton digits last inductionHypothesis =>
    rw [positional?] at inductionHypothesis ⊢
    rw [List.map_append, List.foldlM_append, inductionHypothesis, Digit.placeValue_concat]
    simp [last.digit?_character atMost]

/-- Without the quotes, only the digits remain, because no digit is written as a quote. -/
theorem SeparatedDigits.filter_characters {radix : Nat} (atMost : radix ≤ 16)
    (digits : SeparatedDigits radix) :
    digits.characters.filter (· != '\'') = digits.digits.map Digit.character := by
  have kept (digit : Digit radix) : (digit.character != '\'') = true := by
    rw [bne_iff_ne]
    exact digit.character_ne atMost (by decide)
  have laterKept (later : List (Bool × Digit radix)) :
      (later.flatMap separated).filter (· != '\'') = (later.map Prod.snd).map Digit.character := by
    induction later with
    | nil => rfl
    | cons one later inductionHypothesis =>
      obtain ⟨isSeparated, digit⟩ := one
      rw [List.flatMap_cons, List.filter_append, inductionHypothesis]
      cases isSeparated <;> simp [separated, kept]
  simp [characters, SeparatedDigits.digits, kept, laterKept]

/-- A suffix is dropped if no letter of it stands right before it. The premise on the body is
stronger than needed, but it holds of every mark and of all digits. -/
theorem withoutSuffix_append {body suffix : List Char}
    (isSuffix : ∀ letter ∈ suffix, letter ∈ suffixLetters)
    (noSuffix : ∀ character ∈ body, character ∉ suffixLetters) :
    withoutSuffix (body ++ suffix) = body := by
  have dropped : ∀ letter ∈ suffix.reverse, ['u', 'U', 'l', 'L'].contains letter = true :=
    fun letter member => List.contains_iff_mem.mpr (isSuffix letter (List.mem_reverse.mp member))
  rw [withoutSuffix, List.reverse_append, List.dropWhile_append_of_pos dropped]
  cases isLast : body.reverse with
  | nil => rw [List.dropWhile_nil, ← isLast, List.reverse_reverse]
  | cons last others =>
    have kept : ¬ ['u', 'U', 'l', 'L'].contains last = true := by
      rw [List.contains_iff_mem]
      exact noSuffix last (List.mem_reverse.mp (isLast ▸ List.mem_cons_self))
    rw [List.dropWhile_cons_of_neg kept, ← isLast, List.reverse_reverse]

/-- Digits have no sign, so they are read as a natural number or not at all. -/
theorem signedNumeral?_digits {radix : Nat} (atMost : radix ≤ 16) (digits : List (Digit radix)) :
    signedNumeral? radix (digits.map Digit.character) =
      (numeral? radix (digits.map Digit.character)).map Int.ofNat := by
  have noSign {sign : Char} {rest : List Char} (noDigit : isDigit 16 sign = false) :
      digits.map Digit.character ≠ sign :: rest := by
    intro same
    obtain ⟨digit, others, -, isSign, -⟩ := List.map_eq_cons_iff.mp same
    exact digit.character_ne atMost noDigit isSign
  unfold signedNumeral?
  split
  · exact absurd ‹_› (noSign (by decide))
  · exact absurd ‹_› (noSign (by decide))
  · rfl

/-- Natural numbers fit a word up to its greatest, which is the greatest with 63 binary digits. -/
theorem fitsWord_ofNat (value : Nat) :
    fitsWord (Int.ofNat value) = true ↔ value ≤ 9223372036854775807 := by
  simp only [fitsWord, Bool.and_eq_true, decide_eq_true_eq, Int.ofNat_eq_natCast]
  omega

namespace IntegerSpelling

variable (spelling : IntegerSpelling)

/-- The digits without quotes. -/
def plainDigits : List (Digit spelling.mark.radix) :=
  spelling.digits.elim [] SeparatedDigits.digits

/-- Without quotes, a spelling has its mark, its digits and its suffix. Neither the mark nor the
suffix has a quote. -/
theorem filter_characters : spelling.characters.filter (· != '\'') =
    spelling.mark.characters ++ spelling.plainDigits.map Digit.character ++ spelling.suffix := by
  have ofMark : spelling.mark.characters.filter (· != '\'') = spelling.mark.characters := by
    rw [List.filter_eq_self]
    intro character member
    rw [bne_iff_ne]
    rintro rfl
    exact absurd (spelling.mark.characters_subset member) (by decide)
  have ofDigits : spelling.digitCharacters.filter (· != '\'') =
      spelling.plainDigits.map Digit.character := by
    rw [digitCharacters, plainDigits]
    cases spelling.digits with
    | none => rfl
    | some digits => exact digits.filter_characters spelling.mark.radix_le
  have ofSuffix : spelling.suffix.filter (· != '\'') = spelling.suffix := by
    rw [List.filter_eq_self]
    intro character member
    rw [bne_iff_ne]
    exact (spelling.onlySuffix member).noQuote
  rw [characters, List.filter_append, List.filter_append, ofMark, ofDigits, ofSuffix,
    List.append_assoc]

/-- The letters of a suffix are neither in the mark nor among the digits, so dropping them at the
end takes the suffix and nothing more. -/
theorem body_noSuffix : ∀ character ∈
    spelling.mark.characters ++ spelling.plainDigits.map Digit.character,
    character ∉ suffixLetters := by
  intro character member isLetter
  have only := onlySuffix_of_mem isLetter
  rcases List.mem_append.mp member with inMark | inDigits
  · exact only.noMark (spelling.mark.characters_subset inMark)
  · obtain ⟨digit, -, isDigit⟩ := List.mem_map.mp inDigits
    exact digit.character_ne spelling.mark.radix_le only.noDigit isDigit

/-- The value is looked for in the digits, in the radix of the mark. -/
theorem literalDigits_body :
    literalDigits (spelling.mark.characters ++ spelling.plainDigits.map Digit.character) =
      (spelling.plainDigits.map Digit.character, spelling.mark.radix) := by
  apply literalDigits_marked
  intro isDecimal character member
  obtain ⟨digit, -, rfl⟩ := List.mem_map.mp member
  exact not_mem_radixLetters isDecimal (digit.isDigit_character spelling.mark.radix_le)

/-- A spelling is worth what its digits are worth, if there are any and this fits a word. The
quotes, the suffix and the case of letters have no part in it. -/
theorem integerValue?_text : integerValue? spelling.text =
    (spelling.digits.map (fun digits => Int.ofNat digits.value)).filter fitsWord := by
  have atMost := spelling.mark.radix_le
  rw [integerValue?, text, String.toList_ofList, filter_characters,
    withoutSuffix_append spelling.isSuffix spelling.body_noSuffix]
  simp only [literalDigits_body, signedNumeral?_digits atMost]
  rw [plainDigits]
  cases spelling.digits with
  | none => rfl
  | some digits =>
    have isValue : numeral? spelling.mark.radix (digits.digits.map Digit.character) =
        some digits.value := positional?_characters atMost digits.digits
    rw [Option.elim_some, isValue]
    rfl

end IntegerSpelling

/-!
## Integer literals in a text
-/

/-- Something that is true of lexemes and their kinds: of the fixed spellings, and of every piece
that is cut out of a text. -/
structure Upheld (allowed : String → TokenKind → Prop) : Prop where
  spelling : ∀ entry ∈ fixedSpellings, allowed entry.1 entry.2
  interned : ∀ {character : Char} {rest : List Char} {mode : Mode} {piece : Piece}
    {kind : TokenKind}, Cut character rest mode piece → piece.role = .interned kind →
      allowed (String.ofList piece.lexeme) kind
  fixed : ∀ {character : Char} {rest : List Char} {mode : Mode} {piece : Piece}
    {kind : TokenKind}, Cut character rest mode piece → piece.role = .fixed kind →
      allowed (String.ofList piece.lexeme) kind

namespace Upheld

variable {allowed : String → TokenKind → Prop}

/-- What is upheld is true of the tokens of a scan, from any mode and position on. The lexicon may
have learned something before, if it is true of that as well. -/
theorem scanned (upheld : Upheld allowed) (mode : Mode) (position : Position)
    (characters : List Char) (lexicon : Lexicon)
    (learned : ∀ entry ∈ lexicon.learned, allowed entry.1 entry.2) :
    ∀ token ∈ (lexicon.tokens (Scan.from mode position characters).stretches).1,
      allowed token.lexeme token.kind := by
  induction mode, position, characters using Scan.from.induct generalizing lexicon with
  | case1 position | case2 position =>
    rw [Scan.from]
    exact List.forall_mem_nil _
  | case3 mode position character rest piece inductionHypothesis =>
    have cut := mode.cut character rest
    rw [Scan.from]
    simp only [Lexicon.tokens]
    cases role : (mode.piece character rest).role with
    | blank => exact inductionHypothesis lexicon learned
    | fixed kind =>
      exact List.forall_mem_cons.mpr ⟨upheld.fixed cut role, inductionHypothesis lexicon learned⟩
    | interned kind =>
      obtain ⟨isAllowed, stillLearned⟩ :=
        Lexicon.classify_keeps upheld.spelling learned (upheld.interned cut role)
      exact List.forall_mem_cons.mpr ⟨isAllowed, inductionHypothesis _ stillLearned⟩

/-- What is upheld is true of the tokens of a text but for the one that ends it, which has no
lexeme. -/
theorem ofText (upheld : Upheld allowed) (text : String) {token : Token}
    (member : token ∈ (Lexed.ofText text).tokens) :
    token.kind = .endOfInput ∨ allowed token.lexeme token.kind := by
  rcases List.mem_append.mp member with inText | isEnd
  · exact .inr (upheld.scanned .code Position.start text.toList Lexicon.seeded
      (List.forall_mem_nil _) token inText)
  · rw [List.mem_singleton.mp isEnd]
    exact .inl rfl

end Upheld

/-- A piece whose kind is discovered is a word or a number, or its kind is one that neither of them
has. The mode does not matter: what stands between quotes is fixed or closes the literal. -/
theorem Cut.interned_cases {character : Char} {rest : List Char} {mode : Mode} {piece : Piece}
    {kind : TokenKind} (cut : Cut character rest mode piece)
    (interned : piece.role = .interned kind) :
    (kind = .identifier ∧ piece.lexeme = (character :: rest).takeWhile continuesWord) ∨
      (isDigit 10 character = true ∧ piece = IntMain.number (character :: rest)) ∨
      kind ∉ [.identifier, .intLiteral, .floatLiteral] := by
  have noQuote (quote : Char) :
      quoteKind quote ∉ [TokenKind.identifier, .intLiteral, .floatLiteral] := by
    rw [quoteKind]
    split <;> decide
  cases cut with
  | word starts =>
    cases interned
    exact .inl ⟨rfl, rfl⟩
  | number noWord isDigit => exact .inr (.inl ⟨isDigit, rfl⟩)
  | openQuote noWord isQuote =>
    cases interned
    exact .inr (.inr (noQuote _))
  | closeQuote =>
    cases interned
    exact .inr (.inr (noQuote _))
  | punctuation noWord found =>
    have others : ∀ entry ∈ IntMain.punctuation,
        entry.2 ∉ [TokenKind.identifier, .intLiteral, .floatLiteral] := by decide
    cases interned
    exact .inr (.inr (others _ (mem_of_lookup found)))
  | operator noWord found =>
    have others : ∀ entry ∈ operators,
        entry.2 ∉ [TokenKind.identifier, .intLiteral, .floatLiteral] := by decide
    cases interned
    exact .inr (.inr (others _ (List.mem_of_find?_eq_some found)))
  | unknown noWord missing =>
    cases interned
    exact .inr (.inr (by decide))
  | literal found =>
    obtain ⟨fixed, member, role⟩ := literalStart?_role found
    rw [role] at interned
    cases interned
  | escape backslash =>
    rw [escape_role] at interned
    cases interned
  | blockComment opens =>
    rw [blockComment_role] at interned
    cases interned
  | blanks | lineComment | text => cases interned

/-- A piece that is taken for an integer literal is a spelling, because only numbers are taken for
one. -/
theorem Cut.integer {character : Char} {rest : List Char} {mode : Mode} {piece : Piece}
    (cut : Cut character rest mode piece) (isInteger : piece.role = .interned .intLiteral) :
    ∃ spelling : IntegerSpelling, spelling.characters = piece.lexeme := by
  rcases cut.interned_cases isInteger with ⟨impossible, -⟩ | ⟨isDigit, rfl⟩ | other
  · cases impossible
  · exact number_spelling isInteger
  · exact absurd other (by decide)

/-- The integer literals of a text are spellings. No fixed spelling has the kind of integer
literals, so all of them come from the scan. -/
theorem Upheld.integers : Upheld (fun lexeme kind => kind = .intLiteral →
    ∃ spelling : IntegerSpelling, spelling.text = lexeme) where
  spelling := by
    have others : ∀ entry ∈ fixedSpellings, entry.2 ≠ .intLiteral := by decide
    intro entry member isInteger
    exact absurd isInteger (others entry member)
  interned := by
    rintro character rest mode piece kind cut role rfl
    obtain ⟨spelling, isLexeme⟩ := cut.integer role
    exact ⟨spelling, congrArg String.ofList isLexeme⟩
  fixed := by
    rintro character rest mode piece kind cut role rfl
    exact absurd (cut.fixed_kind role) (by decide)

/-!
## An integer literal alone
-/

/-- Where a decimal digit stands, a number is read. No word, no comment and no quote starts with a
digit. -/
theorem codePiece_digit {character : Char} (isDigit : isDigit 10 character = true)
    (rest : List Char) : codePiece character rest = number (character :: rest) := by
  have others : ∀ (value : Fin 10) (capital : Bool),
      Text.isBlank (⟨value, capital⟩ : Digit 10).character = false ∧
        startsWord (⟨value, capital⟩ : Digit 10).character = false := by decide
  obtain ⟨⟨value, capital⟩, rfl⟩ := exists_digit (by decide) isDigit
  obtain ⟨noBlank, noWord⟩ := others value capital
  have noSlash : (⟨value, capital⟩ : Digit 10).character ≠ '/' :=
    Digit.character_ne (by decide) _ (by decide)
  simp [codePiece, noBlank, noWord, isDigit, noSlash.symm]

/-- A lexeme that begins with a digit is not a fixed spelling, so the lexicon takes the kind that
the scan has discovered. -/
theorem fixedSpellings_digit {lexeme : String} {first : Char} {rest : List Char}
    (begins : lexeme.toList = first :: rest) (isDigit : isDigit 10 first = true) :
    fixedSpellings.lookup lexeme = none := by
  have noDigits : ∀ entry ∈ fixedSpellings, entry.1.toList.head?.any (Text.isDigit 10) = false := by
    decide
  rw [List.lookup_eq_none_iff]
  intro entry member
  rw [bne_iff_ne]
  rintro rfl
  have noDigit := noDigits entry member
  rw [begins, List.head?_cons, Option.any_some, isDigit] at noDigit
  cases noDigit

namespace IntegerSpelling

variable {spelling : IntegerSpelling}

/-- A spelling with digits begins with a decimal digit: the zero of its mark, or its first digit if
it has none. Without digits a decimal spelling might begin with a suffix. -/
theorem exists_first (hasDigits : spelling.digits.isSome = true) :
    ∃ first rest, spelling.characters = first :: rest ∧ isDigit 10 first = true := by
  obtain ⟨digits, isDigits⟩ := Option.isSome_iff_exists.mp hasDigits
  have isDigit := digits.first.isDigit_character spelling.mark.radix_le
  have written : ∃ rest, spelling.digitCharacters = digits.first.character :: rest := by
    rw [digitCharacters, isDigits]
    exact ⟨_, rfl⟩
  generalize digits.first.character = first at isDigit written
  obtain ⟨rest, written⟩ := written
  rw [characters, written]
  cases isMark : spelling.mark with
  | decimal =>
    rw [isMark] at isDigit
    exact ⟨first, _, rfl, isDigit⟩
  | hexadecimal capital => cases capital <;> exact ⟨'0', _, rfl, by decide⟩
  | binary capital => cases capital <;> exact ⟨'0', _, rfl, by decide⟩

/-- A spelling stands on one line, since no digit, mark or suffix has a line feed. -/
theorem oneLine : '\n' ∉ spelling.characters := by
  intro member
  rcases List.mem_append.mp member with inMark | inRest
  · exact absurd (spelling.mark.characters_subset inMark) (by decide)
  rcases List.mem_append.mp inRest with inDigits | inSuffix
  · rcases spelling.mem_digitCharacters inDigits with isDigit | isQuote
    · rw [isDigit_eq_false spelling.mark.radix_le (by decide)] at isDigit
      cases isDigit
    · exact absurd isQuote (by decide)
  · exact absurd (spelling.isSuffix _ inSuffix) (by decide)

/-- A spelling that stands alone is one piece, at the start of the text. -/
theorem stretches_text (hasDigits : spelling.digits.isSome = true) :
    (Scan.ofText spelling.text).stretches = [⟨Position.start, number spelling.characters⟩] := by
  obtain ⟨first, rest, isFirst, isDigit⟩ := exists_first hasDigits
  have noQuote : isQuote first = false := by
    rw [Bool.eq_false_iff]
    intro isQuote
    simp only [IntMain.isQuote, Bool.or_eq_true, beq_iff_eq] at isQuote
    rcases isQuote with rfl | rfl
    · exact absurd isDigit (by decide)
    · exact absurd isDigit (by decide)
  have whole := spelling.number_characters.2
  rw [isFirst] at whole
  have atEnd (position : Position) : Scan.from .code position [] = ⟨[], none⟩ := by rw [Scan.from]
  rw [Scan.ofText, text, String.toList_ofList, isFirst, Scan.from]
  simp only [Mode.piece, Mode.next, codePiece_digit isDigit, whole, noQuote, List.length_cons,
    Nat.add_sub_cancel, List.drop_length, Bool.false_eq_true, if_false, atEnd]

/-- A spelling that stands alone is one token, with the spelling as its lexeme. Behind it only the
end of the input comes. -/
theorem tokens_text (hasDigits : spelling.digits.isSome = true) :
    (Lexed.ofText spelling.text).tokens =
      [⟨spelling.text, Position.start, .intLiteral⟩, Token.endAt ⟨2, 1⟩] := by
  obtain ⟨first, rest, isFirst, isDigit⟩ := exists_first hasDigits
  have begins : spelling.text.toList = first :: rest := by
    rw [text, String.toList_ofList, isFirst]
  have lines : (Text.lines spelling.text).length = 1 := by
    rw [Text.lines, List.length_map, text, String.toList_ofList]
    exact linesFrom_length oneLine (by simp [isFirst])
  obtain ⟨role, whole⟩ := spelling.number_characters
  have new : Lexicon.seeded.get? spelling.text = none := by
    rw [Lexicon.get?, fixedSpellings_digit begins isDigit]
    rfl
  have isText : String.ofList (number spelling.characters).lexeme = spelling.text := by
    rw [whole, text]
  simp only [Lexed.ofText, stretches_text hasDigits, Lexicon.tokens, role, isText,
    Lexicon.classify, new, lines, List.cons_append, List.nil_append]

end IntegerSpelling

/-- **Integer literals mean what they say.**

The integer literals of every text are spellings: an optional mark of the radix, digits of that
radix with at most one quote between two of them, and a suffix. A spelling has a value exactly
when it has digits and their positional value fits a signed word of 64 bits, and then this is the
value. Every spelling that has digits is, alone in a text, one integer literal and nothing
else. -/
theorem integer_literals_mean_their_digits :
    (∀ text : String, ∀ token ∈ (Lexed.ofText text).tokens, token.kind = .intLiteral →
      ∃ spelling : IntegerSpelling, spelling.text = token.lexeme) ∧
    (∀ (spelling : IntegerSpelling) (value : Int), integerValue? spelling.text = some value ↔
      ∃ digits, spelling.digits = some digits ∧ value = Int.ofNat digits.value ∧
        digits.value ≤ 9223372036854775807) ∧
    ∀ spelling : IntegerSpelling, spelling.digits.isSome = true →
      (Lexed.ofText spelling.text).tokens =
        [⟨spelling.text, Position.start, .intLiteral⟩, Token.endAt ⟨2, 1⟩] := by
  refine ⟨?_, ?_, fun spelling => IntegerSpelling.tokens_text⟩
  · intro text token member isInteger
    rcases Upheld.integers.ofText text member with isEnd | spelled
    · rw [isEnd] at isInteger
      cases isInteger
    · exact spelled isInteger
  · intro spelling value
    rw [spelling.integerValue?_text, Option.filter_eq_some_iff, Option.map_eq_some_iff]
    constructor
    · rintro ⟨⟨digits, isDigits, rfl⟩, fits⟩
      exact ⟨digits, isDigits, rfl, (fitsWord_ofNat _).mp fits⟩
    · rintro ⟨digits, isDigits, rfl, small⟩
      exact ⟨⟨digits, isDigits, rfl⟩, (fitsWord_ofNat _).mpr small⟩

end IntMain
