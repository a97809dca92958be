import IntMain.Proofs.Pieces

/-!
# Lexemes scanned again

To find the end of a lexeme the scan looks at what follows it, and often further than one
character: a quote between digits counts only before another digit, an exponent only if digits
come behind its sign, a word may turn out to open a raw string. So it is not plain that a lexeme
is found again when something else follows.

Here it is shown for white space and for the end of the text. `CutShort kept text other` relates
two texts that begin alike, at least with `kept`; then `other` breaks off with white space or
ends. Every part of the scan that takes `kept` off `text` takes it off `other` too.
-/

namespace IntMain

open Text (isBlank isDigit)

/-!
## White space continues nothing
-/

/-- The code points of all white space. -/
def blankCodes : List Nat :=
  [9, 10, 11, 12, 13, 0x20, 0x85, 0xA0, 0x1680, 0x2000, 0x2001, 0x2002, 0x2003, 0x2004, 0x2005,
   0x2006, 0x2007, 0x2008, 0x2009, 0x200A, 0x2028, 0x2029, 0x202F, 0x205F, 0x3000]

/-- There is no other white space. Since there are so few, what has to hold of all white space can
be checked for each of them. -/
theorem toNat_mem_blankCodes {character : Char} (blank : isBlank character = true) :
    character.toNat ∈ blankCodes := by
  simp only [isBlank, Bool.or_eq_true, Bool.and_eq_true, decide_eq_true_eq, beq_iff_eq] at blank
  simp only [blankCodes, List.mem_cons, List.not_mem_nil, or_false]
  omega

/-- What can be checked for every code point holds of all white space. The first premise is decided
by evaluation. -/
theorem blank_fails {test : Char → Bool} {character : Char}
    (fails : ∀ code ∈ blankCodes, test (Char.ofNat code) = false)
    (blank : isBlank character = true) : test character = false := by
  have failsHere := fails _ (toNat_mem_blankCodes blank)
  rwa [Char.ofNat_toNat] at failsHere

/-- A character that is no white space is none of it. -/
theorem beq_blank {letter character : Char} (noBlank : isBlank letter = false)
    (blank : isBlank character = true) : (character == letter) = false := by
  rw [beq_eq_false_iff_ne]
  rintro rfl
  rw [noBlank] at blank
  cases blank

/-- White space continues no word, so a word ends in front of it. -/
theorem continuesWord_blank {character : Char} (blank : isBlank character = true) :
    continuesWord character = false :=
  blank_fails (by decide +kernel) blank

/-- White space is no digit, in any radix. -/
theorem isDigit_blank {character : Char} (radix : Nat) (blank : isBlank character = true) :
    isDigit radix character = false := by
  have outside {first last : Char}
      (none : ∀ code ∈ blankCodes, ¬ (first.toNat ≤ code ∧ code ≤ last.toNat)) :
      ¬ (first ≤ character ∧ character ≤ last) :=
    fun between => none _ (toNat_mem_blankCodes blank) between
  rw [isDigit, Text.digit?, if_neg (outside (by decide)), if_neg (outside (by decide)),
    if_neg (outside (by decide))]
  rfl

/-- Nothing, or text that begins with white space. -/
def Apart (after : List Char) : Prop := after.head?.all isBlank = true

/-- Text that is apart begins with no character of a kind that white space is not. This covers the
end of the text as well. -/
theorem Apart.fails {after : List Char} (apart : Apart after) {test : Char → Bool}
    (blank : ∀ {character : Char}, isBlank character = true → test character = false) :
    after.head?.any test = false := by
  cases after with
  | nil => rfl
  | cons character rest => exact blank apart

/-!
## Texts that are cut short
-/

/-- `other` begins with `kept` like `text`. It may go on like `text` for a while, and then it ends
or goes on with white space. -/
inductive CutShort : List Char → List Char → List Char → Prop
  | apart {text after : List Char} (apart : Apart after) : CutShort [] text after
  | follow {character : Char} {text other : List Char} (later : CutShort [] text other) :
    CutShort [] (character :: text) (character :: other)
  | keep {character : Char} {kept text other : List Char} (later : CutShort kept text other) :
    CutShort (character :: kept) (character :: text) (character :: other)

namespace CutShort

variable {kept text other : List Char}

/-- A beginning that something apart follows is cut short there. Nothing is asked of the text behind
it. -/
theorem of_begins {after : List Char} (begins : kept <+: text) (apart : Apart after) :
    CutShort kept text (kept ++ after) := by
  obtain ⟨rest, rfl⟩ := begins
  induction kept with
  | nil => exact .apart apart
  | cons character kept inductionHypothesis => exact .keep inductionHypothesis

/-- What is kept is a beginning of the other text. -/
theorem begins (cut : CutShort kept text other) : kept <+: other := by
  induction cut with
  | apart _ | follow _ _ => exact List.nil_prefix
  | keep _ inductionHypothesis => exact List.cons_prefix_cons.mpr ⟨rfl, inductionHypothesis⟩

/-- Nothing has to be kept. What is known about the first characters of the two texts remains. -/
theorem nothing (cut : CutShort kept text other) : CutShort [] text other := by
  induction cut with
  | apart apart => exact .apart apart
  | follow _ inductionHypothesis | keep _ inductionHypothesis => exact .follow inductionHypothesis

/-- A part of what is kept is kept as well, if it is in front. With this a lexeme of several parts
can be looked at part by part. -/
theorem front {back : List Char} (cut : CutShort (kept ++ back) text other) :
    CutShort kept text other := by
  induction kept generalizing text other with
  | nil => exact cut.nothing
  | cons character kept inductionHypothesis =>
    cases cut with
    | keep later => exact .keep (inductionHypothesis later)

/-- Behind a part of what is kept, both texts go on in the same relation. -/
theorem drop {first : List Char} (cut : CutShort (first ++ kept) text other) :
    CutShort kept (text.drop first.length) (other.drop first.length) := by
  induction first generalizing text other with
  | nil => exact cut
  | cons character first inductionHypothesis =>
    cases cut with
    | keep later => exact inductionHypothesis later

/-- The other text begins like the first one or with white space. So a character of a kind that
white space is not begins the other text only if one begins the first. -/
theorem fails (cut : CutShort kept text other) {test : Char → Bool}
    (blank : ∀ {character : Char}, isBlank character = true → test character = false)
    (first : text.head?.any test = false) : other.head?.any test = false := by
  cases cut with
  | apart apart => exact apart.fails blank
  | follow _ | keep _ => exact first

/-- Without white space in it, nothing begins the other text that does not begin the first. In this
way no longer operator and no comment can appear. -/
theorem begins_text {spelling : List Char} (cut : CutShort kept text other)
    (noBlank : spelling.any isBlank = false) (begins : spelling <+: other) : spelling <+: text := by
  induction cut generalizing spelling with
  | apart apart =>
    cases spelling with
    | nil => exact List.nil_prefix
    | cons character spelling =>
      obtain ⟨rest, rfl⟩ := begins
      have isBlank : isBlank character = true := apart
      rw [List.any_cons, isBlank] at noBlank
      cases noBlank
  | follow _ inductionHypothesis | keep _ inductionHypothesis =>
    cases spelling with
    | nil => exact List.nil_prefix
    | cons character spelling =>
      obtain ⟨rfl, later⟩ := List.cons_prefix_cons.mp begins
      rw [List.any_cons, Bool.or_eq_false_iff] at noBlank
      exact List.cons_prefix_cons.mpr ⟨rfl, inductionHypothesis noBlank.2 later⟩

end CutShort

/-- A run of characters of a kind that white space is not is found again, and is not longer in the
other text. -/
theorem takeWhile_cutShort {test : Char → Bool} {text other : List Char}
    (blank : ∀ {character : Char}, isBlank character = true → test character = false)
    (cut : CutShort (text.takeWhile test) text other) :
    other.takeWhile test = text.takeWhile test := by
  have apart {after : List Char} (apart : Apart after) : after.takeWhile test = [] := by
    have stops := apart.fails blank
    cases after with
    | nil => rfl
    | cons character rest => exact List.takeWhile_cons_of_neg (Bool.eq_false_iff.mp stops)
  induction text generalizing other with
  | nil =>
    cases cut with
    | apart isApart => exact apart isApart
  | cons character rest inductionHypothesis =>
    rw [List.takeWhile_cons] at cut ⊢
    split at cut
    · rename_i belongs
      cases cut with
      | keep later =>
        rw [if_pos belongs, List.takeWhile_cons_of_pos belongs, inductionHypothesis later]
    · rename_i stops
      rw [if_neg stops]
      cases cut with
      | apart isApart => exact apart isApart
      | follow _ => exact List.takeWhile_cons_of_neg stops

/-!
## Numbers
-/

/-- No digits stand where something apart does. -/
theorem digitRun_apart {radix : Nat} {seen : Bool} {after : List Char} (apart : Apart after) :
    digitRun radix seen after = [] := by
  cases after with
  | nil => rfl
  | cons character rest =>
    have noQuote : (character == '\'') = false := beq_blank (by decide) apart
    simp [digitRun, isDigit_blank radix apart, noQuote]

/-- A digit that begins a run is kept, because it is a part of the run. -/
theorem digitRun_head {radix : Nat} {seen : Bool} {text other : List Char}
    (isFirst : text.head?.any (isDigit radix) = true)
    (cut : CutShort (digitRun radix seen text) text other) :
    other.head?.any (isDigit radix) = true := by
  cases text with
  | nil => cases isFirst
  | cons character rest =>
    have isDigit : Text.isDigit radix character = true := isFirst
    rw [digitRun, if_pos isDigit] at cut
    cases cut with
    | keep _ => exact isDigit

/-- A run of digits is found again. A quote at its end is not taken, whatever follows it, so it does
not matter if a digit did. -/
theorem digitRun_cutShort {radix : Nat} {seen : Bool} {text other : List Char}
    (cut : CutShort (digitRun radix seen text) text other) :
    digitRun radix seen other = digitRun radix seen text := by
  induction text generalizing seen other with
  | nil =>
    cases cut with
    | apart apart => exact digitRun_apart apart
  | cons character rest inductionHypothesis =>
    rw [digitRun] at cut ⊢
    split at cut
    · rename_i isDigit
      cases cut with
      | keep later => rw [digitRun, if_pos isDigit, if_pos isDigit, inductionHypothesis later]
    rename_i noDigit
    split at cut
    · rename_i separates
      rw [if_neg noDigit, if_pos separates]
      cases cut with
      | keep later =>
        rw [Bool.and_eq_true] at separates
        obtain ⟨isQuote, digitBehind⟩ := separates
        -- The digit behind the quote is taken as well, so it stands in the other text.
        rw [digitRun, if_neg noDigit, isQuote, digitRun_head digitBehind later,
          inductionHypothesis later]
        rfl
    · rename_i ends
      rw [if_neg noDigit, if_neg ends]
      cases cut with
      | apart apart => exact digitRun_apart apart
      | follow later =>
        rw [digitRun, if_neg noDigit, if_neg]
        intro separates
        apply ends
        rw [Bool.and_eq_true] at separates ⊢
        refine ⟨separates.1, ?_⟩
        cases digitBehind : rest.head?.any (isDigit radix) with
        | true => rfl
        | false =>
          rw [later.fails (isDigit_blank radix) digitBehind] at separates
          cases separates.2

/-- The mark of a radix is found again, and none appears where there was none. -/
theorem radixMark_cutShort {text other : List Char}
    (cut : CutShort (radixMark text).1 text other) : radixMark other = radixMark text := by
  unfold radixMark at cut
  split at cut
  case h_5 =>
    rename_i noHexadecimal noCapitalHexadecimal noBinary noCapitalBinary
    -- Neither mark begins the other text, since it would begin the first one.
    have marked {letter : Char} {rest : List Char} (isOther : other = '0' :: letter :: rest)
        (noBlank : ['0', letter].any isBlank = false) :
        ∃ behind, text = '0' :: letter :: behind := by
      obtain ⟨behind, isText⟩ := cut.begins_text noBlank ⟨rest, isOther.symm⟩
      exact ⟨behind, isText.symm⟩
    unfold radixMark
    split
    · obtain ⟨behind, isText⟩ := marked rfl (by decide)
      exact absurd isText (noHexadecimal behind)
    · obtain ⟨behind, isText⟩ := marked rfl (by decide)
      exact absurd isText (noCapitalHexadecimal behind)
    · obtain ⟨behind, isText⟩ := marked rfl (by decide)
      exact absurd isText (noBinary behind)
    · obtain ⟨behind, isText⟩ := marked rfl (by decide)
      exact absurd isText (noCapitalBinary behind)
    · rfl
  all_goals
    cases cut with
    | keep later =>
      cases later with
      | keep _ => rfl

/-- A fraction is found again, and none appears where there was none. -/
theorem fraction_cutShort {radix : Nat} {text other : List Char}
    (cut : CutShort (fraction radix text) text other) :
    fraction radix other = fraction radix text := by
  have nothing {characters : List Char} (noPoint : characters.head?.any (· == '.') = false) :
      fraction radix characters = [] := by
    unfold fraction
    split
    · cases noPoint
    · rfl
  by_cases point : text.head?.any (· == '.') = true
  · cases text with
    | nil => cases point
    | cons character rest =>
      obtain rfl : character = '.' := by simpa using point
      rw [fraction] at cut ⊢
      split at cut
      · rename_i isBinary
        subst isBinary
        unfold fraction
        split <;> rfl
      · rename_i notBinary
        cases cut with
        | keep later => rw [fraction, if_neg notBinary, if_neg notBinary, digitRun_cutShort later]
  · have noPoint := Bool.eq_false_iff.mpr point
    rw [nothing noPoint, nothing (cut.fails (beq_blank (by decide)) noPoint)]

/-- White space announces no exponent, in any radix. -/
theorem marksExponent_blank {character : Char} (radix : Nat) (blank : isBlank character = true) :
    marksExponent radix character = false := by
  have noLetter : ['e', 'E', 'p', 'P'].contains character = false :=
    blank_fails (by decide) blank
  simp only [List.contains_eq_mem, List.mem_cons, List.not_mem_nil, or_false,
    decide_eq_false_iff_not, not_or] at noLetter
  simp [marksExponent, noLetter]

/-- The sign of an exponent, if there is one behind its mark. -/
def exponentSign (characters : List Char) : List Char :=
  characters.take 1 |>.filter (fun character => character == '+' || character == '-')

/-- The digits of an exponent behind its mark. -/
def exponentDigits (characters : List Char) : List Char :=
  digitRun 10 false (characters.drop (exponentSign characters).length)

/-- An exponent has a mark, a sign and digits. Without digits there is none, whatever else stands
there. -/
theorem exponent_cons (radix : Nat) (mark : Char) (rest : List Char) :
    exponent radix (mark :: rest) =
      if marksExponent radix mark && !(exponentDigits rest).isEmpty then
        mark :: (exponentSign rest ++ exponentDigits rest)
      else [] := rfl

/-- Sign and digits that are kept stand there again. There have to be digits, for otherwise the sign
is not kept. -/
theorem exponentDigits_cutShort {text other : List Char}
    (cut : CutShort (exponentSign text ++ exponentDigits text) text other)
    (hasDigits : exponentDigits text ≠ []) :
    exponentSign other = exponentSign text ∧ exponentDigits other = exponentDigits text := by
  have sameSign : exponentSign other = exponentSign text := by
    generalize keeps : exponentSign text ++ exponentDigits text = kept at cut
    cases cut with
    | apart _ | follow _ => exact absurd (List.append_eq_nil_iff.mp keeps).2 hasDigits
    | keep _ => rfl
  refine ⟨sameSign, ?_⟩
  rw [exponentDigits, sameSign]
  exact digitRun_cutShort cut.drop

/-- Where no digits stand behind a sign, none appear. The other text may lack the sign as well. -/
theorem exponentDigits_apart {text other : List Char} (cut : CutShort [] text other)
    (noDigits : exponentDigits text = []) : exponentDigits other = [] := by
  cases cut with
  | apart apart =>
    have noSign : exponentSign other = [] := by
      cases other with
      | nil => rfl
      | cons character rest =>
        have noPlus : (character == '+') = false := beq_blank (by decide) apart
        have noMinus : (character == '-') = false := beq_blank (by decide) apart
        simp [exponentSign, noPlus, noMinus]
    rw [exponentDigits, noSign]
    exact digitRun_apart apart
  | @follow character text other later =>
    have sameSign : exponentSign (character :: other) = exponentSign (character :: text) := rfl
    rw [exponentDigits] at noDigits ⊢
    rw [sameSign]
    by_cases isSign : (character == '+' || character == '-') = true
    · have sign : exponentSign (character :: text) = [character] :=
        List.filter_cons_of_pos isSign
      rw [sign] at noDigits ⊢
      have keptDigits : CutShort (digitRun 10 false text) text other := noDigits ▸ later
      exact (digitRun_cutShort keptDigits).trans noDigits
    · have sign : exponentSign (character :: text) = [] := List.filter_cons_of_neg isSign
      rw [sign] at noDigits ⊢
      have keptDigits : CutShort (digitRun 10 false (character :: text)) (character :: text)
          (character :: other) := noDigits ▸ .follow later
      exact (digitRun_cutShort keptDigits).trans noDigits

/-- An exponent is found again. What would be one with digits behind it is none without, in both
texts. -/
theorem exponent_cutShort {radix : Nat} {text other : List Char}
    (cut : CutShort (exponent radix text) text other) :
    exponent radix other = exponent radix text := by
  have nothing {characters : List Char}
      (noMark : characters.head?.any (marksExponent radix) = false) :
      exponent radix characters = [] := by
    cases characters with
    | nil => rfl
    | cons mark rest =>
      have noMark : marksExponent radix mark = false := noMark
      rw [exponent_cons, noMark]
      rfl
  by_cases isMark : text.head?.any (marksExponent radix) = true
  · cases text with
    | nil => cases isMark
    | cons mark rest =>
      have isMark : marksExponent radix mark = true := isMark
      simp only [exponent_cons, isMark, Bool.true_and] at cut ⊢
      by_cases noDigits : exponentDigits rest = []
      · simp only [noDigits, List.isEmpty_nil, Bool.not_true, Bool.false_eq_true, if_false] at cut ⊢
        cases cut with
        | apart apart => exact nothing (apart.fails (marksExponent_blank radix))
        | follow later => simp [exponent_cons, exponentDigits_apart later noDigits]
      · have hasDigits : (!(exponentDigits rest).isEmpty) = true := by simp [noDigits]
        simp only [hasDigits, if_true] at cut ⊢
        cases cut with
        | keep later =>
          obtain ⟨sameSign, sameDigits⟩ := exponentDigits_cutShort later noDigits
          rw [exponent_cons, sameSign, sameDigits, isMark, hasDigits]
          rfl
  · have noMark := Bool.eq_false_iff.mpr isMark
    rw [nothing noMark, nothing (cut.fails (marksExponent_blank radix) noMark)]

/-- A number is found again, with the same kind and the same warning. Its parts are looked at from
the first to the last, each in what is left of the two texts. -/
theorem number_cutShort {text other : List Char} (cut : CutShort (number text).lexeme text other) :
    number other = number text := by
  simp only [number, List.append_assoc] at cut
  have sameMark := radixMark_cutShort cut.front
  have behindMark := cut.drop
  have sameWhole := digitRun_cutShort behindMark.front
  have behindWhole := behindMark.drop
  have sameFraction := fraction_cutShort behindWhole.front
  have behindFraction := behindWhole.drop
  have sameExponent := exponent_cutShort behindFraction.front
  have sameSuffix := takeWhile_cutShort (blank_fails (by decide)) behindFraction.drop
  simp only [number, sameMark, sameWhole, sameFraction, sameExponent, sameSuffix]

/-!
## Raw strings
-/

/-- The first closing is found again in every text that goes as far. What comes behind it does not
matter, so the text need not be apart there. -/
theorem through?_again {closing text body other : List Char} (nonempty : closing ≠ [])
    (found : through? closing text = some body) (begins : body <+: other) :
    through? closing other = some body := by
  induction text generalizing body other with
  | nil => cases found
  | cons character rest inductionHypothesis =>
    rw [through?] at found
    split at found
    · cases found
      cases other with
      | nil => exact absurd (List.prefix_nil.mp begins) nonempty
      | cons first others => rw [through?, if_pos (List.isPrefixOf_iff_prefix.mpr begins)]
    · rename_i notHere
      obtain ⟨later, foundLater, rfl⟩ := Option.map_eq_some_iff.mp found
      obtain ⟨others, rfl⟩ := begins
      obtain ⟨laterBegins, laterEnds, -⟩ := through?_some nonempty foundLater
      have notThere : ¬ closing.isPrefixOf (character :: (later ++ others)) = true := by
        intro here
        -- The closing ends `later`, so what begins here is no longer than that.
        have short : closing.length ≤ (character :: later).length :=
          Nat.le_succ_of_le laterEnds.length_le
        have inside : closing <+: character :: later :=
          List.prefix_of_prefix_length_le (List.isPrefixOf_iff_prefix.mp here)
            (List.prefix_append (character :: later) others) short
        exact notHere (List.isPrefixOf_iff_prefix.mpr
          (inside.trans (List.cons_prefix_cons.mpr ⟨rfl, laterBegins⟩)))
      rw [List.cons_append, through?, if_neg notThere,
        inductionHypothesis foundLater (List.prefix_append _ _)]
      rfl

/-- No delimiter stands where something apart does, and no parenthesis either. -/
theorem rawDelimiter_apart {size : Nat} {after : List Char} (apart : Apart after) :
    rawDelimiter size after = ([], false) := by
  cases after with
  | nil => rfl
  | cons character rest =>
    have blank : isBlank character = true := apart
    have noParenthesis : (character == '(') = false := beq_blank (by decide) blank
    rw [rawDelimiter, if_neg (beq_eq_false_iff_ne.mp noParenthesis), blank]
    rfl

/-- The delimiter of a raw string is found again, also one that no parenthesis follows. If one does,
it is a part of the raw string and has to be kept. -/
theorem rawDelimiter_cutShort {size : Nat} {text other : List Char}
    (cut : CutShort ((rawDelimiter size text).1 ++
      if (rawDelimiter size text).2 then ['('] else []) text other) :
    rawDelimiter size other = rawDelimiter size text := by
  induction text generalizing size other with
  | nil =>
    cases cut with
    | apart apart => exact rawDelimiter_apart apart
  | cons character rest inductionHypothesis =>
    rw [rawDelimiter] at cut ⊢
    split at cut
    · rename_i isParenthesis
      cases cut with
      | keep later => rw [rawDelimiter, if_pos isParenthesis, if_pos isParenthesis]
    rename_i noParenthesis
    rw [if_neg noParenthesis]
    split at cut
    · rename_i belongs
      rw [if_pos belongs]
      cases cut with
      | keep later =>
        rw [rawDelimiter, if_neg noParenthesis, if_pos belongs, inductionHypothesis later]
    · rename_i ends
      rw [if_neg ends]
      cases cut with
      | apart apart => exact rawDelimiter_apart apart
      | follow later => rw [rawDelimiter, if_neg noParenthesis, if_neg ends]

/-- A raw string that is closed, or never rightly opened, is found again. One that is open at the
end of the text is not, since it would go on in a longer text. -/
theorem rawString_cutShort {opening text other : List Char}
    (cut : CutShort (rawString opening text).lexeme text other)
    (closed : (rawString opening text).warning ≠ some .unterminatedRawString) :
    rawString opening other = rawString opening text := by
  cases opened : (rawDelimiter 0 (text.drop opening.length)).2 with
  | false =>
    simp only [rawString, opened, Bool.false_eq_true, if_false] at cut
    have sameDelimiter : rawDelimiter 0 (other.drop opening.length) =
        rawDelimiter 0 (text.drop opening.length) := by
      apply rawDelimiter_cutShort
      rw [opened, if_neg Bool.false_ne_true, List.append_nil]
      exact cut.drop
    simp only [rawString, sameDelimiter, opened, Bool.false_eq_true, if_false]
  | true =>
    cases found : through? (')' :: (rawDelimiter 0 (text.drop opening.length)).1 ++ ['"'])
        ((text.drop opening.length).drop
          ((rawDelimiter 0 (text.drop opening.length)).1.length + 1)) with
    | none =>
      simp only [rawString, opened, if_true, found] at closed
      exact absurd rfl closed
    | some body =>
      simp only [rawString, opened, if_true, found] at cut
      rw [List.append_assoc, List.append_cons] at cut
      have behindOpening := cut.drop
      have sameDelimiter : rawDelimiter 0 (other.drop opening.length) =
          rawDelimiter 0 (text.drop opening.length) := by
        apply rawDelimiter_cutShort
        rw [opened, if_pos rfl]
        exact behindOpening.front
      have bodyBegins := behindOpening.drop.begins
      rw [List.length_append, List.length_singleton] at bodyBegins
      have foundAgain := through?_again (by simp) found bodyBegins
      simp only [rawString, sameDelimiter, opened, if_true, found, foundAgain]

/-!
## Words and operators
-/

/-- The first of some spellings that begins a text, if there is no white space in any of them, is
the first one in the other text too. If none begins the text, none begins the other one. -/
theorem find?_cutShort {Entry : Type} {entries : List Entry} {spelling : Entry → List Char}
    (noBlank : ∀ entry ∈ entries, (spelling entry).any isBlank = false)
    {text other : List Char}
    (cut : CutShort ((entries.find? (fun entry =>
      (spelling entry).isPrefixOf text)).elim [] spelling) text other) :
    entries.find? (fun entry => (spelling entry).isPrefixOf other) =
      entries.find? (fun entry => (spelling entry).isPrefixOf text) := by
  have missing {entry : Entry} (member : entry ∈ entries)
      (noMatch : ¬ (spelling entry).isPrefixOf text = true) :
      ¬ (spelling entry).isPrefixOf other = true := by
    intro isMatch
    apply noMatch
    rw [List.isPrefixOf_iff_prefix] at isMatch ⊢
    exact cut.begins_text (noBlank entry member) isMatch
  cases found : entries.find? (fun entry => (spelling entry).isPrefixOf text) with
  | none =>
    rw [List.find?_eq_none] at found ⊢
    exact fun entry member => missing member (found entry member)
  | some entry =>
    rw [found] at cut
    obtain ⟨-, before, after, split, skipped⟩ := List.find?_eq_some_iff_append.mp found
    rw [List.find?_eq_some_iff_append]
    refine ⟨List.isPrefixOf_iff_prefix.mpr cut.begins, before, after, split, ?_⟩
    intro earlier member
    have noMatch := skipped earlier member
    rw [Bool.not_eq_true'] at noMatch ⊢
    rw [← Bool.not_eq_true] at noMatch ⊢
    exact missing (split ▸ List.mem_append_left _ member) noMatch

/-- An operator is found again, and none appears where there was none. The table is searched in
order, and no spelling in it has white space. -/
theorem operator?_cutShort {text other : List Char}
    (cut : CutShort ((operator? text).elim [] (·.1.toList)) text other) :
    operator? other = operator? text := by
  apply find?_cutShort _ cut
  decide

/-- A mark stands before a quote exactly if both together begin the text. -/
theorem marks_iff {mark : String} {characters : List Char} :
    (mark.toList.isPrefixOf characters && (characters.drop mark.length).head?.any isQuote) = true ↔
      ∃ quote, isQuote quote = true ∧ mark.toList ++ [quote] <+: characters := by
  rw [Bool.and_eq_true, List.isPrefixOf_iff_prefix, Option.any_eq_true]
  constructor
  · rintro ⟨⟨rest, rfl⟩, quote, isNext, isQuote⟩
    rw [← String.length_toList, List.drop_left] at isNext
    obtain ⟨behind, rfl⟩ := List.head?_eq_some_iff.mp isNext
    refine ⟨quote, isQuote, behind, ?_⟩
    rw [List.append_assoc, List.singleton_append]
  · rintro ⟨quote, isQuote, behind, rfl⟩
    rw [List.append_assoc, ← String.length_toList, List.drop_left]
    exact ⟨List.prefix_append _ _, quote, rfl, isQuote⟩

/-- No word becomes a raw string or is taken for an encoding mark, because their spellings would
have to begin the first text. -/
theorem literalStart?_none {kept text other : List Char} (cut : CutShort kept text other)
    (missing : literalStart? text = none) : literalStart? other = none := by
  unfold literalStart? at missing
  split at missing
  · cases missing
  rename_i noOpening
  have sameOpening : rawOpenings.find? (fun opening => opening.toList.isPrefixOf other) = none := by
    rw [← noOpening]
    apply find?_cutShort (by decide)
    rw [noOpening]
    exact cut.nothing
  rw [Option.map_eq_none_iff, List.find?_eq_none] at missing
  simp only [literalStart?, sameOpening, Option.map_eq_none_iff, List.find?_eq_none]
  intro mark member isMark
  obtain ⟨quote, quoted, begins⟩ := marks_iff.mp isMark
  have noBlankMark : ∀ mark ∈ encodingMarks, mark.toList.any isBlank = false := by decide
  have noBlankQuote : isBlank quote = false := by
    simp only [isQuote, Bool.or_eq_true, beq_iff_eq] at quoted
    rcases quoted with rfl | rfl <;> decide
  have beginsText := cut.begins_text (by
    rw [List.any_append, noBlankMark mark member]
    simpa using noBlankQuote) begins
  exact missing mark member (marks_iff.mpr ⟨quote, quoted, beginsText⟩)

/-- A raw string that is closed, or never rightly opened, is found again as the start of a literal.
An encoding mark is excluded: it is one only in front of a quote, which is not kept. -/
theorem literalStart?_rawString {text other : List Char} {piece : Piece}
    (found : literalStart? text = some piece) (noMark : piece.role ≠ .fixed .encodingMark)
    (closed : piece.warning ≠ some .unterminatedRawString)
    (cut : CutShort piece.lexeme text other) : literalStart? other = some piece := by
  unfold literalStart? at found
  split at found
  · rename_i opening opened
    cases found
    have isOpening : opening.toList.isPrefixOf text = true := by
      simpa using List.find?_some opened
    have keepsOpening : CutShort opening.toList text other := by
      obtain ⟨behind, isLexeme⟩ := (rawString_begins (List.isPrefixOf_iff_prefix.mp isOpening)).1
      rw [← isLexeme] at cut
      exact cut.front
    have sameOpening : rawOpenings.find? (fun opening => opening.toList.isPrefixOf other) =
        some opening := by
      rw [← opened]
      apply find?_cutShort (by decide)
      rw [opened]
      exact keepsOpening
    simp only [literalStart?, sameOpening, rawString_cutShort cut closed]
  · obtain ⟨mark, -, rfl⟩ := Option.map_eq_some_iff.mp found
    exact absurd rfl noMark

/-!
## Code
-/

/-- A raw string that is never closed takes the rest of the text. -/
theorem literalStart?_unterminated {text : List Char} {piece : Piece}
    (found : literalStart? text = some piece)
    (unclosed : piece.warning = some .unterminatedRawString) : piece.lexeme = text := by
  unfold literalStart? at found
  split at found
  · cases found
    simp only [rawString] at unclosed ⊢
    split at unclosed
    · split at unclosed
      · cases unclosed
      · rename_i opened _ _
        simp only [opened, if_true]
    · cases unclosed
  · obtain ⟨mark, -, rfl⟩ := Option.map_eq_some_iff.mp found
    cases unclosed

/-- Nothing but a raw string has this warning, so a piece that has it takes the rest of the text. -/
theorem codePiece_unterminated {character : Char} {rest : List Char}
    (unclosed : (codePiece character rest).warning = some .unterminatedRawString) :
    (codePiece character rest).lexeme = character :: rest := by
  have cut : Cut character rest .code (codePiece character rest) := Mode.cut .code character rest
  generalize codePiece character rest = piece at cut unclosed
  cases cut with
  | literal found => exact literalStart?_unterminated found unclosed
  | blockComment opens =>
    unfold blockComment at unclosed
    split at unclosed <;> cases unclosed
  | number noWord isDigit =>
    simp only [number] at unclosed
    split at unclosed <;> cases unclosed
  | _ => cases unclosed

/-- What begins like a word. -/
def wordPiece (characters : List Char) : Piece :=
  (literalStart? characters).getD
    { role := .interned .identifier, lexeme := characters.takeWhile continuesWord }

/-- A word or a raw string is found again. The two premises are those under which a raw string
is. -/
theorem wordPiece_cutShort {text other : List Char}
    (cut : CutShort (wordPiece text).lexeme text other)
    (noMark : (wordPiece text).role ≠ .fixed .encodingMark)
    (closed : (wordPiece text).warning ≠ some .unterminatedRawString) :
    wordPiece other = wordPiece text := by
  unfold wordPiece at cut noMark closed ⊢
  cases found : literalStart? text with
  | none =>
    simp only [found, Option.getD_none] at cut ⊢
    rw [literalStart?_none cut found, Option.getD_none, takeWhile_cutShort continuesWord_blank cut]
  | some piece =>
    simp only [found, Option.getD_some] at cut noMark closed ⊢
    rw [literalStart?_rawString found noMark closed cut, Option.getD_some]

/-- A lexeme outside quoted literals. An encoding mark is none of these, since it needs the quote
behind it. -/
theorem codePiece_cutShort {character : Char} {rest other : List Char}
    (cut : CutShort (codePiece character rest).lexeme (character :: rest) (character :: other))
    (noBlank : (codePiece character rest).role ≠ .blank)
    (noMark : (codePiece character rest).role ≠ .fixed .encodingMark)
    (closed : (codePiece character rest).warning ≠ some .unterminatedRawString) :
    codePiece character other = codePiece character rest := by
  -- No comment begins in the other text, since none begins in the first one.
  have noComment {opening : List Char} (spelled : opening.any isBlank = false)
      (missing : ¬ opening.isPrefixOf (character :: rest) = true) :
      ¬ opening.isPrefixOf (character :: other) = true := by
    rw [List.isPrefixOf_iff_prefix] at missing ⊢
    exact fun begins => missing (cut.begins_text spelled begins)
  by_cases blank : isBlank character = true
  · simp [codePiece, blank] at noBlank
  by_cases line : ['/', '/'].isPrefixOf (character :: rest) = true
  · simp only [codePiece, if_neg blank, if_pos line, ne_eq, not_true] at noBlank
  by_cases block : ['/', '*'].isPrefixOf (character :: rest) = true
  · simp only [codePiece, if_neg blank, if_neg line, if_pos block] at noBlank
    exact absurd (blockComment_role _) noBlank
  have noLine := noComment (by decide) line
  have noBlock := noComment (by decide) block
  simp only [codePiece, if_neg blank, if_neg line, if_neg block, if_neg noLine, if_neg noBlock]
    at cut noMark closed ⊢
  by_cases word : startsWord character = true
  · simp only [if_pos word] at cut noMark closed ⊢
    exact wordPiece_cutShort cut noMark closed
  by_cases digit : isDigit 10 character = true
  · simp only [if_neg word, if_pos digit] at cut ⊢
    exact number_cutShort cut
  by_cases quote : isQuote character = true
  · simp only [if_neg word, if_neg digit, if_pos quote]
  simp only [if_neg word, if_neg digit, if_neg quote] at cut ⊢
  cases punctuation : punctuation? character with
  | some kind => rfl
  | none =>
    simp only [punctuation] at cut
    have sameOperator : operator? (character :: other) = operator? (character :: rest) := by
      apply operator?_cutShort
      cases found : operator? (character :: rest) with
      | none => exact cut.nothing
      | some entry =>
        rw [found] at cut
        exact cut
    rw [sameOperator]

/-- A lexeme outside quoted literals is found again before white space, and at the end of the
text. Three pieces are no such lexemes: blanks are no lexemes at all, an encoding mark needs the
quote behind it, and a raw string that is never closed goes on up to the end. -/
theorem codePiece_again {character : Char} {rest tail after : List Char}
    (isLexeme : (codePiece character rest).lexeme = character :: tail)
    (noBlank : (codePiece character rest).role ≠ .blank)
    (noMark : (codePiece character rest).role ≠ .fixed .encodingMark)
    (apart : Apart after)
    (closed : (codePiece character rest).warning = some .unterminatedRawString → after = []) :
    codePiece character (tail ++ after) = codePiece character rest := by
  by_cases unclosed : (codePiece character rest).warning = some .unterminatedRawString
  · have whole := codePiece_unterminated unclosed
    rw [isLexeme] at whole
    rw [closed unclosed, List.append_nil, (List.cons.inj whole).2]
  · apply codePiece_cutShort _ noBlank noMark unclosed
    have begins : (codePiece character rest).lexeme <+: character :: rest := by
      obtain ⟨later, split, isPrefix⟩ := (Mode.cut .code character rest).begins
      exact split ▸ List.cons_prefix_cons.mpr ⟨rfl, isPrefix⟩
    rw [← List.cons_append, ← isLexeme]
    exact CutShort.of_begins begins apart

end IntMain
