import IntMain.Token.Piece

/-!
# What a piece of text is

Every piece that is taken off a text is a beginning of it, so no character is lost, invented
or moved. A piece without a token is white space or one comment, and says so by itself: where
a comment ends can be seen in the text and does not need the scan. A piece whose kind the
lexicon decides is one of seven, and each of them knows its first character.
-/

namespace IntMain

open Text (isBlank isDigit)

/-!
## Beginnings
-/

/-- A beginning, and a beginning of what follows it, make a longer beginning. The lexemes that have
several parts are put together with this. -/
theorem append_begins {front back characters : List Char} (first : front <+: characters)
    (second : back <+: characters.drop front.length) : front ++ back <+: characters := by
  obtain ⟨rest, rfl⟩ := first
  rw [List.drop_left] at second
  exact (List.prefix_append_right_inj front).mpr second

/-- What stands up to a closing is a beginning that ends with it, and it does not occur
earlier. -/
theorem through?_some {closing characters body : List Char} (nonempty : closing ≠ [])
    (found : through? closing characters = some body) :
    body <+: characters ∧ closing <:+ body ∧ ¬ closing <:+: body.dropLast := by
  induction characters generalizing body with
  | nil => cases found
  | cons character rest inductionHypothesis =>
    rw [through?] at found
    split at found
    · rename_i here
      cases found
      refine ⟨List.isPrefixOf_iff_prefix.mp here, List.suffix_refl _, ?_⟩
      intro earlier
      have shorter := earlier.length_le
      have positive := List.length_pos_iff.mpr nonempty
      rw [List.length_dropLast] at shorter
      omega
    · rename_i notHere
      obtain ⟨later, foundLater, rfl⟩ := Option.map_eq_some_iff.mp found
      obtain ⟨begins, ends, first⟩ := inductionHypothesis foundLater
      have laterNonempty : later ≠ [] := by
        rintro rfl
        exact nonempty (List.suffix_nil.mp ends)
      refine ⟨List.cons_prefix_cons.mpr ⟨rfl, begins⟩, ends.trans (List.suffix_cons _ _), ?_⟩
      rw [List.dropLast_cons_of_ne_nil laterNonempty, List.infix_cons_iff]
      rintro (atOnce | earlier)
      · have shortened : later.dropLast <+: later := List.dropLast_prefix _
        have whole : character :: later.dropLast <+: character :: rest :=
          List.cons_prefix_cons.mpr ⟨rfl, shortened.trans begins⟩
        exact notHere (List.isPrefixOf_iff_prefix.mpr (atOnce.trans whole))
      · exact first earlier

/-- A closing that is not found does not occur. An empty closing is never found in an empty text, so
it has to be excluded. -/
theorem through?_none {closing characters : List Char} (nonempty : closing ≠ [])
    (missing : through? closing characters = none) : ¬ closing <:+: characters := by
  induction characters with
  | nil => exact fun occurs => nonempty (List.infix_nil.mp occurs)
  | cons character rest inductionHypothesis =>
    rw [through?] at missing
    split at missing
    · cases missing
    · rename_i notHere
      rw [List.infix_cons_iff]
      rintro (atOnce | later)
      · exact notHere (List.isPrefixOf_iff_prefix.mpr atOnce)
      · exact inductionHypothesis (Option.map_eq_none_iff.mp missing) later

/-- A run of digits is a beginning, in any radix and whether or not a digit has been seen before. -/
theorem digitRun_begins (radix : Nat) (seen : Bool) (characters : List Char) :
    digitRun radix seen characters <+: characters := by
  induction characters generalizing seen with
  | nil => exact List.nil_prefix
  | cons character rest inductionHypothesis =>
    rw [digitRun]
    split
    · exact List.cons_prefix_cons.mpr ⟨rfl, inductionHypothesis true⟩
    · split
      · exact List.cons_prefix_cons.mpr ⟨rfl, inductionHypothesis true⟩
      · exact List.nil_prefix

/-- The mark of a radix is a beginning. If there is none it is the empty one. -/
theorem radixMark_begins (characters : List Char) : (radixMark characters).1 <+: characters := by
  unfold radixMark
  split <;> simp

/-- A fraction is a beginning. It may be missing, and then it is empty. -/
theorem fraction_begins (radix : Nat) (characters : List Char) :
    fraction radix characters <+: characters := by
  unfold fraction
  split
  · split
    · exact List.nil_prefix
    · exact List.cons_prefix_cons.mpr ⟨rfl, digitRun_begins _ _ _⟩
  · exact List.nil_prefix

/-- An exponent is a beginning. It may be missing, and then it is empty. -/
theorem exponent_begins (radix : Nat) (characters : List Char) :
    exponent radix characters <+: characters := by
  cases characters with
  | nil => exact List.nil_prefix
  | cons mark rest =>
    have sign : (rest.take 1).filter (fun character => character == '+' || character == '-') <+:
        rest := by
      cases rest with
      | nil => exact List.nil_prefix
      | cons first others =>
        rw [List.take_succ_cons, List.take_zero, List.filter_cons]
        split <;> simp
    simp only [exponent]
    split
    · rw [List.cons_append]
      exact List.cons_prefix_cons.mpr ⟨rfl, append_begins sign (digitRun_begins _ _ _)⟩
    · exact List.nil_prefix

/-- A number is a beginning: its mark, its digits, its fraction, its exponent and its suffix stand
in a row. Whether it begins with a digit is not asked here. -/
theorem number_begins (characters : List Char) : (number characters).lexeme <+: characters := by
  simp only [number, List.append_assoc]
  refine append_begins (radixMark_begins characters) ?_
  refine append_begins (digitRun_begins _ _ _) ?_
  refine append_begins (fraction_begins _ _) ?_
  refine append_begins (exponent_begins _ _) ?_
  exact List.takeWhile_prefix _

/-- The delimiter of a raw string is a beginning, together with its parenthesis if it has
one. -/
theorem rawDelimiter_begins (size : Nat) (characters : List Char) :
    (rawDelimiter size characters).1 ++ (if (rawDelimiter size characters).2 then ['('] else []) <+:
      characters := by
  induction characters generalizing size with
  | nil => exact List.nil_prefix
  | cons character rest inductionHypothesis =>
    rw [rawDelimiter]
    split
    · rename_i isParenthesis
      simp [isParenthesis]
    · split
      · exact List.cons_prefix_cons.mpr ⟨rfl, inductionHypothesis _⟩
      · exact List.nil_prefix

/-- A raw string is a beginning, and its opening is one of it. This includes raw strings that are
not closed or have a malformed delimiter. -/
theorem rawString_begins {opening characters : List Char} (begins : opening <+: characters) :
    opening <+: (rawString opening characters).lexeme ∧
      (rawString opening characters).lexeme <+: characters := by
  have delimiter := rawDelimiter_begins 0 (characters.drop opening.length)
  simp only [rawString]
  split
  · rename_i opened
    rw [opened, if_pos rfl] at delimiter
    split
    · rename_i body found
      have bodyBegins : body <+: (characters.drop opening.length).drop
          ((rawDelimiter 0 (characters.drop opening.length)).1 ++ ['(']).length := by
        rw [List.length_append]
        exact (through?_some (List.cons_ne_nil _ _) found).1
      have whole := append_begins begins (append_begins delimiter bodyBegins)
      simp only [List.append_assoc, List.singleton_append] at whole ⊢
      exact ⟨List.prefix_append _ _, whole⟩
    · exact ⟨begins, List.prefix_refl _⟩
  · exact ⟨List.prefix_append _ _,
      append_begins begins ((List.prefix_append _ _).trans delimiter)⟩

/-- A raw string or an encoding mark is a beginning, and none of them is empty. -/
theorem literalStart?_begins {characters : List Char} {piece : Piece}
    (found : literalStart? characters = some piece) :
    piece.lexeme ≠ [] ∧ piece.lexeme <+: characters := by
  have openings : ∀ opening ∈ rawOpenings, opening.toList ≠ [] := by decide
  have marks : ∀ mark ∈ encodingMarks, mark.toList ≠ [] := by decide
  unfold literalStart? at found
  split at found
  · rename_i opening opened
    cases found
    have isOpening : opening.toList.isPrefixOf characters = true := by
      simpa using List.find?_some opened
    obtain ⟨front, whole⟩ := rawString_begins (List.isPrefixOf_iff_prefix.mp isOpening)
    refine ⟨?_, whole⟩
    intro empty
    rw [empty] at front
    exact openings opening (List.mem_of_find?_eq_some opened) (List.prefix_nil.mp front)
  · obtain ⟨mark, marked, rfl⟩ := Option.map_eq_some_iff.mp found
    have isMark := List.find?_some marked
    simp only [Bool.and_eq_true, List.isPrefixOf_iff_prefix] at isMark
    exact ⟨marks mark (List.mem_of_find?_eq_some marked), isMark.1⟩

/-- The digits of an escape sequence, of which no more than a number are taken, are a beginning. -/
theorem limited_begins (limit : Nat) (test : Char → Bool) (characters : List Char) :
    (characters.take limit).takeWhile test <+: characters := by
  have taken : characters.take limit <+: characters := List.take_prefix _ _
  have tested : (characters.take limit).takeWhile test <+: characters.take limit :=
    List.takeWhile_prefix _
  exact tested.trans taken

/-- An escape sequence starts with its backslash, and what follows is a beginning. At the end of the
text the backslash stands alone. -/
theorem escape_begins (rest : List Char) :
    ∃ tail, (escape rest).lexeme = '\\' :: tail ∧ tail <+: rest := by
  cases rest with
  | nil => exact ⟨[], rfl, List.nil_prefix⟩
  | cons character rest =>
    simp only [escape]
    split
    · exact ⟨_, rfl, by simp⟩
    · split
      · exact ⟨_, rfl, limited_begins _ _ _⟩
      · split
        · exact ⟨_, rfl, List.cons_prefix_cons.mpr ⟨rfl, List.takeWhile_prefix _⟩⟩
        · split
          · exact ⟨_, rfl, List.cons_prefix_cons.mpr ⟨rfl, limited_begins _ _ _⟩⟩
          · exact ⟨_, rfl, by simp⟩

/-- A piece that is a beginning and not empty starts with the first character, so the scan moves on
by at least this character. -/
theorem cons_begins {character : Char} {rest lexeme : List Char} (nonempty : lexeme ≠ [])
    (begins : lexeme <+: character :: rest) :
    ∃ tail, lexeme = character :: tail ∧ tail <+: rest := by
  rcases List.prefix_cons_iff.mp begins with empty | split
  · exact absurd empty nonempty
  · exact split

/-- A comment is a beginning and is not empty. If it is not closed, it takes the rest of the
text. -/
theorem blockComment_begins {characters : List Char} (opens : ['/', '*'] <+: characters) :
    (blockComment characters).lexeme ≠ [] ∧ (blockComment characters).lexeme <+: characters := by
  unfold blockComment
  split
  · rename_i body found
    have bodyBegins := (through?_some (List.cons_ne_nil _ _) found).1
    exact ⟨List.cons_ne_nil _ _, append_begins opens bodyBegins⟩
  · refine ⟨?_, List.prefix_refl _⟩
    rintro rfl
    exact absurd opens (by decide)

/-- A number is not empty where a digit stands, also if what it starts with is a mark. -/
theorem number_nonempty {character : Char} {rest : List Char}
    (isDigit : isDigit 10 character = true) : (number (character :: rest)).lexeme ≠ [] := by
  by_cases marked : (radixMark (character :: rest)).1 = []
  · have decimal : (radixMark (character :: rest)).2 = 10 := by
      unfold radixMark at marked ⊢
      split at marked
      case h_5 => rfl
      all_goals cases marked
    simp [number, marked, decimal, digitRun, isDigit]
  · simp [number, marked]

/-- An operator is a beginning, and it is not empty. This holds of every spelling in the table. -/
theorem operator?_begins {characters : List Char} {spelling : String} {kind : TokenKind}
    (found : operator? characters = some (spelling, kind)) :
    spelling.toList ≠ [] ∧ spelling.toList <+: characters := by
  have nonempty : ∀ entry ∈ operators, entry.1.toList ≠ [] := by decide
  have matching := List.find?_some found
  exact ⟨nonempty _ (List.mem_of_find?_eq_some found), List.isPrefixOf_iff_prefix.mp matching⟩

/-!
## The pieces of a text
-/

/-- What the next piece of a text may be, by its first character and what follows. The cases
overlap: the order in which the scan tries them is left out, because it does not matter to what is
proved of pieces in general. -/
inductive Cut (character : Char) (rest : List Char) : Mode → Piece → Prop
  /-- White space. -/
  | blanks (isBlank : isBlank character = true) :
    Cut character rest .code
      { role := .blank, lexeme := (character :: rest).takeWhile Text.isBlank }
  /-- A comment up to the end of its line. -/
  | lineComment (opens : ['/', '/'] <+: character :: rest) :
    Cut character rest .code
      { role := .blank, lexeme := (character :: rest).takeWhile (· != '\n') }
  /-- A comment up to its closing. -/
  | blockComment (opens : ['/', '*'] <+: character :: rest) :
    Cut character rest .code (blockComment (character :: rest))
  /-- A raw string or an encoding mark. -/
  | literal {piece : Piece} (found : literalStart? (character :: rest) = some piece) :
    Cut character rest .code piece
  /-- An identifier or a keyword. -/
  | word (starts : startsWord character = true) :
    Cut character rest .code
      { role := .interned .identifier, lexeme := (character :: rest).takeWhile continuesWord }
  /-- A number. -/
  | number (noWord : startsWord character = false) (isDigit : isDigit 10 character = true) :
    Cut character rest .code (number (character :: rest))
  /-- A quote that opens a literal. -/
  | openQuote (noWord : startsWord character = false) (isQuote : isQuote character = true) :
    Cut character rest .code { role := .interned (quoteKind character), lexeme := [character] }
  /-- A character that is a token by itself. -/
  | punctuation {kind : TokenKind} (noWord : startsWord character = false)
      (found : punctuation? character = some kind) :
    Cut character rest .code { role := .interned kind, lexeme := [character] }
  /-- An operator. -/
  | operator {spelling : String} {kind : TokenKind} (noWord : startsWord character = false)
      (found : operator? (character :: rest) = some (spelling, kind)) :
    Cut character rest .code { role := .interned kind, lexeme := spelling.toList }
  /-- A character that starts nothing. -/
  | unknown (noWord : startsWord character = false)
      (missing : operator? (character :: rest) = none) :
    Cut character rest .code
      { role := .interned .unknown
        lexeme := [character]
        warning := some (.unknownCharacter character) }
  /-- The quote that closes a literal. -/
  | closeQuote {opened : Position} :
    Cut character rest (.quoted character opened)
      { role := .interned (quoteKind character), lexeme := [character] }
  /-- An escape sequence. -/
  | escape {quote : Char} {opened : Position} (backslash : character = '\\') :
    Cut character rest (.quoted quote opened) (escape rest)
  /-- Text of a literal. -/
  | text {quote : Char} {opened : Position} (noQuote : character ≠ quote)
      (noBackslash : character ≠ '\\') :
    Cut character rest (.quoted quote opened)
      { role := .fixed .literalText
        lexeme := (character :: rest).takeWhile (fun next => next != quote && next != '\\') }

/-- The next piece of a text is one of these, in each mode. All that follows about pieces goes along
these cases and does not open the scan again. -/
theorem Mode.cut (mode : Mode) (character : Char) (rest : List Char) :
    Cut character rest mode (mode.piece character rest) := by
  cases mode with
  | quoted quote opened =>
    simp only [Mode.piece, quotedPiece]
    split
    · rename_i isQuote
      subst isQuote
      exact .closeQuote
    · rename_i noQuote
      split
      · rename_i backslash
        exact .escape backslash
      · rename_i noBackslash
        exact .text noQuote noBackslash
  | code =>
    simp only [Mode.piece, codePiece]
    split
    · exact .blanks ‹_›
    split
    · exact .lineComment (List.isPrefixOf_iff_prefix.mp ‹_›)
    split
    · exact .blockComment (List.isPrefixOf_iff_prefix.mp ‹_›)
    split
    · rename_i starts
      cases found : literalStart? (character :: rest) with
      | some piece => exact .literal found
      | none => exact .word starts
    rename_i noWord
    have noWord : startsWord character = false := Bool.eq_false_iff.mpr noWord
    split
    · exact .number noWord ‹_›
    split
    · exact .openQuote noWord ‹_›
    split
    · exact .punctuation noWord ‹_›
    · exact .operator noWord ‹_›
    · exact .unknown noWord ‹_›

/-- What may start a word may continue one, so a word is as long as such characters reach. -/
theorem continuesWord_of_starts {character : Char} (starts : startsWord character = true) :
    continuesWord character = true := by
  simp only [startsWord, continuesWord, Text.isLetterOrNumber, Bool.or_eq_true] at starts ⊢
  rcases starts with (letter | underscore) | dollar
  · exact .inl (.inl (.inl letter))
  · exact .inl (.inr underscore)
  · exact .inr dollar

/-- Every piece starts with the first character of its text, and what follows in it is a
beginning of the rest. -/
theorem Cut.begins {character : Char} {rest : List Char} {mode : Mode} {piece : Piece}
    (cut : Cut character rest mode piece) :
    ∃ tail, piece.lexeme = character :: tail ∧ tail <+: rest := by
  cases cut with
  | blanks isBlank =>
    exact ⟨_, List.takeWhile_cons_of_pos isBlank, List.takeWhile_prefix _⟩
  | lineComment opens =>
    obtain ⟨rfl, -⟩ := List.cons_prefix_cons.mp opens
    exact ⟨_, rfl, List.takeWhile_prefix _⟩
  | blockComment opens =>
    obtain ⟨nonempty, begins⟩ := blockComment_begins opens
    exact cons_begins nonempty begins
  | literal found =>
    obtain ⟨nonempty, begins⟩ := literalStart?_begins found
    exact cons_begins nonempty begins
  | word starts =>
    exact ⟨_, List.takeWhile_cons_of_pos (continuesWord_of_starts starts),
      List.takeWhile_prefix _⟩
  | number noWord isDigit => exact cons_begins (number_nonempty isDigit) (number_begins _)
  | operator noWord found =>
    obtain ⟨nonempty, begins⟩ := operator?_begins found
    exact cons_begins nonempty begins
  | escape backslash =>
    subst backslash
    exact escape_begins rest
  | @text quote opened noQuote noBackslash =>
    refine ⟨rest.takeWhile (fun next => next != quote && next != '\\'), ?_,
      List.takeWhile_prefix _⟩
    simp [noQuote, noBackslash]
  | openQuote | punctuation | unknown | closeQuote => exact ⟨[], rfl, List.nil_prefix⟩

/-- A text is its next piece and the rest. The rest is counted from behind the first character, as
the scan counts it. -/
theorem Cut.append_drop {character : Char} {rest : List Char} {mode : Mode} {piece : Piece}
    (cut : Cut character rest mode piece) :
    piece.lexeme ++ rest.drop (piece.lexeme.length - 1) = character :: rest := by
  obtain ⟨tail, split, later, rfl⟩ := cut.begins
  rw [split, List.length_cons, Nat.add_sub_cancel, List.drop_left, List.cons_append]

/-- What follows the longest beginning of some kind does not continue it, or nothing follows. -/
theorem head?_behind_takeWhile {test : Char → Bool} {characters after : List Char}
    (split : characters.takeWhile test ++ after = characters) :
    after.head?.any test = false := by
  have isRest : after = characters.dropWhile test := by
    apply List.append_cancel_left
    rw [split, List.takeWhile_append_dropWhile]
  have stopped := List.head?_dropWhile_not test characters
  rw [← isRest] at stopped
  cases next : after.head? with
  | none => rfl
  | some character =>
    rw [next] at stopped
    exact stopped

/-!
## Pieces without a token
-/

/-- Text that carries no token and stands in front of `after`. White space goes character
by character. A comment after two slashes goes up to its line feed or the end of the text.
Any other comment goes up to the first `*/` behind its opening, or to the end of the text if
there is none. -/
inductive Skipped (after : List Char) : List Char → Prop
  | nothing : Skipped after []
  | blank {character : Char} {gap : List Char} (isBlank : isBlank character = true)
      (later : Skipped after gap) : Skipped after (character :: gap)
  | lineComment {body gap : List Char} (oneLine : '\n' ∉ body)
      (ends : (gap ++ after).head?.any (· != '\n') = false) (later : Skipped after gap) :
    Skipped after ('/' :: '/' :: body ++ gap)
  | closedComment {body gap : List Char} (first : ¬ ['*', '/'] <:+: body ++ ['*'])
      (later : Skipped after gap) :
    Skipped after ('/' :: '*' :: body ++ '*' :: '/' :: gap)
  | openComment {body : List Char} (unclosed : ¬ ['*', '/'] <:+: body) (atEnd : after = []) :
    Skipped after ('/' :: '*' :: body)

/-- Gaps may stand one behind the other. What follows the first one begins with the second one, and
this may matter to a comment at its end. -/
theorem Skipped.append {first second after : List Char} (front : Skipped (second ++ after) first)
    (back : Skipped after second) : Skipped after (first ++ second) := by
  induction front with
  | nothing => exact back
  | blank isBlank later inductionHypothesis => exact .blank isBlank inductionHypothesis
  | lineComment oneLine ends later inductionHypothesis =>
    rw [List.append_assoc]
    exact .lineComment oneLine (by rwa [List.append_assoc]) inductionHypothesis
  | closedComment first later inductionHypothesis =>
    rw [List.append_assoc]
    exact .closedComment first inductionHypothesis
  | openComment unclosed atEnd =>
    obtain ⟨rfl, rfl⟩ := List.append_eq_nil_iff.mp atEnd
    rw [List.append_nil]
    exact .openComment unclosed rfl

/-- White space is skipped, whatever follows it. -/
theorem Skipped.blanks {gap after : List Char} (all : ∀ character ∈ gap, isBlank character = true) :
    Skipped after gap := by
  induction gap with
  | nil => exact .nothing
  | cons character gap inductionHypothesis =>
    obtain ⟨first, others⟩ := List.forall_mem_cons.mp all
    exact .blank first (inductionHypothesis others)

/-- A comment after two slashes is skipped. What follows it is a line feed or nothing. -/
theorem Skipped.of_lineComment {characters after : List Char}
    (opens : ['/', '/'] <+: characters)
    (split : characters.takeWhile (· != '\n') ++ after = characters) :
    Skipped after (characters.takeWhile (· != '\n')) := by
  have ends := head?_behind_takeWhile split
  obtain ⟨body, rfl⟩ := opens
  have oneLine : '\n' ∉ body.takeWhile (· != '\n') := by
    intro member
    simpa using List.all_eq_true.mp List.all_takeWhile _ member
  have comment : Skipped after ('/' :: '/' :: body.takeWhile (· != '\n') ++ []) :=
    .lineComment oneLine ends .nothing
  simpa using comment

/-- A comment between `/*` and `*/` is skipped. One that is not closed is skipped up to the end of
the text. -/
theorem Skipped.of_blockComment {characters after : List Char}
    (opens : ['/', '*'] <+: characters)
    (split : (blockComment characters).lexeme ++ after = characters) :
    Skipped after (blockComment characters).lexeme := by
  obtain ⟨rest, rfl⟩ := opens
  unfold blockComment at split ⊢
  cases found : through? ['*', '/'] (List.drop 2 (['/', '*'] ++ rest)) with
  | some body =>
    obtain ⟨-, ⟨inner, rfl⟩, first⟩ := through?_some (List.cons_ne_nil _ _) found
    rw [List.dropLast_append_of_ne_nil (List.cons_ne_nil _ _)] at first
    exact .closedComment first .nothing
  | none =>
    rw [found] at split
    have atEnd : after = [] := List.append_right_eq_self.mp split
    exact .openComment (through?_none (List.cons_ne_nil _ _) found) atEnd

/-- A raw string or an encoding mark is a token, whose kind does not depend on the lexicon. -/
theorem literalStart?_role {characters : List Char} {piece : Piece}
    (found : literalStart? characters = some piece) :
    ∃ kind ∈ [TokenKind.rawString, .encodingMark], piece.role = .fixed kind := by
  unfold literalStart? at found
  split at found
  · cases found
    refine ⟨.rawString, by simp, ?_⟩
    simp only [rawString]
    split
    · split <;> rfl
    · rfl
  · obtain ⟨mark, marked, rfl⟩ := Option.map_eq_some_iff.mp found
    exact ⟨.encodingMark, by simp, rfl⟩

/-- An escape sequence is a token, also if it is not a valid one. -/
theorem escape_role (rest : List Char) : (escape rest).role = .fixed .escapeSequence := by
  cases rest with
  | nil => rfl
  | cons character rest =>
    simp only [escape, apply_ite Piece.role, ite_self]

/-- A piece without a token is skipped. These are white space and the two kinds of comments. -/
theorem Cut.skipped {character : Char} {rest : List Char} {mode : Mode} {piece : Piece}
    (cut : Cut character rest mode piece) (isBlank : piece.role = .blank) :
    Skipped (rest.drop (piece.lexeme.length - 1)) piece.lexeme := by
  have split := cut.append_drop
  cases cut with
  | blanks _ => exact .blanks (List.all_eq_true.mp List.all_takeWhile)
  | lineComment opens => exact .of_lineComment opens split
  | blockComment opens => exact .of_blockComment opens split
  | literal found =>
    obtain ⟨kind, member, role⟩ := literalStart?_role found
    rw [role] at isBlank
    cases isBlank
  | escape backslash =>
    rw [escape_role] at isBlank
    cases isBlank
  | _ => cases isBlank

/-!
## Pieces whose kind the lexicon decides
-/

/-- A literal can only be open between quotes. -/
def Mode.Valid : Mode → Prop
  | .code => True
  | .quoted quote _ => isQuote quote = true

/-- The scan opens literals with quotes only, so a valid mode is followed by a valid one. -/
theorem Mode.Valid.next {mode : Mode} (valid : mode.Valid) (character : Char)
    (position : Position) : (mode.next character position).Valid := by
  cases mode with
  | code =>
    rw [Mode.next]
    split
    · rename_i isQuote
      exact isQuote
    · trivial
  | quoted quote opened =>
    rw [Mode.next]
    split
    · trivial
    · exact valid

/-- The kind and the lexeme of the next piece, if the lexicon decides what it is. -/
inductive Discovers (character : Char) (rest : List Char) : TokenKind → List Char → Prop
  | word (starts : startsWord character = true) :
    Discovers character rest .identifier ((character :: rest).takeWhile continuesWord)
  | number {kind : TokenKind} (noWord : startsWord character = false)
      (isDigit : isDigit 10 character = true) (isNumber : kind ∈ [.intLiteral, .floatLiteral]) :
    Discovers character rest kind (number (character :: rest)).lexeme
  | quote (isQuote : isQuote character = true) :
    Discovers character rest (quoteKind character) [character]
  | punctuation {kind : TokenKind} (found : (character, kind) ∈ punctuation) :
    Discovers character rest kind [character]
  | operator {spelling : String} {kind : TokenKind}
      (found : operator? (character :: rest) = some (spelling, kind)) :
    Discovers character rest kind spelling.toList
  | unknown (noWord : startsWord character = false)
      (missing : operator? (character :: rest) = none) :
    Discovers character rest .unknown [character]

/-- A number is an integer or a floating-point one, and the lexicon keeps it. -/
theorem number_role (characters : List Char) :
    ∃ kind ∈ [TokenKind.intLiteral, .floatLiteral], (number characters).role = .interned kind := by
  simp only [number]
  split
  · exact ⟨.floatLiteral, by simp, rfl⟩
  · exact ⟨.intLiteral, by simp, rfl⟩

/-- A comment is no token, whether it is closed or not. -/
theorem blockComment_role (characters : List Char) : (blockComment characters).role = .blank := by
  unfold blockComment
  split <;> rfl

/-- What is found in a table stands in it. The converse needs distinct keys and is not used. -/
theorem mem_of_lookup {Key Value : Type} [BEq Key] [LawfulBEq Key] {table : List (Key × Value)}
    {key : Key} {value : Value} (found : table.lookup key = some value) :
    (key, value) ∈ table := by
  obtain ⟨before, after, split, -⟩ := List.lookup_eq_some_iff.mp found
  rw [split]
  exact List.mem_append_right _ List.mem_cons_self

/-- A piece whose kind the lexicon decides is one of these. The mode has to be valid, so that the
closing of a literal is known to be a quote. -/
theorem Cut.discovers {character : Char} {rest : List Char} {mode : Mode} {piece : Piece}
    {kind : TokenKind} (cut : Cut character rest mode piece) (valid : mode.Valid)
    (interned : piece.role = .interned kind) : Discovers character rest kind piece.lexeme := by
  cases cut with
  | word starts =>
    cases interned
    exact .word starts
  | number noWord isDigit =>
    obtain ⟨discovered, isNumber, role⟩ := number_role (character :: rest)
    rw [role] at interned
    cases interned
    exact .number noWord isDigit isNumber
  | openQuote noWord isQuote =>
    cases interned
    exact .quote isQuote
  | punctuation noWord found =>
    cases interned
    exact .punctuation (mem_of_lookup found)
  | operator noWord found =>
    cases interned
    exact .operator found
  | unknown noWord missing =>
    cases interned
    exact .unknown noWord missing
  | closeQuote =>
    cases interned
    exact .quote valid
  | literal found =>
    obtain ⟨fixed, member, role⟩ := literalStart?_role found
    rw [role] at interned
    cases interned
  | escape backslash =>
    rw [escape_role] at interned
    cases interned
  | blockComment opens =>
    rw [blockComment_role] at interned
    cases interned
  | blanks | lineComment | text => cases interned

/-- A piece whose kind is fixed lies in a literal or stands for one. So keywords, names and
operators are always left to the lexicon. -/
theorem Cut.fixed_kind {character : Char} {rest : List Char} {mode : Mode} {piece : Piece}
    {kind : TokenKind} (cut : Cut character rest mode piece)
    (fixed : piece.role = .fixed kind) :
    kind ∈ [.rawString, .encodingMark, .escapeSequence, .literalText] := by
  cases cut with
  | literal found =>
    obtain ⟨literal, member, role⟩ := literalStart?_role found
    rw [role] at fixed
    cases fixed
    exact List.mem_append_left [.escapeSequence, .literalText] member
  | escape backslash =>
    rw [escape_role] at fixed
    cases fixed
    simp
  | text =>
    cases fixed
    simp
  | blockComment opens =>
    rw [blockComment_role] at fixed
    cases fixed
  | number noWord isDigit =>
    obtain ⟨discovered, isNumber, role⟩ := number_role (character :: rest)
    rw [role] at fixed
    cases fixed
  | _ => cases fixed

end IntMain
