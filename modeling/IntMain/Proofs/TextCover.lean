import IntMain.Proofs.Pieces
import IntMain.Token.Lexer

/-!
# Tokens cover their text

The tokens of a text are the text itself, cut into lexemes with gaps between them. Nothing
is lost, since the gaps hold white space and comments only, and nothing is invented, since
every lexeme stands in the text where its position says. Words are as long as they can be,
and so are operators.
-/

namespace IntMain

open Text (isBlank isDigit)

/-!
## Positions
-/

/-- The position behind a text: its line counts the line feeds in the text, and its column
the characters behind the last of them. -/
def Position.behind (before : List Char) : Position :=
  ⟨1 + before.count '\n', 1 + (before.reverse.takeWhile (· != '\n')).length⟩

/-- The position after one more character is the position behind the text with it. -/
theorem Position.after_behind (before : List Char) (character : Char) :
    (Position.behind before).after character = Position.behind (before ++ [character]) := by
  by_cases lineFeed : character = '\n'
  · subst lineFeed
    simp [Position.after, Position.behind, Nat.add_assoc]
  · simp [Position.after, Position.behind, lineFeed]
    omega

/-- The position after more characters is the position behind the text with them. So the scan need
not keep the text before it. -/
theorem Position.advance_behind (before characters : List Char) :
    (Position.behind before).advance characters = Position.behind (before ++ characters) := by
  induction characters generalizing before with
  | nil =>
    rw [List.append_nil]
    rfl
  | cons character rest inductionHypothesis =>
    rw [List.append_cons, ← inductionHypothesis, ← Position.after_behind]
    rfl

/-!
## What the lexicon knows
-/

/-- The kinds of identifiers and keywords. -/
def wordKinds : List TokenKind := .identifier :: keywords.map (·.2)

/-- The kinds of operators. -/
def operatorKinds : List TokenKind := operators.map (·.2)

/-- A lexeme may have a kind: words start like words, operators are spelled like operators,
and no lexeme ends the input. -/
structure Spelled (lexeme : String) (kind : TokenKind) : Prop where
  word : kind ∈ wordKinds → lexeme.toList.head?.any startsWord = true
  operator : kind ∈ operatorKinds → (lexeme, kind) ∈ operators
  noEnd : kind ≠ .endOfInput

/-- The fixed spellings are spelled as their kinds ask for. The table is looked through. -/
theorem Spelled.fixed {lexeme : String} {kind : TokenKind}
    (member : (lexeme, kind) ∈ fixedSpellings) : Spelled lexeme kind := by
  have facts : ∀ entry ∈ fixedSpellings,
      (entry.2 ∈ wordKinds → entry.1.toList.head?.any startsWord = true) ∧
        (entry.2 ∈ operatorKinds → entry ∈ operators) ∧ entry.2 ≠ .endOfInput := by
    decide +kernel
  obtain ⟨word, operator, noEnd⟩ := facts _ member
  exact ⟨word, operator, noEnd⟩

/-- A kind that is neither a word's nor an operator's may have any lexeme. The kind of the end is
excluded, since it has no lexeme at all. -/
theorem Spelled.other {lexeme : String} {kind : TokenKind}
    (noWord : kind ∉ wordKinds) (noOperator : kind ∉ operatorKinds)
    (noEnd : kind ≠ .endOfInput) : Spelled lexeme kind :=
  ⟨fun word => absurd word noWord, fun operator => absurd operator noOperator, noEnd⟩

/-- What the scan discovers is spelled as its kind asks for, before the lexicon has seen it. -/
theorem Spelled.discovered {character : Char} {rest lexeme : List Char} {kind : TokenKind}
    (discovers : Discovers character rest kind lexeme) :
    Spelled (String.ofList lexeme) kind := by
  cases discovers with
  | word starts =>
    refine ⟨fun _ => ?_, fun operator => absurd operator (by decide), by decide⟩
    simp [continuesWord_of_starts starts, starts]
  | number noWord isDigit isNumber =>
    simp only [List.mem_cons, List.not_mem_nil, or_false] at isNumber
    rcases isNumber with rfl | rfl
    · exact .other (by decide) (by decide) (by decide)
    · exact .other (by decide) (by decide) (by decide)
  | quote isQuote =>
    rw [quoteKind]
    split
    · exact .other (by decide) (by decide) (by decide)
    · exact .other (by decide) (by decide) (by decide)
  | punctuation found =>
    have others : ∀ entry ∈ punctuation, entry.2 ∉ wordKinds ∧ entry.2 ∉ operatorKinds ∧
        entry.2 ≠ .endOfInput := by decide
    obtain ⟨noWord, noOperator, noEnd⟩ := others _ found
    exact .other noWord noOperator noEnd
  | operator found =>
    rw [String.ofList_toList]
    have member := List.mem_of_find?_eq_some found
    apply Spelled.fixed
    simp [fixedSpellings, member]
  | unknown noWord missing => exact .other (by decide) (by decide) (by decide)

/-- If something is true of the fixed spellings and of what has been learned, the lexicon gives a
lexeme no other kind, and learns no other. -/
theorem Lexicon.classify_keeps {allowed : String → TokenKind → Prop} {lexicon : Lexicon}
    {lexeme : String} {discovered : TokenKind}
    (fixed : ∀ entry ∈ fixedSpellings, allowed entry.1 entry.2)
    (learned : ∀ entry ∈ lexicon.learned, allowed entry.1 entry.2)
    (isAllowed : allowed lexeme discovered) :
    allowed lexeme (lexicon.classify lexeme discovered).1 ∧
      ∀ entry ∈ (lexicon.classify lexeme discovered).2.learned, allowed entry.1 entry.2 := by
  rw [Lexicon.classify]
  split
  · rename_i kind known
    refine ⟨?_, learned⟩
    rcases Option.or_eq_some_iff.mp known with isFixed | ⟨-, isLearned⟩
    · exact fixed _ (mem_of_lookup isFixed)
    · exact learned _ (mem_of_lookup isLearned)
  · exact ⟨isAllowed, List.forall_mem_cons.mpr ⟨isAllowed, learned⟩⟩

/-- Everything that has been learned is spelled so. -/
def Lexicon.Sound (lexicon : Lexicon) : Prop :=
  ∀ entry ∈ lexicon.learned, Spelled entry.1 entry.2

/-- The lexicon gives every lexeme a kind that it may have, and learns nothing else. The kind may be
another one than was discovered, as for keywords. -/
theorem Lexicon.Sound.classify {lexicon : Lexicon} {lexeme : String} {discovered : TokenKind}
    (sound : lexicon.Sound) (spelled : Spelled lexeme discovered) :
    Spelled lexeme (lexicon.classify lexeme discovered).1 ∧
      (lexicon.classify lexeme discovered).2.Sound :=
  Lexicon.classify_keeps (fun _ member => .fixed member) sound spelled

/-!
## Longest matches
-/

/-- Longer operators stand first, so the first one that matches is the longest. -/
theorem operators_sorted :
    operators.Pairwise (fun first second => second.1.length ≤ first.1.length) := by
  decide

/-- The operator that is found is the longest one that matches. -/
theorem operator?_longest {characters : List Char} {spelling : String} {kind : TokenKind}
    (found : operator? characters = some (spelling, kind)) :
    ∀ entry ∈ operators, entry.1.toList <+: characters → entry.1.length ≤ spelling.length := by
  obtain ⟨-, shorter, longer, split, skipped⟩ := List.find?_eq_some_iff_append.mp found
  have sorted := operators_sorted
  rw [split] at sorted ⊢
  intro entry member begins
  rcases List.mem_append.mp member with before | behind
  · have noMatch := skipped entry before
    rw [List.isPrefixOf_iff_prefix.mpr begins] at noMatch
    cases noMatch
  · rcases List.mem_cons.mp behind with rfl | after
    · exact Nat.le_refl _
    · exact List.rel_of_pairwise_cons (List.pairwise_append.mp sorted).2.1 after

/-- An operator is found exactly where a character starts one, whatever follows. No operator is only
the start of a longer one: the first character of each is an operator by itself. -/
theorem operator?_isSome (character : Char) (rest : List Char) :
    (operator? (character :: rest)).isSome = startsOperator character := by
  have alone : ∀ entry ∈ operators, entry.1.toList.head?.all (fun first =>
      operators.any (fun single => single.1.toList == [first])) = true := by decide
  rw [Bool.eq_iff_iff, startsOperator, List.any_eq_true]
  constructor
  case mp =>
    intro isFound
    obtain ⟨⟨spelling, kind⟩, found⟩ := Option.isSome_iff_exists.mp isFound
    obtain ⟨nonempty, begins⟩ := operator?_begins found
    obtain ⟨tail, split, -⟩ := cons_begins nonempty begins
    refine ⟨_, List.mem_of_find?_eq_some found, ?_⟩
    rw [split, List.head?_cons, beq_self_eq_true]
  case mpr =>
    rintro ⟨entry, member, starts⟩
    have isAlone := alone entry member
    rw [beq_iff_eq.mp starts, Option.all_some, List.any_eq_true] at isAlone
    obtain ⟨single, isOperator, spelled⟩ := isAlone
    rw [operator?, List.find?_isSome]
    refine ⟨single, isOperator, ?_⟩
    rw [beq_iff_eq.mp spelled, List.isPrefixOf_iff_prefix]
    exact ⟨rest, rfl⟩

/-- Whether a character starts something that is read before operators are tried. -/
def startsEarlier (character : Char) : Bool :=
  startsWord character || isDigit 10 character || isQuote character ||
    punctuation.any (·.1 == character)

/-- No operator starts like anything that is read before. So a piece that is an operator was found
as one. -/
theorem operators_start_late :
    ∀ entry ∈ operators, entry.1.toList.head?.any startsEarlier = false := by
  decide

/-- A piece that starts like a word is the longest word there. No other piece starts like one. -/
theorem Discovers.longest_word {character : Char} {rest lexeme : List Char} {kind : TokenKind}
    (discovers : Discovers character rest kind lexeme) (starts : startsWord character = true) :
    lexeme = (character :: rest).takeWhile continuesWord := by
  cases discovers with
  | word _ => rfl
  | number noWord | unknown noWord =>
    rw [noWord] at starts
    cases starts
  | quote isQuote =>
    simp only [IntMain.isQuote, Bool.or_eq_true, beq_iff_eq] at isQuote
    rcases isQuote with rfl | rfl
    · exact absurd starts (by decide)
    · exact absurd starts (by decide)
  | punctuation found =>
    have noWords : ∀ entry ∈ IntMain.punctuation, startsWord entry.1 = false := by decide
    rw [noWords _ found] at starts
    cases starts
  | operator found =>
    obtain ⟨nonempty, begins⟩ := operator?_begins found
    obtain ⟨tail, split, -⟩ := cons_begins nonempty begins
    have late := operators_start_late _ (List.mem_of_find?_eq_some found)
    simp [split, startsEarlier, starts] at late

/-- A piece that is spelled like an operator is the longest operator there, also if its kind was
decided by the lexicon. -/
theorem Discovers.longest_operator {character : Char} {rest lexeme : List Char}
    {kind spelled : TokenKind} (discovers : Discovers character rest kind lexeme)
    (head : lexeme.head? = some character)
    (isOperator : (String.ofList lexeme, spelled) ∈ operators) :
    ∀ entry ∈ operators, entry.1.toList <+: character :: rest →
      entry.1.length ≤ (String.ofList lexeme).length := by
  have late := operators_start_late _ isOperator
  simp only [String.toList_ofList, head, Option.any_some, startsEarlier,
    Bool.or_eq_false_iff] at late
  obtain ⟨⟨⟨noWord, noDigit⟩, noQuote⟩, noPunctuation⟩ := late
  cases discovers with
  | word starts =>
    rw [starts] at noWord
    cases noWord
  | number _ isDigit =>
    rw [isDigit] at noDigit
    cases noDigit
  | quote isQuote =>
    rw [isQuote] at noQuote
    cases noQuote
  | punctuation found =>
    have differs := List.any_eq_false.mp noPunctuation _ found
    exact absurd (beq_self_eq_true character) differs
  | operator found =>
    rw [String.ofList_toList]
    exact operator?_longest found
  | unknown _ missing =>
    have noMatch := List.find?_eq_none.mp missing _ isOperator
    simp at noMatch

/-!
## Tokens in a text
-/

/-- What is true of a token between the text before it and the text behind it. Its position
is that of its first character. A word cannot be continued, and no operator that is longer
stands in the place of an operator. -/
structure Token.Stands (token : Token) (before after : List Char) : Prop where
  position : token.position = Position.behind before
  word : token.kind ∈ wordKinds → after.head?.any continuesWord = false
  operator : token.kind ∈ operatorKinds → (token.lexeme, token.kind) ∈ operators ∧
    ∀ entry ∈ operators, entry.1.toList <+: token.lexeme.toList ++ after →
      entry.1.length ≤ token.lexeme.length
  noEnd : token.isEnd = false

/-- Tokens cover a text behind `before`: the text is their lexemes, in order and none of
them empty, with gaps before, between and behind them. -/
inductive Covered : List Char → List Token → List Char → Prop
  | finish {before gap : List Char} (skipped : Skipped [] gap) : Covered before [] gap
  | token {before gap after : List Char} {token : Token} {tokens : List Token}
      (skipped : Skipped (token.lexeme.toList ++ after) gap) (nonempty : token.lexeme ≠ "")
      (stands : token.Stands (before ++ gap) after)
      (later : Covered (before ++ gap ++ token.lexeme.toList) tokens after) :
    Covered before (token :: tokens) (gap ++ (token.lexeme.toList ++ after))

/-- A gap may come before everything. If there is a gap already, the two are one. -/
theorem Covered.skip {before gap text : List Char} {tokens : List Token}
    (skipped : Skipped text gap) (covered : Covered (before ++ gap) tokens text) :
    Covered before tokens (gap ++ text) := by
  cases covered with
  | finish later =>
    rw [← List.append_nil text] at skipped
    exact .finish (skipped.append later)
  | token later nonempty stands covered =>
    rw [← List.append_assoc]
    rw [List.append_assoc before] at stands covered
    exact .token (skipped.append later) nonempty stands covered

/-- A piece that becomes a token of a kind that it may have stands where it was found. What it was
discovered to be tells that it is the longest there. -/
theorem Token.Stands.discovered {before rest : List Char} {character : Char} {mode : Mode}
    {piece : Piece} {discovered kind : TokenKind} (cut : Cut character rest mode piece)
    (discovers : Discovers character rest discovered piece.lexeme)
    (spelled : Spelled (String.ofList piece.lexeme) kind) :
    Token.Stands ⟨String.ofList piece.lexeme, Position.behind before, kind⟩ before
      (rest.drop (piece.lexeme.length - 1)) := by
  have split := cut.append_drop
  have head : piece.lexeme.head? = some character := by
    obtain ⟨tail, lexeme, -⟩ := cut.begins
    rw [lexeme, List.head?_cons]
  refine ⟨rfl, ?_, ?_, ?_⟩
  · intro isWord
    have starts := spelled.word isWord
    rw [String.toList_ofList, head, Option.any_some] at starts
    rw [discovers.longest_word starts] at split
    rw [discovers.longest_word starts]
    exact head?_behind_takeWhile split
  · intro isOperator
    have member := spelled.operator isOperator
    refine ⟨member, ?_⟩
    rw [String.toList_ofList, split]
    exact discovers.longest_operator head member
  · simpa [Token.isEnd] using spelled.noEnd

/-- A piece that lies in a literal, or stands for one, stands where it was found. Its kind asks
nothing of its lexeme. -/
theorem Token.Stands.fixed {lexeme : String} {before after : List Char} {kind : TokenKind}
    (fixed : kind ∈ [.rawString, .encodingMark, .escapeSequence, .literalText]) :
    Token.Stands ⟨lexeme, Position.behind before, kind⟩ before after := by
  have others : ∀ other ∈ [TokenKind.rawString, .encodingMark, .escapeSequence, .literalText],
      other ∉ wordKinds ∧ other ∉ operatorKinds ∧ other ≠ .endOfInput := by decide
  obtain ⟨noWord, noOperator, noEnd⟩ := others kind fixed
  exact ⟨rfl, fun word => absurd word noWord, fun operator => absurd operator noOperator,
    by simpa [Token.isEnd] using noEnd⟩

/-- A token may stand at the very beginning, without a gap. It must not be empty, so that the scan
moves on. -/
theorem Covered.next {lexeme before after : List Char} {position : Position} {kind : TokenKind}
    {tokens : List Token} (nonempty : lexeme ≠ [])
    (stands : Token.Stands ⟨String.ofList lexeme, position, kind⟩ before after)
    (later : Covered (before ++ lexeme) tokens after) :
    Covered before (⟨String.ofList lexeme, position, kind⟩ :: tokens) (lexeme ++ after) := by
  have covered : Covered before (⟨String.ofList lexeme, position, kind⟩ :: tokens)
      ([] ++ ((String.ofList lexeme).toList ++ after)) := by
    apply Covered.token .nothing
    · simpa using nonempty
    · rwa [List.append_nil]
    · rwa [List.append_nil, String.toList_ofList]
  rwa [List.nil_append, String.toList_ofList] at covered

/-- The tokens of a scan cover what has been scanned, in every mode and with every lexicon that is
sound. The induction follows the scan, piece by piece. -/
theorem covered_scan (mode : Mode) (position : Position) (characters before : List Char)
    (lexicon : Lexicon) (valid : mode.Valid) (sound : lexicon.Sound)
    (atPosition : position = Position.behind before) :
    Covered before (lexicon.tokens (Scan.from mode position characters).stretches).1
      characters := by
  induction mode, position, characters using Scan.from.induct generalizing before lexicon with
  | case1 position =>
    rw [Scan.from]
    exact .finish .nothing
  | case2 position =>
    rw [Scan.from]
    exact .finish .nothing
  | case3 mode position character rest piece inductionHypothesis =>
    have cut := mode.cut character rest
    have nonempty : (mode.piece character rest).lexeme ≠ [] := by
      obtain ⟨tail, lexeme, -⟩ := cut.begins
      rw [lexeme]
      exact List.cons_ne_nil _ _
    have later (lexicon : Lexicon) (sound : lexicon.Sound) :=
      inductionHypothesis (before ++ (mode.piece character rest).lexeme) lexicon
        (valid.next character position) sound (by rw [atPosition, Position.advance_behind])
    rw [Scan.from, ← cut.append_drop]
    simp only [Lexicon.tokens]
    cases role : (mode.piece character rest).role with
    | blank => exact .skip (cut.skipped role) (later lexicon sound)
    | fixed kind =>
      subst atPosition
      exact .next nonempty (.fixed (cut.fixed_kind role)) (later lexicon sound)
    | interned kind =>
      subst atPosition
      have discovers := cut.discovers valid role
      obtain ⟨spelled, learned⟩ := sound.classify (.discovered discovers)
      exact .next nonempty (.discovered cut discovers spelled) (later _ learned)

/-- No token that covers text ends the input, since that one has no lexeme. -/
theorem Covered.noEnds {before text : List Char} {tokens : List Token}
    (covered : Covered before tokens text) : ∀ token ∈ tokens, token.isEnd = false := by
  induction covered with
  | finish skipped => exact List.forall_mem_nil _
  | token skipped nonempty stands later inductionHypothesis =>
    exact List.forall_mem_cons.mpr ⟨stands.noEnd, inductionHypothesis⟩

/-- The lexemes of a text cover it, from its first character to its last. -/
theorem covered_text (text : String) :
    Covered [] (Lexicon.seeded.tokens (Scan.ofText text).stretches).1 text.toList :=
  covered_scan .code Position.start text.toList [] Lexicon.seeded trivial
    (List.forall_mem_nil _) rfl

/-- The tokens of a text cover it, and the only token besides is the one that ends the
input. -/
theorem tokens_cover_text (text : String) :
    ∃ tokens, (Lexed.ofText text).tokens =
        tokens ++ [Token.endAt ⟨(Text.lines text).length + 1, 1⟩] ∧
      (∀ token ∈ tokens, token.isEnd = false) ∧ Covered [] tokens text.toList :=
  ⟨_, rfl, (covered_text text).noEnds, covered_text text⟩

end IntMain
