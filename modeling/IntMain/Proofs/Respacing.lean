import IntMain.Proofs.StableKinds
import IntMain.Proofs.TextCover

/-!
# Lexemes moved apart

White space between two lexemes means nothing, and neither does its absence, where the scan can tell
them apart without it. So the lexemes of a text may be written down again with any white space
between them, and the tokens stay the same. Quoted literals are left out: white space inside them
is text.

The proof goes in two halves. The lexemes of a text without quotes are `Movable`: none of them needs
what stood behind it. And movable lexemes are found again wherever white space puts them.
-/

namespace IntMain

open Text (isBlank)

/-!
## Gaps
-/

/-- White space between two lexemes, at least one character of it. Comments would do as well, but no
more than white space is needed to write a text. -/
structure Gap where
  characters : List Char
  nonempty : characters ≠ []
  blank : ∀ character ∈ characters, isBlank character = true

/-- Lexemes that follow others, each of them behind a gap. -/
def continued (gaps : Nat → Gap) : List String → List Char
  | [] => []
  | lexeme :: later =>
    (gaps 0).characters ++ (lexeme.toList ++ continued (fun index => gaps (index + 1)) later)

/-- The text that has the lexemes and a gap between each two. -/
def respaced (gaps : Nat → Gap) : List String → String
  | [] => ""
  | lexeme :: later => String.ofList (lexeme.toList ++ continued gaps later)

/-- What follows a lexeme is apart from it: nothing, or a gap. -/
theorem apart_continued (gaps : Nat → Gap) (lexemes : List String) :
    Apart (continued gaps lexemes) := by
  cases lexemes with
  | nil => rfl
  | cons lexeme later =>
    obtain ⟨first, others, isGap⟩ := List.exists_cons_of_ne_nil (gaps 0).nonempty
    have blank := (gaps 0).blank first (isGap ▸ List.mem_cons_self)
    rw [continued, isGap]
    exact blank

/-!
## Movable lexemes
-/

/-- The pieces that become tokens. -/
def lexemePieces (stretches : List Stretch) : List Piece :=
  (stretches.map Stretch.piece).filter (fun piece => decide (piece.role ≠ .blank))

/-- White space and comments become no tokens, so they are left out of the pieces. -/
theorem lexemePieces_blank {stretch : Stretch} (blank : stretch.piece.role = .blank)
    (later : List Stretch) : lexemePieces (stretch :: later) = lexemePieces later := by
  simp [lexemePieces, blank]

/-- Every other piece becomes a token and is kept. -/
theorem lexemePieces_lexeme {stretch : Stretch} (noBlank : stretch.piece.role ≠ .blank)
    (later : List Stretch) :
    lexemePieces (stretch :: later) = stretch.piece :: lexemePieces later := by
  simp [lexemePieces, noBlank]

/-- Lexemes of code that do not need what stood behind them. A raw string that is never closed
would take what is put behind it, so it has to be the last. -/
inductive Movable : List Piece → Prop
  | none : Movable []
  | next {character : Char} {rest : List Char} {later : List Piece}
      (noQuote : isQuote character = false)
      (noBlank : (codePiece character rest).role ≠ .blank)
      (noMark : (codePiece character rest).role ≠ .fixed .encodingMark)
      (closed : (codePiece character rest).warning = some .unterminatedRawString → later = [])
      (movable : Movable later) : Movable (codePiece character rest :: later)

/-!
## The scan of lexemes that were moved
-/

/-- Outside quoted literals, and where none begins, the scan goes on outside. The next stretch
begins behind the piece. -/
theorem Scan.stretches_code {character : Char} (noQuote : isQuote character = false)
    (position : Position) (rest : List Char) :
    (Scan.from .code position (character :: rest)).stretches =
      ⟨position, codePiece character rest⟩ ::
        (Scan.from .code (position.advance (codePiece character rest).lexeme)
          (rest.drop ((codePiece character rest).lexeme.length - 1))).stretches := by
  rw [Scan.from]
  simp only [Mode.piece, Mode.next, noQuote, Bool.false_eq_true, if_false]

/-- A gap is one piece, if what follows it is no white space. The position behind it is not needed,
so it is left open. -/
theorem Scan.stretches_gap (gap : Gap) (position : Position) {after : List Char}
    (ends : after.head?.any isBlank = false) :
    ∃ behind, (Scan.from .code position (gap.characters ++ after)).stretches =
      ⟨position, { role := .blank, lexeme := gap.characters }⟩ ::
        (Scan.from .code behind after).stretches := by
  obtain ⟨first, others, isGap⟩ := List.exists_cons_of_ne_nil gap.nonempty
  have blank : isBlank first = true := gap.blank first (isGap ▸ List.mem_cons_self)
  have noQuote : isQuote first = false := blank_fails (by decide) blank
  have whole : (gap.characters ++ after).takeWhile isBlank = gap.characters := by
    rw [List.takeWhile_append_of_pos gap.blank]
    cases after with
    | nil => simp
    | cons next rest =>
      have noBlank : isBlank next = false := ends
      rw [List.takeWhile_cons_of_neg (Bool.eq_false_iff.mp noBlank), List.append_nil]
  rw [isGap, List.cons_append] at whole ⊢
  have isPiece : codePiece first (others ++ after) =
      { role := .blank, lexeme := first :: others } := by
    rw [codePiece, if_pos blank, whole]
  rw [Scan.stretches_code noQuote, isPiece, List.length_cons, Nat.add_sub_cancel, List.drop_left]
  exact ⟨_, rfl⟩

/-- A movable lexeme is one piece, and it is the piece that it was. What follows has to be apart,
and a raw string that is not closed has to be the last one. -/
theorem Scan.stretches_lexeme {character : Char} {rest after : List Char}
    (noQuote : isQuote character = false)
    (noBlank : (codePiece character rest).role ≠ .blank)
    (noMark : (codePiece character rest).role ≠ .fixed .encodingMark) (apart : Apart after)
    (closed : (codePiece character rest).warning = some .unterminatedRawString → after = [])
    (position : Position) :
    ∃ behind, (Scan.from .code position ((codePiece character rest).lexeme ++ after)).stretches =
      ⟨position, codePiece character rest⟩ :: (Scan.from .code behind after).stretches := by
  obtain ⟨tail, isLexeme, -⟩ := (Mode.cut .code character rest).begins
  have isLexeme : (codePiece character rest).lexeme = character :: tail := isLexeme
  have again := codePiece_again isLexeme noBlank noMark apart closed
  rw [isLexeme, List.cons_append, Scan.stretches_code noQuote, again, isLexeme, List.length_cons,
    Nat.add_sub_cancel, List.drop_left]
  exact ⟨_, rfl⟩

/-- A lexeme begins with no white space, so the gap in front of it is as long as it was written. -/
theorem head?_codePiece {character : Char} {rest after : List Char}
    (noBlank : (codePiece character rest).role ≠ .blank) :
    ((codePiece character rest).lexeme ++ after).head?.any isBlank = false := by
  obtain ⟨tail, isLexeme, -⟩ := (Mode.cut .code character rest).begins
  have isLexeme : (codePiece character rest).lexeme = character :: tail := isLexeme
  rw [isLexeme, List.cons_append, List.head?_cons, Option.any_some, Bool.eq_false_iff]
  intro blank
  rw [codePiece, if_pos blank] at noBlank
  exact noBlank rfl

/-- The text of a piece. -/
def Piece.text (piece : Piece) : String := String.ofList piece.lexeme

/-- Behind a movable lexeme the scan comes to the gap before the next one, and has kept the lexeme
as a piece. -/
theorem lexemePieces_continued {character : Char} {rest : List Char} {later : List Piece}
    (noQuote : isQuote character = false)
    (noBlank : (codePiece character rest).role ≠ .blank)
    (noMark : (codePiece character rest).role ≠ .fixed .encodingMark)
    (closed : (codePiece character rest).warning = some .unterminatedRawString → later = [])
    (gaps : Nat → Gap) (position : Position) :
    ∃ behind, lexemePieces (Scan.from .code position
        ((codePiece character rest).lexeme ++ continued gaps (later.map Piece.text))).stretches =
      codePiece character rest ::
        lexemePieces
          (Scan.from .code behind (continued gaps (later.map Piece.text))).stretches := by
  have ends : (codePiece character rest).warning = some .unterminatedRawString →
      continued gaps (later.map Piece.text) = [] := by
    intro unclosed
    rw [closed unclosed]
    rfl
  obtain ⟨behind, scanned⟩ := Scan.stretches_lexeme noQuote noBlank noMark
    (apart_continued gaps (later.map Piece.text)) ends position
  refine ⟨behind, ?_⟩
  rw [scanned, lexemePieces_lexeme noBlank]

/-- Movable lexemes are found behind their gaps, whatever the gaps are. The induction is on the
pieces, with another position in each step. -/
theorem Movable.scanned {pieces : List Piece} (movable : Movable pieces) (gaps : Nat → Gap)
    (position : Position) :
    lexemePieces (Scan.from .code position (continued gaps (pieces.map Piece.text))).stretches =
      pieces := by
  induction movable generalizing gaps position with
  | none =>
    rw [List.map_nil, continued, Scan.from]
    rfl
  | @next character rest later noQuote noBlank noMark closed movable inductionHypothesis =>
    rw [List.map_cons, continued, Piece.text, String.toList_ofList]
    obtain ⟨behindGap, afterGap⟩ :=
      Scan.stretches_gap (gaps 0) position (head?_codePiece noBlank)
    obtain ⟨behindLexeme, found⟩ := lexemePieces_continued noQuote noBlank noMark closed
      (fun index => gaps (index + 1)) behindGap
    rw [afterGap, lexemePieces_blank rfl, found, inductionHypothesis]

/-- Movable lexemes are found in the text that is made of them. The first one has no gap in
front. -/
theorem Movable.respaced {pieces : List Piece} (movable : Movable pieces) (gaps : Nat → Gap) :
    lexemePieces (Scan.ofText (respaced gaps (pieces.map Piece.text))).stretches = pieces := by
  cases movable with
  | none =>
    rw [List.map_nil, IntMain.respaced, Scan.ofText, String.toList_empty, Scan.from]
    rfl
  | next noQuote noBlank noMark closed movable =>
    obtain ⟨behind, found⟩ :=
      lexemePieces_continued noQuote noBlank noMark closed gaps Position.start
    rw [List.map_cons, IntMain.respaced, Scan.ofText, String.toList_ofList, Piece.text,
      String.toList_ofList, found, movable.scanned]

/-!
## The lexemes of a text
-/

/-- A stretch that becomes no quote. -/
def Stretch.Unquoted (stretch : Stretch) : Prop :=
  ∀ token ∈ stretch.seededToken?, token.kind ≠ .doubleQuote ∧ token.kind ≠ .singleQuote

/-- A quote is a piece that becomes one, since the lexicon does not change its kind. -/
theorem Stretch.not_unquoted {character : Char} (quoted : isQuote character = true)
    (rest : List Char) (position : Position) :
    ¬ Stretch.Unquoted ⟨position, codePiece character rest⟩ := by
  intro unquoted
  simp only [isQuote, Bool.or_eq_true, beq_iff_eq] at quoted
  rcases quoted with rfl | rfl
  · exact (unquoted ⟨"\"", position, .doubleQuote⟩ rfl).1 rfl
  · exact (unquoted ⟨"'", position, .singleQuote⟩ rfl).2 rfl

/-- Behind an encoding mark stands a quote, for otherwise it would be read as a word. -/
theorem literalStart?_mark {characters : List Char} {piece : Piece}
    (found : literalStart? characters = some piece) (isMark : piece.role = .fixed .encodingMark) :
    (characters.drop piece.lexeme.length).head?.any isQuote = true := by
  unfold literalStart? at found
  split at found
  · cases found
    simp only [rawString] at isMark
    split at isMark
    · split at isMark <;> cases isMark
    · cases isMark
  · obtain ⟨mark, marked, rfl⟩ := Option.map_eq_some_iff.mp found
    have isMark := List.find?_some marked
    rw [Bool.and_eq_true] at isMark
    rw [String.length_toList]
    exact isMark.2

/-- Behind a piece that is an encoding mark the scan comes to a quote. So a text without quotes has
no such marks either. -/
theorem codePiece_mark {character : Char} {rest : List Char}
    (isMark : (codePiece character rest).role = .fixed .encodingMark) :
    (rest.drop ((codePiece character rest).lexeme.length - 1)).head?.any isQuote = true := by
  have cut : Cut character rest .code (codePiece character rest) := Mode.cut .code character rest
  generalize codePiece character rest = piece at cut isMark
  obtain ⟨tail, isLexeme, -⟩ := cut.begins
  cases cut with
  | literal found =>
    have quoted := literalStart?_mark found isMark
    rw [isLexeme, List.length_cons, List.drop_succ_cons] at quoted
    rw [isLexeme, List.length_cons, Nat.add_sub_cancel]
    exact quoted
  | blockComment opens =>
    rw [blockComment_role] at isMark
    cases isMark
  | number noWord isDigit =>
    obtain ⟨kind, -, role⟩ := number_role (character :: rest)
    rw [role] at isMark
    cases isMark
  | _ => cases isMark

/-- Where the scan comes to a quote, there is a stretch that becomes one. The premise is about
stretches, because a quote in a comment is no token. -/
theorem Scan.no_quote {position : Position} {characters : List Char}
    (unquoted : ∀ stretch ∈ (Scan.from .code position characters).stretches, stretch.Unquoted) :
    characters.head?.any isQuote = false := by
  cases characters with
  | nil => rfl
  | cons character rest =>
    rw [List.head?_cons, Option.any_some, Bool.eq_false_iff]
    intro quoted
    rw [Scan.from] at unquoted
    exact Stretch.not_unquoted quoted rest position (unquoted _ List.mem_cons_self)

/-- Without quotes, lexemes are movable. The scan then never leaves the mode of code, which is what
the induction needs. -/
theorem Scan.movable (mode : Mode) (position : Position) (characters : List Char)
    (isCode : mode = .code)
    (unquoted : ∀ stretch ∈ (Scan.from mode position characters).stretches, stretch.Unquoted) :
    Movable (lexemePieces (Scan.from mode position characters).stretches) := by
  induction mode, position, characters using Scan.from.induct with
  | case1 position =>
    rw [Scan.from]
    exact .none
  | case2 position => cases isCode
  | case3 mode position character rest piece inductionHypothesis =>
    subst isCode
    have noQuote : isQuote character = false := Scan.no_quote unquoted
    have stays : Mode.code.next character position = .code := by simp [Mode.next, noQuote]
    rw [stays] at inductionHypothesis
    rw [Scan.stretches_code noQuote] at unquoted ⊢
    obtain ⟨-, others⟩ := List.forall_mem_cons.mp unquoted
    have later := inductionHypothesis rfl others
    by_cases blank : (codePiece character rest).role = .blank
    · rw [lexemePieces_blank blank]
      exact later
    · rw [lexemePieces_lexeme blank]
      refine .next noQuote blank ?_ ?_ later
      · intro isMark
        have noQuoteBehind := Scan.no_quote others
        rw [codePiece_mark isMark] at noQuoteBehind
        cases noQuoteBehind
      · intro unclosed
        rw [codePiece_unterminated unclosed, List.length_cons, Nat.add_sub_cancel,
          List.drop_length, Scan.from]
        rfl

/-!
## The tokens of a text
-/

/-- What a token says without its position. -/
def Token.spelling (token : Token) : TokenKind × String := (token.kind, token.lexeme)

/-- What the token of a piece says. -/
def Piece.spelling? (piece : Piece) : Option (TokenKind × String) :=
  (Stretch.seededToken? ⟨Position.start, piece⟩).map Token.spelling

/-- What can be seen of tokens without their positions can be seen in their pieces. The two lemmas
below are this one for what tokens say and for their lexemes. -/
theorem map_seededTokens {Seen : Type} {see : Token → Seen} {seen : Piece → Option Seen}
    (sees : ∀ stretch : Stretch, stretch.piece.role ≠ .blank →
      stretch.seededToken?.map see = seen stretch.piece)
    (stretches : List Stretch) :
    (stretches.filterMap Stretch.seededToken?).map see =
      (lexemePieces stretches).filterMap seen := by
  induction stretches with
  | nil => rfl
  | cons stretch later inductionHypothesis =>
    by_cases blank : stretch.piece.role = .blank
    · have noToken : stretch.seededToken? = none := by
        simp only [Stretch.seededToken?, blank]
      rw [lexemePieces_blank blank, List.filterMap_cons_none noToken, inductionHypothesis]
    · rw [lexemePieces_lexeme blank, List.filterMap_cons, List.filterMap_cons, ← sees stretch blank,
        ← inductionHypothesis]
      cases stretch.seededToken? with
      | none => rfl
      | some token => rfl

/-- What tokens say does not depend on where they stand, so it can be read off the pieces. -/
theorem spelling_seededTokens (stretches : List Stretch) :
    (stretches.filterMap Stretch.seededToken?).map Token.spelling =
      (lexemePieces stretches).filterMap Piece.spelling? := by
  apply map_seededTokens
  rintro ⟨position, piece⟩ noBlank
  cases role : piece.role with
  | blank => exact absurd role noBlank
  | interned discovered | fixed kind =>
    simp [Piece.spelling?, Stretch.seededToken?, role, Token.spelling]

/-- The lexemes of the tokens are those of the pieces, in the same order. -/
theorem lexemes_seededTokens (stretches : List Stretch) :
    (stretches.filterMap Stretch.seededToken?).map Token.lexeme =
      (lexemePieces stretches).map Piece.text := by
  rw [← congrFun List.filterMap_eq_map (lexemePieces stretches)]
  apply map_seededTokens
  rintro ⟨position, piece⟩ noBlank
  cases role : piece.role with
  | blank => exact absurd role noBlank
  | interned discovered | fixed kind => simp [Stretch.seededToken?, role, Piece.text]

/-- The lexemes of a text, without the end. -/
def Lexed.lexemes (lexed : Lexed) : List String :=
  (lexed.tokens.filter (!·.isEnd)).map Token.lexeme

/-- The lexemes of a text are those of its pieces. The end of the input has none. -/
theorem Lexed.lexemes_ofText (text : String) :
    (Lexed.ofText text).lexemes =
      (lexemePieces (Scan.ofText text).stretches).map Piece.text := by
  have noEnds : ∀ token ∈ (Scan.ofText text).stretches.filterMap Stretch.seededToken?,
      (!token.isEnd) = true := by
    rw [← (Lexicon.Faithful.seeded.tokens (Scan.faithful_ofText text)).1]
    intro token member
    rw [(covered_text text).noEnds token member]
    rfl
  rw [lexemes, Lexed.tokens_seeded, List.filter_append, List.filter_eq_self.mpr noEnds,
    List.map_append, lexemes_seededTokens]
  exact List.append_nil _

/-- **Tokens are stable under respacing.**

Take the lexemes of a text that has no quotes among its tokens, and write them down with any
white space between them, at least one character each time. The tokens are the same, but for
their positions. -/
theorem tokens_survive_respacing (text : String) (gaps : Nat → Gap)
    (unquoted : ∀ token ∈ (Lexed.ofText text).tokens,
      token.kind ≠ .doubleQuote ∧ token.kind ≠ .singleQuote) :
    (Lexed.ofText (respaced gaps (Lexed.ofText text).lexemes)).tokens.map Token.spelling =
      (Lexed.ofText text).tokens.map Token.spelling := by
  have isSpelled (text : String) : (Lexed.ofText text).tokens.map Token.spelling =
      (lexemePieces (Scan.ofText text).stretches).filterMap Piece.spelling? ++
        [(.endOfInput, "")] := by
    rw [Lexed.tokens_seeded, List.map_append, spelling_seededTokens]
    rfl
  have movable : Movable (lexemePieces (Scan.ofText text).stretches) := by
    apply Scan.movable .code Position.start text.toList rfl
    intro stretch member token isToken
    apply unquoted
    rw [Lexed.tokens_seeded]
    exact List.mem_append_left _ (List.mem_filterMap.mpr ⟨stretch, member, isToken⟩)
  rw [isSpelled, isSpelled, Lexed.lexemes_ofText, movable.respaced]

/-- Lexemes that end where they do because of what follows: numbers before what is no exponent, no
binary digit or no second point, a name that is no encoding mark, and raw strings that are never
rightly opened or never closed. -/
def tightLexemes : String :=
  "int/**/x=1e+y-0b12F*1'0.5.u8/ *R\"a b)<<=R\"(c d)\"R\"e(f )"

/-- A blank and a line feed by turns. -/
def turningGaps (index : Nat) : Gap where
  characters := if index % 2 = 0 then [' '] else ['\n', '\t']
  nonempty := by split <;> exact List.cons_ne_nil _ _
  blank := by
    split
    · exact List.forall_mem_singleton.mpr rfl
    · exact List.forall_mem_cons.mpr ⟨rfl, List.forall_mem_singleton.mpr rfl⟩

/-- The text above has no quoted literal. With gaps between its lexemes it is the text that is
written here, and this has the same tokens but for their positions. -/
theorem tokens_survive_respacing_tightLexemes :
    (∀ token ∈ (Lexed.ofText tightLexemes).tokens,
        token.kind ≠ .doubleQuote ∧ token.kind ≠ .singleQuote) ∧
      respaced turningGaps (Lexed.ofText tightLexemes).lexemes =
        "int x\n\t= 1\n\te +\n\ty -\n\t0b1 2F\n\t* 1'0.5\n\t. u8\n\t/ *\n\t" ++
          "R\"a b\n\t) <<=\n\tR\"(c d)\" R\"e(f )" ∧
      (Lexed.ofText (respaced turningGaps (Lexed.ofText tightLexemes).lexemes)).tokens.map
          Token.spelling =
        (Lexed.ofText tightLexemes).tokens.map Token.spelling := by
  have unquoted : ∀ token ∈ (Lexed.ofText tightLexemes).tokens,
      token.kind ≠ .doubleQuote ∧ token.kind ≠ .singleQuote := by decide +kernel
  exact ⟨unquoted, by decide +kernel,
    tokens_survive_respacing tightLexemes turningGaps unquoted⟩

end IntMain
