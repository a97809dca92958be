import IntMain.Proofs.StableKinds
import IntMain.Proofs.TextCover

/-!
# Quoted literals

A quoted literal is several tokens: its quotes, the text between them, and the escape sequences in
that text. They belong together although the token stream has no brackets around them. A literal
begins with a quote and goes up to the next quote of the same kind, nothing but text and escape
sequences stands between the two, and without a gap. A literal that is never closed is the last
thing in its text.

What an escape sequence is, is said without the scan: of all that could stand behind the backslash,
it takes the longest.
-/

namespace IntMain

open Text (isDigit)

/-!
## Escape sequences
-/

/-- What may stand behind the backslash of an escape sequence. Too few digits are allowed here,
since the scan takes what there is and only warns. -/
inductive EscapeBody : List Char → Prop
  /-- A character that has a meaning of its own behind a backslash. -/
  | simple {character : Char} (isSimple : character ∈ simpleEscapes) : EscapeBody [character]
  /-- One to three octal digits. -/
  | octal {digits : List Char} (nonempty : digits ≠ []) (atMost : digits.length ≤ 3)
      (all : ∀ digit ∈ digits, isDigit 8 digit = true) : EscapeBody digits
  /-- Any number of hexadecimal digits. -/
  | hexadecimal {digits : List Char} (all : ∀ digit ∈ digits, isDigit 16 digit = true) :
    EscapeBody ('x' :: digits)
  /-- Up to four hexadecimal digits. -/
  | shortUnicode {digits : List Char} (atMost : digits.length ≤ 4)
      (all : ∀ digit ∈ digits, isDigit 16 digit = true) : EscapeBody ('u' :: digits)
  /-- Up to eight hexadecimal digits. -/
  | longUnicode {digits : List Char} (atMost : digits.length ≤ 8)
      (all : ∀ digit ∈ digits, isDigit 16 digit = true) : EscapeBody ('U' :: digits)
  /-- Any other character. -/
  | other {character : Char} (noSimple : character ∉ simpleEscapes)
      (noDigit : isDigit 8 character = false) (noMark : character ∉ ['x', 'u', 'U']) :
    EscapeBody [character]

/-- The body of an escape sequence in front of `following`: none that is longer could stand there,
and there is none only at the end of the text. -/
structure LongestBody (body following : List Char) : Prop where
  isBody : EscapeBody body ∨ body = [] ∧ following = []
  longest : ∀ other, EscapeBody other → other <+: body ++ following → other.length ≤ body.length

/-- A beginning whose characters all pass a test lies in the longest such beginning. The scan takes
the longest one, so it takes whatever else could be taken. -/
theorem begins_takeWhile {test : Char → Bool} {front text : List Char} (begins : front <+: text)
    (all : ∀ character ∈ front, test character = true) : front <+: text.takeWhile test := by
  obtain ⟨rest, rfl⟩ := begins
  rw [List.takeWhile_append_of_pos all]
  exact List.prefix_append _ _

/-- What the scan takes for the body of an escape sequence is one. It is not empty where a character
follows the backslash. -/
theorem escape_body (character : Char) (rest : List Char) :
    ∃ tail, (escape (character :: rest)).lexeme = '\\' :: character :: tail ∧
      EscapeBody (character :: tail) := by
  have digits (radix : Nat) (text : List Char) :
      ∀ digit ∈ text.takeWhile (isDigit radix), isDigit radix digit = true :=
    fun digit => List.all_eq_true.mp List.all_takeWhile digit
  have limited (limit : Nat) (test : Char → Bool) (text : List Char) :
      ((text.take limit).takeWhile test).length ≤ limit := by
    have begins : (text.take limit).takeWhile test <+: text.take limit :=
      List.takeWhile_prefix test
    exact Nat.le_trans begins.length_le (List.length_take_le _ _)
  rw [escape]
  split
  · rename_i isSimple
    exact ⟨[], rfl, .simple (List.contains_iff_mem.mp isSimple)⟩
  rename_i noSimple
  split
  · rename_i octal
    refine ⟨(rest.take 2).takeWhile (isDigit 8), by simp [octal], ?_⟩
    have body : EscapeBody (((character :: rest).take 3).takeWhile (isDigit 8)) :=
      .octal (by simp [octal]) (limited 3 _ _) (digits 8 _)
    simpa [octal] using body
  rename_i noOctal
  split
  · rename_i isMark
    subst isMark
    exact ⟨_, rfl, .hexadecimal (digits 16 _)⟩
  rename_i noHexadecimal
  split
  · rename_i isMark
    rcases isMark with rfl | rfl
    · exact ⟨_, rfl, .shortUnicode (limited 4 _ _) (digits 16 _)⟩
    · exact ⟨_, rfl, .longUnicode (limited 8 _ _) (digits 16 _)⟩
  rename_i noUnicode
  refine ⟨[], rfl, .other ?_ (Bool.eq_false_iff.mpr noOctal) ?_⟩
  · exact fun isSimple => noSimple (List.contains_iff_mem.mpr isSimple)
  · simpa [not_or] using ⟨noHexadecimal, not_or.mp noUnicode⟩

/-- No octal digit is a simple escape, so the first character tells the two forms apart. -/
theorem not_simple_of_octal {character : Char} (octal : isDigit 8 character = true) :
    simpleEscapes.contains character = false := by
  have others : simpleEscapes.all (fun simple => !isDigit 8 simple) = true := by decide
  rw [Bool.eq_false_iff]
  intro isSimple
  have noOctal := List.all_eq_true.mp others character (List.contains_iff_mem.mp isSimple)
  rw [octal] at noOctal
  cases noOctal

/-- The scan takes everything that could be the body. It decides by the first character only, and no
two forms of bodies share one. -/
theorem escape_takes {body rest : List Char} (isBody : EscapeBody body) (begins : body <+: rest) :
    '\\' :: body <+: (escape rest).lexeme := by
  -- A single character is always taken.
  have single {character : Char} (begins : [character] <+: rest) :
      ['\\', character] <+: (escape rest).lexeme := by
    obtain ⟨rest, rfl⟩ := begins
    obtain ⟨tail, lexeme, -⟩ := escape_body character rest
    rw [List.singleton_append, lexeme]
    exact List.prefix_append ['\\', character] tail
  -- A mark is taken together with the digits behind it.
  have marked {mark : Char} {digits : List Char} (begins : mark :: digits <+: rest) :
      ∃ behind, rest = mark :: behind ∧ digits <+: behind := by
    obtain ⟨behind, rfl⟩ := begins
    exact ⟨digits ++ behind, rfl, List.prefix_append _ _⟩
  cases isBody with
  | simple isSimple => exact single begins
  | other noSimple noDigit noMark => exact single begins
  | octal nonempty atMost all =>
    obtain ⟨first, digits, rfl⟩ := List.exists_cons_of_ne_nil nonempty
    obtain ⟨behind, rfl, -⟩ := marked begins
    have isOctal := all first List.mem_cons_self
    have lexeme : (escape (first :: behind)).lexeme =
        '\\' :: ((first :: behind).take 3).takeWhile (isDigit 8) := by
      rw [escape, not_simple_of_octal isOctal, isOctal]
      rfl
    rw [lexeme]
    have inside := begins_takeWhile (List.prefix_take_iff.mpr ⟨begins, atMost⟩) all
    exact List.cons_prefix_cons.mpr ⟨rfl, inside⟩
  | hexadecimal all =>
    obtain ⟨behind, rfl, digitsBegin⟩ := marked begins
    exact (List.prefix_append_right_inj ['\\', 'x']).mpr (begins_takeWhile digitsBegin all)
  | shortUnicode atMost all =>
    obtain ⟨behind, rfl, digitsBegin⟩ := marked begins
    have inside := begins_takeWhile (List.prefix_take_iff.mpr ⟨digitsBegin, atMost⟩) all
    exact (List.prefix_append_right_inj ['\\', 'u']).mpr inside
  | longUnicode atMost all =>
    obtain ⟨behind, rfl, digitsBegin⟩ := marked begins
    have inside := begins_takeWhile (List.prefix_take_iff.mpr ⟨digitsBegin, atMost⟩) all
    exact (List.prefix_append_right_inj ['\\', 'U']).mpr inside

/-- An escape sequence has the longest body, and what follows the body is what follows it in the
text. At the end of the text the body is empty. -/
theorem escape_longest (rest : List Char) :
    ∃ body following, (escape rest).lexeme = '\\' :: body ∧ rest = body ++ following ∧
      LongestBody body following := by
  obtain ⟨body, lexeme, following, split⟩ := escape_begins rest
  refine ⟨body, following, lexeme, split.symm, ?_, ?_⟩
  · cases rest with
    | nil => exact .inr (List.append_eq_nil_iff.mp split)
    | cons character rest =>
      obtain ⟨tail, sameLexeme, isBody⟩ := escape_body character rest
      rw [lexeme] at sameLexeme
      exact .inl ((List.cons.inj sameLexeme).2 ▸ isBody)
  · intro other isBody begins
    rw [split] at begins
    have taken := (escape_takes isBody begins).length_le
    rw [lexeme] at taken
    exact Nat.le_of_succ_le_succ taken

/-!
## Literals among tokens
-/

/-- The kinds of the tokens that literals are made of. -/
def literalKinds : List TokenKind := [.doubleQuote, .singleQuote, .literalText, .escapeSequence]

/-- The text of tokens that stand one behind the other. -/
def joined (tokens : List Token) : List Char := tokens.flatMap (fun token => token.lexeme.toList)

/-- A token for characters that stand behind `before`. -/
def Token.behind (before lexeme : List Char) (kind : TokenKind) : Token :=
  ⟨String.ofList lexeme, Position.behind before, kind⟩

/-- The tokens between the quotes of a literal. The first stands behind `before`, each further one
where the one before it ends, and `after` follows the last. -/
inductive Inside (quote : Char) (after : List Char) : List Char → List Token → Prop
  | nothing {before : List Char} : Inside quote after before []
  /-- Text without a quote and without a backslash, and no text behind it. -/
  | text {before lexeme : List Char} {tokens : List Token} (nonempty : lexeme ≠ [])
      (plain : ∀ character ∈ lexeme, character ≠ quote ∧ character ≠ '\\')
      (apart : ∀ next ∈ tokens.head?, next.kind ≠ .literalText)
      (later : Inside quote after (before ++ lexeme) tokens) :
    Inside quote after before (Token.behind before lexeme .literalText :: tokens)
  /-- A backslash and the longest body that can stand behind it. -/
  | escape {before body : List Char} {tokens : List Token}
      (longest : LongestBody body (joined tokens ++ after))
      (later : Inside quote after (before ++ '\\' :: body) tokens) :
    Inside quote after before (Token.behind before ('\\' :: body) .escapeSequence :: tokens)

/-- The tokens of a text that stands behind `before`, literal by literal. The positions of the
tokens follow from the text before them, so they are part of this description. -/
inductive Regions : List Char → List Token → List Char → Prop
  | finish {before : List Char} : Regions before [] []
  /-- White space and comments. -/
  | gap {before gap after : List Char} {tokens : List Token} (skipped : Skipped after gap)
      (later : Regions (before ++ gap) tokens after) : Regions before tokens (gap ++ after)
  /-- A token that belongs to no literal. -/
  | outside {before lexeme after : List Char} {kind : TokenKind} {tokens : List Token}
      (other : kind ∉ literalKinds) (later : Regions (before ++ lexeme) tokens after) :
    Regions before (Token.behind before lexeme kind :: tokens) (lexeme ++ after)
  /-- A literal from its quote to the next one of the same kind. -/
  | closed {before after : List Char} {quote : Char} {interior tokens : List Token}
      (isQuote : isQuote quote = true)
      (inside : Inside quote (quote :: after) (before ++ [quote]) interior)
      (later : Regions (before ++ [quote] ++ joined interior ++ [quote]) tokens after) :
    Regions before
      (Token.behind before [quote] (quoteKind quote) :: interior ++
        Token.behind (before ++ [quote] ++ joined interior) [quote] (quoteKind quote) :: tokens)
      (quote :: joined interior ++ quote :: after)
  /-- A literal from its quote to the end of the text. -/
  | unclosed {before : List Char} {quote : Char} {interior : List Token}
      (isQuote : isQuote quote = true)
      (inside : Inside quote [] (before ++ [quote]) interior) :
    Regions before (Token.behind before [quote] (quoteKind quote) :: interior)
      (quote :: joined interior)

/-- What is left of a literal behind `before`, and of the text after it. A literal is scanned from
its quote on, so this is what the scan knows in the middle of one. -/
inductive Remainder (quote : Char) (before : List Char) : List Token → List Char → Prop
  | closes {after : List Char} {interior tokens : List Token}
      (inside : Inside quote (quote :: after) before interior)
      (later : Regions (before ++ joined interior ++ [quote]) tokens after) :
    Remainder quote before
      (interior ++ Token.behind (before ++ joined interior) [quote] (quoteKind quote) :: tokens)
      (joined interior ++ quote :: after)
  | ends {interior : List Token} (inside : Inside quote [] before interior) :
    Remainder quote before interior (joined interior)

/-- A quote and what is left behind it are a literal, closed or not. -/
theorem Regions.literal {before text : List Char} {quote : Char} {tokens : List Token}
    (isQuote : isQuote quote = true) (remainder : Remainder quote (before ++ [quote]) tokens text) :
    Regions before (Token.behind before [quote] (quoteKind quote) :: tokens) (quote :: text) := by
  cases remainder with
  | closes inside later => exact .closed isQuote inside later
  | ends inside => exact .unclosed isQuote inside

/-- The characters of a token in front of others are its lexeme and theirs. -/
theorem joined_behind (before lexeme : List Char) (kind : TokenKind) (tokens : List Token) :
    joined (Token.behind before lexeme kind :: tokens) = lexeme ++ joined tokens := by
  simp [joined, Token.behind]

namespace Remainder

variable {quote : Char} {before after : List Char} {tokens : List Token}

/-- The closing quote ends the literal, and the text goes on outside of it. -/
theorem close (later : Regions (before ++ [quote]) tokens after) :
    Remainder quote before (Token.behind before [quote] (quoteKind quote) :: tokens)
      (quote :: after) := by
  have closed : Remainder quote before
      ([] ++ Token.behind (before ++ joined []) [quote] (quoteKind quote) :: tokens)
      (joined [] ++ quote :: after) := by
    apply closes .nothing
    simpa [joined] using later
  simpa [joined] using closed

/-- One more token inside a literal, if it may stand in front of the tokens that follow. The two
lemmas below are this one for text and for escape sequences. -/
theorem cons {lexeme : List Char} {kind : TokenKind}
    (inside : ∀ {interior : List Token} {last : List Char},
      Inside quote last (before ++ lexeme) interior → joined interior ++ last = after →
        Inside quote last before (Token.behind before lexeme kind :: interior))
    (later : Remainder quote (before ++ lexeme) tokens after) :
    Remainder quote before (Token.behind before lexeme kind :: tokens) (lexeme ++ after) := by
  cases later with
  | @closes last interior others inner later =>
    have whole := inside inner rfl
    rw [List.append_assoc before, ← joined_behind before lexeme kind] at later
    have closed := closes whole later
    rwa [joined_behind, ← List.append_assoc, List.append_assoc lexeme] at closed
  | ends inner =>
    rw [← joined_behind before lexeme kind]
    exact ends (inside inner (List.append_nil _))

end Remainder

/-- Where a quote or a backslash stands, or nothing, there is no literal text. So text is never
followed by text. -/
theorem Inside.head_kind {quote : Char} {after before : List Char} {tokens : List Token}
    (interior : Inside quote after before tokens)
    (stops : (joined tokens ++ after).head?.any (fun next => next != quote && next != '\\') =
      false) : ∀ next ∈ tokens.head?, next.kind ≠ .literalText := by
  cases interior with
  | nothing =>
    intro next member
    cases member
  | @text _ lexeme _ nonempty plain _ _ =>
    obtain ⟨first, rest, rfl⟩ := List.exists_cons_of_ne_nil nonempty
    obtain ⟨noQuote, noBackslash⟩ := plain first List.mem_cons_self
    simp [joined_behind, noQuote, noBackslash] at stops
  | escape longest later =>
    intro next member
    cases member
    exact (by decide : TokenKind.escapeSequence ≠ .literalText)

namespace Remainder

variable {quote : Char} {before after : List Char} {tokens : List Token}

/-- Text up to the next quote or backslash may stand in front. It has to reach that far, for
otherwise the scan would have read on. -/
theorem text {lexeme : List Char} (nonempty : lexeme ≠ [])
    (plain : ∀ character ∈ lexeme, character ≠ quote ∧ character ≠ '\\')
    (stops : after.head?.any (fun next => next != quote && next != '\\') = false)
    (later : Remainder quote (before ++ lexeme) tokens after) :
    Remainder quote before (Token.behind before lexeme .literalText :: tokens)
      (lexeme ++ after) := by
  refine cons ?_ later
  intro interior last inner split
  rw [← split] at stops
  exact .text nonempty plain (inner.head_kind stops) inner

/-- An escape sequence may stand in front, if its body is the longest one before what follows. -/
theorem escape {body : List Char} (longest : LongestBody body after)
    (later : Remainder quote (before ++ '\\' :: body) tokens after) :
    Remainder quote before (Token.behind before ('\\' :: body) .escapeSequence :: tokens)
      ('\\' :: body ++ after) := by
  refine cons ?_ later
  intro interior last inner split
  exact .escape (split ▸ longest) inner

end Remainder

/-!
## Literals in a scan
-/

/-- No fixed spelling but that of a quote has a kind that literals are made of. So the lexicon gives
no such kind to words and operators. -/
theorem fixedSpellings_literalKinds {lexeme : String} {kind : TokenKind}
    (found : (lexeme, kind) ∈ fixedSpellings) (isLiteral : kind ∈ literalKinds) :
    lexeme.toList.head?.any isQuote = true := by
  have quotes : ∀ entry ∈ fixedSpellings, entry.2 ∈ literalKinds →
      entry.1.toList.head?.any isQuote = true := by decide
  exact quotes _ found isLiteral

/-- Nothing that starts without a quote is discovered to have such a kind. -/
theorem Discovers.other_kind {character : Char} {rest lexeme : List Char} {kind : TokenKind}
    (discovers : Discovers character rest kind lexeme) (noQuote : isQuote character = false) :
    kind ∉ literalKinds := by
  cases discovers with
  | word starts => decide
  | number noWord isDigit isNumber =>
    have others : ∀ number ∈ [TokenKind.intLiteral, .floatLiteral], number ∉ literalKinds := by
      decide
    exact others kind isNumber
  | quote isQuote =>
    rw [isQuote] at noQuote
    cases noQuote
  | punctuation found =>
    have others : ∀ entry ∈ IntMain.punctuation, entry.2 ∉ literalKinds := by decide
    exact others _ found
  | operator found =>
    have others : ∀ entry ∈ operators, entry.2 ∉ literalKinds := by decide
    exact others _ (List.mem_of_find?_eq_some found)
  | unknown noWord missing => decide

/-- Outside literals, only raw strings and encoding marks have fixed kinds. Literal text and escape
sequences are scanned inside of literals only. -/
theorem Cut.code_fixed {character : Char} {rest : List Char} {piece : Piece} {kind : TokenKind}
    (cut : Cut character rest .code piece) (fixed : piece.role = .fixed kind) :
    kind ∈ [.rawString, .encodingMark] := by
  cases cut with
  | literal found =>
    obtain ⟨literal, member, role⟩ := literalStart?_role found
    rw [role] at fixed
    cases fixed
    exact member
  | blockComment opens =>
    rw [blockComment_role] at fixed
    cases fixed
  | number noWord isDigit =>
    obtain ⟨discovered, isNumber, role⟩ := number_role (character :: rest)
    rw [role] at fixed
    cases fixed
  | _ => cases fixed

/-- A token outside literals that starts without a quote has another kind, whether the lexicon or
the scan decides it. -/
theorem Stretch.other_kind {character : Char} {rest : List Char} {position : Position}
    {token : Token} (noQuote : isQuote character = false)
    (made : Stretch.seededToken? ⟨position, codePiece character rest⟩ = some token) :
    token.kind ∉ literalKinds := by
  have cut : Cut character rest .code (codePiece character rest) := Mode.cut .code character rest
  cases role : (codePiece character rest).role with
  | blank => simp [Stretch.seededToken?, role] at made
  | fixed kind =>
    simp only [Stretch.seededToken?, role, Option.some.injEq] at made
    have others : ∀ other ∈ [TokenKind.rawString, .encodingMark], other ∉ literalKinds := by decide
    exact made ▸ others kind (cut.code_fixed role)
  | interned discovered =>
    simp only [Stretch.seededToken?, role, Option.some.injEq] at made
    rw [← made, Lexicon.seeded_classify]
    cases found : fixedSpellings.lookup (String.ofList (codePiece character rest).lexeme) with
    | none => exact (cut.discovers trivial role).other_kind noQuote
    | some kind =>
      intro isLiteral
      have quoted := fixedSpellings_literalKinds (mem_of_lookup found) isLiteral
      obtain ⟨tail, lexeme, -⟩ := cut.begins
      rw [String.toList_ofList, lexeme, List.head?_cons, Option.any_some, noQuote] at quoted
      cases quoted

/-- The lexeme and the position of a token are those of its stretch. Only its kind has to be found
out. -/
theorem Stretch.token_behind {piece : Piece} {before : List Char} {token : Token}
    (made : Stretch.seededToken? ⟨Position.behind before, piece⟩ = some token) :
    token = Token.behind before piece.lexeme token.kind := by
  cases role : piece.role with
  | blank => simp [Stretch.seededToken?, role] at made
  | fixed kind | interned discovered =>
    simp only [Stretch.seededToken?, role, Option.some.injEq] at made
    subst made
    rfl

/-- A piece that is a quote becomes a token of its kind. The lexicon knows the spelling and agrees
with the scan. -/
theorem Stretch.quote_token {quote : Char} (quoted : isQuote quote = true) (before : List Char) :
    Stretch.seededToken?
        ⟨Position.behind before, { role := .interned (quoteKind quote), lexeme := [quote] }⟩ =
      some (Token.behind before [quote] (quoteKind quote)) := by
  simp only [isQuote, Bool.or_eq_true, beq_iff_eq] at quoted
  rcases quoted with rfl | rfl
  · rfl
  · rfl

/-- A piece of a fixed kind becomes a token of this kind, whatever its lexeme is. -/
theorem Stretch.fixed_token {piece : Piece} {kind : TokenKind} (fixed : piece.role = .fixed kind)
    (before : List Char) : Stretch.seededToken? ⟨Position.behind before, piece⟩ =
      some (Token.behind before piece.lexeme kind) := by
  simp only [Stretch.seededToken?, fixed, Token.behind]

/-- What a scan leaves of a text in a mode. In the middle of a literal it leaves the rest of that
literal first. -/
inductive Mode.Leaves (before : List Char) (tokens : List Token) (text : List Char) : Mode → Prop
  | code (regions : Regions before tokens text) : Mode.Leaves before tokens text .code
  | quoted {quote : Char} {opened : Position} (remainder : Remainder quote before tokens text) :
    Mode.Leaves before tokens text (.quoted quote opened)

namespace Mode.Leaves

variable {before : List Char} {character : Char} {rest : List Char} {later : List Token}

/-- One piece outside literals is a gap, a token that belongs to no literal, or a quote that opens
one. What the scan does with the rest is given. -/
theorem next_code (next : Mode.Leaves (before ++ (codePiece character rest).lexeme) later
      (rest.drop ((codePiece character rest).lexeme.length - 1))
      (Mode.code.next character (Position.behind before))) :
    Regions before
      ((Stretch.seededToken? ⟨Position.behind before, codePiece character rest⟩).toList ++ later)
      (character :: rest) := by
  have cut : Cut character rest .code (codePiece character rest) := Mode.cut .code character rest
  by_cases quoted : isQuote character = true
  · have isPiece : codePiece character rest =
        { role := .interned (quoteKind character), lexeme := [character] } := by
      simp only [isQuote, Bool.or_eq_true, beq_iff_eq] at quoted
      rcases quoted with rfl | rfl
      · rfl
      · rfl
    rw [isPiece, Mode.next, if_pos quoted] at next
    cases next with
    | quoted remainder =>
      rw [isPiece, Stretch.quote_token quoted]
      exact .literal quoted remainder
  · rw [Mode.next, if_neg quoted] at next
    cases next with
    | code regions =>
      rw [← cut.append_drop]
      cases made : Stretch.seededToken? ⟨Position.behind before, codePiece character rest⟩ with
      | none =>
        refine .gap (cut.skipped ?_) regions
        cases role : (codePiece character rest).role with
        | blank => rfl
        | fixed kind | interned discovered => simp [Stretch.seededToken?, role] at made
      | some token =>
        rw [Stretch.token_behind made]
        exact .outside (Stretch.other_kind (Bool.eq_false_iff.mpr quoted) made) regions

/-- One piece inside a literal is its closing quote, an escape sequence or text. What the scan does
with the rest is given. -/
theorem next_quoted {quote : Char} {opened : Position} (valid : isQuote quote = true)
    (next : Mode.Leaves (before ++ (quotedPiece quote character rest).lexeme) later
      (rest.drop ((quotedPiece quote character rest).lexeme.length - 1))
      ((Mode.quoted quote opened).next character (Position.behind before))) :
    Remainder quote before
      ((Stretch.seededToken? ⟨Position.behind before, quotedPiece quote character rest⟩).toList ++
        later)
      (character :: rest) := by
  have cut : Cut character rest (.quoted quote opened) (quotedPiece quote character rest) :=
    Mode.cut (.quoted quote opened) character rest
  rw [← cut.append_drop]
  by_cases closes : character = quote
  · subst closes
    have isPiece : quotedPiece character character rest =
        { role := .interned (quoteKind character), lexeme := [character] } := if_pos rfl
    rw [isPiece, Mode.next, if_pos rfl] at next
    rw [isPiece, Stretch.quote_token valid]
    cases next with
    | code regions => exact .close regions
  rw [Mode.next, if_neg closes] at next
  cases next with
  | quoted remainder =>
    by_cases backslash : character = '\\'
    · subst backslash
      have isPiece : quotedPiece quote '\\' rest = IntMain.escape rest := by
        rw [quotedPiece, if_neg closes, if_pos rfl]
      rw [isPiece] at remainder ⊢
      rw [Stretch.fixed_token (escape_role rest)]
      obtain ⟨body, following, lexeme, split, longest⟩ := escape_longest rest
      have behind : rest.drop ((IntMain.escape rest).lexeme.length - 1) = following := by
        rw [lexeme, split, List.length_cons, Nat.add_sub_cancel, List.drop_left]
      rw [behind, lexeme] at remainder ⊢
      exact .escape longest remainder
    · have isPiece : quotedPiece quote character rest =
          { role := .fixed .literalText
            lexeme := (character :: rest).takeWhile
              (fun next => next != quote && next != '\\') } := by
        rw [quotedPiece, if_neg closes, if_neg backslash]
      have split := cut.append_drop
      rw [isPiece] at split remainder ⊢
      rw [Stretch.fixed_token rfl]
      refine .text ?_ ?_ (head?_behind_takeWhile split) remainder
      · simp [closes, backslash]
      · intro letter member
        simpa using List.all_eq_true.mp List.all_takeWhile letter member

end Mode.Leaves

/-- The tokens of a scan are literals and what stands between them. Inside a literal, they are what
is left of it. -/
theorem Scan.leaves (mode : Mode) (position : Position) (characters before : List Char)
    (valid : mode.Valid) (atPosition : position = Position.behind before) :
    mode.Leaves before
      ((Scan.from mode position characters).stretches.filterMap Stretch.seededToken?)
      characters := by
  induction mode, position, characters using Scan.from.induct generalizing before with
  | case1 position =>
    rw [Scan.from]
    exact .code .finish
  | case2 position quote opened =>
    rw [Scan.from]
    exact .quoted (.ends .nothing)
  | case3 mode position character rest piece inductionHypothesis =>
    subst atPosition
    have next := inductionHypothesis (before ++ piece.lexeme) (valid.next character _)
      (Position.advance_behind _ _)
    have first (stretch : Stretch) (others : List Stretch) :
        (stretch :: others).filterMap Stretch.seededToken? =
          stretch.seededToken?.toList ++ others.filterMap Stretch.seededToken? := by
      rw [List.filterMap_cons]
      cases stretch.seededToken? with
      | none => rfl
      | some token => rfl
    rw [Scan.from, first]
    cases mode with
    | code => exact .code next.next_code
    | quoted quote opened => exact .quoted (next.next_quoted valid)

/-- **Quoted literals are whole.**

The tokens of a text are literals and other tokens, with gaps between them, up to the one that ends
the input. The other tokens are no quotes, no literal text and no escape sequences. A literal begins
with a quote and ends with the next quote of its kind. All tokens between the two are text or escape
sequences, and each stands where the one before it ends. The text is not empty, holds neither the
quote of the literal nor a backslash, and does not follow other text; an escape sequence takes the
longest body that can stand behind its backslash. A literal without a second quote is the last one,
and the end of the input follows it. -/
theorem literals_form_regions (text : String) :
    ∃ tokens, (Lexed.ofText text).tokens =
        tokens ++ [Token.endAt ⟨(Text.lines text).length + 1, 1⟩] ∧
      Regions [] tokens text.toList := by
  refine ⟨_, Lexed.tokens_seeded text, ?_⟩
  cases Scan.leaves .code Position.start text.toList [] trivial rfl with
  | code regions => exact regions

end IntMain
