import IntMain.Proofs.Rescanning
import IntMain.Token.Lexer

/-!
# Kinds do not depend on what came before

The lexicon gives a lexeme the kind that it had at its first occurrence. If the scan could discover
another kind for the same lexeme later, the meaning of a program would depend on unrelated text
before it. It cannot: what the scan discovers is what it would discover if the text were this lexeme
and nothing else. So the lexicon may as well learn nothing.
-/

namespace IntMain

/-- The kind that a piece offers to the lexicon. -/
def Role.discovered? : Role → Option TokenKind
  | .blank => none
  | .interned kind => some kind
  | .fixed _ => none

/-- The kind that is discovered in a text which is one lexeme. -/
def kindAlone? : List Char → Option TokenKind
  | [] => none
  | character :: rest => (codePiece character rest).role.discovered?

/-- The kind of a piece is discovered in its lexeme alone, also if the piece closes a literal. So
what follows the piece in the text had no part in its kind. -/
theorem Mode.kindAlone?_piece {mode : Mode} (valid : mode.Valid) {character : Char}
    {rest : List Char} {kind : TokenKind}
    (interned : (mode.piece character rest).role = .interned kind) :
    kindAlone? (mode.piece character rest).lexeme = some kind := by
  cases mode with
  | code =>
    simp only [Mode.piece] at interned ⊢
    obtain ⟨tail, isLexeme, -⟩ := (Mode.cut .code character rest).begins
    simp only [Mode.piece] at isLexeme
    have apart : Apart [] := rfl
    have again := codePiece_again isLexeme (by simp [interned]) (by simp [interned]) apart
      (fun _ => rfl)
    rw [List.append_nil] at again
    rw [isLexeme, kindAlone?, again, interned]
    rfl
  | quoted quote opened =>
    simp only [Mode.piece, quotedPiece] at interned ⊢
    split at interned
    · rename_i isQuote
      subst isQuote
      cases interned
      rw [if_pos rfl]
      simp only [Mode.Valid, isQuote, Bool.or_eq_true, beq_iff_eq] at valid
      rcases valid with rfl | rfl
      · decide
      · decide
    split at interned
    · rw [escape_role] at interned
      cases interned
    · cases interned

/-- A stretch of text offers the lexicon no kind that its lexeme would not have alone. -/
def Stretch.Faithful (stretch : Stretch) : Prop :=
  ∀ kind, stretch.piece.role = .interned kind → kindAlone? stretch.piece.lexeme = some kind

/-- All stretches of a scan offer the kinds that their lexemes would have alone. The mode has to be
valid, so that a closing piece is a quote. -/
theorem Scan.faithful_from (mode : Mode) (position : Position) (characters : List Char)
    (valid : mode.Valid) :
    ∀ stretch ∈ (Scan.from mode position characters).stretches, stretch.Faithful := by
  induction mode, position, characters using Scan.from.induct with
  | case1 position | case2 position =>
    rw [Scan.from]
    exact List.forall_mem_nil _
  | case3 mode position character rest piece inductionHypothesis =>
    rw [Scan.from]
    refine List.forall_mem_cons.mpr ⟨?_, ?_⟩
    · intro kind interned
      exact mode.kindAlone?_piece valid interned
    · exact inductionHypothesis (valid.next character position)

/-- The token of a stretch, if the lexicon knows the fixed spellings only. -/
def Stretch.seededToken? (stretch : Stretch) : Option Token :=
  let lexeme := String.ofList stretch.piece.lexeme
  match stretch.piece.role with
  | .blank => none
  | .interned discovered =>
    some ⟨lexeme, stretch.position, (Lexicon.seeded.classify lexeme discovered).1⟩
  | .fixed kind => some ⟨lexeme, stretch.position, kind⟩

namespace Lexicon

/-- A lexeme that is spelled like no other thing has the kind that was discovered. A fixed spelling
has its own kind. -/
theorem seeded_classify (lexeme : String) (discovered : TokenKind) :
    (seeded.classify lexeme discovered).1 = (fixedSpellings.lookup lexeme).getD discovered := by
  have known : seeded.get? lexeme = fixedSpellings.lookup lexeme := Option.or_none
  rw [classify, known]
  cases fixedSpellings.lookup lexeme with
  | none => rfl
  | some kind => rfl

/-- Every lexeme that has been learned has the kind that it has alone. So it does not matter where
it was learned. -/
def Faithful (lexicon : Lexicon) : Prop :=
  ∀ entry ∈ lexicon.learned, kindAlone? entry.1.toList = some entry.2

variable {lexicon : Lexicon}

/-- A lexicon that has learned such lexemes only decides like one that has learned nothing, and
stays such a lexicon. -/
theorem Faithful.classify (faithful : lexicon.Faithful) {lexeme : String} {discovered : TokenKind}
    (alone : kindAlone? lexeme.toList = some discovered) :
    (lexicon.classify lexeme discovered).1 = (seeded.classify lexeme discovered).1 ∧
      (lexicon.classify lexeme discovered).2.Faithful := by
  rw [seeded_classify, Lexicon.classify, get?]
  cases fixed : fixedSpellings.lookup lexeme with
  | some kind => exact ⟨rfl, faithful⟩
  | none =>
    rw [Option.none_or]
    cases learned : lexicon.learned.lookup lexeme with
    | some kind =>
      have sameKind := faithful _ (mem_of_lookup learned)
      rw [alone] at sameKind
      exact ⟨(Option.some.inj sameKind).symm, faithful⟩
    | none => exact ⟨rfl, List.forall_mem_cons.mpr ⟨alone, faithful⟩⟩

/-- The tokens that such a lexicon makes are those of a lexicon that learns nothing. The induction
is on the stretches, and the lexicon may grow in each step. -/
theorem Faithful.tokens (faithful : lexicon.Faithful) {stretches : List Stretch}
    (offered : ∀ stretch ∈ stretches, stretch.Faithful) :
    (lexicon.tokens stretches).1 = stretches.filterMap Stretch.seededToken? ∧
      (lexicon.tokens stretches).2.Faithful := by
  induction stretches generalizing lexicon with
  | nil => exact ⟨rfl, faithful⟩
  | cons stretch later inductionHypothesis =>
    obtain ⟨first, others⟩ := List.forall_mem_cons.mp offered
    obtain ⟨position, piece⟩ := stretch
    simp only [Lexicon.tokens, List.filterMap_cons, Stretch.seededToken?]
    cases role : piece.role with
    | blank => exact inductionHypothesis faithful others
    | fixed kind =>
      obtain ⟨same, stillFaithful⟩ := inductionHypothesis faithful others
      exact ⟨congrArg _ same, stillFaithful⟩
    | interned discovered =>
      have alone : kindAlone? (String.ofList piece.lexeme).toList = some discovered := by
        rw [String.toList_ofList]
        exact first discovered role
      obtain ⟨sameKind, learned⟩ := faithful.classify alone
      obtain ⟨same, stillFaithful⟩ := inductionHypothesis learned others
      refine ⟨?_, stillFaithful⟩
      simp only [sameKind, same]

/-- A lexicon that has learned nothing has learned such lexemes only. -/
theorem Faithful.seeded : Lexicon.seeded.Faithful := List.forall_mem_nil _

end Lexicon

/-- No stretch of a text offers another kind than its lexeme has alone. -/
theorem Scan.faithful_ofText (text : String) :
    ∀ stretch ∈ (Scan.ofText text).stretches, stretch.Faithful :=
  Scan.faithful_from .code Position.start text.toList trivial

/-- The tokens of a text are those that a lexicon makes which learns nothing. Then each token
depends on its own stretch only. -/
theorem Lexed.tokens_seeded (text : String) :
    (Lexed.ofText text).tokens =
      (Scan.ofText text).stretches.filterMap Stretch.seededToken? ++
        [Token.endAt ⟨(Text.lines text).length + 1, 1⟩] := by
  rw [← (Lexicon.Faithful.seeded.tokens (Scan.faithful_ofText text)).1]
  rfl

/-- **No token depends on the text before it.**

Whatever the lexicon has learned when it comes to a lexeme, it gives it the kind that a new lexicon
would give it: the one of its fixed spelling, or else the one that the scan has discovered right
there. So the tokens of a text are those that a lexicon makes which learns nothing. -/
theorem kinds_ignore_earlier_lexemes (text : String) :
    (∀ before stretch after, (Scan.ofText text).stretches = before ++ stretch :: after →
      ∀ discovered, stretch.piece.role = .interned discovered →
        let lexeme := String.ofList stretch.piece.lexeme
        let kind := ((Lexicon.seeded.tokens before).2.classify lexeme discovered).1
        kind = (Lexicon.seeded.classify lexeme discovered).1 ∧
          kind = (fixedSpellings.lookup lexeme).getD discovered) ∧
    (Lexed.ofText text).tokens =
      (Scan.ofText text).stretches.filterMap Stretch.seededToken? ++
        [Token.endAt ⟨(Text.lines text).length + 1, 1⟩] := by
  refine ⟨?_, Lexed.tokens_seeded text⟩
  intro before stretch after split discovered interned
  have offered := Scan.faithful_ofText text
  rw [split] at offered
  obtain ⟨beforeFaithful, others⟩ := List.forall_mem_append.mp offered
  have faithful := (Lexicon.Faithful.seeded.tokens beforeFaithful).2
  have alone : kindAlone? (String.ofList stretch.piece.lexeme).toList = some discovered := by
    rw [String.toList_ofList]
    exact (List.forall_mem_cons.mp others).1 discovered interned
  have sameKind := (faithful.classify alone).1
  exact ⟨sameKind, sameKind.trans (Lexicon.seeded_classify _ _)⟩

end IntMain
