import IntMain.Proofs.FirstImpossible
import IntMain.Token.Cursor
import Mathlib.Logic.Function.Iterate

/-!
# The stream that the parser reads

The parser takes the tokens of a stream in front of its first end token and finishes on that
token, and a stream without one is completed. A cursor yields the same stream token by token: it
stands on one token, moves forward and stays on the last. Here it is proved that both read alike.
Advancing a cursor from the start of a stream until it is exhausted meets exactly the tokens that
the parser takes, it ends on the token on which the parser finishes, and whatever the parser
refuses is a token on which the cursor has stood.

Only streams that a cursor has been put on from the outside are covered. A cursor that is made
from parts may stand in front of no end token, and then advancing it never exhausts it.
-/

namespace IntMain

namespace Cursor

/-- The tokens from the cursor on. -/
def remaining (cursor : Cursor) : List Token := cursor.current :: cursor.later

/-- A cursor on a stream has the whole completed stream in front of it. Completion leaves no stream
empty, so the token that stands for a missing one is never used. -/
theorem remaining_ofTokens (tokens : List Token) :
    (ofTokens tokens).remaining = Token.completed tokens := by
  obtain ⟨after, completed⟩ := Token.completed_split tokens
  rw [ofTokens]
  cases stream : Token.completed tokens with
  | nil =>
    rw [stream] at completed
    exact absurd completed.symm (List.append_ne_nil_of_right_ne_nil _ (List.cons_ne_nil _ _))
  | cons first later => rfl

/-- The token behind the current one is the one on which the cursor stands after it has been
advanced, also on the last token, where neither moves. -/
theorem current_advance (cursor : Cursor) : cursor.advance.current = cursor.peek := by
  obtain ⟨current, later⟩ := cursor
  cases later with
  | nil => rfl
  | cons next later => rfl

/-- Advancing drops the current token as long as another one follows. At the last token it stays. -/
theorem remaining_advance {cursor : Cursor} {token : Token} {rest : List Token}
    (follows : cursor.remaining = cursor.current :: token :: rest) :
    cursor.advance.remaining = token :: rest := by
  obtain ⟨current, later⟩ := cursor
  obtain rfl : later = token :: rest := List.tail_eq_of_cons_eq follows
  rfl

/-- A cursor is advanced over tokens to the one behind them, one move for each. Nothing is asked of
the tokens, which may even be end tokens. -/
theorem iterate_advance {cursor : Cursor} {before : List Token} {token : Token}
    {after : List Token} (split : cursor.remaining = before ++ token :: after) :
    advance^[before.length] cursor = ⟨token, after⟩ := by
  induction before generalizing cursor with
  | nil =>
    obtain ⟨current, later⟩ := cursor
    cases split
    rfl
  | cons first before inductionHypothesis =>
    have isFirst : cursor.current = first := List.head_eq_of_cons_eq split
    rw [List.length_cons, Function.iterate_succ_apply]
    apply inductionHypothesis
    subst isFirst
    cases before with
    | nil => exact remaining_advance split
    | cons second before => exact remaining_advance split

/-- Advancing a cursor until it is exhausted meets these tokens, and leaves the cursor there. The
token on which it is exhausted is not among them. -/
inductive Reads : Cursor → List Token → Cursor → Prop
  | exhausted {cursor : Cursor} (ends : cursor.isExhausted = true) : Reads cursor [] cursor
  | token {cursor final : Cursor} {tokens : List Token} (goesOn : cursor.isExhausted = false)
      (later : Reads cursor.advance tokens final) :
      Reads cursor (cursor.current :: tokens) final

/-- A cursor in front of tokens that end nothing reads these and stops on the end token behind
them. -/
theorem reads_of_remaining {cursor : Cursor} {words : List Token} {endToken : Token}
    {after : List Token} (split : cursor.remaining = words ++ endToken :: after)
    (noEnds : ∀ token ∈ words, token.isEnd = false) (isEnd : endToken.isEnd = true) :
    cursor.Reads words ⟨endToken, after⟩ := by
  induction words generalizing cursor with
  | nil =>
    obtain ⟨current, later⟩ := cursor
    cases split
    exact .exhausted isEnd
  | cons first words inductionHypothesis =>
    obtain ⟨firstOpen, wordsOpen⟩ := List.forall_mem_cons.mp noEnds
    have isFirst : cursor.current = first := List.head_eq_of_cons_eq split
    subst isFirst
    refine .token firstOpen (inductionHypothesis ?_ wordsOpen)
    cases words with
    | nil => exact remaining_advance split
    | cons second words => exact remaining_advance split

/-- There is one way to read: two readings from one place meet the same tokens and stop at the same
place. -/
theorem Reads.unique {cursor final other : Cursor} {tokens others : List Token}
    (reads : cursor.Reads tokens final) (readsOther : cursor.Reads others other) :
    tokens = others ∧ final = other := by
  induction reads generalizing others with
  | exhausted ends =>
    cases readsOther with
    | exhausted => exact ⟨rfl, rfl⟩
    | token goesOn later =>
      rw [ends] at goesOn
      cases goesOn
  | token goesOn later inductionHypothesis =>
    cases readsOther with
    | exhausted ends =>
      rw [goesOn] at ends
      cases ends
    | token _ otherLater =>
      obtain ⟨rfl, rfl⟩ := inductionHypothesis otherLater
      exact ⟨rfl, rfl⟩

/-- A parser that is owed a token of a kind takes the current one if the cursor can move past a
token of that kind, and otherwise refuses it with the fault that the cursor gives. This is how the
header of a program is read. -/
theorem advancePast_header (cursor : Cursor) (nextId : Nat) (expected : TokenKind)
    (later : List TokenKind) :
    (cursor.advancePast expected).map (fun _ => ()) =
      (Parser.step ⟨nextId, .header expected later⟩ cursor.current).map (fun _ => ()) := by
  simp only [advancePast, check, Parser.step, beq_iff_eq]
  by_cases isExpected : cursor.current.kind = expected
  · rw [if_pos isExpected, if_pos isExpected]
    cases later with
    | nil => rfl
    | cons next later => rfl
  · rw [if_neg isExpected, if_neg isExpected]
    rfl

end Cursor

/-- Tokens without an end token, in front of one that may be any, are not more than those in front
of the first end token. -/
theorem length_le_of_noEnds {before after words rest : List Token} {token endToken : Token}
    (split : before ++ token :: after = words ++ endToken :: rest)
    (noEnds : ∀ token ∈ before, token.isEnd = false) (isEnd : endToken.isEnd = true) :
    before.length ≤ words.length := by
  rcases List.append_eq_append_iff.mp split with ⟨between, rfl, -⟩ | ⟨between, rfl, behind⟩
  · rw [List.length_append]
    exact Nat.le_add_right _ _
  · cases between with
    | nil => exact Nat.le_of_eq (congrArg List.length (List.append_nil words))
    | cons first between =>
      -- The end token would stand among tokens that are none.
      obtain rfl : endToken = first := List.head_eq_of_cons_eq behind
      have notEnd := noEnds endToken (List.mem_append_right _ List.mem_cons_self)
      rw [isEnd] at notEnd
      cases notEnd

/-- **The parser reads a stream as a cursor does.**

A cursor on any stream can be advanced until it is exhausted. The parser's answer is then that of
taking the tokens that the cursor meets, one after the other, and finishing on the token on which
the cursor is exhausted. If the stream is refused, the fault is about a token on which the cursor
has stood, at the latest about the one that ends the stream. -/
theorem parser_reads_like_cursor (tokens : List Token) :
    ∃ words final, (Cursor.ofTokens tokens).Reads words final ∧
      Parsed.ofTokens tokens = (do
        let parser ← words.foldlM Parser.step Parser.start
        let root ← parser.finish final.current
        return ⟨root, [.debug ("parsed " ++ Text.decimal parser.nextId ++ " nodes")]⟩) ∧
      ∀ fault, Parsed.ofTokens tokens = .error fault →
        ∃ moves ≤ words.length,
          fault.IsAbout (Cursor.advance^[moves] (Cursor.ofTokens tokens)).current := by
  obtain ⟨after, completed⟩ := Token.completed_split tokens
  have isEnd := Token.isEnd_found tokens
  have noEnds : ∀ token ∈ tokens.takeWhile (!·.isEnd), token.isEnd = false :=
    takeWhile_isOpen tokens
  rw [← Cursor.remaining_ofTokens] at completed
  refine ⟨_, _, Cursor.reads_of_remaining completed noEnds isEnd, rfl, ?_⟩
  intro fault refused
  obtain ⟨before, token, rest, state, split, beforeOpen, reached, refusal⟩ :=
    Parsed.refused refused
  rw [← Cursor.remaining_ofTokens] at split
  refine ⟨before.length, ?_, ?_⟩
  · exact length_le_of_noEnds (split.symm.trans completed) beforeOpen isEnd
  · rw [Cursor.iterate_advance split]
    exact Parser.refusal_isAbout (Parser.open_run Parser.open_start reached) refusal

end IntMain
