import IntMain.Proofs.TextLines

/-!
# Where the end of a text stands

The token that ends the input stands at the start of the line below the last one, behind every other
token. A session takes its text apart into lines and puts these together again before it is
scanned. A line feed that ends the text is lost on the way, and with it the last line, if that
line is empty. Then the end stands on this line and not below it.
-/

namespace IntMain

open Text (lines linesFrom withoutReturn unlines)

/-!
## The order of positions
-/

/-- A position stands before another one on an earlier line, or further left on the same line. -/
def Position.Before (first second : Position) : Prop :=
  first.line < second.line ∨ first.line = second.line ∧ first.column < second.column

namespace Position

/-- Standing before is transitive, since lines and columns are compared like the parts of a
number. -/
theorem Before.trans {first second third : Position} (before : first.Before second)
    (later : second.Before third) : first.Before third := by
  unfold Before at before later ⊢
  omega

/-- A character moves a position forward: a line feed to the next line, and any other character to
the next column. -/
theorem before_after (position : Position) (character : Char) :
    position.Before (position.after character) := by
  rw [after]
  split
  · left
    exact Nat.lt_succ_self _
  · right
    exact ⟨rfl, Nat.lt_succ_self _⟩

/-- A text that is not empty moves a position forward, since its first character does and the others
do not move it back. The empty text leaves it where it is. -/
theorem before_advance (position : Position) {characters : List Char}
    (nonempty : characters ≠ []) : position.Before (position.advance characters) := by
  induction characters generalizing position with
  | nil => exact absurd rfl nonempty
  | cons character rest inductionHypothesis =>
    have first := position.before_after character
    by_cases more : rest = []
    · subst more
      exact first
    · exact first.trans (inductionHypothesis (position.after character) more)

/-- The position behind a longer text is a later one. The longer text has to start with the shorter
one, for otherwise the two could have their line feeds at different places. -/
theorem before_behind (front : List Char) {more : List Char} (nonempty : more ≠ []) :
    (behind front).Before (behind (front ++ more)) := by
  rw [← advance_behind]
  exact before_advance _ nonempty

end Position

/-- Tokens that cover a text stand behind what is before the text, where some part of the text
itself may lie between. Their positions count the characters of both. -/
theorem Covered.position_behind {before text : List Char} {tokens : List Token} {token : Token}
    (covered : Covered before tokens text) (member : token ∈ tokens) :
    ∃ more, token.position = Position.behind (before ++ more) := by
  induction covered with
  | finish skipped => cases member
  | @token before gap after first tokens skipped nonempty stands later inductionHypothesis =>
    rcases List.mem_cons.mp member with rfl | inLater
    · exact ⟨gap, stands.position⟩
    · obtain ⟨more, position⟩ := inductionHypothesis inLater
      refine ⟨gap ++ (first.lexeme.toList ++ more), ?_⟩
      rw [position, List.append_assoc, List.append_assoc]

/-- Tokens that cover a text stand one behind the other. This rests on their lexemes: no token is
empty, so the next one stands further on, whatever the gap between them is. -/
theorem Covered.inOrder {before text : List Char} {tokens : List Token}
    (covered : Covered before tokens text) :
    tokens.Pairwise (fun first second => first.position.Before second.position) := by
  induction covered with
  | finish skipped => exact List.Pairwise.nil
  | token skipped nonempty stands later inductionHypothesis =>
    refine List.Pairwise.cons ?_ inductionHypothesis
    intro second member
    obtain ⟨more, position⟩ := later.position_behind member
    rw [stands.position, position, List.append_assoc]
    apply Position.before_behind
    intro empty
    exact nonempty (String.toList_eq_nil_iff.mp (List.append_eq_nil_iff.mp empty).1)

/-!
## The number of lines
-/

/-- Characters without a line feed belong to the line that is being read, and the line feed behind
them ends that line. What follows is taken apart from its own start, so nothing that has been read
has a part in the lines below. -/
theorem linesFrom_feed (current line rest : List Char) (oneLine : '\n' ∉ line) :
    linesFrom current (line ++ '\n' :: rest) =
      withoutReturn (current.reverse ++ line) :: linesFrom [] rest := by
  induction line generalizing current with
  | nil => rw [List.nil_append, List.append_nil, linesFrom]
  | cons character line inductionHypothesis =>
    rw [List.mem_cons, not_or] at oneLine
    rw [List.cons_append, linesFrom]
    · rw [inductionHypothesis (character :: current) oneLine.2, List.reverse_cons,
        List.append_assoc, List.singleton_append]
    · exact fun isFeed => oneLine.1 isFeed.symm

/-- Text that is not empty has a line, also if it is a single line feed. What has been read of an
unfinished line counts as text. -/
theorem linesFrom_pos {current characters : List Char} (nonempty : current ++ characters ≠ []) :
    0 < (linesFrom current characters).length := by
  fun_induction linesFrom current characters with
  | case1 current isEmpty =>
    rw [List.append_nil] at nonempty
    exact absurd (List.isEmpty_iff.mp isEmpty) nonempty
  | case2 current notEmpty => exact Nat.one_pos
  | case3 current rest inductionHypothesis => exact Nat.succ_pos _
  | case4 current character rest notFeed inductionHypothesis =>
    exact inductionHypothesis (List.cons_ne_nil _ _)

/-- Where there is more text, there is a line for every line feed before it and one for itself.
Without more text the last line feed would end the last line, and no line would follow it. -/
theorem count_lt_linesFrom (current front : List Char) {more : List Char} (nonempty : more ≠ []) :
    front.count '\n' < (linesFrom current (front ++ more)).length := by
  induction front generalizing current with
  | nil =>
    apply linesFrom_pos
    intro empty
    exact nonempty (List.append_eq_nil_iff.mp empty).2
  | cons character front inductionHypothesis =>
    by_cases isFeed : character = '\n'
    · subst isFeed
      rw [List.count_cons_self, List.cons_append, linesFrom, List.length_cons]
      exact Nat.succ_lt_succ (inductionHypothesis [])
    · rw [List.count_cons_of_ne isFeed, List.cons_append, linesFrom]
      · exact inductionHypothesis (character :: current)
      · exact isFeed

/-- Lines that are put together and taken apart again are as many as before, but for an empty line
at the end. -/
theorem linesFrom_intercalate {lines : List (List Char)} (oneLine : ∀ line ∈ lines, '\n' ∉ line) :
    (linesFrom [] (['\n'].intercalate lines)).length =
      if lines.getLast? = some [] then lines.length - 1 else lines.length := by
  induction lines with
  | nil => rfl
  | cons line later inductionHypothesis =>
    obtain ⟨first, others⟩ := List.forall_mem_cons.mp oneLine
    cases later with
    | nil =>
      rw [List.intercalate_singleton]
      by_cases empty : line = []
      · subst empty
        rfl
      · rw [linesFrom_length first (by simpa using empty)]
        simp [empty]
    | cons next last =>
      rw [List.intercalate_cons_cons, List.append_assoc, List.singleton_append,
        linesFrom_feed [] line _ first, List.length_cons, inductionHypothesis others,
        List.getLast?_cons_cons]
      split
      · rfl
      · rfl

/-- Every token of a text stands on one of its lines. It is used that a token is not empty: behind
it there may be nothing, but it is some text itself. -/
theorem Covered.line_le {text : String} {tokens : List Token} {token : Token}
    (covered : Covered [] tokens text.toList) (member : token ∈ tokens) :
    token.position.line ≤ (lines text).length := by
  obtain ⟨front, rest, split, position, nonempty⟩ := covered.mem member
  have more : token.lexeme.toList ++ rest ≠ [] := by
    intro empty
    exact nonempty (String.toList_eq_nil_iff.mp (List.append_eq_nil_iff.mp empty).1)
  have below := count_lt_linesFrom [] front more
  rw [← split, List.nil_append] at below
  rw [position, lines, List.length_map, Position.behind, Nat.add_comm]
  exact below

/-- The tokens of a text stand one behind the other, and the end behind all of them. The end stands
below the last line, and the tokens stand on the lines. -/
theorem Lexed.inOrder (text : String) :
    (Lexed.ofText text).tokens.Pairwise
      (fun first second => first.position.Before second.position) := by
  have covered := covered_text text
  refine List.pairwise_append.mpr ⟨covered.inOrder, List.pairwise_singleton _ _, ?_⟩
  intro token member last isLast
  rw [List.mem_singleton.mp isLast]
  left
  exact Nat.lt_succ_of_le (covered.line_le member)

/-- The lines of a session, as they are counted when it is scanned. The lines are put together
without a line feed behind the last one, so an empty last line is not counted. It is the only one
that is lost, because an empty line that is followed by another one has its line feed. -/
theorem Session.counted_lines (session : Session) :
    (Text.lines (unlines session.lines)).length =
      if session.lines.getLast? = some "" then session.lines.length - 1
      else session.lines.length := by
  have sameLast : (session.lines.map String.toList).getLast? = some [] ↔
      session.lines.getLast? = some "" := by
    rw [List.getLast?_map, Option.map_eq_some_iff]
    constructor
    · rintro ⟨last, isLast, empty⟩
      rw [isLast, String.toList_eq_nil_iff.mp empty]
    · intro isLast
      exact ⟨"", isLast, rfl⟩
  have oneLine : ∀ line ∈ session.lines.map String.toList, '\n' ∉ line :=
    lines_oneLine session.text
  rw [Text.lines, List.length_map, toList_unlines, linesFrom_intercalate oneLine, List.length_map]
  simp only [sameLast]

/-- **The end of the input stands below the last line, if that line is not empty.**

Scanning a session leaves tokens that stand one behind the other, and behind them the end at the
start of a line. This is the line below the last one, and the session has no such line. Only if the
last line is empty, the end stands on that line itself. -/
theorem end_stands_behind_tokens (session : Session) :
    ∃ tokens line,
      (session.run .lex).session.tokens = some (tokens ++ [Token.endAt ⟨line, 1⟩]) ∧
      (∀ token ∈ tokens, token.isEnd = false) ∧
      (tokens ++ [Token.endAt ⟨line, 1⟩]).Pairwise
        (fun first second => first.position.Before second.position) ∧
      (session.lines.getLast? ≠ some "" →
        line = session.lines.length + 1 ∧
          (session.run .lex).session.lineText? line = none) ∧
      (session.lines.getLast? = some "" →
        line = session.lines.length ∧
          (session.run .lex).session.lineText? line = some "") := by
  have counted := session.counted_lines
  have below (index : Nat) : (session.run .lex).session.lineText? (index + 1) =
      session.lines[index]? := rfl
  have sameLines : (session.reset .lex).lines = session.lines := rfl
  refine ⟨_, _, rfl, (covered_text (unlines session.lines)).noEnds,
    Lexed.inOrder (unlines session.lines), ?_, ?_⟩
  · intro notEmpty
    rw [if_neg notEmpty] at counted
    rw [below, sameLines, counted]
    exact ⟨rfl, List.getElem?_eq_none (Nat.le_refl _)⟩
  · intro empty
    rw [if_pos empty] at counted
    have someLine : 0 < session.lines.length := by
      apply List.length_pos_iff.mpr
      intro noLines
      rw [noLines] at empty
      cases empty
    rw [below, sameLines, counted, ← List.getLast?_eq_getElem?]
    exact ⟨Nat.succ_pred_eq_of_pos someLine, empty⟩

/-- An empty line at the end is a line of the session, and the end of the input stands on it and not
below it. So the last case of the theorem above does occur. -/
theorem empty_last_line_is_not_counted :
    (Session.ofText "x\n\n").lines = ["x", ""] ∧
      ((Session.ofText "x\n\n").run .lex).session.tokens =
        some [⟨"x", ⟨1, 1⟩, .identifier⟩, Token.endAt ⟨2, 1⟩] ∧
      ((Session.ofText "x\n\n").run .lex).session.lineText? 2 = some "" := by
  decide +kernel

end IntMain
