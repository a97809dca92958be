import IntMain.Proofs.TextCover
import IntMain.Session

/-!
# Lines and positions

A position in a text names one of its lines and a column of that line. What stands in the
text from there on, up to the next line feed, is what stands in that line from that column
on. So a lexeme that stands at a position can be read off the line, as far as it does not
reach into the next one.
-/

namespace IntMain

open Text (lines linesFrom withoutReturn unlines)

/-- Without the carriage return at its end, a line has no other characters. -/
theorem mem_of_mem_withoutReturn {line : List Char} {character : Char}
    (member : character ∈ withoutReturn line) : character ∈ line := by
  unfold withoutReturn at member
  split at member
  · exact List.dropLast_subset _ member
  · exact member

/-- No line holds a line feed. What has been read of the current line must not hold one either. -/
theorem linesFrom_oneLine (current characters : List Char) (oneLine : '\n' ∉ current) :
    ∀ line ∈ linesFrom current characters, '\n' ∉ line := by
  fun_induction linesFrom current characters with
  | case1 current isEmpty => exact List.forall_mem_nil _
  | case2 current nonempty => simpa using oneLine
  | case3 current rest inductionHypothesis =>
    refine List.forall_mem_cons.mpr ⟨?_, inductionHypothesis List.not_mem_nil⟩
    intro member
    exact oneLine (List.mem_reverse.mp (mem_of_mem_withoutReturn member))
  | case4 current character rest notFeed inductionHypothesis =>
    refine inductionHypothesis ?_
    intro member
    rcases List.mem_cons.mp member with isFeed | inCurrent
    · exact notFeed isFeed.symm
    · exact oneLine inCurrent

/-- Text without a line feed is one line, unless there is no text at all. Then there is no line. -/
theorem linesFrom_length {current characters : List Char} (oneLine : '\n' ∉ characters)
    (nonempty : current ++ characters ≠ []) : (linesFrom current characters).length = 1 := by
  induction characters generalizing current with
  | nil =>
    rw [List.append_nil] at nonempty
    simp [linesFrom, nonempty]
  | cons character rest inductionHypothesis =>
    rw [List.mem_cons, not_or] at oneLine
    rw [linesFrom]
    · exact inductionHypothesis oneLine.2 (List.cons_ne_nil _ _)
    · exact fun isFeed => oneLine.1 isFeed.symm

/-- Text without line feeds has no line feed to stop at, so it is taken with what follows. -/
theorem takeWhile_oneLine {front : List Char} (oneLine : '\n' ∉ front) (rest : List Char) :
    (front ++ rest).takeWhile (· != '\n') = front ++ rest.takeWhile (· != '\n') := by
  apply List.takeWhile_append_of_pos
  intro character member
  have notFeed : character ≠ '\n' := fun isFeed => oneLine (isFeed ▸ member)
  simpa using notFeed

/-- Where a line has begun, the column does not depend on the lines before. -/
theorem column_behind (line before : List Char) :
    (line ++ '\n' :: before).reverse.takeWhile (· != '\n') =
      before.reverse.takeWhile (· != '\n') := by
  have stop : ('\n' :: line.reverse).takeWhile (· != '\n') = [] := rfl
  rw [List.reverse_append, List.reverse_cons, List.append_assoc, List.singleton_append,
    List.takeWhile_append, stop, List.append_nil]
  split
  · rename_i whole
    have begins : before.reverse.takeWhile (· != '\n') <+: before.reverse :=
      List.takeWhile_prefix _
    exact (begins.eq_of_length whole).symm
  · rfl

/-- A place in a line is found by its column alone: no line feed stands before it, and behind so
many characters comes the rest. -/
theorem drop_column {line before rest : List Char} (oneLine : '\n' ∉ line)
    (split : before ++ rest = line) :
    before.count '\n' = 0 ∧
      line.drop (before.reverse.takeWhile (· != '\n')).length = rest := by
  subst split
  have noFeed : '\n' ∉ before := fun member => oneLine (List.mem_append_left _ member)
  have column := takeWhile_oneLine (mt List.mem_reverse.mp noFeed) []
  rw [List.append_nil, List.takeWhile_nil, List.append_nil] at column
  rw [column, List.length_reverse, List.drop_left]
  exact ⟨List.count_eq_zero.mpr noFeed, rfl⟩

/-- A place in lines that are put together is a place in one of them, found by counting the line
feeds before it. From its column on, the line is the rest of the text up to the next line feed. -/
theorem line_behind {lines : List (List Char)} (oneLine : ∀ line ∈ lines, '\n' ∉ line)
    {before rest : List Char} (nonempty : lines ≠ [])
    (split : before ++ rest = ['\n'].intercalate lines) :
    ∃ line, lines[before.count '\n']? = some line ∧
      line.drop (before.reverse.takeWhile (· != '\n')).length = rest.takeWhile (· != '\n') := by
  induction lines generalizing before with
  | nil => exact absurd rfl nonempty
  | cons line later inductionHypothesis =>
    obtain ⟨first, others⟩ := List.forall_mem_cons.mp oneLine
    -- The place is in the first line, or behind its line feed.
    have here {inLine after : List Char} (inFirst : before ++ inLine = line)
        (isRest : rest = inLine ++ after) (ends : after.takeWhile (· != '\n') = []) :
        ∃ found, (line :: later)[before.count '\n']? = some found ∧
          found.drop (before.reverse.takeWhile (· != '\n')).length =
            rest.takeWhile (· != '\n') := by
      obtain ⟨noFeed, dropped⟩ := drop_column first inFirst
      have oneLine : '\n' ∉ inLine :=
        fun member => first (inFirst ▸ List.mem_append_right _ member)
      refine ⟨line, by rw [noFeed]; rfl, ?_⟩
      rw [dropped, isRest, takeWhile_oneLine oneLine, ends, List.append_nil]
    cases later with
    | nil =>
      rw [List.intercalate_singleton] at split
      exact here split (List.append_nil rest).symm rfl
    | cons next last =>
      rw [List.intercalate_cons_cons, List.append_assoc, List.singleton_append] at split
      rcases List.append_eq_append_iff.mp split with ⟨inLine, isLine, isRest⟩ | ⟨behind, rfl, after⟩
      · exact here isLine.symm isRest rfl
      · rcases List.cons_eq_append_iff.mp after with ⟨rfl, isRest⟩ | ⟨further, rfl, isText⟩
        · exact here (by rw [List.append_nil, List.append_nil]) isRest rfl
        · obtain ⟨found, isFound, dropped⟩ :=
            inductionHypothesis others (List.cons_ne_nil _ _) isText.symm
          refine ⟨found, ?_, ?_⟩
          · rw [List.count_append, List.count_cons_self, List.count_eq_zero.mpr first]
            simpa using isFound
          · rw [column_behind]
            exact dropped

/-- No line of a text holds a line feed. -/
theorem lines_oneLine (text : String) :
    ∀ line ∈ (lines text).map String.toList, '\n' ∉ line := by
  have same : (lines text).map String.toList = linesFrom [] text.toList := by
    simp [lines, Function.comp_def]
  rw [same]
  exact linesFrom_oneLine [] _ List.not_mem_nil

/-- The characters of lines that are put together have a line feed between each two lines, and none
at the end. -/
theorem toList_unlines (lines : List String) :
    (unlines lines).toList = ['\n'].intercalate (lines.map String.toList) :=
  String.toList_intercalate

/-!
## Lexemes in lines
-/

/-- A token of those that cover a text stands in the text, at its position and with a lexeme that is
not empty. -/
theorem Covered.mem {before text : List Char} {tokens : List Token} {token : Token}
    (covered : Covered before tokens text) (member : token ∈ tokens) :
    ∃ front rest, before ++ text = front ++ (token.lexeme.toList ++ rest) ∧
      token.position = Position.behind front ∧ token.lexeme ≠ "" := by
  induction covered with
  | finish skipped => cases member
  | @token before gap after first tokens skipped nonempty stands later inductionHypothesis =>
    rcases List.mem_cons.mp member with rfl | inLater
    · exact ⟨before ++ gap, after, (List.append_assoc _ _ _).symm, stands.position, nonempty⟩
    · obtain ⟨front, rest, split, position, nonempty⟩ := inductionHypothesis inLater
      refine ⟨front, rest, ?_, position, nonempty⟩
      rw [← split]
      simp only [List.append_assoc]

/-- A session shows a lexeme at a position: its line there, from the column on, starts with
the lexeme as far as the first line feed. -/
def Session.Shows (session : Session) (lexeme : String) (position : Position) : Prop :=
  lexeme ≠ "" ∧ 0 < position.column ∧
    ∃ line, session.lineText? position.line = some line ∧
      lexeme.toList.takeWhile (· != '\n') <+: line.toList.drop (position.column - 1)

/-- The lexeme of a token is shown at the position of the token. The end of the input is excluded,
as it has no lexeme to show. -/
theorem Session.shows_token (session : Session) {token : Token}
    (member : token ∈ (Lexed.ofLines session.lines).tokens) (noEnd : token.isEnd = false) :
    session.Shows token.lexeme token.position := by
  have inText : token ∈ (Lexicon.seeded.tokens
      (Scan.ofText (unlines session.lines)).stretches).1 := by
    rcases List.mem_append.mp member with inText | isEnd
    · exact inText
    · rw [List.mem_singleton.mp isEnd] at noEnd
      cases noEnd
  obtain ⟨front, rest, split, position, nonempty⟩ := (covered_text _).mem inText
  rw [List.nil_append, toList_unlines] at split
  have someLine : session.lines.map String.toList ≠ [] := by
    intro noLines
    rw [noLines, List.intercalate_nil] at split
    obtain ⟨-, noText⟩ := List.append_eq_nil_iff.mp split.symm
    exact nonempty (String.toList_eq_nil_iff.mp (List.append_eq_nil_iff.mp noText).1)
  obtain ⟨_, isLine, dropped⟩ := line_behind (lines_oneLine session.text) someLine split.symm
  rw [List.getElem?_map, Option.map_eq_some_iff] at isLine
  obtain ⟨line, isLine, rfl⟩ := isLine
  rw [position]
  refine ⟨nonempty, Nat.lt_add_right _ Nat.one_pos, line, ?_, ?_⟩
  · simp only [lineText?, Position.behind, Nat.add_sub_cancel_left]
    rw [if_neg (by omega)]
    exact isLine
  · simp only [Position.behind, Nat.add_sub_cancel_left]
    rw [dropped, List.takeWhile_append]
    split
    · have begins : token.lexeme.toList.takeWhile (· != '\n') <+: token.lexeme.toList :=
        List.takeWhile_prefix _
      exact begins.trans ⟨_, rfl⟩
    · exact List.prefix_rfl

end IntMain
