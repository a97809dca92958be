import IntMain.Proofs.Reading
import IntMain.Token.Lexer

/-!
# Reading a written program

The parser takes the words of a well-formed tree back to that tree, by induction on the
form of the tree.

A chain of clauses waits for an else behind its last body. So the end of a statement is
described by the tokens that follow: `AtStatement` says that every token but an else is
read as the start of the next statement.
-/

namespace IntMain

/-!
## Statements
-/

/-- Every token but an else is read as the start of a statement of the body. The parser may still
wait for an else at such a point, so this is said by what it does and not by its state. -/
def AtStatement (body : OpenBody) (enclosing : List Enclosing) (parser : Parser) : Prop :=
  ∃ nextId, ∀ token : Token, token.kind ≠ .elseWord →
    parser.step token = Parser.startStatement nextId body enclosing token

/-- An opening brace is read as the start of a nested body. -/
def AtBody (enclosing : List Enclosing) (parser : Parser) : Prop :=
  ∃ nextId, ∀ token : Token, token.kind = .lBrace →
    parser.step token = .ok ⟨nextId, .inside ⟨token.position, []⟩ enclosing .statement⟩

/-- A statement has been read and added to the body, and the parser is at the next one. -/
def StatementRead (body : OpenBody) (enclosing : List Enclosing) (statement : Node)
    (next : Parser) : Prop :=
  ∃ added, added.unmarked = statement.unmarked ∧ AtStatement (body.add added) enclosing next

/-- A body has been read up to its closing brace. What is done with it depends on what encloses
it. -/
def BodyRead (enclosing : List Enclosing) (statements : List Node) (next : Parser) : Prop :=
  ∃ laterId closed, Node.allUnmarked closed.statements = Node.allUnmarked statements ∧
    next = Parser.closeBody laterId closed enclosing

/-- What is read as each part of a program. -/
def Part.ReadBack : Part → Prop
  | .expression inCondition node =>
    ∀ body enclosing (purpose : Purpose) place waiting, purpose.isCondition = inCondition →
      place ≤ operandLayer → Waiting.Settled place waiting →
      ReadsExpression body enclosing purpose place waiting (node.expressionWords place) node
  | .clause tag node =>
    ∃ guarded, node.words = tag.words ++ guarded ∧
      ∀ nextId body enclosing (chain : OpenChain) position, chain.nextTag = tag →
        Parser.Reads
          ⟨nextId, .inside body enclosing (.openParenthesis (.clauseCondition chain position))⟩
          guarded (fun next => ∃ laterId clause, clause.unmarked = node.unmarked ∧
            next = ⟨laterId, .inside body enclosing (.elseOrStatement (chain.add clause))⟩)
  | .statement node =>
    ∀ body enclosing parser, AtStatement body enclosing parser →
      parser.Reads node.words (StatementRead body enclosing node)
  | .body node =>
    ∃ mark statements, node = .compound mark statements ∧
      ∀ enclosing parser, AtBody enclosing parser →
        parser.Reads node.words (BodyRead enclosing statements)

/-- A state whose goal is a statement is at one. -/
theorem AtStatement.goal {nextId : Nat} {body : OpenBody} {enclosing : List Enclosing} :
    AtStatement body enclosing ⟨nextId, .inside body enclosing .statement⟩ :=
  ⟨nextId, fun _ _ => rfl⟩

/-- A statement is read from its first token on. Statements that begin with a fixed word are read in
this way, and an else is no beginning. -/
theorem AtStatement.reads {body : OpenBody} {enclosing : List Enclosing} {parser : Parser}
    {kind : TokenKind} {words : List Word} {claim : Parser → Prop}
    (start : AtStatement body enclosing parser) (notElse : kind ≠ .elseWord)
    (first : ∀ nextId token, token.kind = kind → ∃ next,
      Parser.startStatement nextId body enclosing token = .ok next ∧ next.Reads words claim) :
    parser.Reads (.fixed kind :: words) claim := by
  obtain ⟨nextId, starts⟩ := start
  refine Parser.Reads.cons ?_
  intro token carries
  have isKind : token.kind = kind := Token.kind_of_fixed carries
  obtain ⟨next, stepped, reads⟩ := first nextId token isKind
  refine ⟨next, ?_, reads⟩
  rw [starts token (by rw [isKind]; exact notElse), stepped]

/-- Statements are read one after the other. They are added to those that the body has already. -/
theorem reads_statements {statements : List Node}
    (all : ∀ statement ∈ statements, (Part.statement statement).ReadBack)
    {body : OpenBody} {enclosing : List Enclosing} {parser : Parser}
    (start : AtStatement body enclosing parser) :
    parser.Reads (Node.allWords statements) (fun next =>
      ∃ added, Node.allUnmarked added = Node.allUnmarked statements ∧
        AtStatement ⟨body.position, body.statements ++ added⟩ enclosing next) := by
  induction statements generalizing body parser with
  | nil =>
    refine .nil ⟨[], rfl, ?_⟩
    rw [List.append_nil]
    exact start
  | cons statement later inductionHypothesis =>
    refine (all statement List.mem_cons_self body enclosing parser start).append ?_
    rintro next ⟨added, same, resumed⟩
    have laterAll : ∀ other ∈ later, (Part.statement other).ReadBack := fun other member =>
      all other (List.mem_cons_of_mem _ member)
    refine (inductionHypothesis laterAll resumed).mono ?_
    rintro final ⟨others, alike, reached⟩
    refine ⟨added :: others, ?_, ?_⟩
    · rw [Node.allUnmarked, Node.allUnmarked, same, alike]
    · rw [List.append_cons]
      exact reached

/-- Statements in braces are read as a body. There is at least one, so the parser does not
put an empty statement of its own there. -/
theorem reads_braced {statements : List Node} (nonempty : statements ≠ [])
    (all : ∀ statement ∈ statements, (Part.statement statement).ReadBack)
    {enclosing : List Enclosing} {parser : Parser} (opens : AtBody enclosing parser) :
    parser.Reads (bracedWords (Node.allWords statements)) (BodyRead enclosing statements) := by
  obtain ⟨nextId, opened⟩ := opens
  refine Parser.Reads.cons ?_
  intro opening carries
  refine ⟨_, opened opening (Token.kind_of_fixed carries),
    (reads_statements all .goal).append ?_⟩
  rintro next ⟨added, same, laterId, starts⟩
  refine Parser.Reads.cons ?_
  intro closing carriesClosing
  have closes : closing.kind = .rBrace := Token.kind_of_fixed carriesClosing
  have someAdded : added ≠ [] := by
    rintro rfl
    cases statements with
    | nil => exact nonempty rfl
    | cons first later => cases same
  refine ⟨Parser.closeBody laterId ⟨opening.position, added⟩ enclosing, ?_,
    .nil ⟨laterId, ⟨opening.position, added⟩, same, rfl⟩⟩
  rw [starts closing (by rw [closes]; decide)]
  simp [Parser.startStatement, closes, someAdded]

section Statement

variable {body : OpenBody} {enclosing : List Enclosing} {parser : Parser} {nextId : Nat}

/-- A goal for an opening brace is at a body, which will belong to the owner of the goal. -/
theorem AtBody.goal {owner : BodyOwner} :
    AtBody (⟨body, owner⟩ :: enclosing) ⟨nextId, .inside body enclosing (.openBrace owner)⟩ := by
  refine ⟨nextId, ?_⟩
  intro token opens
  simp only [Parser.step, Parser.insideStep, opens, if_true]

/-- A body that is read back is a compound of the statements, whatever mark it gets. -/
theorem BodyRead.unmarked {statements : List Node} {mark : Mark} {next : Parser}
    (read : BodyRead enclosing statements next) :
    ∃ laterId closed, (∀ other, (Node.compound other closed.statements).unmarked =
      (Node.compound mark statements).unmarked) ∧
      next = Parser.closeBody laterId closed enclosing := by
  obtain ⟨laterId, closed, same, reached⟩ := read
  refine ⟨laterId, closed, ?_, reached⟩
  intro other
  rw [Node.unmarked, Node.unmarked, same]

/-- The condition of a control statement is read in its parentheses. In a condition all operators
are allowed. -/
theorem reads_tested {purpose : Purpose} {condition : Node}
    (isCondition : purpose.isCondition = true)
    (back : (Part.expression true condition).ReadBack) :
    Parser.Reads ⟨nextId, .inside body enclosing (.openParenthesis purpose)⟩
      (parenthesizedWords (condition.expressionWords 0))
      (ValueRead body enclosing purpose condition) := by
  refine Parser.Reads.cons ?_
  intro token carries
  have opens : token.kind = .lParen := Token.kind_of_fixed carries
  refine ⟨⟨nextId, .inside body enclosing (.operand purpose [])⟩, ?_, ?_⟩
  · simp only [Parser.step, Parser.insideStep, opens, if_true]
  · have closing : purpose.closing = .rParen := by
      rw [Purpose.closing, isCondition]
      rfl
    have reads := back body enclosing purpose 0 [] isCondition (Nat.zero_le _) trivial
    rw [← closing]
    exact reads_closed reads

/-- A value that stands alone is read up to its semicolon. Comparisons and logical operators are not
allowed in it. -/
theorem reads_value {purpose : Purpose} {value : Node} (plain : purpose.isCondition = false)
    (back : (Part.expression false value).ReadBack) :
    Parser.Reads ⟨nextId, .inside body enclosing (.operand purpose [])⟩
      (value.expressionWords 0 ++ [.fixed .semicolon])
      (ValueRead body enclosing purpose value) := by
  have closing : purpose.closing = .semicolon := by
    rw [Purpose.closing, plain]
    rfl
  have reads := back body enclosing purpose 0 [] plain (Nat.zero_le _) trivial
  rw [← closing]
  exact reads_closed reads

/-- A clause is read with its condition and its body. The word in front of it is read by the chain,
which knows whether it is the first one. -/
theorem readBack_clause {mark : Mark} {tag : ClauseTag} {condition guarded : Node}
    (tested : (Part.expression true condition).ReadBack)
    (inner : (Part.body guarded).ReadBack) :
    (Part.clause tag (.clause mark tag condition guarded)).ReadBack := by
  obtain ⟨bodyMark, statements, rfl, readsBody⟩ := inner
  refine ⟨parenthesizedWords (condition.expressionWords 0) ++
    (Node.compound bodyMark statements).words, ?_, ?_⟩
  · rw [Node.words, List.append_assoc]
  · intro nextId body enclosing chain position next
    refine (reads_tested rfl tested).append ?_
    rintro between ⟨laterId, value, token, same, closes, finished⟩
    simp only [Parser.finishExpression, closes, if_true] at finished
    cases finished
    refine (readsBody _ _ .goal).mono ?_
    intro final read
    obtain ⟨finalId, closed, alike, rfl⟩ := read.unmarked
    refine ⟨finalId + 2, .clause ⟨finalId + 1, position⟩ chain.nextTag value
      (.compound ⟨finalId, closed.position⟩ closed.statements), ?_, rfl⟩
    rw [next, Node.unmarked, Node.unmarked, same, alike]

/-- Further clauses are read at the end of a chain, each behind an else. The chain has to have a
clause, for only then an else may follow. -/
theorem reads_laterClauses {clauses : List Node}
    (all : ∀ clause ∈ clauses, (Part.clause .later clause).ReadBack) {chain : OpenChain}
    (started : chain.clauses ≠ []) :
    Parser.Reads ⟨nextId, .inside body enclosing (.elseOrStatement chain)⟩
      (Node.allWords clauses) (fun next =>
        ∃ laterId added, Node.allUnmarked added = Node.allUnmarked clauses ∧
          next = ⟨laterId, .inside body enclosing
            (.elseOrStatement ⟨chain.position, chain.clauses ++ added⟩)⟩) := by
  induction clauses generalizing chain nextId with
  | nil =>
    refine .nil ⟨nextId, [], rfl, ?_⟩
    rw [List.append_nil]
  | cons clause later inductionHypothesis =>
    obtain ⟨guarded, written, reads⟩ := all clause List.mem_cons_self
    have tag : chain.nextTag = .later := by
      simp [OpenChain.nextTag, started]
    rw [Node.allWords, written, List.append_assoc]
    refine Parser.Reads.cons ?_
    intro token carries
    have isElse : token.kind = .elseWord := Token.kind_of_fixed carries
    refine ⟨⟨nextId, .inside body enclosing (.ifOrBody chain)⟩, ?_, Parser.Reads.cons ?_⟩
    · simp only [Parser.step, Parser.insideStep, isElse, if_true]
    · intro second carriesSecond
      have isIf : second.kind = .ifWord := Token.kind_of_fixed carriesSecond
      refine ⟨⟨nextId, .inside body enclosing
        (.openParenthesis (.clauseCondition chain second.position))⟩, ?_,
        (reads nextId body enclosing chain second.position tag).append ?_⟩
      · simp only [Parser.step, Parser.insideStep, isIf]
      · rintro between ⟨laterId, added, same, rfl⟩
        have laterAll : ∀ other ∈ later, (Part.clause .later other).ReadBack :=
          fun other member => all other (List.mem_cons_of_mem _ member)
        have grown : (chain.add added).clauses ≠ [] :=
          List.append_ne_nil_of_right_ne_nil _ (List.cons_ne_nil _ _)
        refine (inductionHypothesis laterAll grown).mono ?_
        rintro final ⟨finalId, others, alike, rfl⟩
        refine ⟨finalId, added :: others, ?_, ?_⟩
        · rw [Node.allUnmarked, Node.allUnmarked, same, alike]
        · rw [List.append_cons]
          rfl

/-- All clauses of a chain are read, and an else may follow. -/
theorem reads_clauses {first : Node} {later : List Node}
    (leading : (Part.clause .first first).ReadBack)
    (following : ∀ clause ∈ later, (Part.clause .later clause).ReadBack)
    (start : AtStatement body enclosing parser) :
    parser.Reads (Node.allWords (first :: later)) (fun next =>
      ∃ laterId chain, Node.allUnmarked chain.clauses = Node.allUnmarked (first :: later) ∧
        next = ⟨laterId, .inside body enclosing (.elseOrStatement chain)⟩) := by
  obtain ⟨guarded, written, reads⟩ := leading
  rw [Node.allWords, written, List.append_assoc]
  refine start.reads (by decide) ?_
  intro nextId token isIf
  refine ⟨⟨nextId, .inside body enclosing
    (.openParenthesis (.clauseCondition ⟨token.position, []⟩ token.position))⟩, ?_,
    (reads nextId body enclosing ⟨token.position, []⟩ token.position rfl).append ?_⟩
  · simp only [Parser.startStatement, isIf]
  · rintro between ⟨laterId, added, same, rfl⟩
    refine (reads_laterClauses following (List.cons_ne_nil _ _)).mono ?_
    rintro final ⟨finalId, others, alike, rfl⟩
    refine ⟨finalId, _, ?_, rfl⟩
    rw [Node.allUnmarked_append, alike, Node.allUnmarked, ← same]
    rfl

/-- An if statement without an else is complete at the next token, which the parser sees only
then. -/
theorem readBack_chain {mark : Mark} {first : Node} {later : List Node}
    (leading : (Part.clause .first first).ReadBack)
    (following : ∀ clause ∈ later, (Part.clause .later clause).ReadBack) :
    (Part.statement (.chain mark (first :: later) none)).ReadBack := by
  intro body enclosing parser start
  refine (reads_clauses leading following start).mono ?_
  rintro next ⟨laterId, chain, same, rfl⟩
  refine ⟨.chain ⟨laterId, chain.position⟩ chain.clauses none, ?_, laterId + 1, ?_⟩
  · rw [Node.unmarked, Node.unmarked, same]
  · intro token notElse
    simp only [Parser.step, Parser.insideStep, notElse, if_false]

/-- An if statement with an else is complete behind the last body. -/
theorem readBack_chainElse {mark : Mark} {first otherwise : Node} {later : List Node}
    (leading : (Part.clause .first first).ReadBack)
    (following : ∀ clause ∈ later, (Part.clause .later clause).ReadBack)
    (inner : (Part.body otherwise).ReadBack) :
    (Part.statement (.chain mark (first :: later) (some otherwise))).ReadBack := by
  obtain ⟨bodyMark, statements, rfl, readsBody⟩ := inner
  intro body enclosing parser start
  refine (reads_clauses leading following start).append ?_
  rintro next ⟨laterId, chain, same, rfl⟩
  refine Parser.Reads.cons ?_
  intro token carries
  have isElse : token.kind = .elseWord := Token.kind_of_fixed carries
  have opens : AtBody (⟨body, .otherwise chain⟩ :: enclosing)
      ⟨laterId, .inside body enclosing (.ifOrBody chain)⟩ := by
    refine ⟨laterId, ?_⟩
    intro brace isBrace
    simp only [Parser.step, Parser.insideStep, isBrace]
  refine ⟨⟨laterId, .inside body enclosing (.ifOrBody chain)⟩, ?_,
    (readsBody _ _ opens).mono ?_⟩
  · simp only [Parser.step, Parser.insideStep, isElse, if_true]
  · intro final read
    obtain ⟨finalId, closed, alike, rfl⟩ := read.unmarked
    refine ⟨_, ?_, .goal⟩
    rw [Node.unmarked, Node.unmarked, same, alike]

/-- A while loop is read with its condition and its body, and is complete at the closing brace. -/
theorem readBack_whileLoop {mark : Mark} {condition repeated : Node}
    (tested : (Part.expression true condition).ReadBack)
    (inner : (Part.body repeated).ReadBack) :
    (Part.statement (.whileLoop mark condition repeated)).ReadBack := by
  obtain ⟨bodyMark, statements, rfl, readsBody⟩ := inner
  intro body enclosing parser start
  rw [Node.words, List.cons_append]
  refine start.reads (by decide) ?_
  intro nextId token isWhile
  refine ⟨⟨nextId, .inside body enclosing (.openParenthesis (.whileCondition token.position))⟩,
    ?_, (reads_tested rfl tested).append ?_⟩
  · simp only [Parser.startStatement, isWhile]
  · rintro between ⟨laterId, value, closing, same, closes, finished⟩
    simp only [Parser.finishExpression, closes, if_true] at finished
    cases finished
    refine (readsBody _ _ .goal).mono ?_
    intro final read
    obtain ⟨finalId, closed, alike, rfl⟩ := read.unmarked
    refine ⟨_, ?_, .goal⟩
    rw [Node.unmarked, Node.unmarked, same, alike]

/-- A do-while loop is read with its body, its condition and its semicolon. -/
theorem readBack_doWhile {mark : Mark} {repeated condition : Node}
    (inner : (Part.body repeated).ReadBack)
    (tested : (Part.expression true condition).ReadBack) :
    (Part.statement (.doWhile mark repeated condition)).ReadBack := by
  obtain ⟨bodyMark, statements, rfl, readsBody⟩ := inner
  intro body enclosing parser start
  rw [Node.words]
  simp only [List.cons_append, List.append_assoc]
  refine start.reads (by decide) ?_
  intro nextId token isDo
  refine ⟨⟨nextId, .inside body enclosing (.openBrace (.doWhile token.position))⟩, ?_,
    (readsBody _ _ .goal).append ?_⟩
  · simp only [Parser.startStatement, isDo]
  · intro between read
    obtain ⟨laterId, closed, alike, rfl⟩ := read.unmarked
    refine Parser.Reads.cons ?_
    intro word carries
    have isWhile : word.kind = .whileWord := Token.kind_of_fixed carries
    refine ⟨⟨laterId + 1, .inside body enclosing (.openParenthesis (.doWhileCondition
      token.position (.compound ⟨laterId, closed.position⟩ closed.statements)))⟩, ?_,
      (reads_tested rfl tested).append ?_⟩
    · simp only [Parser.closeBody, Parser.step, Parser.insideStep, isWhile, if_true]
    · rintro behind ⟨finalId, value, closing, same, closes, finished⟩
      simp only [Parser.finishExpression, closes, if_true] at finished
      cases finished
      refine Parser.Reads.cons ?_
      intro last carriesLast
      have isSemicolon : last.kind = .semicolon := Token.kind_of_fixed carriesLast
      let loop : Node := .doWhile ⟨finalId, token.position⟩
        (.compound ⟨laterId, closed.position⟩ closed.statements) value
      refine ⟨⟨finalId + 1, .inside (body.add loop) enclosing .statement⟩, ?_,
        .nil ⟨loop, ?_, .goal⟩⟩
      · simp only [Parser.step, Parser.insideStep, isSemicolon, if_true, loop]
      · rw [Node.unmarked, Node.unmarked, same, alike]

/-- A block is read as its statements in braces. It has at least one, because braces around nothing
are read with an empty statement in them. -/
theorem readBack_block {mark : Mark} {statements : List Node} (nonempty : statements ≠ [])
    (all : ∀ statement ∈ statements, (Part.statement statement).ReadBack) :
    (Part.statement (.block mark statements)).ReadBack := by
  rintro body enclosing parser ⟨nextId, starts⟩
  have opens : AtBody (⟨body, .block⟩ :: enclosing) parser := by
    refine ⟨nextId, ?_⟩
    intro token isBrace
    rw [starts token (by rw [isBrace]; decide)]
    simp only [Parser.startStatement, isBrace]
  refine (reads_braced nonempty all opens).mono ?_
  rintro final ⟨laterId, closed, same, rfl⟩
  refine ⟨_, ?_, .goal⟩
  rw [Node.unmarked, Node.unmarked, same]

/-- A body is read as its statements in braces, whatever it belongs to. An empty body holds an empty
statement. -/
theorem readBack_compound {mark : Mark} {statements : List Node} (nonempty : statements ≠ [])
    (all : ∀ statement ∈ statements, (Part.statement statement).ReadBack) :
    (Part.body (.compound mark statements)).ReadBack :=
  ⟨mark, statements, rfl, fun _ _ opens => reads_braced nonempty all opens⟩

/-- The name of a declaration is read as one of known type. Behind it comes a semicolon or a value,
which is left to what follows. -/
theorem reads_declaredName {name : Identifier} (nameMark : Mark) {words : List Word}
    {claim : Parser → Prop} (declared : Naming.parsed.declared name)
    (start : AtStatement body enclosing parser)
    (others : ∀ nextId position node, node.unmarked = (Node.identifier nameMark name).unmarked →
      Parser.Reads ⟨nextId, .inside body enclosing (.declarationEnd position node)⟩ words
        claim) :
    parser.Reads (.fixed .intWord :: .name name.name :: words) claim := by
  refine start.reads (by decide) ?_
  intro nextId token isInt
  refine ⟨⟨nextId, .inside body enclosing (.declaredName token.position)⟩, ?_,
    Parser.Reads.cons ?_⟩
  · simp only [Parser.startStatement, isInt]
  · intro second carries
    obtain ⟨isName, text⟩ := Token.of_name carries
    refine ⟨⟨nextId + 1, .inside body enclosing (.declarationEnd token.position (.identifier
      ⟨nextId, second.position⟩ { name := second.lexeme, type := some .int }))⟩, ?_,
      others _ _ _ ?_⟩
    · simp only [Parser.step, Parser.insideStep, isName, if_true]
    · exact unmarked_declared declared text _ _

/-- A declaration is read with its semicolon. -/
theorem readBack_declaration {mark nameMark : Mark} {name : Identifier}
    (declared : Naming.parsed.declared name) :
    (Part.statement (.declaration mark (.identifier nameMark name))).ReadBack := by
  intro body enclosing parser start
  refine reads_declaredName nameMark declared start ?_
  intro nextId position node same
  refine Parser.Reads.cons ?_
  intro token carries
  have isSemicolon : token.kind = .semicolon := Token.kind_of_fixed carries
  refine ⟨⟨nextId + 1, .inside (body.add (.declaration ⟨nextId, position⟩ node)) enclosing
    .statement⟩, ?_, .nil ⟨_, ?_, .goal⟩⟩
  · simp only [Parser.step, Parser.insideStep, isSemicolon]
  · rw [Node.unmarked, Node.unmarked, same]

/-- A declaration with a value is read up to its semicolon. -/
theorem readBack_initialization {mark nameMark : Mark} {name : Identifier} {value : Node}
    (declared : Naming.parsed.declared name)
    (computed : (Part.expression false value).ReadBack) :
    (Part.statement (.initialization mark (.identifier nameMark name) value)).ReadBack := by
  intro body enclosing parser start
  refine reads_declaredName nameMark declared start ?_
  intro nextId position node same
  refine Parser.Reads.cons ?_
  intro token carries
  have isAssign : token.kind = .assign := Token.kind_of_fixed carries
  refine ⟨⟨nextId, .inside body enclosing (.operand (.initialValue position node) [])⟩, ?_,
    (reads_value rfl computed).mono ?_⟩
  · simp only [Parser.step, Parser.insideStep, isAssign]
  · rintro final ⟨laterId, result, closing, alike, closes, finished⟩
    simp only [Parser.finishExpression, closes, if_true] at finished
    cases finished
    refine ⟨_, ?_, .goal⟩
    rw [Node.unmarked, Node.unmarked, same, alike]

/-- An assignment is read up to its semicolon, with any of its operators. -/
theorem readBack_assignment {mark nameMark : Mark} {name : Identifier} {op : AssignOp}
    {value : Node} (used : Naming.parsed.used name)
    (computed : (Part.expression false value).ReadBack) :
    (Part.statement (.assignment mark (.identifier nameMark name) op value)).ReadBack := by
  rintro body enclosing parser ⟨nextId, starts⟩
  refine Parser.Reads.cons ?_
  intro token carries
  obtain ⟨isName, text⟩ := Token.of_name carries
  let target : Node := .identifier ⟨nextId, token.position⟩ { name := token.lexeme }
  refine ⟨⟨nextId + 1, .inside body enclosing (.assignOperator target)⟩, ?_,
    Parser.Reads.cons ?_⟩
  · rw [starts token (by rw [isName]; decide)]
    simp only [Parser.startStatement, isName, target]
  · intro second carriesSecond
    have isOperator : second.kind = op.kind := Token.kind_of_fixed carriesSecond
    refine ⟨⟨nextId + 1, .inside body enclosing
      (.operand (.assignedValue target.position target op) [])⟩, ?_,
      (reads_value rfl computed).mono ?_⟩
    · simp only [Parser.step, Parser.insideStep, isOperator, op.ofKind_kind]
    · rintro final ⟨laterId, result, closing, alike, closes, finished⟩
      simp only [Parser.finishExpression, closes, if_true] at finished
      cases finished
      have same : target.unmarked = (Node.identifier nameMark name).unmarked :=
        unmarked_used used text _ _
      refine ⟨.assignment ⟨laterId, target.position⟩ target op result, ?_, .goal⟩
      show Node.assignment Node.noMark target.unmarked op result.unmarked = _
      rw [same, alike]
      rfl

/-- A return is read up to its semicolon. It always has a value. -/
theorem readBack_returned {mark : Mark} {value : Node}
    (computed : (Part.expression false value).ReadBack) :
    (Part.statement (.returned mark value)).ReadBack := by
  intro body enclosing parser start
  rw [Node.words, List.cons_append]
  refine start.reads (by decide) ?_
  intro nextId token isReturn
  refine ⟨⟨nextId, .inside body enclosing (.operand (.returnValue token.position) [])⟩, ?_,
    (reads_value rfl computed).mono ?_⟩
  · simp only [Parser.startStatement, isReturn]
  · rintro final ⟨laterId, result, closing, alike, closes, finished⟩
    simp only [Parser.finishExpression, closes, if_true] at finished
    cases finished
    refine ⟨_, ?_, .goal⟩
    rw [Node.unmarked, Node.unmarked, alike]

/-- An empty statement is read as one, which is written as a semicolon. -/
theorem readBack_empty {mark : Mark} : (Part.statement (.empty mark)).ReadBack := by
  intro body enclosing parser start
  refine start.reads (by decide) ?_
  intro nextId token isSemicolon
  refine ⟨⟨nextId + 1, .inside (body.add (.empty ⟨nextId, token.position⟩)) enclosing
    .statement⟩, ?_, .nil ⟨.empty ⟨nextId, token.position⟩, rfl, .goal⟩⟩
  simp only [Parser.startStatement, isSemicolon]

end Statement

/-!
## Whole programs
-/

/-- An operation is read with parentheses around it where its layer is too loose. Inside of them any
layer may stand, so the two cases are the same from there on. -/
theorem readBack_binary {inCondition : Bool} {mark : Mark} {op : BinaryOp}
    {left right : Node} (allowed : op.Allowed inCondition)
    (first : (Part.expression inCondition left).ReadBack)
    (second : (Part.expression inCondition right).ReadBack) :
    (Part.expression inCondition (.binary mark op left right)).ReadBack := by
  intro body enclosing purpose place waiting same tight settled
  subst same
  have operation (layer : Nat) (outer : List Waiting) (fits : layer ≤ op.tightness)
      (ready : Waiting.Settled layer outer) :
      ReadsExpression body enclosing purpose layer outer
        (left.expressionWords op.leftLayer ++
          .fixed op.kind :: right.expressionWords op.rightLayer)
        (.binary mark op left right) := by
    obtain ⟨above, below⟩ := op.leftBound_le
    have leftReady : Waiting.Settled op.leftLayer outer := by
      rw [op.leftLayer_eq]
      exact ready.mono (Nat.le_trans fits above)
    have leftTight : op.leftLayer ≤ operandLayer := by
      rw [op.leftLayer_eq]
      exact Nat.le_succ_of_le below
    have rightTight : op.rightLayer ≤ operandLayer := by
      rw [BinaryOp.rightLayer, op.layer_eq]
      exact Nat.succ_le_succ (Nat.le_trans above below)
    refine reads_operation allowed fits ready
      (first _ _ purpose _ _ rfl leftTight leftReady) ?_
    intro position value
    refine second _ _ purpose _ _ rfl rightTight ?_
    -- The operator itself is what waits now, and it is looser than its right operand.
    show op.tightness < op.layer + 1
    rw [op.layer_eq]
    exact Nat.lt_succ_self _
  rw [Node.expressionWords]
  by_cases loose : op.layer < place
  · simp only [if_pos loose]
    exact reads_parenthesized (operation 0 (.parenthesis :: waiting) (Nat.zero_le _) trivial)
  · simp only [if_neg loose]
    exact operation place waiting (by rw [← op.layer_eq]; omega) settled

/-- Every part of a well-formed program is read back, by induction on its form. There is a lemma
above for each form. -/
theorem Part.WellFormed.readBack {part : Part} (wellFormed : part.WellFormed .parsed) :
    part.ReadBack := by
  induction wellFormed with
  | integer valued => exact fun _ _ _ _ _ _ _ _ => reads_integer valued
  | identifier used => exact fun _ _ _ _ _ _ _ _ => reads_identifier used
  | unary inner inductionHypothesis =>
    intro body enclosing purpose place waiting same tight settled
    refine reads_unary tight ?_
    intro position
    exact inductionHypothesis _ _ _ _ _ same (Nat.le_refl _) (Nat.le_refl _)
  | binary allowed first second firstBack secondBack =>
    exact readBack_binary allowed firstBack secondBack
  | clause tested guarded testedBack guardedBack =>
    exact readBack_clause testedBack guardedBack
  | chain leading following leadingBack followingBack =>
    exact readBack_chain leadingBack followingBack
  | chainElse leading following otherwise leadingBack followingBack otherwiseBack =>
    exact readBack_chainElse leadingBack followingBack otherwiseBack
  | whileLoop tested repeated testedBack repeatedBack =>
    exact readBack_whileLoop testedBack repeatedBack
  | doWhile repeated tested repeatedBack testedBack =>
    exact readBack_doWhile repeatedBack testedBack
  | compound nonempty all allBack => exact readBack_compound nonempty allBack
  | block nonempty all allBack => exact readBack_block nonempty allBack
  | declaration declared => exact readBack_declaration declared
  | initialization declared computed computedBack =>
    exact readBack_initialization declared computedBack
  | assignment used computed computedBack => exact readBack_assignment used computedBack
  | returned computed computedBack => exact readBack_returned computedBack
  | empty => exact readBack_empty

/-- The words of a program are read up to its last brace. What the parser then has is the tree, but
for its marks. -/
theorem Parser.reads_program {root : Node}
    (wellFormed : Part.WellFormed .parsed (.body root)) :
    Parser.start.Reads root.programWords (fun next =>
      ∃ tree, next.progress = .finished tree ∧ tree.unmarked = root.unmarked) := by
  have header (expected next : TokenKind) (later : List TokenKind) {words : List Word}
      {claim : Parser → Prop}
      (others : Parser.Reads ⟨0, .header next later⟩ words claim) :
      Parser.Reads ⟨0, .header expected (next :: later)⟩ (.fixed expected :: words) claim := by
    refine Parser.Reads.cons ?_
    intro token carries
    have isExpected : token.kind = expected := Token.kind_of_fixed carries
    refine ⟨⟨0, .header next later⟩, ?_, others⟩
    simp only [Parser.step, isExpected, if_true]
  have opens : AtBody [] ⟨0, .header .lBrace []⟩ := by
    refine ⟨0, ?_⟩
    intro token isBrace
    simp only [Parser.step, isBrace, if_true]
  obtain ⟨mark, statements, rfl, readsBody⟩ := wellFormed.readBack
  refine header _ _ _ (header _ _ _ (header _ _ _ (header _ _ _ ?_)))
  refine (readsBody _ _ opens).mono ?_
  intro final read
  obtain ⟨laterId, closed, same, rfl⟩ := read.unmarked
  exact ⟨_, rfl, same _⟩

/-- Parsing undoes writing. A well-formed tree is written with parentheses only where the
layers of its operators ask for them. Its tokens carry these words, and every token list
that does so before its end is accepted, with the same tree up to numbers and positions. -/
theorem parsing_undoes_writing {tree : Node}
    (wellFormed : Part.WellFormed .parsed (.body tree)) :
    carriedWords tree.tokens = tree.programWords ∧
      ∀ tokens, carriedWords tokens = tree.programWords →
        ∃ parsed, Parsed.ofTokens tokens = .ok parsed ∧
          parsed.root.unmarked = tree.unmarked := by
  refine ⟨carriedWords_tokens wellFormed, ?_⟩
  intro tokens written
  obtain ⟨⟨nextId, progress⟩, run, root, rfl, same⟩ :=
    Parser.reads_program wellFormed _ written
  refine ⟨⟨root, [.debug ("parsed " ++ Text.decimal nextId ++ " nodes")]⟩, ?_, same⟩
  rw [Parsed.ofTokens, run]
  rfl

/-- A program with more parentheses than it needs, an empty body and a loop without its
semicolon. -/
def overwritten : String :=
  "int main() \x7b do \x7b if (((a < 1) == (2)) && (a || -(b + 1))) \x7b \x7d \x7d " ++
    "while (((2 * 3)) - (4 - 5)) \x7d"

/-- The same program as it is written. -/
def rewritten : String :=
  "int main() \x7b do \x7b if ((a < 1) == 2 && (a || -(b + 1))) \x7b ; \x7d \x7d " ++
    "while (2 * 3 - (4 - 5)); \x7d"

/-- The two programs above are parsed to the same tree. The second one is what is written for the
tree of the first, without the parentheses that are not needed. -/
theorem parsing_undoes_writing_rewritten :
    ∃ first, Parsed.ofTokens (Lexed.ofText overwritten).tokens = .ok first ∧
      Part.WellFormed .parsed (.body first.root) ∧
      carriedWords (Lexed.ofText rewritten).tokens = first.root.programWords ∧
      ∃ second, Parsed.ofTokens (Lexed.ofText rewritten).tokens = .ok second ∧
        second.root.unmarked = first.root.unmarked := by
  have evaluated : (Parsed.ofTokens (Lexed.ofText overwritten).tokens).toOption.any
      (fun first => carriedWords (Lexed.ofText rewritten).tokens =
        first.root.programWords) = true := by
    decide +kernel
  obtain ⟨first, accepted, checked⟩ := exists_ok_of_any evaluated
  have written := of_decide_eq_true checked
  have wellFormed := Parsed.wellFormed accepted
  exact ⟨first, accepted, wellFormed, written,
    (parsing_undoes_writing wellFormed).2 _ written⟩

end IntMain
