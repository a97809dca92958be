import IntMain.Proofs.TreeShape
import IntMain.Token.Lexicon

/-!
# Programs written out

`Node.programWords` writes a program tree as the words of a source text. An expression is
written for the layer of its place, and it is put into parentheses when its own operator
belongs to a looser layer, and only then. The left operand of an operator may be of its
own layer, so that operators of one layer group to the left, and the right operand is of a
tighter one. Comparisons do not group: both their operands are of a tighter layer.

A word is what the grammar sees of a token. Positions, and spellings that the kind gives
already, are left open; `Node.tokens` is one choice for all of them, and it carries the
words of every well-formed tree. Likewise `Node.unmarked` forgets the numbers and the
positions of the nodes, which no text determines.
-/

namespace IntMain

/-- A token without its position. Names and literals have a text besides their kind. -/
inductive Word
  | fixed (kind : TokenKind)
  | name (text : String)
  | literal (text : String)
  deriving DecidableEq, Repr

/-- The word of a token. -/
def Token.word (token : Token) : Word :=
  match token.kind with
  | .identifier => .name token.lexeme
  | .intLiteral => .literal token.lexeme
  | kind => .fixed kind

/-- The words before the end of a token list. -/
def carriedWords (tokens : List Token) : List Word :=
  (tokens.takeWhile (!·.isEnd)).map Token.word

/-- A token that carries a word, with the spelling of its kind, at the start of a text. -/
def Word.token : Word → Token
  | .fixed kind =>
    let entry := fixedSpellings.find? (fun entry => entry.2 = kind)
    ⟨(entry.map Prod.fst).getD "", Position.start, kind⟩
  | .name text => ⟨text, Position.start, .identifier⟩
  | .literal text => ⟨text, Position.start, .intLiteral⟩

/-- Whether the token of a word carries it and does not end the input. -/
def Word.isCarried (word : Word) : Bool :=
  word.token.word == word && !word.token.isEnd

/-- A name is carried, whatever its text is. -/
theorem Word.isCarried_name (text : String) : (Word.name text).isCarried = true := by
  simp [isCarried, token, Token.word, Token.isEnd]

/-- A literal is carried, whether it has a value or not. -/
theorem Word.isCarried_literal (text : String) : (Word.literal text).isCarried = true := by
  simp [isCarried, token, Token.word, Token.isEnd]

/-- Words that are carried are found again in their tokens. If one of them ended the input, the
words behind it would be lost. -/
theorem carriedWords_token {words : List Word} (carried : words.all Word.isCarried = true) :
    carriedWords (words.map Word.token) = words := by
  induction words with
  | nil => rfl
  | cons word later inductionHypothesis =>
    rw [List.all_cons, Bool.and_eq_true, Word.isCarried, Bool.and_eq_true, beq_iff_eq]
      at carried
    obtain ⟨⟨same, goesOn⟩, others⟩ := carried
    rw [List.map_cons, carriedWords, List.takeWhile_cons, if_pos goesOn, List.map_cons, same]
    exact congrArg (word :: ·) (inductionHypothesis others)

/-- The kind of a sign. -/
def UnaryOp.kind : UnaryOp → TokenKind
  | .plus => .plus
  | .minus => .minus

/-- The kind of an assignment operator. -/
def AssignOp.kind : AssignOp → TokenKind
  | .assign => .assign
  | .add => .plusAssign
  | .sub => .minusAssign
  | .mul => .starAssign
  | .div => .slashAssign

namespace BinaryOp

/-- The kind of an operator. -/
def kind : BinaryOp → TokenKind
  | .add => .plus
  | .sub => .minus
  | .mul => .star
  | .div => .slash
  | .lt => .lt
  | .le => .le
  | .gt => .gt
  | .ge => .ge
  | .eq => .eqEq
  | .ne => .ne
  | .and => .andAnd
  | .or => .orOr

/-- The layer of an operator: products above sums, sums above comparisons, and those above
the logical operators, which share one layer. -/
def layer : BinaryOp → Nat
  | .mul => 3
  | .div => 3
  | .add => 2
  | .sub => 2
  | .lt => 1
  | .le => 1
  | .gt => 1
  | .ge => 1
  | .eq => 1
  | .ne => 1
  | .and => 0
  | .or => 0

/-- The loosest layer of a left operand. A comparison takes no comparison on its left, and all other
operators take their own layer there. -/
def leftLayer (op : BinaryOp) : Nat :=
  match op.operatorClass with
  | .relational => op.layer + 1
  | _ => op.layer

/-- The loosest layer of a right operand. -/
def rightLayer (op : BinaryOp) : Nat := op.layer + 1

end BinaryOp

/-- The layer of what needs no parentheses anywhere: names, literals and signed operands. -/
def operandLayer : Nat := 4

/-- Words in parentheses. -/
def parenthesizedWords (words : List Word) : List Word :=
  .fixed .lParen :: words ++ [.fixed .rParen]

/-- Words in braces. -/
def bracedWords (words : List Word) : List Word :=
  .fixed .lBrace :: words ++ [.fixed .rBrace]

/-- How a clause of an if statement starts. -/
def ClauseTag.words : ClauseTag → List Word
  | .first => [.fixed .ifWord]
  | .later => [.fixed .elseWord, .fixed .ifWord]

namespace Node

/-- An expression in a place for a layer. Parentheses stand where the expression is looser than the
place, and nowhere else. -/
def expressionWords : Node → Nat → List Word
  | .integer _ _ lexeme, _ => [.literal lexeme]
  | .identifier _ named, _ => [.name named.name]
  | .unary _ op operand, _ => .fixed op.kind :: operand.expressionWords operandLayer
  | .binary _ op left right, place =>
    let words := left.expressionWords op.leftLayer ++
      .fixed op.kind :: right.expressionWords op.rightLayer
    if op.layer < place then parenthesizedWords words else words
  | _, _ => []

mutual

/-- A statement, a clause or a body. -/
def words : Node → List Word
  | .clause _ tag condition body =>
    tag.words ++ parenthesizedWords (condition.expressionWords 0) ++ body.words
  | .chain _ clauses none => allWords clauses
  | .chain _ clauses (some body) => allWords clauses ++ .fixed .elseWord :: body.words
  | .whileLoop _ condition body =>
    .fixed .whileWord :: parenthesizedWords (condition.expressionWords 0) ++ body.words
  | .doWhile _ body condition =>
    .fixed .doWord :: body.words ++ .fixed .whileWord ::
      parenthesizedWords (condition.expressionWords 0) ++ [.fixed .semicolon]
  | .compound _ statements => bracedWords (allWords statements)
  | .block _ statements => bracedWords (allWords statements)
  | .declaration _ name =>
    .fixed .intWord :: name.expressionWords 0 ++ [.fixed .semicolon]
  | .initialization _ name value =>
    .fixed .intWord :: name.expressionWords 0 ++ .fixed .assign :: value.expressionWords 0 ++
      [.fixed .semicolon]
  | .assignment _ target op value =>
    target.expressionWords 0 ++ .fixed op.kind :: value.expressionWords 0 ++
      [.fixed .semicolon]
  | .returned _ value =>
    .fixed .returnWord :: value.expressionWords 0 ++ [.fixed .semicolon]
  | .empty _ => [.fixed .semicolon]
  | _ => []

/-- Nodes one after the other. -/
def allWords : List Node → List Word
  | [] => []
  | node :: later => node.words ++ allWords later

end

/-- A program with its header. -/
def programWords (root : Node) : List Word :=
  [.fixed .intWord, .fixed .mainWord, .fixed .lParen, .fixed .rParen] ++ root.words

/-- A program as tokens. -/
def tokens (root : Node) : List Token := root.programWords.map Word.token

/-- The mark of a node of which nothing is known. -/
def noMark : Mark := ⟨0, Position.start⟩

mutual

/-- A tree without numbers and positions. -/
def unmarked : Node → Node
  | .integer _ value lexeme => .integer noMark value lexeme
  | .identifier _ named => .identifier noMark named
  | .unary _ op operand => .unary noMark op operand.unmarked
  | .binary _ op left right => .binary noMark op left.unmarked right.unmarked
  | .clause _ tag condition body => .clause noMark tag condition.unmarked body.unmarked
  | .chain _ clauses none => .chain noMark (allUnmarked clauses) none
  | .chain _ clauses (some body) => .chain noMark (allUnmarked clauses) (some body.unmarked)
  | .whileLoop _ condition body => .whileLoop noMark condition.unmarked body.unmarked
  | .doWhile _ body condition => .doWhile noMark body.unmarked condition.unmarked
  | .compound _ statements => .compound noMark (allUnmarked statements)
  | .block _ statements => .block noMark (allUnmarked statements)
  | .declaration _ name => .declaration noMark name.unmarked
  | .initialization _ name value => .initialization noMark name.unmarked value.unmarked
  | .assignment _ target op value => .assignment noMark target.unmarked op value.unmarked
  | .returned _ value => .returned noMark value.unmarked
  | .empty _ => .empty noMark

/-- Trees without numbers and positions. -/
def allUnmarked : List Node → List Node
  | [] => []
  | node :: later => node.unmarked :: allUnmarked later

end

/-- Forgetting the marks of a list is forgetting the marks of both its parts. -/
theorem allUnmarked_append (nodes later : List Node) :
    allUnmarked (nodes ++ later) = allUnmarked nodes ++ allUnmarked later := by
  induction nodes with
  | nil => rfl
  | cons node nodes inductionHypothesis =>
    rw [List.cons_append, allUnmarked, allUnmarked, inductionHypothesis, List.cons_append]

end Node

/-!
## Words and their tokens
-/

/-- What is asked of the words of a part. -/
def Part.Carried : Part → Prop
  | .expression _ node => ∀ place, (node.expressionWords place).all Word.isCarried = true
  | .clause _ node => node.words.all Word.isCarried = true
  | .statement node => node.words.all Word.isCarried = true
  | .body node => node.words.all Word.isCarried = true

/-- A list of nodes is carried if each of them is, since nothing is written between them. -/
theorem carried_allWords {nodes : List Node}
    (each : ∀ node ∈ nodes, node.words.all Word.isCarried = true) :
    (Node.allWords nodes).all Word.isCarried = true := by
  induction nodes with
  | nil => rfl
  | cons node later inductionHypothesis =>
    rw [Node.allWords, List.all_append, each node List.mem_cons_self,
      inductionHypothesis (fun other member => each other (List.mem_cons_of_mem _ member))]
    rfl

/-- A sign is carried, because the lexicon has a spelling for it. -/
theorem UnaryOp.isCarried (op : UnaryOp) : (Word.fixed op.kind).isCarried = true := by
  cases op <;> rfl

/-- An operator is carried, because the lexicon has a spelling for it. -/
theorem BinaryOp.isCarried (op : BinaryOp) : (Word.fixed op.kind).isCarried = true := by
  cases op <;> rfl

/-- An assignment operator is carried, because the lexicon has a spelling for it. -/
theorem AssignOp.isCarried (op : AssignOp) : (Word.fixed op.kind).isCarried = true := by
  cases op <;> rfl

/-- Every part of a well-formed program is written in words that tokens carry. An expression is
carried in every place, with parentheses or without. -/
theorem Part.WellFormed.carried {part : Part} (wellFormed : part.WellFormed .parsed) :
    part.Carried := by
  induction wellFormed with
  | @integer _ _ _ lexeme valued =>
    intro place
    rw [Node.expressionWords, List.all_cons, Word.isCarried_literal]
    rfl
  | @identifier _ _ name used =>
    intro place
    rw [Node.expressionWords, List.all_cons, Word.isCarried_name]
    rfl
  | @unary _ _ op _ _ operand =>
    intro place
    rw [Node.expressionWords, List.all_cons, op.isCarried, operand operandLayer]
    rfl
  | @binary _ _ op _ _ _ _ _ left right =>
    intro place
    simp only [Node.expressionWords]
    by_cases loose : op.layer < place
    · simp only [if_pos loose, parenthesizedWords, List.all_append, List.all_cons,
        op.isCarried, left op.leftLayer, right op.rightLayer]
      rfl
    · simp only [if_neg loose, List.all_append, List.all_cons, op.isCarried,
        left op.leftLayer, right op.rightLayer]
      rfl
  | @clause _ tag _ _ _ _ tested guarded =>
    have tagged : tag.words.all Word.isCarried = true := by cases tag <;> rfl
    simp only [Carried] at guarded
    simp only [Carried, Node.words, parenthesizedWords, List.all_append, List.all_cons, tagged,
      tested 0, guarded]
    rfl
  | chain leading following leadingCarried followingCarried =>
    exact carried_allWords (List.forall_mem_cons.mpr ⟨leadingCarried, followingCarried⟩)
  | chainElse leading following otherwise leadingCarried followingCarried otherwiseCarried =>
    have clauses := carried_allWords
      (List.forall_mem_cons.mpr ⟨leadingCarried, followingCarried⟩)
    simp only [Carried] at otherwiseCarried
    simp only [Carried, Node.words, List.all_append, List.all_cons, clauses, otherwiseCarried]
    rfl
  | whileLoop tested repeated testedCarried repeatedCarried =>
    simp only [Carried] at repeatedCarried
    simp only [Carried, Node.words, parenthesizedWords, List.all_append, List.all_cons,
      testedCarried 0, repeatedCarried]
    rfl
  | doWhile repeated tested repeatedCarried testedCarried =>
    simp only [Carried] at repeatedCarried
    simp only [Carried, Node.words, parenthesizedWords, List.all_append, List.all_cons,
      testedCarried 0, repeatedCarried]
    rfl
  | compound nonempty all allCarried =>
    simp only [Carried, Node.words, bracedWords, List.all_append, List.all_cons,
      carried_allWords allCarried]
    rfl
  | block nonempty all allCarried =>
    simp only [Carried, Node.words, bracedWords, List.all_append, List.all_cons,
      carried_allWords allCarried]
    rfl
  | declaration declared =>
    simp only [Carried, Node.words, Node.expressionWords, List.all_append, List.all_cons,
      Word.isCarried_name]
    rfl
  | initialization declared computed computedCarried =>
    simp only [Carried, Node.words, List.all_append, List.all_cons, Node.expressionWords,
      Word.isCarried_name, computedCarried 0]
    rfl
  | @assignment _ _ _ op _ _ _ computedCarried =>
    simp only [Carried, Node.words, List.all_append, List.all_cons, Node.expressionWords,
      Word.isCarried_name, op.isCarried, computedCarried 0]
    rfl
  | returned computed computedCarried =>
    simp only [Carried, Node.words, List.all_append, List.all_cons, computedCarried 0]
    rfl
  | empty => rfl

/-- The tokens of a well-formed program carry its words. So there are tokens for every such program,
and what is proved of words is about something. -/
theorem carriedWords_tokens {root : Node} (wellFormed : Part.WellFormed .parsed (.body root)) :
    carriedWords root.tokens = root.programWords := by
  have body : root.words.all Word.isCarried = true := wellFormed.carried
  have all : root.programWords.all Word.isCarried = true := by
    rw [Node.programWords, List.all_append, body]
    rfl
  exact carriedWords_token all

end IntMain
