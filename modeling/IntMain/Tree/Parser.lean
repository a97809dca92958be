import IntMain.Fault
import IntMain.Log
import IntMain.Token.IntegerValue
import IntMain.Tree.Basic

/-!
# From tokens to a tree

A program is `int main ( )` followed by a body of statements in braces. The parser
reads it one token at a time: `Parser.step` takes the part of the program that has
been read and the next token to the part that has then been read, or refuses the
token. So the first token that cannot continue a program is the one reported.

What has been read is kept as a program with a hole. `Goal` says what belongs into
the hole, `OpenBody` holds the finished statements of the innermost body, and a list
of `Enclosing` bodies leads from there to the outermost. Inside an expression a list
of `Waiting` operators and parentheses leads from the hole outwards. Comparisons and
logical operators belong to conditions, and so do parentheses around them.

Nodes are numbered from zero in the order in which they are completed, children
before their parent.
-/

namespace IntMain

/-- An if statement that may still grow: its position and its clauses so far. -/
structure OpenChain where
  position : Position
  clauses : List Node
  deriving Repr

namespace OpenChain

/-- The tag of the next clause. -/
def nextTag (chain : OpenChain) : ClauseTag :=
  if chain.clauses.isEmpty then .first else .later

/-- The chain with one more clause. -/
def add (chain : OpenChain) (clause : Node) : OpenChain :=
  { chain with clauses := chain.clauses ++ [clause] }

end OpenChain

/-- What an expression is read for. -/
inductive Purpose
  | initialValue (position : Position) (name : Node)
  | assignedValue (position : Position) (target : Node) (op : AssignOp)
  | returnValue (position : Position)
  | clauseCondition (chain : OpenChain) (position : Position)
  | whileCondition (position : Position)
  | doWhileCondition (position : Position) (body : Node)
  deriving Repr

namespace Purpose

/-- Whether the expression is a condition. -/
def isCondition : Purpose → Bool
  | .initialValue _ _ => false
  | .assignedValue _ _ _ => false
  | .returnValue _ => false
  | .clauseCondition _ _ => true
  | .whileCondition _ => true
  | .doWhileCondition _ _ => true

/-- The kind of the token that has to follow the expression. -/
def closing (purpose : Purpose) : TokenKind :=
  if purpose.isCondition then .rParen else .semicolon

end Purpose

/-- What waits for an operand to its right. -/
inductive Waiting
  | sign (position : Position) (op : UnaryOp)
  | operator (position : Position) (op : BinaryOp) (left : Node)
  | parenthesis
  deriving Repr

namespace Waiting

/-- Give an operand to the signs and operators that bind at least as tightly as
`bound`, innermost first and up to a parenthesis. Each makes a node, numbered from
`nextId`. -/
def collapse (bound : Nat) : List Waiting → Node → Nat → List Waiting × Node × Nat
  | .sign position op :: outer, operand, nextId =>
    collapse bound outer (.unary ⟨nextId, position⟩ op operand) (nextId + 1)
  | .operator position op left :: outer, operand, nextId =>
    if bound ≤ op.tightness then
      collapse bound outer (.binary ⟨nextId, position⟩ op left operand) (nextId + 1)
    else (.operator position op left :: outer, operand, nextId)
  | .parenthesis :: outer, operand, nextId => (.parenthesis :: outer, operand, nextId)
  | [], operand, nextId => ([], operand, nextId)

/-- Whether the innermost thing that waits is a comparison. -/
def comparing : List Waiting → Bool
  | .operator _ op _ :: _ => op.operatorClass == .relational
  | _ => false

/-- Whether a parenthesis waits to be closed. -/
def inParenthesis (waiting : List Waiting) : Bool :=
  waiting.any (fun one => match one with
    | .parenthesis => true
    | _ => false)

end Waiting

/-- The least tightness with which an operator to the left takes the operand before
`op`. Operators of one tightness group to the left, but a comparison never takes
another one as its operand. -/
def BinaryOp.leftBound (op : BinaryOp) : Nat :=
  match op.operatorClass with
  | .relational => op.tightness + 1
  | _ => op.tightness

/-- Whether `op` may continue an expression of which `waiting` is left open. -/
def Purpose.admits (purpose : Purpose) (waiting : List Waiting) (op : BinaryOp) : Bool :=
  match op.operatorClass with
  | .arithmetic => true
  | .relational => purpose.isCondition && !Waiting.comparing waiting
  | .logical => purpose.isCondition

/-- A body in braces: the position of its opening brace and its statements so far. -/
structure OpenBody where
  position : Position
  statements : List Node
  deriving Repr

/-- The body with one more statement. -/
def OpenBody.add (body : OpenBody) (statement : Node) : OpenBody :=
  { body with statements := body.statements ++ [statement] }

/-- What a body in braces belongs to. -/
inductive BodyOwner
  | block
  | clause (chain : OpenChain) (position : Position) (condition : Node)
  | otherwise (chain : OpenChain)
  | whileLoop (position : Position) (condition : Node)
  | doWhile (position : Position)
  deriving Repr

/-- A body that waits for a nested one, and what the nested one belongs to. -/
structure Enclosing where
  body : OpenBody
  owner : BodyOwner
  deriving Repr

/-- What the next token has to start or continue. -/
inductive Goal
  | statement
  | declaredName (position : Position)
  | declarationEnd (position : Position) (name : Node)
  | assignOperator (target : Node)
  | openParenthesis (purpose : Purpose)
  | operand (purpose : Purpose) (waiting : List Waiting)
  | operator (purpose : Purpose) (waiting : List Waiting) (operand : Node)
  | openBrace (owner : BodyOwner)
  | elseOrStatement (chain : OpenChain)
  | ifOrBody (chain : OpenChain)
  | whileWord (position : Position) (body : Node)
  | semicolonOrStatement
  deriving Repr

/-- What a goal expects at the end of the input. -/
def Goal.expected : Goal → String
  | .statement => TokenKind.rBrace.name
  | .declaredName _ => TokenKind.identifier.name
  | .declarationEnd _ _ => "';' or '='"
  | .assignOperator _ => "assignment operator"
  | .openParenthesis _ => TokenKind.lParen.name
  | .operand _ _ => "expression"
  | .operator purpose waiting _ =>
    if Waiting.inParenthesis waiting then TokenKind.rParen.name else purpose.closing.name
  | .openBrace _ => TokenKind.lBrace.name
  | .elseOrStatement _ => TokenKind.rBrace.name
  | .ifOrBody _ => TokenKind.lBrace.name
  | .whileWord _ _ => TokenKind.whileWord.name
  | .semicolonOrStatement => TokenKind.rBrace.name

/-- How far a program has been read. -/
inductive Progress
  /-- Before the body: the kind of the next token and those behind it. -/
  | header (expected : TokenKind) (later : List TokenKind)
  /-- In a body, with the bodies around it, innermost first. -/
  | inside (body : OpenBody) (enclosing : List Enclosing) (goal : Goal)
  /-- Behind the body. -/
  | finished (root : Node)
  deriving Repr

/-- The state of reading a program: the number of the next node and the progress. -/
structure Parser where
  nextId : Nat
  progress : Progress
  deriving Repr

namespace Parser

/-- Nothing has been read. -/
def start : Parser :=
  ⟨0, .header .intWord [.mainWord, .lParen, .rParen, .lBrace]⟩

/-- The closing brace of the innermost body has been read. -/
def closeBody (nextId : Nat) (body : OpenBody) : List Enclosing → Parser
  | [] => ⟨nextId + 1, .finished (.compound ⟨nextId, body.position⟩ body.statements)⟩
  | ⟨outer, owner⟩ :: enclosing =>
    let inside (count : Nat) (outer : OpenBody) (goal : Goal) : Parser :=
      ⟨nextId + count, .inside outer enclosing goal⟩
    let compound : Node := .compound ⟨nextId, body.position⟩ body.statements
    match owner with
    | .block =>
      inside 1 (outer.add (.block ⟨nextId, body.position⟩ body.statements)) .statement
    | .clause chain position condition =>
      let clause := .clause ⟨nextId + 1, position⟩ chain.nextTag condition compound
      inside 2 outer (.elseOrStatement (chain.add clause))
    | .otherwise chain =>
      inside 2 (outer.add (.chain ⟨nextId + 1, chain.position⟩ chain.clauses (some compound)))
        .statement
    | .whileLoop position condition =>
      inside 2 (outer.add (.whileLoop ⟨nextId + 1, position⟩ condition compound)) .statement
    | .doWhile position => inside 1 outer (.whileWord position compound)

/-- Read the first token of a statement, or the brace that closes the body. A body
without any statement gets an empty one. -/
def startStatement (nextId : Nat) (body : OpenBody) (enclosing : List Enclosing)
    (token : Token) : Except Fault Parser :=
  let inside (goal : Goal) : Except Fault Parser := .ok ⟨nextId, .inside body enclosing goal⟩
  let mark : Mark := ⟨nextId, token.position⟩
  match token.kind with
  | .ifWord =>
    inside (.openParenthesis (.clauseCondition ⟨token.position, []⟩ token.position))
  | .whileWord => inside (.openParenthesis (.whileCondition token.position))
  | .doWord => inside (.openBrace (.doWhile token.position))
  | .intWord => inside (.declaredName token.position)
  | .identifier =>
    let target := .identifier mark { name := token.lexeme }
    .ok ⟨nextId + 1, .inside body enclosing (.assignOperator target)⟩
  | .returnWord => inside (.operand (.returnValue token.position) [])
  | .lBrace =>
    .ok ⟨nextId, .inside ⟨token.position, []⟩ (⟨body, .block⟩ :: enclosing) .statement⟩
  | .semicolon => .ok ⟨nextId + 1, .inside (body.add (.empty mark)) enclosing .statement⟩
  | .rBrace =>
    if body.statements.isEmpty then .ok (closeBody (nextId + 1) (body.add (.empty mark)) enclosing)
    else .ok (closeBody nextId body enclosing)
  | _ => .error (.unexpected "statement" token)

/-- Read the token behind a finished expression. -/
def finishExpression (nextId : Nat) (body : OpenBody) (enclosing : List Enclosing)
    (purpose : Purpose) (value : Node) (token : Token) : Except Fault Parser :=
  let statement (node : Node) (goal : Goal) : Except Fault Parser :=
    .ok ⟨nextId + 1, .inside (body.add node) enclosing goal⟩
  let inside (goal : Goal) : Except Fault Parser := .ok ⟨nextId, .inside body enclosing goal⟩
  if token.kind = purpose.closing then
    match purpose with
    | .initialValue position name =>
      statement (.initialization ⟨nextId, position⟩ name value) .statement
    | .assignedValue position target op =>
      statement (.assignment ⟨nextId, position⟩ target op value) .statement
    | .returnValue position => statement (.returned ⟨nextId, position⟩ value) .statement
    | .clauseCondition chain position => inside (.openBrace (.clause chain position value))
    | .whileCondition position => inside (.openBrace (.whileLoop position value))
    | .doWhileCondition position loopBody =>
      statement (.doWhile ⟨nextId, position⟩ loopBody value) .semicolonOrStatement
  else .error (.unexpected purpose.closing.name token)

/-- Read a token behind an operand that does not continue the expression: it closes the
innermost parenthesis or follows the whole expression. -/
def closeExpression (nextId : Nat) (body : OpenBody) (enclosing : List Enclosing)
    (purpose : Purpose) (waiting : List Waiting) (operand : Node) (token : Token) :
    Except Fault Parser :=
  match Waiting.collapse 0 waiting operand nextId with
  | (.parenthesis :: outer, operand, nextId) =>
    if token.kind = .rParen then
      .ok ⟨nextId, .inside body enclosing (.operator purpose outer operand)⟩
    else .error (.unexpected TokenKind.rParen.name token)
  | (_, value, nextId) => finishExpression nextId body enclosing purpose value token

/-- Read the token behind an operand. -/
def continueExpression (nextId : Nat) (body : OpenBody) (enclosing : List Enclosing)
    (purpose : Purpose) (waiting : List Waiting) (operand : Node) (token : Token) :
    Except Fault Parser :=
  match BinaryOp.ofKind? token.kind with
  | some op =>
    let (outer, left, laterId) := Waiting.collapse op.leftBound waiting operand nextId
    if purpose.admits outer op then
      let waiting := .operator token.position op left :: outer
      .ok ⟨laterId, .inside body enclosing (.operand purpose waiting)⟩
    else closeExpression nextId body enclosing purpose waiting operand token
  | none => closeExpression nextId body enclosing purpose waiting operand token

/-- Read the first token of an operand. -/
def startOperand (nextId : Nat) (body : OpenBody) (enclosing : List Enclosing)
    (purpose : Purpose) (waiting : List Waiting) (token : Token) : Except Fault Parser :=
  let mark : Mark := ⟨nextId, token.position⟩
  let operand (node : Node) : Except Fault Parser :=
    .ok ⟨nextId + 1, .inside body enclosing (.operator purpose waiting node)⟩
  let await (one : Waiting) : Except Fault Parser :=
    .ok ⟨nextId, .inside body enclosing (.operand purpose (one :: waiting))⟩
  match token.kind with
  | .plus => await (.sign token.position .plus)
  | .minus => await (.sign token.position .minus)
  | .lParen => await .parenthesis
  | .identifier => operand (.identifier mark { name := token.lexeme })
  | .intLiteral =>
    match integerValue? token.lexeme with
    | some value => operand (.integer mark value token.lexeme)
    | none => .error (.invalidLiteral token.lexeme token.position)
  | _ => .error (.unexpected "expression" token)

/-- Read a token inside a body. -/
def insideStep (nextId : Nat) (body : OpenBody) (enclosing : List Enclosing) (goal : Goal)
    (token : Token) : Except Fault Parser :=
  let inside (goal : Goal) : Except Fault Parser := .ok ⟨nextId, .inside body enclosing goal⟩
  let nested (owner : BodyOwner) : Except Fault Parser :=
    .ok ⟨nextId, .inside ⟨token.position, []⟩ (⟨body, owner⟩ :: enclosing) .statement⟩
  let refused : Except Fault Parser := .error (.unexpected goal.expected token)
  match goal with
  | .statement => startStatement nextId body enclosing token
  | .declaredName position =>
    if token.kind = .identifier then
      let name :=
        .identifier ⟨nextId, token.position⟩ { name := token.lexeme, type := some .int }
      .ok ⟨nextId + 1, .inside body enclosing (.declarationEnd position name)⟩
    else refused
  | .declarationEnd position name =>
    match token.kind with
    | .semicolon =>
      .ok ⟨nextId + 1,
        .inside (body.add (.declaration ⟨nextId, position⟩ name)) enclosing .statement⟩
    | .assign => inside (.operand (.initialValue position name) [])
    | _ => refused
  | .assignOperator target =>
    match AssignOp.ofKind? token.kind with
    | some op => inside (.operand (.assignedValue target.position target op) [])
    | none => refused
  | .openParenthesis purpose =>
    if token.kind = .lParen then inside (.operand purpose []) else refused
  | .operand purpose waiting => startOperand nextId body enclosing purpose waiting token
  | .operator purpose waiting operand =>
    continueExpression nextId body enclosing purpose waiting operand token
  | .openBrace owner => if token.kind = .lBrace then nested owner else refused
  | .elseOrStatement chain =>
    if token.kind = .elseWord then inside (.ifOrBody chain)
    else
      startStatement (nextId + 1)
        (body.add (.chain ⟨nextId, chain.position⟩ chain.clauses none)) enclosing token
  | .ifOrBody chain =>
    match token.kind with
    | .ifWord => inside (.openParenthesis (.clauseCondition chain token.position))
    | .lBrace => nested (.otherwise chain)
    | _ => refused
  | .whileWord position loopBody =>
    if token.kind = .whileWord then
      inside (.openParenthesis (.doWhileCondition position loopBody))
    else refused
  | .semicolonOrStatement =>
    if token.kind = .semicolon then inside .statement
    else startStatement nextId body enclosing token

/-- Read one token, which does not end the input. -/
def step (parser : Parser) (token : Token) : Except Fault Parser :=
  match parser.progress with
  | .header expected later =>
    if token.kind = expected then
      match later with
      | [] => .ok ⟨parser.nextId, .inside ⟨token.position, []⟩ [] .statement⟩
      | next :: later => .ok ⟨parser.nextId, .header next later⟩
    else .error (.unexpected expected.name token)
  | .inside body enclosing goal => insideStep parser.nextId body enclosing goal token
  | .finished _ => .error (.unexpected "end of input" token)

/-- Read the token that ends the input, which it may do behind the body only. -/
def finish (parser : Parser) (token : Token) : Except Fault Node :=
  match parser.progress with
  | .header expected _ => .error (.unexpected expected.name token)
  | .inside _ _ goal => .error (.unexpected goal.expected token)
  | .finished root => .ok root

end Parser

/-- A program's tree and what there is to say about it. -/
structure Parsed where
  root : Node
  log : List LogRecord
  deriving Repr

/-- The tree of a token stream. The first end token ends the input, and a stream
without one is completed. -/
def Parsed.ofTokens (tokens : List Token) : Except Fault Parsed := do
  let parser ← (tokens.takeWhile (!·.isEnd)).foldlM Parser.step Parser.start
  let root ← parser.finish ((tokens.find? Token.isEnd).getD (Token.missingEnd tokens))
  return ⟨root, [.debug ("parsed " ++ Text.decimal parser.nextId ++ " nodes")]⟩

end IntMain
