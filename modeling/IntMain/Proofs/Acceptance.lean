import IntMain.Proofs.Grammar
import IntMain.Tree.Parser

/-!
# The parser accepts its grammar

A state of the parser owes the rest of a program. `Parser.owed` writes it down as forms of
the grammar, one after the other: what the goal needs, the rest of the innermost body, and
the rest of the bodies around it. Of the operators that wait in an expression only the
parentheses matter, and for each of them whether a comparison has already been made inside
it; everything else that waits has got what it needs with the next operand.

One token takes a state to one that owes what the grammar leaves behind that token, and a
token that is refused is one that the grammar has no place for. So a token list is accepted
when the grammar derives it, and only then.
-/

namespace IntMain

open Grammar

/-!
## What a state owes
-/

/-- Whether a comparison has been made in an expression, after one more operator. -/
def BinaryOp.compares (op : BinaryOp) (compared : Bool) : Bool :=
  match op.operatorClass with
  | .arithmetic => compared
  | .relational => true
  | .logical => false

/-- Whether an operator may continue an expression in which a comparison has been made or
not. -/
def BinaryOp.continues (op : BinaryOp) (inCondition compared : Bool) : Bool :=
  match op.operatorClass with
  | .arithmetic => true
  | .relational => inCondition && !compared
  | .logical => inCondition

/-- Whether a comparison waits in the innermost parenthesis, with no logical operator
behind it. -/
def Waiting.compared : List Waiting → Bool
  | .sign _ _ :: outer => compared outer
  | .operator _ op _ :: outer => op.compares (compared outer)
  | .parenthesis :: _ => false
  | [] => false

/-- What may follow an operand up to the end of its parenthesis. A comparison may follow in a
condition only, and only if none has been made since the last logical operator. -/
def Grammar.continuation (inCondition compared : Bool) : List Form :=
  match inCondition, compared with
  | false, _ => [products false, sums false]
  | true, true => [products true, sums true, logicals]
  | true, false => [products true, sums true, comparison, logicals]

/-- What follows the innermost parenthesis, starting with what closes it. -/
def Waiting.outside (inCondition : Bool) : List Waiting → List Form
  | .sign _ _ :: outer => outside inCondition outer
  | .operator _ _ _ :: outer => outside inCondition outer
  | .parenthesis :: outer =>
    .one .rParen :: (continuation inCondition (compared outer) ++ outside inCondition outer)
  | [] => []

/-- What may follow an operand up to the end of the expression: first what continues the innermost
parenthesis, then what closes it and everything around it. -/
def Waiting.owed (inCondition : Bool) (waiting : List Waiting) : List Form :=
  continuation inCondition (compared waiting) ++ outside inCondition waiting

/-- What follows the token behind an expression up to the end of its statement. -/
@[simp]
def Purpose.owedBehind : Purpose → List Form
  | .initialValue _ _ => []
  | .assignedValue _ _ _ => []
  | .returnValue _ => []
  | .clauseCondition _ _ => [.category .body, laterClauses, finalElse]
  | .whileCondition _ => [.category .body]
  | .doWhileCondition _ _ => [.optional (.one .semicolon)]

/-- What follows an expression up to the end of its statement. -/
def Purpose.owed (purpose : Purpose) : List Form := .one purpose.closing :: purpose.owedBehind

/-- What follows a body up to the end of its statement. -/
@[simp]
def BodyOwner.owed : BodyOwner → List Form
  | .block => []
  | .clause _ _ _ => [laterClauses, finalElse]
  | .otherwise _ => []
  | .whileLoop _ _ => []
  | .doWhile _ => .one .whileWord :: tested ++ [.optional (.one .semicolon)]

/-- What a goal needs up to the end of its statement. -/
@[simp]
def Goal.owed : Goal → List Form
  | .statement => []
  | .declaredName _ => [.choice
    [.sequence [.one .identifier, .one .semicolon],
      .sequence [.one .identifier, .one .assign, .category (.expression false),
        .one .semicolon]]]
  | .declarationEnd _ _ => [.choice
    [.one .semicolon, .sequence [.one .assign, .category (.expression false), .one .semicolon]]]
  | .assignOperator _ => [.word assignKinds, .category (.expression false), .one .semicolon]
  | .openParenthesis purpose =>
    .one .lParen :: .category (parenthesized purpose.isCondition) :: purpose.owed
  | .operand purpose waiting =>
    .category (.factor purpose.isCondition) ::
      (Waiting.owed purpose.isCondition waiting ++ purpose.owed)
  | .operator purpose waiting _ => Waiting.owed purpose.isCondition waiting ++ purpose.owed
  | .openBrace owner => .category .body :: owner.owed
  | .elseOrStatement _ => [laterClauses, finalElse]
  | .ifOrBody _ => [.choice
    [.sequence (.one .ifWord :: tested ++ [.category .body, laterClauses, finalElse]),
      .category .body]]
  | .whileWord _ _ => .one .whileWord :: tested ++ [.optional (.one .semicolon)]
  | .semicolonOrStatement => [.optional (.one .semicolon)]

/-- What follows the innermost body up to the end of the program. -/
def owedBehind : List Enclosing → List Form
  | [] => []
  | one :: outer =>
    one.owner.owed ++ (.many (.category .statement) :: .one .rBrace :: owedBehind outer)

/-- The rest of the innermost body and what follows it. -/
def owedInside (enclosing : List Enclosing) : List Form :=
  .many (.category .statement) :: .one .rBrace :: owedBehind enclosing

/-- What a state needs for a whole program. This is the specification of the state: it is read off
the progress alone, and the number of the next node has no part in it. -/
def Parser.owed (parser : Parser) : List Form :=
  match parser.progress with
  | .header expected later =>
    (expected :: later).map Form.one ++ owedInside []
  | .inside _ enclosing goal => goal.owed ++ owedInside enclosing
  | .finished _ => []

/-- Inside a body the rest of the statement comes before the rest of the body. The statements that
have been read are not asked for again, so the body itself does not matter. -/
@[simp]
theorem Parser.owed_inside {nextId : Nat} {body : OpenBody} {enclosing : List Enclosing}
    {goal : Goal} :
    (⟨nextId, .inside body enclosing goal⟩ : Parser).owed = goal.owed ++ owedInside enclosing :=
  rfl

/-- A token has been read, and the rest of the input is what is then owed. -/
def Completes (result : Except Fault Parser) (rest : List Token) : Prop :=
  ∃ next, result = .ok next ∧ Spells next.owed rest

/-- Behind a token that is taken comes what the next state owes. With this and the next two lemmas
every branch of a step is settled by what it returns. -/
@[simp]
theorem completes_ok {next : Parser} {rest : List Token} :
    Completes (.ok next) rest ↔ Spells next.owed rest := by
  simp [Completes]

/-- A token that is refused has nothing behind it that would make a program of it. Which fault it is
does not matter. -/
@[simp]
theorem completes_error {fault : Fault} {rest : List Token} :
    ¬ Completes (.error fault) rest := by
  rintro ⟨next, impossible, spells⟩
  cases impossible

/-- A token that is taken on a condition is taken exactly if the condition holds and the rest fits
the state that it leads to. This is the form of most branches of a step. -/
@[simp]
theorem completes_ite {condition : Prop} [Decidable condition]
    {result : Except Fault Parser} {fault : Fault} {rest : List Token} :
    Completes (if condition then result else .error fault) rest ↔
      condition ∧ Completes result rest := by
  by_cases holds : condition
  · simp [holds]
  · simp [holds]

/-!
## Expressions
-/

/-- The layers of the grammar are the operators of one tightness. The grammar lists kinds of tokens
and the parser compares numbers, and this is where the two are tied: every layer is one number. -/
theorem Grammar.mem_layers (kind : TokenKind) :
    (kind ∈ productKinds ↔ ∃ op, BinaryOp.ofKind? kind = some op ∧ op.tightness = 3) ∧
    (kind ∈ sumKinds ↔ ∃ op, BinaryOp.ofKind? kind = some op ∧ op.tightness = 2) ∧
    (kind ∈ relationalKinds ↔ ∃ op, BinaryOp.ofKind? kind = some op ∧ op.tightness = 1) ∧
    (kind ∈ logicalKinds ↔ ∃ op, BinaryOp.ofKind? kind = some op ∧ op.tightness = 0) := by
  cases kind <;> simp [productKinds, sumKinds, relationalKinds, logicalKinds,
    BinaryOp.ofKind?, BinaryOp.tightness]

/-- What stands in a parenthesis starts with an operand, and no comparison has been
made. -/
theorem Grammar.spells_parenthesized {inCondition : Bool} {forms : List Form}
    {tokens : List Token} :
    Spells (.category (parenthesized inCondition) :: forms) tokens ↔
      Spells (.category (.factor inCondition) :: (continuation inCondition false ++ forms))
        tokens := by
  cases inCondition with
  | false => simp [parenthesized, continuation]
  | true => simp [parenthesized, continuation]

/-- An expression starts with an operand for which nothing waits yet. So what is owed before the
first operand of an expression is the expression as the grammar has it, with nothing left over. -/
theorem spells_operand {purpose : Purpose} {forms : List Form} {tokens : List Token} :
    Spells ((Goal.operand purpose []).owed ++ forms) tokens ↔
      Spells (.category (parenthesized purpose.isCondition) :: (purpose.owed ++ forms))
        tokens := by
  rw [spells_parenthesized]
  simp [Waiting.owed, Waiting.compared, Waiting.outside]

/-- Behind an operand comes an operator that the place admits, with an operand behind it,
or the expression is over. The four layers differ only in what they admit: whichever of
them goes on, an operand comes next and then again all the layers. -/
theorem Grammar.spells_continuation {inCondition compared : Bool} {forms : List Form}
    {token : Token} {rest : List Token} :
    Spells (continuation inCondition compared ++ forms) (token :: rest) ↔
      (∃ op, BinaryOp.ofKind? token.kind = some op ∧
        op.continues inCondition compared = true ∧
        Spells (.category (.factor inCondition) ::
          (continuation inCondition (op.compares compared) ++ forms)) rest) ∨
      Spells forms (token :: rest) := by
  obtain ⟨inProducts, inSums, inRelational, inLogical⟩ := mem_layers token.kind
  cases operator : BinaryOp.ofKind? token.kind with
  | none =>
    cases inCondition <;> cases compared <;>
      simp [continuation, spells_products, spells_sums, spells_comparison, spells_logicals,
        inProducts, inSums, inRelational, inLogical, operator]
  | some op =>
    cases inCondition <;> cases compared <;> cases op <;>
      simp [continuation, spells_products, spells_sums, spells_comparison, spells_logicals,
        inProducts, inSums, inRelational, inLogical, operator, BinaryOp.tightness,
        BinaryOp.continues, BinaryOp.compares, BinaryOp.operatorClass]

/-!
## What waits in an expression
-/

namespace BinaryOp

/-- An operator that binds tighter than a comparison is arithmetic, so it leaves open whether a
comparison has been made. -/
theorem compares_of_tight (op : BinaryOp) (tight : 2 ≤ op.tightness) (compared : Bool) :
    op.compares compared = compared := by
  revert tight
  cases op <;> cases compared <;> decide

/-- An operator that does not bind tighter than a comparison is one itself or is logical. What has
been compared before is then forgotten: a comparison sets it, and a logical operator starts anew. -/
theorem compares_of_loose (op : BinaryOp) (loose : ¬ 2 ≤ op.tightness) (compared : Bool) :
    op.compares compared = (op.operatorClass == .relational) := by
  revert loose
  cases op <;> cases compared <;> decide

/-- A comparison takes sums and products to its left and no comparison, which is why comparisons do
not chain. -/
theorem leftBound_relational (op : BinaryOp) (family : op.operatorClass = .relational) :
    op.leftBound = 2 := by
  revert family
  cases op <;> decide

/-- An arithmetic operator takes nothing to its left that binds looser than a sum. No comparison
that waits is finished by it. -/
theorem two_le_leftBound (op : BinaryOp) (family : op.operatorClass = .arithmetic) :
    2 ≤ op.leftBound := by
  revert family
  cases op <;> decide

end BinaryOp

namespace Waiting

/-- Giving an operand to what waits for it leaves the parentheses as they are. Whatever the bound
is, nothing waits any less outside of the innermost parenthesis. -/
theorem outside_collapse (inCondition : Bool) (bound : Nat) (waiting : List Waiting)
    (operand : Node) (nextId : Nat) :
    outside inCondition (collapse bound waiting operand nextId).1 =
      outside inCondition waiting := by
  induction waiting generalizing operand nextId with
  | nil => rfl
  | cons first outer inductionHypothesis =>
    cases first with
    | sign position op => exact inductionHypothesis _ _
    | operator position op left =>
      by_cases binds : bound ≤ op.tightness
      · rw [collapse, if_pos binds]
        exact inductionHypothesis _ _
      · rw [collapse, if_neg binds]
    | parenthesis => rfl

/-- Operators that bind tighter than a comparison do not tell whether one has been
made. -/
theorem compared_collapse {bound : Nat} (tight : 2 ≤ bound) (waiting : List Waiting)
    (operand : Node) (nextId : Nat) :
    compared (collapse bound waiting operand nextId).1 = compared waiting := by
  induction waiting generalizing operand nextId with
  | nil => rfl
  | cons first outer inductionHypothesis =>
    cases first with
    | sign position op => exact inductionHypothesis _ _
    | operator position op left =>
      by_cases binds : bound ≤ op.tightness
      · have transparent : op.compares (compared outer) = compared outer :=
          op.compares_of_tight (Nat.le_trans tight binds) _
        rw [collapse, if_pos binds, compared, transparent]
        exact inductionHypothesis _ _
      · rw [collapse, if_neg binds]
    | parenthesis => rfl

/-- Once the tighter operators are gone, a comparison that has been made is the innermost
thing that waits. -/
theorem comparing_collapse (waiting : List Waiting) (operand : Node) (nextId : Nat) :
    comparing (collapse 2 waiting operand nextId).1 = compared waiting := by
  induction waiting generalizing operand nextId with
  | nil => rfl
  | cons first outer inductionHypothesis =>
    cases first with
    | sign position op => exact inductionHypothesis _ _
    | operator position op left =>
      by_cases binds : 2 ≤ op.tightness
      · rw [collapse, if_pos binds, compared, op.compares_of_tight binds]
        exact inductionHypothesis _ _
      · rw [collapse, if_neg binds, comparing, compared, op.compares_of_loose binds]
    | parenthesis => rfl

/-- Everything inside the innermost parenthesis takes an operand that nothing follows. What is left
is either nothing at all or that parenthesis, so a closing token has only these two cases. -/
theorem collapse_zero (waiting : List Waiting) (operand : Node) (nextId : Nat) :
    (collapse 0 waiting operand nextId).1 = [] ∨
      ∃ outer, (collapse 0 waiting operand nextId).1 = .parenthesis :: outer := by
  induction waiting generalizing operand nextId with
  | nil => exact .inl rfl
  | cons first outer inductionHypothesis =>
    cases first with
    | sign position op => exact inductionHypothesis _ _
    | operator position op left =>
      rw [collapse, if_pos (Nat.zero_le _)]
      exact inductionHypothesis _ _
    | parenthesis => exact .inr ⟨outer, rfl⟩

end Waiting

/-- The parser admits the operators that the grammar has in a place. It looks at what still waits
after the tighter operators have taken their operands; the grammar asks whether a comparison has
been made. Both come to the same for every operator and in every expression. -/
theorem Purpose.admits_collapse (purpose : Purpose) (waiting : List Waiting) (op : BinaryOp)
    (operand : Node) (nextId : Nat) :
    purpose.admits (Waiting.collapse op.leftBound waiting operand nextId).1 op =
      op.continues purpose.isCondition (Waiting.compared waiting) := by
  unfold Purpose.admits BinaryOp.continues
  cases family : op.operatorClass with
  | arithmetic => rfl
  | relational =>
    have bound : op.leftBound = 2 := op.leftBound_relational family
    simp only [bound, Waiting.comparing_collapse]
  | logical => rfl

/-- An operator that has been pushed leaves the expression as the grammar does: behind it comes what
the operator lets follow, and outside of the parenthesis nothing has changed. -/
theorem Waiting.owed_push (inCondition : Bool) (waiting : List Waiting) (op : BinaryOp)
    (position : Position) (left operand : Node) (nextId : Nat) :
    Waiting.owed inCondition (.operator position op left ::
        (collapse op.leftBound waiting operand nextId).1) =
      continuation inCondition (op.compares (compared waiting)) ++
        outside inCondition waiting := by
  have sameFlag : op.compares (compared (collapse op.leftBound waiting operand nextId).1) =
      op.compares (compared waiting) := by
    cases family : op.operatorClass with
    | arithmetic =>
      have tight : 2 ≤ op.leftBound := op.two_le_leftBound family
      rw [compared_collapse tight]
    | relational => simp only [BinaryOp.compares, family]
    | logical => simp only [BinaryOp.compares, family]
  rw [owed, compared, outside, sameFlag, outside_collapse]

/-!
## One token
-/

section Token

variable {nextId : Nat} {body : OpenBody} {enclosing : List Enclosing} {token : Token}
  {rest : List Token}

/-- The token behind an expression is the one that its purpose asks for, and what comes behind that
token is what the purpose still owes. The value of the expression does not matter. -/
theorem completes_finishExpression {purpose : Purpose} {value : Node} :
    Completes (Parser.finishExpression nextId body enclosing purpose value token) rest ↔
      Spells (purpose.owed ++ owedInside enclosing) (token :: rest) := by
  unfold Parser.finishExpression
  rw [completes_ite, Purpose.owed, List.cons_append, spells_one]
  cases purpose <;> simp

/-- A token that does not continue an expression closes its innermost parenthesis, or follows the
whole expression if no parenthesis is open. The operators that wait inside are all finished by
it. -/
theorem completes_closeExpression {purpose : Purpose} {waiting : List Waiting}
    {operand : Node} :
    Completes (Parser.closeExpression nextId body enclosing purpose waiting operand token)
        rest ↔
      Spells (Waiting.outside purpose.isCondition waiting ++
        (purpose.owed ++ owedInside enclosing)) (token :: rest) := by
  have same := Waiting.outside_collapse purpose.isCondition 0 waiting operand nextId
  have ends := Waiting.collapse_zero waiting operand nextId
  unfold Parser.closeExpression
  rw [← same]
  generalize Waiting.collapse 0 waiting operand nextId = collapsed at ends ⊢
  obtain ⟨outer, value, laterId⟩ := collapsed
  rcases ends with rfl | ⟨further, rfl⟩
  · rw [Waiting.outside, List.nil_append]
    exact completes_finishExpression
  · rw [completes_ite, completes_ok, Waiting.outside, List.cons_append, spells_one]
    simp [Waiting.owed]

/-- What closes an expression is no binary operator. So a token that could continue an expression is
never one that closes it, and the parser need not look further than this one token. -/
theorem Waiting.outside_not_operator {inCondition : Bool} {waiting : List Waiting}
    {purpose : Purpose} {forms : List Form}
    (spells : Spells (outside inCondition waiting ++ (purpose.owed ++ forms))
      (token :: rest)) : BinaryOp.ofKind? token.kind = none := by
  induction waiting with
  | nil =>
    rw [outside, List.nil_append, Purpose.owed, List.cons_append, spells_one] at spells
    rw [spells.1, Purpose.closing]
    cases purpose.isCondition <;> rfl
  | cons first outer inductionHypothesis =>
    cases first with
    | sign position op => exact inductionHypothesis spells
    | operator position op left => exact inductionHypothesis spells
    | parenthesis =>
      rw [outside, List.cons_append, spells_one] at spells
      rw [spells.1]
      rfl

/-- The token behind an operand either is an operator that the grammar has there or closes
something. The parser decides by the kind of the token, and no token could do both. -/
theorem completes_continueExpression {purpose : Purpose} {waiting : List Waiting}
    {operand : Node} :
    Completes (Parser.continueExpression nextId body enclosing purpose waiting operand token)
        rest ↔
      Spells (Waiting.owed purpose.isCondition waiting ++
        (purpose.owed ++ owedInside enclosing)) (token :: rest) := by
  unfold Parser.continueExpression
  rw [Waiting.owed, List.append_assoc, spells_continuation]
  cases operator : BinaryOp.ofKind? token.kind with
  | none => simp [completes_closeExpression]
  | some op =>
    have noClosing : ¬ Spells (Waiting.outside purpose.isCondition waiting ++
        (purpose.owed ++ owedInside enclosing)) (token :: rest) := by
      intro spells
      rw [Waiting.outside_not_operator spells] at operator
      cases operator
    simp only [Purpose.admits_collapse]
    by_cases admitted :
        op.continues purpose.isCondition (Waiting.compared waiting) = true
    · simp [admitted, noClosing, Waiting.owed_push]
    · simp [admitted, noClosing, completes_closeExpression]

/-- The first token of an operand is a sign, a parenthesis, a name or an integer that has a value.
An integer without a value is refused by the parser, and the grammar has no such factor either. -/
theorem completes_startOperand {purpose : Purpose} {waiting : List Waiting} :
    Completes (Parser.startOperand nextId body enclosing purpose waiting token) rest ↔
      Spells (.category (.factor purpose.isCondition) ::
        (Waiting.owed purpose.isCondition waiting ++
          (purpose.owed ++ owedInside enclosing))) (token :: rest) := by
  rw [spells_factor]
  unfold Parser.startOperand
  split
  · rename_i isPlus
    simp [isPlus, sumKinds, Waiting.owed, Waiting.compared, Waiting.outside]
  · rename_i isMinus
    simp [isMinus, sumKinds, Waiting.owed, Waiting.compared, Waiting.outside]
  · rename_i isParenthesis
    simp [isParenthesis, sumKinds, Waiting.owed, Waiting.compared, Waiting.outside,
      spells_parenthesized]
  · rename_i isName
    simp [isName, sumKinds]
  · rename_i isLiteral
    split
    · rename_i value valued
      simp [isLiteral, valued, sumKinds]
    · rename_i unvalued
      simp [isLiteral, unvalued, sumKinds]
  · rename_i notPlus notMinus notParenthesis notName notLiteral
    simp [sumKinds, imp_false.mp notPlus, imp_false.mp notMinus, imp_false.mp notParenthesis,
      imp_false.mp notName, imp_false.mp notLiteral]

/-- A closed body owes what follows it in its statement and then the rest of the bodies around it.
The statements of the body itself are finished. -/
theorem owed_closeBody : (Parser.closeBody nextId body enclosing).owed =
    owedBehind enclosing := by
  cases enclosing with
  | nil => rfl
  | cons one outer =>
    obtain ⟨outerBody, owner⟩ := one
    cases owner <;> rfl

/-- The first token of a statement decides which statement it is, and a closing brace ends the body.
A body without statements is allowed, so the brace may come at once. -/
theorem completes_startStatement :
    Completes (Parser.startStatement nextId body enclosing token) rest ↔
      Spells (owedInside enclosing) (token :: rest) := by
  rw [owedInside, spells_many, spells_category, rule]
  unfold Parser.startStatement
  split
  · rename_i isIf
    simp [isIf, tested, parenthesized, Purpose.owed, Purpose.closing, Purpose.isCondition,
      owedInside]
  · rename_i isWhile
    simp [isWhile, tested, parenthesized, Purpose.owed, Purpose.closing, Purpose.isCondition,
      owedInside]
  · rename_i isDo
    simp [isDo, tested, owedInside]
  · rename_i isInt
    simp [isInt, tested, owedInside]
  · rename_i isName
    simp [isName, tested, owedInside]
  · rename_i isReturn
    rw [completes_ok, Parser.owed_inside, spells_operand]
    simp [isReturn, tested, parenthesized, Purpose.owed, Purpose.closing, Purpose.isCondition,
      owedInside]
  · rename_i isBrace
    simp [isBrace, tested, owedInside, owedBehind]
  · rename_i isSemicolon
    simp [isSemicolon, tested, owedInside]
  · rename_i isClosing
    split
    · simp [isClosing, tested, owed_closeBody]
    · simp [isClosing, tested, owed_closeBody]
  · rename_i notIf notWhile notDo notInt notName notReturn notBrace notSemicolon notClosing
    simp [tested, imp_false.mp notIf, imp_false.mp notWhile, imp_false.mp notDo,
      imp_false.mp notInt, imp_false.mp notName, imp_false.mp notReturn, imp_false.mp notBrace,
      imp_false.mp notSemicolon, imp_false.mp notClosing]

/-- A token inside a body is read according to the goal. Each goal has its own part of the grammar,
and what comes behind the statement is the rest of the innermost body. -/
theorem completes_insideStep {goal : Goal} :
    Completes (Parser.insideStep nextId body enclosing goal token) rest ↔
      Spells (goal.owed ++ owedInside enclosing) (token :: rest) := by
  cases goal with
  | statement => exact completes_startStatement
  | declaredName position =>
    simp only [Parser.insideStep, completes_ite, completes_ok]
    by_cases isName : token.kind = .identifier
    · simp [isName]
    · simp [isName]
  | declarationEnd position name =>
    simp only [Parser.insideStep]
    split
    · rename_i isSemicolon
      simp [isSemicolon]
    · rename_i isAssign
      rw [completes_ok, Parser.owed_inside, spells_operand]
      simp [isAssign, parenthesized, Purpose.owed, Purpose.closing, Purpose.isCondition]
    · rename_i notSemicolon notAssign
      simp [imp_false.mp notSemicolon, imp_false.mp notAssign]
  | assignOperator target =>
    have assigns : token.kind ∈ assignKinds ↔ (AssignOp.ofKind? token.kind).isSome = true := by
      cases token.kind <;> decide
    simp only [Parser.insideStep]
    cases operator : AssignOp.ofKind? token.kind with
    | none => simp [assigns, operator]
    | some op =>
      simp only [completes_ok, Parser.owed_inside, spells_operand]
      simp [assigns, operator, parenthesized, Purpose.owed, Purpose.closing,
        Purpose.isCondition]
  | openParenthesis purpose =>
    simp only [Parser.insideStep, completes_ite, completes_ok, Parser.owed_inside,
      spells_operand]
    simp only [Goal.owed, List.cons_append, spells_one]
  | operand purpose waiting =>
    simp only [Parser.insideStep, Goal.owed, List.cons_append, List.append_assoc]
    exact completes_startOperand
  | operator purpose waiting operand =>
    simp only [Parser.insideStep, Goal.owed, List.append_assoc]
    exact completes_continueExpression
  | openBrace owner => simp [Parser.insideStep, owedInside, owedBehind]
  | elseOrStatement chain =>
    simp only [Parser.insideStep, Goal.owed, List.cons_append, List.nil_append,
      spells_laterClauses]
    split
    · rename_i isElse
      have noStatement : ¬ Spells (owedInside enclosing) (token :: rest) := by
        rw [← @completes_startStatement nextId body]
        simp [Parser.startStatement, isElse]
      simp [isElse, noStatement, finalElse]
    · rename_i notElse
      simp [notElse, finalElse, completes_startStatement]
  | ifOrBody chain =>
    simp only [Parser.insideStep]
    split
    · rename_i isIf
      simp [isIf, tested, parenthesized, Purpose.owed, Purpose.closing, Purpose.isCondition]
    · rename_i isBrace
      simp [isBrace, tested, owedInside, owedBehind]
    · rename_i notIf notBrace
      simp [tested, imp_false.mp notIf, imp_false.mp notBrace]
  | whileWord position loopBody =>
    simp [Parser.insideStep, tested, parenthesized, Purpose.owed, Purpose.closing,
      Purpose.isCondition]
  | semicolonOrStatement =>
    simp only [Parser.insideStep]
    split
    · rename_i isSemicolon
      -- The semicolon may end the loop or be a statement of its own: the same is left.
      have emptyStatement : Spells (owedInside enclosing) (token :: rest) ↔
          Spells (owedInside enclosing) rest := by
        rw [← @completes_startStatement nextId body]
        simp [Parser.startStatement, isSemicolon]
      simp [isSemicolon, emptyStatement]
    · rename_i notSemicolon
      simp [notSemicolon, completes_startStatement]

/-- One token takes a state to what the grammar leaves behind the token, and is refused
where the grammar has no place for it. -/
theorem completes_step {parser : Parser} :
    Completes (parser.step token) rest ↔ Spells parser.owed (token :: rest) := by
  obtain ⟨nextId, progress⟩ := parser
  cases progress with
  | header expected later =>
    cases later with
    | nil => simp [Parser.step, Parser.owed]
    | cons kind kinds => simp [Parser.step, Parser.owed]
  | inside body enclosing goal => exact completes_insideStep
  | finished root => simp [Parser.step, Parser.owed]

/-- Nothing more is owed behind the last brace, and there only. Before it at least that brace is
owed, so a stream that ends earlier is no program. -/
theorem spells_owed_nil {parser : Parser} :
    Spells parser.owed [] ↔ ∃ root, parser.progress = .finished root := by
  obtain ⟨nextId, progress⟩ := parser
  have braceMissing (forms : List Form) (enclosing : List Enclosing) :
      ¬ Spells (forms ++ owedInside enclosing) [] := by
    have brace : Form.word [.rBrace] ∈ forms ++ owedInside enclosing := by
      simp [owedInside, Form.one]
    exact not_spells_of_word brace
  cases progress with
  | header expected later => simpa [Parser.owed] using braceMissing ((expected :: later).map _) []
  | inside body enclosing goal => simpa [Parser.owed] using braceMissing goal.owed enclosing
  | finished root => simp [Parser.owed]

end Token

/-- Reading a token list from any state: it ends behind the last brace exactly if the list
is what the state owes. -/
theorem Parser.run_finishes_iff {parser : Parser} {tokens : List Token} :
    (∃ final, tokens.foldlM Parser.step parser = .ok final ∧
        ∃ root, final.progress = .finished root) ↔
      Spells parser.owed tokens := by
  induction tokens generalizing parser with
  | nil =>
    rw [spells_owed_nil]
    simp [List.foldlM, pure, Except.pure]
  | cons token rest inductionHypothesis =>
    rw [← completes_step, List.foldlM_cons]
    cases read : parser.step token with
    | error fault => simp [bind, Except.bind]
    | ok next =>
      rw [completes_ok, ← inductionHypothesis]
      rfl

/-- At the start a whole program is owed: the header, and the body up to its closing brace. This
turns a statement about states into one about the grammar. -/
theorem Parser.spells_start {tokens : List Token} :
    Spells Parser.start.owed tokens ↔ Derives (.category .program) tokens := by
  have header := spells_append_congr
    [.one .intWord, .one .mainWord, .one .lParen, .one .rParen]
    (fun rest => @spells_body [] rest) tokens
  rw [← spells_singleton, spells_category, rule, spells_sequence]
  exact header.symm

/-- The parser gives a tree for exactly the token lists whose part before the first end
token is a program of the grammar. -/
theorem parsed_iff_derives (tokens : List Token) :
    (∃ parsed, Parsed.ofTokens tokens = .ok parsed) ↔
      Derives (.category .program) (tokens.takeWhile (!·.isEnd)) := by
  rw [← Parser.spells_start, ← Parser.run_finishes_iff, Parsed.ofTokens]
  cases run : (tokens.takeWhile (!·.isEnd)).foldlM Parser.step Parser.start with
  | error fault => simp [bind, Except.bind]
  | ok final =>
    obtain ⟨nextId, progress⟩ := final
    cases progress <;> simp [bind, Except.bind, Parser.finish, pure, Except.pure]

end IntMain
