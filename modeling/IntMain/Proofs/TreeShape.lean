import IntMain.Tree.Parser

/-!
# The trees that the parser builds

A node may stand anywhere in a tree, but the parser puts each kind where the grammar has
it: `Part.WellFormed` says which node may play which part. Comparisons and logical
operators stand in conditions only, bodies are compounds with at least one statement, and
the clauses of an if statement are tagged by their place. What is known about the names
is a parameter, since the parser and name resolution leave different traces on them.

The invariant of the parser says this of every finished node that an unfinished program
holds. One token preserves it, so a token stream that is accepted gives a well-formed
tree.
-/

namespace IntMain

/-- A node and the part that it plays in a program. -/
inductive Part
  | expression (inCondition : Bool) (node : Node)
  | clause (tag : ClauseTag) (node : Node)
  | statement (node : Node)
  | body (node : Node)

/-- What holds of the names that a program uses and of those that it declares. -/
structure Naming where
  used : Identifier → Prop
  declared : Identifier → Prop

namespace Naming

/-- Only the type of a declared name is known. -/
def parsed : Naming where
  used name := name.address = none ∧ name.type = none
  declared name := name.address = none ∧ name.type = some .int

/-- Every name has an address. -/
def stamped : Naming where
  used name := name.address.isSome = true
  declared name := name.address.isSome = true

end Naming

/-- Whether an operator may stand in an expression. -/
def BinaryOp.Allowed (inCondition : Bool) (op : BinaryOp) : Prop :=
  op.operatorClass = .arithmetic ∨ inCondition = true

/-- Whether a node can play a part. The names may be those of a parsed program or those of a
resolved one, so that one definition serves both. -/
inductive Part.WellFormed (naming : Naming) : Part → Prop
  | integer {inCondition : Bool} {mark : Mark} {value : Int} {lexeme : String}
      (valued : integerValue? lexeme = some value) :
      WellFormed naming (.expression inCondition (.integer mark value lexeme))
  | identifier {inCondition : Bool} {mark : Mark} {name : Identifier}
      (used : naming.used name) :
      WellFormed naming (.expression inCondition (.identifier mark name))
  | unary {inCondition : Bool} {mark : Mark} {op : UnaryOp} {operand : Node}
      (inner : WellFormed naming (.expression inCondition operand)) :
      WellFormed naming (.expression inCondition (.unary mark op operand))
  | binary {inCondition : Bool} {mark : Mark} {op : BinaryOp} {left right : Node}
      (allowed : op.Allowed inCondition)
      (first : WellFormed naming (.expression inCondition left))
      (second : WellFormed naming (.expression inCondition right)) :
      WellFormed naming (.expression inCondition (.binary mark op left right))
  | clause {mark : Mark} {tag : ClauseTag} {condition body : Node}
      (tested : WellFormed naming (.expression true condition))
      (guarded : WellFormed naming (.body body)) :
      WellFormed naming (.clause tag (.clause mark tag condition body))
  | chain {mark : Mark} {first : Node} {later : List Node}
      (leading : WellFormed naming (.clause .first first))
      (following : ∀ clause ∈ later, WellFormed naming (.clause .later clause)) :
      WellFormed naming (.statement (.chain mark (first :: later) none))
  | chainElse {mark : Mark} {first body : Node} {later : List Node}
      (leading : WellFormed naming (.clause .first first))
      (following : ∀ clause ∈ later, WellFormed naming (.clause .later clause))
      (otherwise : WellFormed naming (.body body)) :
      WellFormed naming (.statement (.chain mark (first :: later) (some body)))
  | whileLoop {mark : Mark} {condition body : Node}
      (tested : WellFormed naming (.expression true condition))
      (repeated : WellFormed naming (.body body)) :
      WellFormed naming (.statement (.whileLoop mark condition body))
  | doWhile {mark : Mark} {body condition : Node}
      (repeated : WellFormed naming (.body body))
      (tested : WellFormed naming (.expression true condition)) :
      WellFormed naming (.statement (.doWhile mark body condition))
  | compound {mark : Mark} {statements : List Node} (nonempty : statements ≠ [])
      (all : ∀ statement ∈ statements, WellFormed naming (.statement statement)) :
      WellFormed naming (.body (.compound mark statements))
  | block {mark : Mark} {statements : List Node} (nonempty : statements ≠ [])
      (all : ∀ statement ∈ statements, WellFormed naming (.statement statement)) :
      WellFormed naming (.statement (.block mark statements))
  | declaration {mark nameMark : Mark} {name : Identifier} (declared : naming.declared name) :
      WellFormed naming (.statement (.declaration mark (.identifier nameMark name)))
  | initialization {mark nameMark : Mark} {name : Identifier} {value : Node}
      (declared : naming.declared name)
      (computed : WellFormed naming (.expression false value)) :
      WellFormed naming (.statement (.initialization mark (.identifier nameMark name) value))
  | assignment {mark nameMark : Mark} {name : Identifier} {op : AssignOp} {value : Node}
      (used : naming.used name)
      (computed : WellFormed naming (.expression false value)) :
      WellFormed naming (.statement (.assignment mark (.identifier nameMark name) op value))
  | returned {mark : Mark} {value : Node}
      (computed : WellFormed naming (.expression false value)) :
      WellFormed naming (.statement (.returned mark value))
  | empty {mark : Mark} : WellFormed naming (.statement (.empty mark))

/-- Clauses with the tags of their places. -/
def WellFormedClauses (naming : Naming) : List Node → Prop
  | [] => True
  | first :: later =>
    Part.WellFormed naming (.clause .first first) ∧
      ∀ clause ∈ later, Part.WellFormed naming (.clause .later clause)

/-- A chain that grows by a clause with its next tag keeps its tags in order. -/
theorem WellFormedClauses.add {naming : Naming} {chain : OpenChain} {clause : Node}
    (clauses : WellFormedClauses naming chain.clauses)
    (next : Part.WellFormed naming (.clause chain.nextTag clause)) :
    WellFormedClauses naming (chain.add clause).clauses := by
  obtain ⟨position, list⟩ := chain
  cases list with
  | nil => exact ⟨next, List.forall_mem_nil _⟩
  | cons first later =>
    refine ⟨clauses.1, ?_⟩
    intro other member
    rcases List.mem_append.mp member with earlier | last
    · exact clauses.2 other earlier
    · rw [List.mem_singleton.mp last]
      exact next

/-!
## What an unfinished program holds
-/

/-- A name that stands where one is declared. -/
def Node.IsDeclaredName (node : Node) : Prop :=
  ∃ mark name, node = .identifier mark name ∧ Naming.parsed.declared name

/-- A name that stands where one is used. -/
def Node.IsUsedName (node : Node) : Prop :=
  ∃ mark name, node = .identifier mark name ∧ Naming.parsed.used name

/-- The finished parts of what an expression is read for. -/
def Purpose.Fits : Purpose → Prop
  | .initialValue _ name => name.IsDeclaredName
  | .assignedValue _ target _ => target.IsUsedName
  | .returnValue _ => True
  | .clauseCondition chain _ => WellFormedClauses .parsed chain.clauses
  | .whileCondition _ => True
  | .doWhileCondition _ body => Part.WellFormed .parsed (.body body)

/-- The finished parts of what waits for an operand. -/
def Waiting.Fits (inCondition : Bool) : Waiting → Prop
  | .sign _ _ => True
  | .operator _ op left =>
    op.Allowed inCondition ∧ Part.WellFormed .parsed (.expression inCondition left)
  | .parenthesis => True

/-- The finished parts of what a body belongs to. -/
def BodyOwner.Fits : BodyOwner → Prop
  | .block => True
  | .clause chain _ condition =>
    WellFormedClauses .parsed chain.clauses ∧
      Part.WellFormed .parsed (.expression true condition)
  | .otherwise chain => WellFormedClauses .parsed chain.clauses ∧ chain.clauses ≠ []
  | .whileLoop _ condition => Part.WellFormed .parsed (.expression true condition)
  | .doWhile _ => True

/-- The finished statements of a body. -/
def OpenBody.Fits (body : OpenBody) : Prop :=
  ∀ statement ∈ body.statements, Part.WellFormed .parsed (.statement statement)

/-- The finished parts of a goal. -/
def Goal.Fits : Goal → Prop
  | .statement => True
  | .declaredName _ => True
  | .declarationEnd _ name => name.IsDeclaredName
  | .assignOperator target => target.IsUsedName
  | .openParenthesis purpose => purpose.Fits
  | .operand purpose waiting =>
    purpose.Fits ∧ ∀ one ∈ waiting, one.Fits purpose.isCondition
  | .operator purpose waiting left =>
    purpose.Fits ∧ (∀ one ∈ waiting, one.Fits purpose.isCondition) ∧
      Part.WellFormed .parsed (.expression purpose.isCondition left)
  | .openBrace owner => owner.Fits
  | .elseOrStatement chain => WellFormedClauses .parsed chain.clauses ∧ chain.clauses ≠ []
  | .ifOrBody chain => WellFormedClauses .parsed chain.clauses ∧ chain.clauses ≠ []
  | .whileWord _ body => Part.WellFormed .parsed (.body body)
  | .semicolonOrStatement => True

/-- The finished parts of an unfinished body and of the bodies around it. -/
structure BodiesFit (body : OpenBody) (enclosing : List Enclosing) : Prop where
  inner : body.Fits
  outer : ∀ one ∈ enclosing, one.body.Fits ∧ one.owner.Fits

/-- Everything that has been finished is well formed. -/
def Parser.Fits (parser : Parser) : Prop :=
  match parser.progress with
  | .header _ _ => True
  | .inside body enclosing goal => BodiesFit body enclosing ∧ goal.Fits
  | .finished root => Part.WellFormed .parsed (.body root)

/-!
## One token
-/

/-- An expression starts with nothing that waits for an operand, so only its purpose has to fit. -/
theorem Purpose.Fits.start {purpose : Purpose} (fits : purpose.Fits) :
    (Goal.operand purpose []).Fits := ⟨fits, List.forall_mem_nil _⟩

/-- A finished statement is added to a body, and the others stay well formed. -/
theorem OpenBody.Fits.add {body : OpenBody} {statement : Node} (fits : body.Fits)
    (next : Part.WellFormed .parsed (.statement statement)) : (body.add statement).Fits := by
  intro other member
  rcases List.mem_append.mp member with earlier | last
  · exact fits other earlier
  · rw [List.mem_singleton.mp last]
    exact next

/-- A finished statement is added to the innermost body. The bodies around it do not change. -/
theorem BodiesFit.add {body : OpenBody} {enclosing : List Enclosing} {statement : Node}
    (fits : BodiesFit body enclosing)
    (next : Part.WellFormed .parsed (.statement statement)) :
    BodiesFit (body.add statement) enclosing := ⟨fits.inner.add next, fits.outer⟩

/-- A nested body starts without statements. What it belongs to has to fit, since it is finished
with the body. -/
theorem BodiesFit.nested {body : OpenBody} {enclosing : List Enclosing} {owner : BodyOwner}
    (fits : BodiesFit body enclosing) (owned : owner.Fits) (position : Position) :
    BodiesFit ⟨position, []⟩ (⟨body, owner⟩ :: enclosing) := by
  refine ⟨List.forall_mem_nil _, ?_⟩
  intro one member
  rcases List.mem_cons.mp member with rfl | outer
  · exact ⟨fits.inner, owned⟩
  · exact fits.outer one outer

/-- Closing a body with at least one statement finishes what the body belongs to. An empty body
would not be well formed, and the parser adds a statement before it closes one. -/
theorem Parser.closeBody_fits {nextId : Nat} {body : OpenBody} {enclosing : List Enclosing}
    (fits : BodiesFit body enclosing) (nonempty : body.statements ≠ []) :
    (Parser.closeBody nextId body enclosing).Fits := by
  cases enclosing with
  | nil => exact .compound nonempty fits.inner
  | cons one outer =>
    obtain ⟨outerBody, owner⟩ := one
    have around : BodiesFit outerBody outer :=
      ⟨(fits.outer _ List.mem_cons_self).1, fun other member =>
        fits.outer other (List.mem_cons_of_mem _ member)⟩
    have owned : owner.Fits := (fits.outer _ List.mem_cons_self).2
    have compound : Part.WellFormed .parsed (.body (.compound ⟨nextId, body.position⟩
        body.statements)) := .compound nonempty fits.inner
    cases owner with
    | block => exact ⟨around.add (.block nonempty fits.inner), trivial⟩
    | clause chain position condition =>
      refine ⟨around, owned.1.add (.clause owned.2 compound), ?_⟩
      exact List.append_ne_nil_of_right_ne_nil _ (List.cons_ne_nil _ _)
    | otherwise chain =>
      obtain ⟨clauses, some⟩ := owned
      obtain ⟨position, list⟩ := chain
      cases list with
      | nil => exact absurd rfl some
      | cons first later =>
        exact ⟨around.add (.chainElse clauses.1 clauses.2 compound), trivial⟩
    | whileLoop position condition => exact ⟨around.add (.whileLoop owned compound), trivial⟩
    | doWhile position => exact ⟨around, compound⟩

/-- The first token of a statement starts a part or finishes a body. -/
theorem Parser.startStatement_fits {nextId : Nat} {body : OpenBody}
    {enclosing : List Enclosing} {token : Token} {parser : Parser}
    (fits : BodiesFit body enclosing)
    (read : Parser.startStatement nextId body enclosing token = .ok parser) : parser.Fits := by
  unfold Parser.startStatement at read
  split at read
  · cases read
    exact ⟨fits, trivial⟩
  · cases read
    exact ⟨fits, trivial⟩
  · cases read
    exact ⟨fits, trivial⟩
  · cases read
    exact ⟨fits, trivial⟩
  · cases read
    exact ⟨fits, _, _, rfl, rfl, rfl⟩
  · have purposeFits : (Purpose.returnValue token.position).Fits := trivial
    cases read
    exact ⟨fits, purposeFits.start⟩
  · cases read
    exact ⟨fits.nested (show BodyOwner.block.Fits from trivial) token.position, trivial⟩
  · cases read
    exact ⟨fits.add .empty, trivial⟩
  · split at read
    · cases read
      exact closeBody_fits (fits.add .empty)
        (List.append_ne_nil_of_right_ne_nil _ (List.cons_ne_nil _ _))
    · rename_i nonempty
      cases read
      exact closeBody_fits fits (fun empty => nonempty (by rw [empty]; rfl))
  · cases read

/-- Giving an operand to what waits for it makes a well-formed expression, and what still
waits stays as it was. -/
theorem Waiting.collapse_fits {inCondition : Bool} (bound : Nat) (waiting : List Waiting)
    (operand : Node) (nextId : Nat) (fits : ∀ one ∈ waiting, one.Fits inCondition)
    (wellFormed : Part.WellFormed .parsed (.expression inCondition operand)) :
    (∀ one ∈ (collapse bound waiting operand nextId).1, one.Fits inCondition) ∧
      Part.WellFormed .parsed
        (.expression inCondition (collapse bound waiting operand nextId).2.1) := by
  induction waiting generalizing operand nextId with
  | nil => exact ⟨fits, wellFormed⟩
  | cons first outer inductionHypothesis =>
    have outerFits : ∀ one ∈ outer, one.Fits inCondition := fun one member =>
      fits one (List.mem_cons_of_mem first member)
    cases first with
    | sign position op => exact inductionHypothesis _ _ outerFits (.unary wellFormed)
    | operator position op left =>
      obtain ⟨allowed, leftWellFormed⟩ := fits _ List.mem_cons_self
      by_cases binds : bound ≤ op.tightness
      · simp only [collapse, if_pos binds]
        exact inductionHypothesis _ _ outerFits (.binary allowed leftWellFormed wellFormed)
      · simp only [collapse, if_neg binds]
        exact ⟨fits, wellFormed⟩
    | parenthesis => exact ⟨fits, wellFormed⟩

/-- The token behind an expression finishes what the expression was read for. The expression is one
for a condition or not, as its purpose asks. -/
theorem Parser.finishExpression_fits {nextId : Nat} {body : OpenBody}
    {enclosing : List Enclosing} {purpose : Purpose} {value : Node} {token : Token}
    {parser : Parser} (fits : BodiesFit body enclosing) (purposeFits : purpose.Fits)
    (wellFormed : Part.WellFormed .parsed (.expression purpose.isCondition value))
    (read : Parser.finishExpression nextId body enclosing purpose value token = .ok parser) :
    parser.Fits := by
  unfold Parser.finishExpression at read
  split at read
  · cases purpose with
    | initialValue position name =>
      obtain ⟨mark, identifier, rfl, declared⟩ := purposeFits
      cases read
      exact ⟨fits.add (.initialization declared wellFormed), trivial⟩
    | assignedValue position target op =>
      obtain ⟨mark, identifier, rfl, used⟩ := purposeFits
      cases read
      exact ⟨fits.add (.assignment used wellFormed), trivial⟩
    | returnValue position =>
      cases read
      exact ⟨fits.add (.returned wellFormed), trivial⟩
    | clauseCondition chain position =>
      cases read
      exact ⟨fits, purposeFits, wellFormed⟩
    | whileCondition position =>
      cases read
      exact ⟨fits, wellFormed⟩
    | doWhileCondition position loopBody =>
      cases read
      exact ⟨fits.add (.doWhile purposeFits wellFormed), trivial⟩
  · cases read

/-- A token that does not continue an expression closes a parenthesis or the whole. -/
theorem Parser.closeExpression_fits {nextId : Nat} {body : OpenBody}
    {enclosing : List Enclosing} {purpose : Purpose} {waiting : List Waiting} {operand : Node}
    {token : Token} {parser : Parser} (fits : BodiesFit body enclosing)
    (goalFits : (Goal.operator purpose waiting operand).Fits)
    (read : Parser.closeExpression nextId body enclosing purpose waiting operand token =
      .ok parser) : parser.Fits := by
  obtain ⟨purposeFits, waitingFits, wellFormed⟩ := goalFits
  obtain ⟨outerFits, valueFits⟩ :=
    Waiting.collapse_fits 0 waiting operand nextId waitingFits wellFormed
  unfold Parser.closeExpression at read
  split at read
  · rename_i outer value laterId collapsed
    rw [collapsed] at outerFits valueFits
    split at read
    · cases read
      exact ⟨fits, purposeFits, fun one member =>
        outerFits one (List.mem_cons_of_mem _ member), valueFits⟩
    · cases read
  · rename_i rest value laterId _ collapsed
    rw [collapsed] at valueFits
    exact finishExpression_fits fits purposeFits valueFits read

/-- The token behind an operand is an operator that may stand there, or it closes. Comparisons and
logical operators may stand in conditions only. -/
theorem Parser.continueExpression_fits {nextId : Nat} {body : OpenBody}
    {enclosing : List Enclosing} {purpose : Purpose} {waiting : List Waiting} {operand : Node}
    {token : Token} {parser : Parser} (fits : BodiesFit body enclosing)
    (goalFits : (Goal.operator purpose waiting operand).Fits)
    (read : Parser.continueExpression nextId body enclosing purpose waiting operand token =
      .ok parser) : parser.Fits := by
  unfold Parser.continueExpression at read
  split at read
  · rename_i op kind
    obtain ⟨purposeFits, waitingFits, wellFormed⟩ := goalFits
    obtain ⟨outerFits, leftFits⟩ :=
      Waiting.collapse_fits op.leftBound waiting operand nextId waitingFits wellFormed
    simp only at read
    split at read
    · rename_i admitted
      cases read
      refine ⟨fits, purposeFits, ?_⟩
      intro one member
      rcases List.mem_cons.mp member with rfl | outer
      · refine ⟨?_, leftFits⟩
        unfold Purpose.admits at admitted
        split at admitted
        · rename_i arithmetic
          exact Or.inl arithmetic
        · exact Or.inr (Bool.and_eq_true_iff.mp admitted).1
        · exact Or.inr admitted
      · exact outerFits one outer
    · exact closeExpression_fits fits ⟨purposeFits, waitingFits, wellFormed⟩ read
  · exact closeExpression_fits fits goalFits read

/-- The first token of an operand is an operand, a sign or a parenthesis. A literal has to have a
value, for otherwise it is refused. -/
theorem Parser.startOperand_fits {nextId : Nat} {body : OpenBody}
    {enclosing : List Enclosing} {purpose : Purpose} {waiting : List Waiting} {token : Token}
    {parser : Parser} (fits : BodiesFit body enclosing)
    (goalFits : (Goal.operand purpose waiting).Fits)
    (read : Parser.startOperand nextId body enclosing purpose waiting token = .ok parser) :
    parser.Fits := by
  obtain ⟨purposeFits, waitingFits⟩ := goalFits
  have await (one : Waiting) (oneFits : one.Fits purpose.isCondition) :
      (Goal.operand purpose (one :: waiting)).Fits := by
    refine ⟨purposeFits, ?_⟩
    intro other member
    rcases List.mem_cons.mp member with rfl | outer
    · exact oneFits
    · exact waitingFits other outer
  unfold Parser.startOperand at read
  split at read
  · cases read
    exact ⟨fits, await _ trivial⟩
  · cases read
    exact ⟨fits, await _ trivial⟩
  · cases read
    exact ⟨fits, await _ trivial⟩
  · cases read
    exact ⟨fits, purposeFits, waitingFits, .identifier ⟨rfl, rfl⟩⟩
  · split at read
    · rename_i value valued
      cases read
      exact ⟨fits, purposeFits, waitingFits, .integer valued⟩
    · cases read
  · cases read

/-- A chain without an else is a statement once something else follows it. It has a clause, because
it was started by one. -/
theorem WellFormedClauses.chain {chain : OpenChain} {mark : Mark}
    (clauses : WellFormedClauses .parsed chain.clauses) (nonempty : chain.clauses ≠ []) :
    Part.WellFormed .parsed (.statement (.chain mark chain.clauses none)) := by
  obtain ⟨position, list⟩ := chain
  cases list with
  | nil => exact absurd rfl nonempty
  | cons first later => exact .chain clauses.1 clauses.2

/-- A token inside a body keeps everything well formed, whatever the goal is. There is one case for
each goal, and the longer ones are the lemmas above. -/
theorem Parser.insideStep_fits {nextId : Nat} {body : OpenBody} {enclosing : List Enclosing}
    {goal : Goal} {token : Token} {parser : Parser} (fits : BodiesFit body enclosing)
    (goalFits : goal.Fits)
    (read : Parser.insideStep nextId body enclosing goal token = .ok parser) : parser.Fits := by
  cases goal with
  | statement => exact startStatement_fits fits read
  | declaredName position =>
    simp only [Parser.insideStep] at read
    split at read
    · cases read
      exact ⟨fits, _, _, rfl, rfl, rfl⟩
    · cases read
  | declarationEnd position name =>
    obtain ⟨mark, identifier, rfl, declared⟩ := goalFits
    simp only [Parser.insideStep] at read
    split at read
    · cases read
      exact ⟨fits.add (.declaration declared), trivial⟩
    · cases read
      have purposeFits : (Purpose.initialValue position (.identifier mark identifier)).Fits :=
        ⟨mark, identifier, rfl, declared⟩
      exact ⟨fits, purposeFits.start⟩
    · cases read
  | assignOperator target =>
    simp only [Parser.insideStep] at read
    split at read
    · rename_i op kind
      have purposeFits : (Purpose.assignedValue target.position target op).Fits := goalFits
      cases read
      exact ⟨fits, purposeFits.start⟩
    · cases read
  | openParenthesis purpose =>
    simp only [Parser.insideStep] at read
    split at read
    · cases read
      exact ⟨fits, Purpose.Fits.start goalFits⟩
    · cases read
  | operand purpose waiting => exact startOperand_fits fits goalFits read
  | operator purpose waiting left => exact continueExpression_fits fits goalFits read
  | openBrace owner =>
    simp only [Parser.insideStep] at read
    split at read
    · cases read
      exact ⟨fits.nested goalFits token.position, trivial⟩
    · cases read
  | elseOrStatement chain =>
    simp only [Parser.insideStep] at read
    split at read
    · cases read
      exact ⟨fits, goalFits⟩
    · exact startStatement_fits (fits.add (goalFits.1.chain goalFits.2)) read
  | ifOrBody chain =>
    simp only [Parser.insideStep] at read
    split at read
    · cases read
      exact ⟨fits, goalFits.1⟩
    · cases read
      exact ⟨fits.nested (show (BodyOwner.otherwise chain).Fits from goalFits) token.position,
        trivial⟩
    · cases read
  | whileWord position loopBody =>
    simp only [Parser.insideStep] at read
    split at read
    · cases read
      exact ⟨fits, goalFits⟩
    · cases read
  | semicolonOrStatement =>
    simp only [Parser.insideStep] at read
    split at read
    · cases read
      exact ⟨fits, trivial⟩
    · exact startStatement_fits fits read

/-- One token preserves the invariant, if it is not refused. -/
theorem Parser.step_fits {parser next : Parser} {token : Token} (fits : parser.Fits)
    (read : parser.step token = .ok next) : next.Fits := by
  obtain ⟨nextId, progress⟩ := parser
  cases progress with
  | header expected later =>
    simp only [Parser.step] at read
    split at read
    · cases later with
      | nil =>
        cases read
        exact ⟨⟨List.forall_mem_nil _, List.forall_mem_nil _⟩, trivial⟩
      | cons kind kinds =>
        cases read
        exact trivial
    · cases read
  | inside body enclosing goal => exact insideStep_fits fits.1 fits.2 read
  | finished root => cases read

/-- Every token of a run preserves the invariant, by induction on the tokens. -/
theorem Parser.run_fits {parser final : Parser} {tokens : List Token} (fits : parser.Fits)
    (run : tokens.foldlM Parser.step parser = .ok final) : final.Fits := by
  induction tokens generalizing parser with
  | nil =>
    cases run
    exact fits
  | cons token later inductionHypothesis =>
    rw [List.foldlM_cons] at run
    cases read : parser.step token with
    | error fault =>
      rw [read] at run
      cases run
    | ok next =>
      rw [read] at run
      exact inductionHypothesis (step_fits fits read) run

/-- The tree of an accepted token stream is well formed, and nothing is known about its
names but the types of those that it declares. -/
theorem Parsed.wellFormed {tokens : List Token} {parsed : Parsed}
    (accepted : Parsed.ofTokens tokens = .ok parsed) :
    Part.WellFormed .parsed (.body parsed.root) := by
  unfold Parsed.ofTokens at accepted
  cases run : (tokens.takeWhile (!·.isEnd)).foldlM Parser.step Parser.start with
  | error fault =>
    rw [run] at accepted
    cases accepted
  | ok parser =>
    have fits : parser.Fits := Parser.run_fits (show Parser.start.Fits from trivial) run
    rw [run] at accepted
    obtain ⟨nextId, progress⟩ := parser
    cases progress with
    | header expected later => cases accepted
    | inside body enclosing goal => cases accepted
    | finished root =>
      cases accepted
      exact fits

/-- A result that passes a check is there. With this a program that is given as text is known to be
accepted by evaluating the check. -/
theorem exists_ok_of_any {Result : Type} {result : Except Fault Result} {check : Result → Bool}
    (passes : result.toOption.any check = true) :
    ∃ value, result = .ok value ∧ check value = true := by
  obtain ⟨value, found, holds⟩ := (Option.any_eq_true _ _).mp passes
  cases result with
  | error fault => cases found
  | ok other =>
    cases found
    exact ⟨value, rfl, holds⟩

end IntMain
