import IntMain.Proofs.Acceptance
import IntMain.Proofs.TreeShape
import IntMain.Token.Lexer
import IntMain.Tree.Walk

/-!
# How a tree grows

An unfinished program holds finished trees: the statements of its open bodies, the clauses
of its open chains, the operands that wait for an operator. `Parser.parts` lists them in the
order of the text. All that a token does to this list is to make nodes, one after the other.
A node that is made takes its children off the end of the list and gets the next number, and
a leaf has no children to take. An identifier is made of the token itself.

This is said once for each function of the parser. What holds of the trees that the parser
builds then follows from what one new node does.
-/

namespace IntMain

/-!
## The finished parts
-/

/-- The operands that wait for an operator, in the order of the text. -/
@[simp]
def Waiting.parts : List Waiting → List Node
  | [] => []
  | .sign _ _ :: outer => parts outer
  | .operator _ _ left :: outer => parts outer ++ [left]
  | .parenthesis :: outer => parts outer

/-- The finished parts of what an expression is read for. -/
def Purpose.parts : Purpose → List Node
  | .initialValue _ name => [name]
  | .assignedValue _ target _ => [target]
  | .returnValue _ => []
  | .clauseCondition chain _ => chain.clauses
  | .whileCondition _ => []
  | .doWhileCondition _ body => [body]

/-- The finished parts of what a body belongs to. -/
def BodyOwner.parts : BodyOwner → List Node
  | .block => []
  | .clause chain _ condition => chain.clauses ++ [condition]
  | .otherwise chain => chain.clauses
  | .whileLoop _ condition => [condition]
  | .doWhile _ => []

/-- The finished parts of a goal. -/
def Goal.parts : Goal → List Node
  | .statement => []
  | .declaredName _ => []
  | .declarationEnd _ name => [name]
  | .assignOperator target => [target]
  | .openParenthesis purpose => purpose.parts
  | .operand purpose waiting => purpose.parts ++ Waiting.parts waiting
  | .operator purpose waiting left => purpose.parts ++ Waiting.parts waiting ++ [left]
  | .openBrace owner => owner.parts
  | .elseOrStatement chain => chain.clauses
  | .ifOrBody chain => chain.clauses
  | .whileWord _ body => [body]
  | .semicolonOrStatement => []

/-- The finished parts of the bodies around the innermost one. -/
@[simp]
def partsAround : List Enclosing → List Node
  | [] => []
  | one :: outer => partsAround outer ++ one.body.statements ++ one.owner.parts

/-- The finished parts of an unfinished program, in the order of the text. -/
def Parser.parts (parser : Parser) : List Node :=
  match parser.progress with
  | .header _ _ => []
  | .inside body enclosing goal => partsAround enclosing ++ body.statements ++ goal.parts
  | .finished root => [root]

/-- Inside a body the finished statements come before what belongs to the next one. -/
@[simp]
theorem Parser.parts_inside {nextId : Nat} {body : OpenBody} {enclosing : List Enclosing}
    {goal : Goal} :
    (⟨nextId, .inside body enclosing goal⟩ : Parser).parts =
      partsAround enclosing ++ body.statements ++ goal.parts := rfl

/-!
## One token
-/

/-- A node may be made when a token is read: an identifier is the token itself. Nothing is asked of
other nodes. -/
def Node.MadeOf (token : Token) (node : Node) : Prop :=
  ∀ mark name, node = .identifier mark name →
    token.kind = .identifier ∧ name.name = token.lexeme ∧ mark.position = token.position

/-- A node that is no identifier may be made when any token is read. -/
theorem Node.MadeOf.other {token : Token} {node : Node}
    (other : ∀ mark name, node ≠ .identifier mark name) : node.MadeOf token :=
  fun mark name same => absurd same (other mark name)

/-- How parts, and the number of the next node, change when a token is read: nodes are made,
each of the last parts, which become its children. -/
inductive Grows (token : Token) (finalId : Nat) (final : List Node) : Nat → List Node → Prop
  | done {parts : List Node} (same : parts = final) : Grows token finalId final finalId parts
  | make {nextId : Nat} {parts : List Node} (before : List Node) (node : Node)
      (split : parts = before ++ node.children) (numbered : node.id = nextId)
      (madeOf : node.MadeOf token)
      (later : Grows token finalId final (nextId + 1) (before ++ [node])) :
    Grows token finalId final nextId parts

/-- Reading a token makes nodes out of some parts. A refused token makes none, so nothing is asked
then. -/
def Makes (token : Token) (nextId : Nat) (parts : List Node) : Except Fault Parser → Prop
  | .ok next => Grows token next.nextId next.parts nextId parts
  | .error _ => True

section

variable {token : Token} {nextId : Nat} {body : OpenBody} {enclosing : List Enclosing}

/-- Parts may be made in several turns, with the numbers going on from one turn to the next. -/
theorem Grows.trans {middleId finalId : Nat} {parts middle final : List Node}
    (first : Grows token middleId middle nextId parts)
    (second : Grows token finalId final middleId middle) :
    Grows token finalId final nextId parts := by
  induction first with
  | done same => exact same ▸ second
  | make before node split numbered madeOf later inductionHypothesis =>
    exact .make _ node split numbered madeOf inductionHypothesis

/-- Giving an operand to what waits for it makes nodes. The parts in front of them stay as they
are. -/
theorem Waiting.collapse_grows (bound : Nat) (waiting : List Waiting) (operand : Node)
    (nextId : Nat) (front : List Node) :
    Grows token (collapse bound waiting operand nextId).2.2
      (front ++ parts (collapse bound waiting operand nextId).1 ++
        [(collapse bound waiting operand nextId).2.1])
      nextId (front ++ parts waiting ++ [operand]) := by
  induction waiting generalizing operand nextId with
  | nil => exact .done rfl
  | cons first outer inductionHypothesis =>
    cases first with
    | sign position op =>
      exact .make _ (.unary ⟨nextId, position⟩ op operand) rfl rfl (.other (by simp))
        (inductionHypothesis _ _)
    | operator position op left =>
      by_cases binds : bound ≤ op.tightness
      · rw [collapse, if_pos binds]
        refine .make (front ++ parts outer) (.binary ⟨nextId, position⟩ op left operand) ?_ rfl
          (.other (by simp)) (inductionHypothesis _ _)
        simp [Node.children]
      · rw [collapse, if_neg binds]
        exact .done rfl
    | parenthesis => exact .done rfl

/-- Closing a body makes it a node, and with it what the body belongs to. A do-while loop is not yet
complete then. -/
theorem Parser.closeBody_grows :
    Grows token (Parser.closeBody nextId body enclosing).nextId
      (Parser.closeBody nextId body enclosing).parts nextId
      (partsAround enclosing ++ body.statements) := by
  have compound {finalId : Nat} {final before : List Node} (later : Grows token finalId final
      (nextId + 1) (before ++ [.compound ⟨nextId, body.position⟩ body.statements])) :
      Grows token finalId final nextId (before ++ body.statements) :=
    .make before _ rfl rfl (.other (by simp)) later
  cases enclosing with
  | nil => exact compound (.done rfl)
  | cons one outer =>
    obtain ⟨outerBody, owner⟩ := one
    cases owner with
    | block =>
      refine .make _ (.block ⟨nextId, body.position⟩ body.statements) rfl rfl (.other (by simp))
        (.done ?_)
      simp [Parser.closeBody, BodyOwner.parts, Goal.parts, OpenBody.add]
    | clause chain position condition =>
      refine compound (.make (partsAround outer ++ outerBody.statements ++ chain.clauses)
        (.clause ⟨nextId + 1, position⟩ chain.nextTag condition
          (.compound ⟨nextId, body.position⟩ body.statements)) ?_ rfl (.other (by simp)) (.done ?_))
      · simp [Node.children, BodyOwner.parts]
      · simp [Parser.closeBody, Goal.parts, OpenChain.add]
    | otherwise chain =>
      refine compound (.make (partsAround outer ++ outerBody.statements)
        (.chain ⟨nextId + 1, chain.position⟩ chain.clauses
          (some (.compound ⟨nextId, body.position⟩ body.statements))) ?_ rfl (.other (by simp))
          (.done ?_))
      · simp [Node.children, BodyOwner.parts]
      · simp [Parser.closeBody, Goal.parts, OpenBody.add]
    | whileLoop position condition =>
      refine compound (.make (partsAround outer ++ outerBody.statements)
        (.whileLoop ⟨nextId + 1, position⟩ condition
          (.compound ⟨nextId, body.position⟩ body.statements)) ?_ rfl (.other (by simp)) (.done ?_))
      · simp [Node.children, BodyOwner.parts]
      · simp [Parser.closeBody, Goal.parts, OpenBody.add]
    | doWhile position =>
      refine compound (.done ?_)
      simp [Parser.closeBody, BodyOwner.parts, Goal.parts]

/-- A leaf is made of nothing, and the other parts stay as they are. -/
theorem Grows.leaf {finalId : Nat} {parts final : List Node} (node : Node)
    (isLeaf : node.children = []) (numbered : node.id = nextId) (madeOf : node.MadeOf token)
    (later : Grows token finalId final (nextId + 1) (parts ++ [node])) :
    Grows token finalId final nextId parts :=
  .make parts node (by rw [isLeaf, List.append_nil]) numbered madeOf later

/-- An identifier is made of its token, with the token's lexeme and position. -/
theorem Node.MadeOf.identifier {id : Nat} {type : Option TypeTag}
    (isName : token.kind = .identifier) :
    (Node.identifier ⟨id, token.position⟩ ⟨token.lexeme, none, type⟩).MadeOf token := by
  intro mark name same
  cases same
  exact ⟨isName, rfl, rfl⟩

/-- The first token of a statement makes a leaf or closes the body, or it makes nothing yet. -/
theorem Parser.startStatement_makes :
    Makes token nextId (partsAround enclosing ++ body.statements)
      (Parser.startStatement nextId body enclosing token) := by
  have empty {finalId : Nat} {final : List Node}
      (later : Grows token finalId final (nextId + 1)
        (partsAround enclosing ++ (body.add (.empty ⟨nextId, token.position⟩)).statements)) :
      Grows token finalId final nextId (partsAround enclosing ++ body.statements) := by
    refine .leaf (.empty ⟨nextId, token.position⟩) rfl rfl (.other (by simp)) ?_
    rwa [List.append_assoc]
  unfold Parser.startStatement
  split
  case h_5 isName =>
    refine .leaf (.identifier ⟨nextId, token.position⟩ ⟨token.lexeme, none, none⟩) rfl rfl
      (.identifier isName) (.done ?_)
    simp [Goal.parts]
  case h_8 => exact empty (.done (by simp [Goal.parts]))
  case h_9 =>
    split
    · exact empty Parser.closeBody_grows
    · exact Parser.closeBody_grows
  case h_10 => trivial
  all_goals exact .done (by simp [Goal.parts, Purpose.parts, BodyOwner.parts])

/-- The token behind an expression makes the statement that the expression ends, if it ends
one. -/
theorem Parser.finishExpression_makes {purpose : Purpose} {value : Node} :
    Makes token nextId (partsAround enclosing ++ body.statements ++ (purpose.parts ++ [value]))
      (Parser.finishExpression nextId body enclosing purpose value token) := by
  have statement {goal : Goal} (node : Node) (noParts : goal.parts = [])
      (isStatement : node.children = purpose.parts ++ [value]) (numbered : node.id = nextId)
      (other : ∀ mark name, node ≠ .identifier mark name) :
      Makes token nextId (partsAround enclosing ++ body.statements ++ (purpose.parts ++ [value]))
        (.ok ⟨nextId + 1, .inside (body.add node) enclosing goal⟩) := by
    refine .make _ node (by rw [isStatement]) numbered (.other other) (.done ?_)
    simp [OpenBody.add, noParts]
  unfold Parser.finishExpression
  split
  · cases purpose with
    | initialValue position name => exact statement _ rfl rfl rfl (by simp)
    | assignedValue position target op => exact statement _ rfl rfl rfl (by simp)
    | returnValue position => exact statement _ rfl rfl rfl (by simp)
    | doWhileCondition position loopBody => exact statement _ rfl rfl rfl (by simp)
    | clauseCondition chain position => exact .done rfl
    | whileCondition position => exact .done rfl
  · trivial

/-- Nodes may be made before the rest of a token's work. -/
theorem Makes.of_grows {middleId : Nat} {parts middle : List Node}
    {result : Except Fault Parser} (first : Grows token middleId middle nextId parts)
    (second : Makes token middleId middle result) : Makes token nextId parts result := by
  cases result with
  | error fault => trivial
  | ok next => exact first.trans second

/-- A token that does not continue an expression lets all that waits in the innermost
parenthesis make its nodes. -/
theorem Parser.closeExpression_makes {purpose : Purpose} {waiting : List Waiting}
    {operand : Node} :
    Makes token nextId
      (partsAround enclosing ++ body.statements ++ purpose.parts ++ Waiting.parts waiting ++
        [operand])
      (Parser.closeExpression nextId body enclosing purpose waiting operand token) := by
  have grows := @Waiting.collapse_grows token 0 waiting operand nextId
    (partsAround enclosing ++ body.statements ++ purpose.parts)
  have ends := Waiting.collapse_zero waiting operand nextId
  refine .of_grows grows ?_
  unfold Parser.closeExpression
  generalize Waiting.collapse 0 waiting operand nextId = collapsed at ends ⊢
  obtain ⟨outer, value, laterId⟩ := collapsed
  rcases ends with rfl | ⟨further, rfl⟩
  · simpa using Parser.finishExpression_makes
  · simp only
    split
    · exact .done (by simp [Goal.parts])
    · trivial

/-- An operator behind an operand lets the tighter ones make their nodes. The left operand then
waits. -/
theorem Parser.continueExpression_makes {purpose : Purpose} {waiting : List Waiting}
    {operand : Node} :
    Makes token nextId
      (partsAround enclosing ++ body.statements ++ purpose.parts ++ Waiting.parts waiting ++
        [operand])
      (Parser.continueExpression nextId body enclosing purpose waiting operand token) := by
  unfold Parser.continueExpression
  split
  · rename_i op isOperator
    have grows := @Waiting.collapse_grows token op.leftBound waiting operand nextId
      (partsAround enclosing ++ body.statements ++ purpose.parts)
    simp only
    split
    · refine .of_grows grows (.done ?_)
      simp [Goal.parts]
    · exact closeExpression_makes
  · exact closeExpression_makes

/-- The first token of an operand makes a leaf, or waits. -/
theorem Parser.startOperand_makes {purpose : Purpose} {waiting : List Waiting} :
    Makes token nextId
      (partsAround enclosing ++ body.statements ++ (Goal.operand purpose waiting).parts)
      (Parser.startOperand nextId body enclosing purpose waiting token) := by
  unfold Parser.startOperand
  split
  case h_4 isName =>
    exact .leaf (.identifier ⟨nextId, token.position⟩ ⟨token.lexeme, none, none⟩) rfl rfl
      (.identifier isName) (.done (by simp [Goal.parts]))
  case h_5 =>
    split
    · rename_i value valued
      exact .leaf (.integer ⟨nextId, token.position⟩ value token.lexeme) rfl rfl
        (.other (by simp)) (.done (by simp [Goal.parts]))
    · trivial
  case h_6 => trivial
  all_goals exact .done (by simp [Goal.parts])

/-- A token inside a body makes nodes of the parts, whatever the goal is. There is one case for each
goal. -/
theorem Parser.insideStep_makes {goal : Goal} :
    Makes token nextId (partsAround enclosing ++ body.statements ++ goal.parts)
      (Parser.insideStep nextId body enclosing goal token) := by
  cases goal with
  | statement =>
    simp only [Goal.parts, List.append_nil]
    exact startStatement_makes
  | declaredName position =>
    simp only [Parser.insideStep]
    split
    · rename_i isName
      exact .leaf (.identifier ⟨nextId, token.position⟩ ⟨token.lexeme, none, some .int⟩) rfl rfl
        (.identifier isName) (.done (by simp [Goal.parts]))
    · trivial
  | declarationEnd position name =>
    simp only [Parser.insideStep]
    split
    · exact .make _ (.declaration ⟨nextId, position⟩ name) rfl rfl (.other (by simp))
        (.done (by simp [Goal.parts, OpenBody.add]))
    · exact .done (by simp [Goal.parts, Purpose.parts])
    · trivial
  | assignOperator target =>
    simp only [Parser.insideStep]
    split
    · exact .done (by simp [Goal.parts, Purpose.parts])
    · trivial
  | openParenthesis purpose =>
    simp only [Parser.insideStep]
    split
    · exact .done (by simp [Goal.parts])
    · trivial
  | operand purpose waiting => exact startOperand_makes
  | operator purpose waiting operand =>
    simp only [Goal.parts, ← List.append_assoc]
    exact continueExpression_makes
  | openBrace owner =>
    simp only [Parser.insideStep]
    split
    · exact .done (by simp [Goal.parts])
    · trivial
  | elseOrStatement chain =>
    simp only [Parser.insideStep]
    split
    · exact .done rfl
    · let whole : Node := .chain ⟨nextId, chain.position⟩ chain.clauses none
      have grows : Grows token (nextId + 1)
          (partsAround enclosing ++ (body.add whole).statements) nextId
          (partsAround enclosing ++ body.statements ++ (Goal.elseOrStatement chain).parts) := by
        refine .make (partsAround enclosing ++ body.statements) whole ?_ rfl
          (.other (by simp [whole])) (.done (List.append_assoc _ _ _))
        simp [whole, Node.children, Goal.parts]
      exact .of_grows grows startStatement_makes
  | ifOrBody chain =>
    simp only [Parser.insideStep]
    split
    · exact .done rfl
    · exact .done (by simp [Goal.parts, BodyOwner.parts])
    · trivial
  | whileWord position loopBody =>
    simp only [Parser.insideStep]
    split
    · exact .done rfl
    · trivial
  | semicolonOrStatement =>
    simp only [Parser.insideStep]
    split
    · exact .done rfl
    · simpa [Goal.parts] using startStatement_makes

/-- A token makes nodes of the parts, or is refused. This is all that the lemmas below need to know
about the parser. -/
theorem Parser.step_makes (parser : Parser) :
    Makes token parser.nextId parser.parts (parser.step token) := by
  obtain ⟨nextId, progress⟩ := parser
  cases progress with
  | header expected later =>
    simp only [Parser.step]
    split
    · cases later with
      | nil => exact .done rfl
      | cons kind kinds => exact .done rfl
    · trivial
  | inside body enclosing goal => exact insideStep_makes
  | finished root => trivial

end

/-!
## A whole program
-/

/-- The nodes that a token makes preserve what holds of the next number and the parts. -/
def Preserves (token : Token) (invariant : Nat → List Node → Prop) : Prop :=
  ∀ ⦃nextId finalId : Nat⦄ ⦃parts final : List Node⦄, Grows token finalId final nextId parts →
    invariant nextId parts → invariant finalId final

/-- What new nodes preserve holds of the parts of an unfinished program, whatever has been
read. -/
theorem Parser.run_preserves {invariant : Nat → List Node → Prop} {tokens : List Token}
    (preserves : ∀ token ∈ tokens, Preserves token invariant) {parser final : Parser}
    (holds : invariant parser.nextId parser.parts)
    (run : tokens.foldlM Parser.step parser = .ok final) :
    invariant final.nextId final.parts := by
  induction tokens generalizing parser with
  | nil =>
    cases run
    exact holds
  | cons token later inductionHypothesis =>
    have makes : Makes token parser.nextId parser.parts (parser.step token) := parser.step_makes
    rw [List.foldlM_cons] at run
    cases read : parser.step token with
    | error fault =>
      rw [read] at run
      cases run
    | ok next =>
      rw [read] at run makes
      obtain ⟨headPreserves, laterPreserve⟩ := List.forall_mem_cons.mp preserves
      exact inductionHypothesis laterPreserve (headPreserves makes holds) run

/-- What is preserved holds of the tree of an accepted program, if it holds of nothing. Only the
tokens before the end are read. -/
theorem Parsed.preserves {invariant : Nat → List Node → Prop} {tokens : List Token}
    {parsed : Parsed} (accepted : Parsed.ofTokens tokens = .ok parsed)
    (preserves : ∀ token ∈ tokens.takeWhile (!·.isEnd), Preserves token invariant)
    (empty : invariant 0 []) : ∃ count, invariant count [parsed.root] := by
  unfold Parsed.ofTokens at accepted
  cases run : (tokens.takeWhile (!·.isEnd)).foldlM Parser.step Parser.start with
  | error fault =>
    rw [run] at accepted
    cases accepted
  | ok parser =>
    have start : invariant Parser.start.nextId Parser.start.parts := empty
    have holds := Parser.run_preserves preserves start run
    rw [run] at accepted
    obtain ⟨nextId, progress⟩ := parser
    cases progress with
    | header expected later => cases accepted
    | inside body enclosing goal => cases accepted
    | finished root =>
      cases accepted
      exact ⟨nextId, holds⟩

/-!
## Where identifiers come from
-/

/-- Every identifier of a tree is the lexeme of a token, at its position. -/
def Node.NamedBy (tokens : List Token) (root : Node) : Prop :=
  ∀ mark name, .identifier mark name ∈ root.postorder →
    ∃ token ∈ tokens, token.kind = .identifier ∧ name.name = token.lexeme ∧
      mark.position = token.position

/-- New nodes are named by the tokens that have been read, if the others are. -/
theorem Grows.namedBy {token : Token} {tokens : List Token} {nextId finalId : Nat}
    {parts final : List Node} (grows : Grows token finalId final nextId parts)
    (member : token ∈ tokens) (named : ∀ part ∈ parts, part.NamedBy tokens) :
    ∀ part ∈ final, part.NamedBy tokens := by
  induction grows with
  | done same => exact same ▸ named
  | make before node split numbered madeOf later inductionHypothesis =>
    subst split
    obtain ⟨beforeNamed, childrenNamed⟩ := List.forall_mem_append.mp named
    apply inductionHypothesis
    refine List.forall_mem_append.mpr ⟨beforeNamed, List.forall_mem_singleton.mpr ?_⟩
    intro mark name inside
    rw [Node.postorder_eq, List.mem_append, List.mem_flatMap, List.mem_singleton] at inside
    rcases inside with ⟨child, isChild, inChild⟩ | isNode
    · exact childrenNamed child isChild mark name inChild
    · exact ⟨token, member, madeOf mark name isNode.symm⟩

/-- The identifiers of an accepted program are tokens of it, with their lexemes and positions. -/
theorem Parsed.namedBy {tokens : List Token} {parsed : Parsed}
    (accepted : Parsed.ofTokens tokens = .ok parsed) :
    parsed.root.NamedBy (tokens.takeWhile (!·.isEnd)) := by
  have preserves : ∀ token ∈ tokens.takeWhile (!·.isEnd), Preserves token
      (fun _ parts => ∀ part ∈ parts, part.NamedBy (tokens.takeWhile (!·.isEnd))) :=
    fun token member _ _ _ _ grows named => grows.namedBy member named
  obtain ⟨count, named⟩ := Parsed.preserves accepted preserves (List.forall_mem_nil _)
  exact named parsed.root List.mem_cons_self

/-!
## Numbers
-/

/-- New nodes go on with the numbers of the others. A node is made behind its children, so it comes
last in the walk. -/
theorem Grows.numbered {token : Token} {nextId finalId : Nat} {parts final : List Node}
    (grows : Grows token finalId final nextId parts)
    (numbered : (parts.flatMap Node.postorder).map Node.id = List.range nextId) :
    (final.flatMap Node.postorder).map Node.id = List.range finalId := by
  induction grows with
  | done same => exact same ▸ numbered
  | make before node split isNext madeOf later inductionHypothesis =>
    apply inductionHypothesis
    rw [split, List.flatMap_append] at numbered
    rw [List.flatMap_append, List.flatMap_singleton, Node.postorder_eq, ← List.append_assoc,
      List.map_append, numbered, List.range_succ, List.map_singleton, isNext]

/-- The nodes of an accepted program are numbered from zero, each behind its children. No number is
left out and none is used twice. -/
theorem Parsed.postorder_ids {tokens : List Token} {parsed : Parsed}
    (accepted : Parsed.ofTokens tokens = .ok parsed) :
    parsed.root.postorder.map Node.id = List.range parsed.root.postorder.length := by
  have preserves : ∀ token ∈ tokens.takeWhile (!·.isEnd), Preserves token
      (fun nextId parts => (parts.flatMap Node.postorder).map Node.id = List.range nextId) :=
    fun token _ _ _ _ _ grows numbered => grows.numbered numbered
  obtain ⟨count, numbered⟩ := Parsed.preserves accepted preserves rfl
  rw [List.flatMap_singleton] at numbered
  have length := congrArg List.length numbered
  rw [List.length_map, List.length_range] at length
  rw [numbered, length]

namespace Node

/-- A node lies below another one if it is a child of it, or of a node that lies below it. -/
def Below : Node → Node → Prop :=
  Relation.TransGen (fun child node => child ∈ node.children)

/-- The walk through a tree comes to its root. -/
theorem mem_postorder (node : Node) : node ∈ node.postorder := by
  rw [postorder_eq]
  exact List.mem_append_right _ (List.mem_singleton_self node)

/-- What lies below a node is listed before it, in the walk through one of its children. -/
theorem Below.mem_children_postorder {lower upper : Node} (below : lower.Below upper) :
    lower ∈ upper.children.flatMap postorder := by
  induction below with
  | single isChild => exact List.mem_flatMap.mpr ⟨lower, isChild, lower.mem_postorder⟩
  | @tail middle upper below isChild inductionHypothesis =>
    apply List.mem_flatMap.mpr
    refine ⟨middle, isChild, ?_⟩
    rw [postorder_eq]
    exact List.mem_append_left _ inductionHypothesis

/-- The walk through a tree contains the walks through its parts, in their order. -/
theorem postorder_sublist {root node : Node} (member : node ∈ root.postorder) :
    node.postorder.Sublist root.postorder := by
  induction root using postorder.induct with
  | case1 root each =>
    rw [postorder_eq, List.mem_append, List.mem_flatMap, List.mem_singleton] at member
    rcases member with ⟨child, isChild, inside⟩ | rfl
    · rw [postorder_eq root]
      apply List.Sublist.trans (each ⟨child, isChild⟩ inside)
      apply List.Sublist.trans _ (List.sublist_append_left _ _)
      exact List.sublist_flatten_of_mem (List.mem_map_of_mem isChild)
    · exact List.Sublist.refl _

end Node

/-- The numbers grow along the walk through any part of an accepted program, so what lies below a
node has a lower number. -/
theorem Parsed.id_lt_of_below {tokens : List Token} {parsed : Parsed}
    (accepted : Parsed.ofTokens tokens = .ok parsed) {lower upper : Node}
    (member : upper ∈ parsed.root.postorder) (below : lower.Below upper) :
    lower.id < upper.id := by
  have increasing : (parsed.root.postorder.map Node.id).Pairwise (· < ·) := by
    rw [Parsed.postorder_ids accepted]
    exact List.pairwise_lt_range
  have inside := increasing.sublist ((Node.postorder_sublist member).map Node.id)
  rw [Node.postorder_eq, List.map_append, List.pairwise_append] at inside
  obtain ⟨-, -, before⟩ := inside
  exact before lower.id (List.mem_map_of_mem below.mem_children_postorder) upper.id
    List.mem_cons_self

/-- The root of an accepted program has the last number, one less than there are nodes. -/
theorem Parsed.root_id {tokens : List Token} {parsed : Parsed}
    (accepted : Parsed.ofTokens tokens = .ok parsed) :
    parsed.root.id + 1 = parsed.root.postorder.length := by
  have numbered := Parsed.postorder_ids accepted
  rw [Node.postorder_eq, List.length_append, List.length_singleton] at numbered ⊢
  rw [List.range_succ, List.map_append, List.map_singleton] at numbered
  have last := (List.append_inj' numbered rfl).2
  rw [List.singleton_inj.mp last]

/-- **The numbers of the nodes are their places in post-order.**

For every program that parses, the nodes of its tree in post-order have the numbers from zero on,
without a gap. So no number is given twice, a node has a larger number than all that lies below it,
and the root has the last number. -/
theorem numbers_follow_postorder (tokens : List Token) (parsed : Parsed)
    (accepted : Parsed.ofTokens tokens = .ok parsed) :
    parsed.root.postorder.map Node.id = List.range parsed.root.postorder.length ∧
    (parsed.root.postorder.map Node.id).Nodup ∧
    (∀ upper ∈ parsed.root.postorder, ∀ lower : Node, lower.Below upper →
      lower.id < upper.id) ∧
    parsed.root.id = parsed.root.postorder.length - 1 := by
  have numbered := Parsed.postorder_ids accepted
  refine ⟨numbered, ?_, ?_, ?_⟩
  · rw [numbered]
    exact List.nodup_range
  · intro upper member lower below
    exact Parsed.id_lt_of_below accepted member below
  · exact Nat.eq_sub_of_add_eq (Parsed.root_id accepted)

/-- A program with a loop whose condition comes last, a chain of clauses, and declarations with
and without a value. -/
def numberedLoops : String :=
  "int main() \x7b int a; int b = -2; do \x7b a = b * 3; \x7d while (a < 1); " ++
  "if (a == b) \x7b ; \x7d else if (b > 0) \x7b return a; \x7d else \x7b \x7b \x7d \x7d \x7d"

/-- The nodes of `numberedLoops`, as they are numbered. -/
def numberedTags : List String :=
  ["Identifier", "Declaration", "Identifier", "Integer", "Unary", "DeclarationAssignment",
    "Identifier", "Identifier", "Integer", "BinaryOp", "Assignment", "Compound", "Identifier",
    "Integer", "Condition", "DoWhile", "Identifier", "Identifier", "Condition", "Empty",
    "Compound", "IfClause", "Identifier", "Integer", "Condition", "Identifier", "Return",
    "Compound", "IfClause", "Empty", "Block", "Compound", "IfChain", "Compound"]

/-- The program above has the thirty-four nodes that are listed, numbered in this order. The root
has the last number, and all nodes below it have lower ones. -/
theorem numbers_follow_postorder_numberedLoops :
    ∃ parsed, Parsed.ofTokens (Lexed.ofText numberedLoops).tokens = .ok parsed ∧
      parsed.root.postorder.map Node.tag = numberedTags ∧
      parsed.root.postorder.map Node.id = List.range 34 ∧
      (∀ lower : Node, lower.Below parsed.root → lower.id < 33) ∧
      parsed.root.id = 33 := by
  have evaluated : (Parsed.ofTokens (Lexed.ofText numberedLoops).tokens).toOption.any
      (fun parsed => parsed.root.postorder.map Node.tag == numberedTags) = true := by
    decide +kernel
  obtain ⟨parsed, accepted, checked⟩ := exists_ok_of_any evaluated
  have tags := beq_iff_eq.mp checked
  have length : parsed.root.postorder.length = 34 := by
    rw [← List.length_map Node.tag, tags]
    rfl
  obtain ⟨numbered, -, grows, rootId⟩ := numbers_follow_postorder _ parsed accepted
  rw [length] at numbered rootId
  refine ⟨parsed, accepted, tags, numbered, ?_, rootId⟩
  intro lower below
  have smaller := grows parsed.root parsed.root.mem_postorder lower below
  omega

end IntMain
