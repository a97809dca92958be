import IntMain.Assembly.Line
import IntMain.Assembly.Pairing
import IntMain.Proofs.DirectTests

/-!
# Conditions and comparisons in the order of the code

A program has a conditional jump for each condition of a clause or a loop, and a
quadruple for each comparison. Here the conditions and the comparisons of a tree are
listed in the order in which their code comes, and the quadruples are related to them.

Two things are said about the quadruples. Each conditional jump stands directly behind the
code that computes its condition, and the jumps come in the order of the conditions. And
with `Arranged`, the quadruples are a row of blocks, of which only those for a condition
have a jump. A comparison that is a whole condition makes one block with its jump; any
other comparison makes a block of its own. This is all that pairing needs to know, and it
holds of every program, also of one with logical operators or with comparisons inside of
other operators.
-/

namespace IntMain

/-!
## Conditions and comparisons of a tree
-/

/-- A comparison of a tree, and whether it is the whole condition of a clause or a loop. -/
structure Comparison where
  op : BinaryOp
  isTest : Bool
  deriving DecidableEq, Repr

namespace Node

mutual

/-- The conditions of clauses and loops in the order of their code. What a condition guards
comes behind it, but for the body of a `do` loop. -/
def conditions : Node → List Node
  | .clause _ _ condition body => condition :: body.conditions
  | .chain _ clauses none => conditionsAll clauses
  | .chain _ clauses (some body) => conditionsAll clauses ++ body.conditions
  | .whileLoop _ condition body => condition :: body.conditions
  | .doWhile _ body condition => body.conditions ++ [condition]
  | .compound _ statements => conditionsAll statements
  | .block _ statements => conditionsAll statements
  | _ => []

/-- The conditions of several trees in a row. -/
def conditionsAll : List Node → List Node
  | [] => []
  | node :: later => node.conditions ++ conditionsAll later

end

mutual

/-- The comparisons of a tree in the order of their code, operands before the operation.
`isTest` tells that the node is the whole condition of a clause or a loop. -/
def comparisons (isTest : Bool) : Node → List Comparison
  | .integer _ _ _ => []
  | .identifier _ _ => []
  | .unary _ _ operand => operand.comparisons false
  | .binary _ op left right =>
    left.comparisons false ++ right.comparisons false ++
      if op.operatorClass = .relational then [⟨op, isTest⟩] else []
  | .clause _ _ condition body => condition.comparisons true ++ body.comparisons false
  | .chain _ clauses none => comparisonsAll clauses
  | .chain _ clauses (some body) => comparisonsAll clauses ++ body.comparisons false
  | .whileLoop _ condition body => condition.comparisons true ++ body.comparisons false
  | .doWhile _ body condition => body.comparisons false ++ condition.comparisons true
  | .compound _ statements => comparisonsAll statements
  | .block _ statements => comparisonsAll statements
  | .declaration _ _ => []
  | .initialization _ _ value => value.comparisons false
  | .assignment _ _ _ value => value.comparisons false
  | .returned _ value => value.comparisons false
  | .empty _ => []

/-- The comparisons of several trees in a row. -/
def comparisonsAll : List Node → List Comparison
  | [] => []
  | node :: later => node.comparisons false ++ comparisonsAll later

end

/-- The relations on which to jump for a condition: when it holds, and when it does not. A
comparison is decided by its operands, another value by comparing it with zero. A logical
operator is not decided by one jump. -/
def jumps? : Node → Option (Relation × Relation)
  | .binary _ .lt _ _ => some (.less, .greaterOrEqual)
  | .binary _ .le _ _ => some (.lessOrEqual, .greater)
  | .binary _ .gt _ _ => some (.greater, .lessOrEqual)
  | .binary _ .ge _ _ => some (.greaterOrEqual, .less)
  | .binary _ .eq _ _ => some (.equal, .notEqual)
  | .binary _ .ne _ _ => some (.notEqual, .equal)
  | .binary _ .and _ _ => none
  | .binary _ .or _ _ => none
  | _ => some (.notEqual, .equal)

end Node

/-- The conditions of a task. -/
def Task.conditions : Task → List Node
  | .statement node => node.conditions
  | .statements nodes => Node.conditionsAll nodes
  | .clauses nodes _ => Node.conditionsAll nodes

/-- The comparisons of a task. -/
def Task.comparisons : Task → List Comparison
  | .statement node => node.comparisons false
  | .statements nodes => Node.comparisonsAll nodes
  | .clauses nodes _ => Node.comparisonsAll nodes

/-- The family of the commands for a class of operators. -/
def OperatorClass.commandKind : OperatorClass → CommandKind
  | .arithmetic => .arithmetic
  | .relational => .relational
  | .logical => .logical

namespace Quad

/-- Whether an instruction is a conditional jump. -/
def isBranch (quad : Quad) : Bool := quad.kind? == some .conditionalJump

/-- Whether an instruction is a comparison. -/
def isComparison (quad : Quad) : Bool := quad.kind? == some .relational

/-- A jump on a condition is a conditional jump, whether it is taken on true or on false. -/
theorem isBranch_branch (whenTrue : Bool) (condition label : Operand) :
    (Quad.branch whenTrue condition label).isBranch = true := by
  cases whenTrue <;> rfl

/-- A binary operation is no conditional jump, whatever its operator is. -/
theorem isBranch_binary (op : BinaryOp) (left right target : Operand) :
    (Quad.binary op left right target).isBranch = false := by
  cases op <;> rfl

/-- A signed operand is of the unary family, for either sign. -/
theorem kind_unary (op : UnaryOp) (operand target : Operand) :
    (Quad.unary op operand target).kind? = some .unary :=
  rfl

/-- A binary operation belongs to the family of its operator. Three families come from the binary
operators, and this tells which one. -/
theorem kind_binary (op : BinaryOp) (left right target : Operand) :
    (Quad.binary op left right target).kind? = some op.operatorClass.commandKind := by
  cases op <;> rfl

/-- A binary operation on its way to a temporary produces it. On its way to a variable it would not
count as a producer. -/
theorem produced_binary (op : BinaryOp) (left right : Operand) (number : Nat) :
    (Quad.binary op left right (.temporary number)).produced? =
      some (Operand.temporary number).name := by
  cases op <;> rfl

end Quad

/-!
## The conditional jumps are those of the conditions
-/

/-- Lowering computes an expression into the next temporary by the rule. This is the way back from
the rules to the function, and it holds for that target only, since lowering has no other. -/
theorem Computes.lowered {live : Nat} {node : Node} {target value : Operand} {code : List Quad}
    (computed : Computes live node target code value) (next : target = .temporary (live + 1)) :
    node.lowerExpression live = .ok ⟨code, value⟩ := by
  induction computed with
  | integer => rfl
  | identifier addressed =>
    simp only [Node.lowerExpression, Node.variableOperand, addressed]
    rfl
  | unary inner operand =>
    subst next
    simp only [Node.lowerExpression, operand rfl]
    rfl
  | binary first second left right =>
    subst next
    simp only [Node.lowerExpression, left rfl, bind, Except.bind, right rfl]
    rfl

/-- The jump tests the value of the condition, directly behind the code that computes it. -/
def Node.TestedBy (code : List Quad) (condition : Node) (branch : Quad) : Prop :=
  ∃ computation, condition.lowerExpression 0 = .ok computation ∧
    branch.left = some computation.value ∧ computation.code ++ [branch] <:+: code

/-- The conditional jumps in the code are those of the conditions, in order. -/
def Testing (code : List Quad) (conditions : List Node) : Prop :=
  List.Forall₂ (Node.TestedBy code) conditions (code.filter Quad.isBranch)

/-- A jump of a piece of code is a jump of the code. The piece has to be a part in one run, because
the jump stands directly behind what it tests. -/
theorem Node.TestedBy.mono {piece code : List Quad} {condition : Node} {branch : Quad}
    (tested : condition.TestedBy piece branch) (inside : piece <:+: code) :
    condition.TestedBy code branch := by
  obtain ⟨computation, isLowered, value, placed⟩ := tested
  exact ⟨computation, isLowered, value, placed.trans inside⟩

/-- Code in a row tests the conditions in a row. The jumps of the one stay behind what they test
when the other is put next to it. -/
theorem Testing.append {first second : List Quad} {left right : List Node}
    (firstTesting : Testing first left) (secondTesting : Testing second right) :
    Testing (first ++ second) (left ++ right) := by
  rw [Testing, List.filter_append]
  exact List.rel_append
    (List.Forall₂.imp (fun _ _ tested => tested.mono (List.infix_append' [] first second))
      firstTesting)
    (List.Forall₂.imp (fun _ _ tested => tested.mono (List.suffix_append first second).isInfix)
      secondTesting)

/-!
## The blocks of the code
-/

/-- Quadruples as blocks, with the conditions and the comparisons that the blocks are for.
A conditional jump on a temporary makes one block with the quadruple that computes it. -/
inductive Arranged : List Node → List Comparison → List Quad → Prop
  | nil : Arranged [] [] []
  | plain {conditions : List Node} {comparisons : List Comparison} {quad : Quad}
      {kind : CommandKind} {later : List Quad} (kinded : quad.kind? = some kind)
      (noComparison : kind ≠ .relational) (noBranch : kind ≠ .conditionalJump)
      (rest : Arranged conditions comparisons later) :
      Arranged conditions comparisons (quad :: later)
  | nested {conditions : List Node} {comparisons : List Comparison} {op : BinaryOp}
      {left right target : Operand} {later : List Quad}
      (isRelational : op.operatorClass = .relational)
      (rest : Arranged conditions comparisons later) :
      Arranged conditions (⟨op, false⟩ :: comparisons) (.binary op left right target :: later)
  | comparison {conditions : List Node} {comparisons : List Comparison} {mark : Mark}
      {op : BinaryOp} {leftNode rightNode : Node} {left right label : Operand} {number : Nat}
      {whenTrue : Bool} {later : List Quad} (isRelational : op.operatorClass = .relational)
      (rest : Arranged conditions comparisons later) :
      Arranged (.binary mark op leftNode rightNode :: conditions) (⟨op, true⟩ :: comparisons)
        (.binary op left right (.temporary number) ::
          .branch whenTrue (.temporary number) label :: later)
  | computed {conditions : List Node} {comparisons : List Comparison} {condition : Node}
      {quad : Quad} {kind : CommandKind} {label : Operand} {number : Nat} {whenTrue : Bool}
      {later : List Quad} (kinded : quad.kind? = some kind)
      (produces : quad.produced? = some (Operand.temporary number).name)
      (noComparison : kind ≠ .relational)
      (jumps : condition.jumps? = if kind = .logical then none else some (.notEqual, .equal))
      (rest : Arranged conditions comparisons later) :
      Arranged (condition :: conditions) comparisons
        (quad :: .branch whenTrue (.temporary number) label :: later)
  | simple {conditions : List Node} {comparisons : List Comparison} {condition : Node}
      {value label : Operand} {whenTrue : Bool} {later : List Quad}
      (notTemporary : value.isTemporary = false)
      (jumps : condition.jumps? = some (.notEqual, .equal))
      (rest : Arranged conditions comparisons later) :
      Arranged (condition :: conditions) comparisons (.branch whenTrue value label :: later)

/-- Blocks in a row are blocks, with the conditions and the comparisons of the first in front of
those of the second. -/
theorem Arranged.append {leftConditions rightConditions : List Node}
    {leftComparisons rightComparisons : List Comparison} {first second : List Quad}
    (firstArranged : Arranged leftConditions leftComparisons first)
    (secondArranged : Arranged rightConditions rightComparisons second) :
    Arranged (leftConditions ++ rightConditions) (leftComparisons ++ rightComparisons)
      (first ++ second) := by
  induction firstArranged with
  | nil => exact secondArranged
  | plain kinded noComparison noBranch rest inductionHypothesis =>
    exact .plain kinded noComparison noBranch inductionHypothesis
  | nested isRelational rest inductionHypothesis => exact .nested isRelational inductionHypothesis
  | comparison isRelational rest inductionHypothesis =>
    exact .comparison isRelational inductionHypothesis
  | computed kinded produces noComparison jumps rest inductionHypothesis =>
    exact .computed kinded produces noComparison jumps inductionHypothesis
  | simple notTemporary jumps rest inductionHypothesis =>
    exact .simple notTemporary jumps inductionHypothesis

/-- A quadruple that neither compares nor jumps on a condition is a block by itself, without a
condition and without a comparison. -/
theorem Arranged.single {quad : Quad} {kind : CommandKind} (kinded : quad.kind? = some kind)
    (noComparison : kind ≠ .relational) (noBranch : kind ≠ .conditionalJump) :
    Arranged [] [] [quad] :=
  .plain kinded noComparison noBranch .nil

/-- A binary operation whose value is not a condition is a block. It counts as a comparison if its
operator is one, and then as one that is no test. -/
theorem Arranged.binary (op : BinaryOp) (left right target : Operand) :
    Arranged [] (if op.operatorClass = .relational then [⟨op, false⟩] else [])
      [.binary op left right target] := by
  have kinded := Quad.kind_binary op left right target
  cases operatorClass : op.operatorClass with
  | arithmetic =>
    rw [operatorClass] at kinded
    exact .single kinded (by decide) (by decide)
  | relational => exact .nested operatorClass .nil
  | logical =>
    rw [operatorClass] at kinded
    exact .single kinded (by decide) (by decide)

/-- The code of an expression that is not a condition is arranged. Its comparisons come in the order
in which their results are computed, and none of them is a test. -/
theorem Computes.arranged {live : Nat} {node : Node} {target value : Operand} {code : List Quad}
    (computed : Computes live node target code value) :
    Arranged [] (node.comparisons false) code := by
  induction computed with
  | integer => exact .nil
  | identifier addressed => exact .nil
  | unary inner operand =>
    rw [Node.comparisons, ← List.append_nil (Node.comparisons false _)]
    exact operand.append (.single (Quad.kind_unary ..) (by decide) (by decide))
  | binary first second left right =>
    rw [Node.comparisons]
    exact (left.append right).append (.binary ..)

/-- The code of an assignment is arranged, with the comparisons of its value. Sending the result
elsewhere changes the last target only, on which the blocks do not depend. -/
theorem Stores.arranged {target : Operand} {op : AssignOp} {value : Node} {code : List Quad}
    (stored : Stores target op value code) : Arranged [] (value.comparisons false) code := by
  cases stored with
  | copied plain simple =>
    rw [← List.append_nil (value.comparisons false)]
    exact simple.arranged.append (.single rfl (by decide) (by decide))
  | computed plain direct nonempty => exact direct.arranged
  | @combined arithmetic _ code source combining operand =>
    have notRelational : arithmetic.operatorClass ≠ .relational := by
      cases op <;> cases combining <;> decide
    have last : Arranged [] [] [.binary arithmetic target source target] := by
      have block := Arranged.binary arithmetic target source target
      rwa [if_neg notRelational] at block
    rw [← List.append_nil (value.comparisons false)]
    exact operand.arranged.append last

/-- A binary operation that is a condition makes a block with its jump. It is a comparison that is a
test if its operator is relational; otherwise there is no comparison in the block. -/
theorem Arranged.test (mark : Mark) (op : BinaryOp) (leftNode rightNode : Node)
    (left right label : Operand) (number : Nat) (whenTrue : Bool) :
    Arranged [.binary mark op leftNode rightNode]
      (if op.operatorClass = .relational then [⟨op, true⟩] else [])
      [.binary op left right (.temporary number), .branch whenTrue (.temporary number) label] := by
  have produces := Quad.produced_binary op left right number
  have kinded := Quad.kind_binary op left right (.temporary number)
  cases operatorClass : op.operatorClass with
  | arithmetic =>
    rw [operatorClass] at kinded
    refine .computed kinded produces (by decide) ?_ .nil
    cases op <;> cases operatorClass <;> rfl
  | relational => exact .comparison operatorClass .nil
  | logical =>
    rw [operatorClass] at kinded
    refine .computed kinded produces (by decide) ?_ .nil
    cases op <;> cases operatorClass <;> rfl

/-- The code of a condition with its jump is arranged. The comparisons inside of the condition come
before the block that ends in the jump, and only the outermost operator can be a test. -/
theorem Computes.arranged_test {condition : Node} {code : List Quad} {value : Operand}
    (tested : Computes 0 condition (.temporary 1) code value) (whenTrue : Bool) (label : Operand) :
    Arranged [condition] (condition.comparisons true)
      (code ++ [.branch whenTrue value label]) := by
  cases tested with
  | integer => exact .simple rfl rfl .nil
  | identifier addressed => exact .simple rfl rfl .nil
  | @unary _ mark op operand _ value code inner =>
    rw [Node.comparisons, ← List.append_nil (operand.comparisons false), List.append_assoc]
    exact inner.arranged.append (.computed (Quad.kind_unary ..) rfl (by decide) rfl .nil)
  | @binary _ mark op left right _ leftValue rightValue leftCode rightCode first second =>
    rw [Node.comparisons, List.append_assoc (leftCode ++ rightCode)]
    exact (first.arranged.append second.arranged).append (.test ..)

/-- Blocks without a condition have no conditional jump, so the code of an expression has none. -/
theorem Arranged.unbranched {conditions : List Node} {comparisons : List Comparison}
    {code : List Quad} (arranged : Arranged conditions comparisons code)
    (none : conditions = []) : code.filter Quad.isBranch = [] := by
  induction arranged with
  | nil => rfl
  | plain kinded noComparison noBranch rest inductionHypothesis =>
    rw [List.filter_cons_of_neg, inductionHypothesis none]
    rw [Quad.isBranch, kinded, beq_iff_eq, Option.some_inj]
    exact noBranch
  | nested isRelational rest inductionHypothesis =>
    rw [List.filter_cons_of_neg, inductionHypothesis none]
    rw [Quad.isBranch_binary]
    exact Bool.false_ne_true
  | comparison => cases none
  | computed => cases none
  | simple => cases none

/-!
## The code of a program
-/

/-- The code is arranged in blocks, and its conditional jumps are those of the conditions. -/
structure Outlined (conditions : List Node) (comparisons : List Comparison) (code : List Quad) :
    Prop where
  arranged : Arranged conditions comparisons code
  testing : Testing code conditions

namespace Outlined

/-- Code without a condition is outlined if it is arranged, since it has no jump that would test
anything. -/
theorem of_arranged {comparisons : List Comparison} {code : List Quad}
    (arranged : Arranged [] comparisons code) : Outlined [] comparisons code := by
  refine ⟨arranged, ?_⟩
  rw [Testing, arranged.unbranched rfl]
  exact .nil

/-- Code in a row is outlined by the conditions and the comparisons in a row. -/
theorem append {leftConditions rightConditions : List Node}
    {leftComparisons rightComparisons : List Comparison} {first second : List Quad}
    (firstOutlined : Outlined leftConditions leftComparisons first)
    (secondOutlined : Outlined rightConditions rightComparisons second) :
    Outlined (leftConditions ++ rightConditions) (leftComparisons ++ rightComparisons)
      (first ++ second) :=
  ⟨firstOutlined.arranged.append secondOutlined.arranged,
    firstOutlined.testing.append secondOutlined.testing⟩

/-- A label is code with no condition and no comparison. -/
theorem label (number : Nat) : Outlined [] [] [.label (.label number)] :=
  of_arranged (.single rfl (by decide) (by decide))

/-- A jump without a condition is code with no condition and no comparison. -/
theorem jump (target : Operand) : Outlined [] [] [.jump target] :=
  of_arranged (.single rfl (by decide) (by decide))

end Outlined

/-- The code of a condition with its jump is outlined by that condition. The jump is the only
conditional one in it and tests the value that the code leaves. -/
theorem Computes.outlined_test {condition : Node} {code : List Quad} {value : Operand}
    (tested : Computes 0 condition (.temporary 1) code value) (whenTrue : Bool) (label : Operand) :
    Outlined [condition] (condition.comparisons true)
      (code ++ [.branch whenTrue value label]) := by
  refine ⟨tested.arranged_test whenTrue label, ?_⟩
  have jump : (code ++ [Quad.branch whenTrue value label]).filter Quad.isBranch =
      [.branch whenTrue value label] := by
    rw [List.filter_append, tested.arranged.unbranched rfl, List.nil_append,
      List.filter_cons_of_pos (Quad.isBranch_branch ..), List.filter_nil]
  rw [Testing, jump]
  refine .cons ⟨⟨code, value⟩, tested.lowered rfl, ?_, List.infix_refl _⟩ .nil
  cases whenTrue <;> rfl

/-- The code of a task has a block with a jump for each condition of the task, in order. The
conditions of the tree are listed without a look at the code, and the induction is along the rules
of lowering. -/
theorem Lowers.outlined {task : Task} {labels after : Nat} {code : List Quad}
    (lowers : Lowers task labels code after) :
    Outlined task.conditions task.comparisons code := by
  induction lowers with
  | compound inner statements =>
    rw [Task.conditions, Task.comparisons, Node.conditions, Node.comparisons]
    exact statements
  | block inner statements =>
    rw [Task.conditions, Task.comparisons, Node.conditions, Node.comparisons]
    exact statements
  | empty => exact .of_arranged .nil
  | declaration => exact .of_arranged .nil
  | initialization addressed stored =>
    rw [Task.comparisons, Node.comparisons]
    exact .of_arranged stored.arranged
  | assignment addressed stored =>
    rw [Task.comparisons, Node.comparisons]
    exact .of_arranged stored.arranged
  | returned computed =>
    rw [Task.comparisons, Node.comparisons, ← List.append_nil (Node.comparisons false _)]
    exact .of_arranged (computed.arranged.append (.single rfl (by decide) (by decide)))
  | @chain mark clauses labels after code inner outlined =>
    have all := outlined.append (.label (labels + 1))
    simpa [Task.conditions, Task.comparisons, Node.conditions, Node.comparisons] using all
  | @chainElse mark clauses body labels between after code bodyCode inner otherwise outlined
      bodyOutlined =>
    have all := (outlined.append bodyOutlined).append (.label (labels + 1))
    simpa [Task.conditions, Task.comparisons, Node.conditions, Node.comparisons] using all
  | @whileLoop mark condition body labels after test bodyCode value tested repeated outlined =>
    have leave := (Outlined.jump (.label (labels + 1))).append (.label (labels + 2))
    have all := (Outlined.label (labels + 1)).append
      ((tested.outlined_test false (.label (labels + 2))).append (outlined.append leave))
    simpa [Task.conditions, Task.comparisons, Node.conditions, Node.comparisons, Quad.branch]
      using all
  | @doWhile mark condition body labels after test bodyCode value repeated tested outlined =>
    have all := (Outlined.label (labels + 1)).append
      (outlined.append (tested.outlined_test true (.label (labels + 1))))
    simpa [Task.conditions, Task.comparisons, Node.conditions, Node.comparisons, Quad.branch]
      using all
  | nil => exact .of_arranged .nil
  | cons first second firstOutlined secondOutlined =>
    rw [Task.conditions, Task.comparisons, Node.conditionsAll, Node.comparisonsAll]
    exact firstOutlined.append secondOutlined
  | noClause => exact .of_arranged .nil
  | @clause mark tag condition body later done labels between after test bodyCode rest value
      tested guarded following outlined laterOutlined =>
    have leave := (Outlined.jump done).append (.label (labels + 1))
    have all := (tested.outlined_test false (.label (labels + 1))).append
      (outlined.append (leave.append laterOutlined))
    simpa [Task.conditions, Task.comparisons, Node.conditions, Node.comparisons,
      Node.conditionsAll, Node.comparisonsAll, Quad.branch] using all

end IntMain
