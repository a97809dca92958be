import IntMain.Proofs.Numeral
import IntMain.Proofs.Stamping
import IntMain.Proofs.LoweringByDepth
import Mathlib.Data.List.Nodup

/-!
# The code of each kind of node

Lowering is a function that may fail and that threads the number of labels through the
tree. Here the same code is described by rules, one for each kind of node: `Computes` for
expressions and `Lowers` for statements and clauses. A well-formed tree whose names are
stamped is lowered without a fault, and to the code that the rules give it; everything
that is known about that code then follows the rules.

An expression that is not a literal or a variable leaves its value in its target, and
its code is the same for every target but for the last quadruple. That is why sending
the last result elsewhere is sound.

Labels are taken in order, so the labels in the code of a statement are distinct, and
they lie between the numbers of labels taken before and after it.
-/

namespace IntMain

/-- The code that computes an expression while `live` temporaries hold values, and the
operand that then has the value. What is computed at all is computed into `target`. -/
inductive Computes : Nat → Node → Operand → List Quad → Operand → Prop
  | integer {live : Nat} {mark : Mark} {value : Int} {lexeme : String} {target : Operand} :
      Computes live (.integer mark value lexeme) target [] (.literal value)
  | identifier {live : Nat} {mark : Mark} {name : Identifier} {address : Int} {target : Operand}
      (addressed : name.address = some address) :
      Computes live (.identifier mark name) target [] (.stored name.name address)
  | unary {live : Nat} {mark : Mark} {op : UnaryOp} {operand : Node} {target value : Operand}
      {code : List Quad} (inner : Computes live operand (.temporary (live + 1)) code value) :
      Computes live (.unary mark op operand) target (code ++ [.unary op value target]) target
  | binary {live : Nat} {mark : Mark} {op : BinaryOp} {left right : Node}
      {target leftValue rightValue : Operand} {leftCode rightCode : List Quad}
      (first : Computes live left (.temporary (live + 1)) leftCode leftValue)
      (second : Computes (leftValue.liveAfter live) right
        (.temporary (leftValue.liveAfter live + 1)) rightCode rightValue) :
      Computes live (.binary mark op left right) target
        (leftCode ++ rightCode ++ [.binary op leftValue rightValue target]) target

/-- The code of an assignment to a target. -/
inductive Stores (target : Operand) : AssignOp → Node → List Quad → Prop
  | copied {op : AssignOp} {value : Node} {source : Operand} (plain : op.arithmetic? = none)
      (simple : Computes 0 value target [] source) :
      Stores target op value [.copy source target]
  | computed {op : AssignOp} {value : Node} {code : List Quad} (plain : op.arithmetic? = none)
      (direct : Computes 0 value target code target) (nonempty : code ≠ []) :
      Stores target op value code
  | combined {op : AssignOp} {arithmetic : BinaryOp} {value : Node} {code : List Quad}
      {source : Operand} (combining : op.arithmetic? = some arithmetic)
      (operand : Computes 0 value (.temporary 1) code source) :
      Stores target op value (code ++ [.binary arithmetic target source target])

/-- What is lowered: a statement, statements in order, or clauses that leave for `done`. -/
inductive Task
  | statement (node : Node)
  | statements (nodes : List Node)
  | clauses (nodes : List Node) (done : Operand)

/-- The code of a task when a number of labels is taken, and how many are taken then. -/
inductive Lowers : Task → Nat → List Quad → Nat → Prop
  | compound {mark : Mark} {statements : List Node} {labels after : Nat} {code : List Quad}
      (inner : Lowers (.statements statements) labels code after) :
      Lowers (.statement (.compound mark statements)) labels code after
  | block {mark : Mark} {statements : List Node} {labels after : Nat} {code : List Quad}
      (inner : Lowers (.statements statements) labels code after) :
      Lowers (.statement (.block mark statements)) labels code after
  | empty {mark : Mark} {labels : Nat} : Lowers (.statement (.empty mark)) labels [] labels
  | declaration {mark : Mark} {name : Node} {labels : Nat} :
      Lowers (.statement (.declaration mark name)) labels [] labels
  | initialization {mark nameMark : Mark} {name : Identifier} {address : Int} {value : Node}
      {labels : Nat} {code : List Quad} (addressed : name.address = some address)
      (stored : Stores (.stored name.name address) .assign value code) :
      Lowers (.statement (.initialization mark (.identifier nameMark name) value)) labels code
        labels
  | assignment {mark nameMark : Mark} {name : Identifier} {address : Int} {op : AssignOp}
      {value : Node} {labels : Nat} {code : List Quad} (addressed : name.address = some address)
      (stored : Stores (.stored name.name address) op value code) :
      Lowers (.statement (.assignment mark (.identifier nameMark name) op value)) labels code
        labels
  | returned {mark : Mark} {value : Node} {labels : Nat} {code : List Quad} {result : Operand}
      (computed : Computes 0 value (.temporary 1) code result) :
      Lowers (.statement (.returned mark value)) labels (code ++ [.ret result]) labels
  | chain {mark : Mark} {clauses : List Node} {labels after : Nat} {code : List Quad}
      (inner : Lowers (.clauses clauses (.label (labels + 1))) (labels + 1) code after) :
      Lowers (.statement (.chain mark clauses none)) labels
        (code ++ [.label (.label (labels + 1))]) after
  | chainElse {mark : Mark} {clauses : List Node} {body : Node} {labels between after : Nat}
      {code bodyCode : List Quad}
      (inner : Lowers (.clauses clauses (.label (labels + 1))) (labels + 1) code between)
      (otherwise : Lowers (.statement body) between bodyCode after) :
      Lowers (.statement (.chain mark clauses (some body))) labels
        (code ++ bodyCode ++ [.label (.label (labels + 1))]) after
  | whileLoop {mark : Mark} {condition body : Node} {labels after : Nat}
      {test bodyCode : List Quad} {value : Operand}
      (tested : Computes 0 condition (.temporary 1) test value)
      (repeated : Lowers (.statement body) (labels + 2) bodyCode after) :
      Lowers (.statement (.whileLoop mark condition body)) labels
        (.label (.label (labels + 1)) :: test ++ [.jumpIfFalse value (.label (labels + 2))] ++
          bodyCode ++ [.jump (.label (labels + 1)), .label (.label (labels + 2))]) after
  | doWhile {mark : Mark} {condition body : Node} {labels after : Nat}
      {test bodyCode : List Quad} {value : Operand}
      (repeated : Lowers (.statement body) (labels + 1) bodyCode after)
      (tested : Computes 0 condition (.temporary 1) test value) :
      Lowers (.statement (.doWhile mark body condition)) labels
        (.label (.label (labels + 1)) :: bodyCode ++ test ++
          [.jumpIfTrue value (.label (labels + 1))]) after
  | nil {labels : Nat} : Lowers (.statements []) labels [] labels
  | cons {node : Node} {later : List Node} {labels between after : Nat} {code rest : List Quad}
      (first : Lowers (.statement node) labels code between)
      (second : Lowers (.statements later) between rest after) :
      Lowers (.statements (node :: later)) labels (code ++ rest) after
  | noClause {done : Operand} {labels : Nat} : Lowers (.clauses [] done) labels [] labels
  | clause {mark : Mark} {tag : ClauseTag} {condition body : Node} {later : List Node}
      {done : Operand} {labels between after : Nat} {test bodyCode rest : List Quad}
      {value : Operand} (tested : Computes 0 condition (.temporary 1) test value)
      (guarded : Lowers (.statement body) (labels + 1) bodyCode between)
      (following : Lowers (.clauses later done) between rest after) :
      Lowers (.clauses (.clause mark tag condition body :: later) done) labels
        (test ++ [.jumpIfFalse value (.label (labels + 1))] ++ bodyCode ++
          [.jump done, .label (.label (labels + 1))] ++ rest) after

/-!
## Lowering follows the rules
-/

namespace Computes

/-- The value is a literal, a variable or the target. There is code exactly if it is the target, so
code that is not empty always computes into its target. -/
theorem value_cases {live : Nat} {node : Node} {target value : Operand} {code : List Quad}
    (computed : Computes live node target code value) :
    (code = [] ∧ ((∃ number, value = .literal number) ∨
      ∃ name address, value = .stored name address)) ∨ (code ≠ [] ∧ value = target) := by
  cases computed with
  | integer => exact .inl ⟨rfl, .inl ⟨_, rfl⟩⟩
  | identifier addressed => exact .inl ⟨rfl, .inr ⟨_, _, rfl⟩⟩
  | unary inner => exact .inr ⟨by simp, rfl⟩
  | binary first second => exact .inr ⟨by simp, rfl⟩

/-- An expression that is computed into a temporary can be stored in any target: its last quadruple
is sent there, or its value is copied if there is no code. -/
theorem stores {node : Node} {value target : Operand} {code : List Quad} {op : AssignOp}
    (computed : Computes 0 node (.temporary 1) code value) (plain : op.arithmetic? = none) :
    Stores target op node ((⟨code, value⟩ : Computation).storedIn target) := by
  cases computed with
  | integer => exact .copied plain .integer
  | identifier addressed => exact .copied plain (.identifier addressed)
  | unary inner =>
    rw [Computation.storedIn, if_pos (by rfl), retarget_concat]
    exact .computed plain (.unary inner) (by simp)
  | binary first second =>
    rw [Computation.storedIn, if_pos (by rfl), retarget_concat]
    exact .computed plain (.binary first second) (by simp)

/-- An expression that is computed into a temporary can be combined with any target. The combination
is computed into the target, and no further temporary is taken. -/
theorem combines {node : Node} {value target : Operand} {code : List Quad} {op : AssignOp}
    {arithmetic : BinaryOp} (computed : Computes 0 node (.temporary 1) code value)
    (combining : op.arithmetic? = some arithmetic) :
    Stores target op node (Computation.storedIn
      ⟨code ++ [.binary arithmetic target value (.temporary 1)], .temporary 1⟩ target) := by
  rw [Computation.storedIn, if_pos (by rfl), retarget_concat]
  exact .combined combining computed

end Computes

namespace Node

/-- The expression is lowered without a fault, and to the code of its rule. -/
def ComputesByRule (node : Node) : Prop :=
  ∀ live, ∃ computation, node.lowerExpression live = .ok computation ∧
    Computes live node (.temporary (live + 1)) computation.code computation.value

/-- The statement is lowered without a fault, and to the code of its rule. -/
def LowersByRule (node : Node) : Prop :=
  ∀ labels, ∃ code after, node.lowerStatement labels = .ok (code, after) ∧
    Lowers (.statement node) labels code after

/-- The node is a clause whose condition and body are lowered by their rules. -/
def ClauseByRule (node : Node) : Prop :=
  ∃ mark tag condition body, node = .clause mark tag condition body ∧
    condition.ComputesByRule ∧ body.LowersByRule

/-- An assignment to a stamped name is lowered by its rule. Without a stamp there would be a fault,
which is why the address is asked for. -/
theorem lowerAssignment_rule {mark : Mark} {name : Identifier} {address : Int} {value : Node}
    (addressed : name.address = some address) (computed : value.ComputesByRule) (op : AssignOp) :
    ∃ code, lowerAssignment (.identifier mark name) op value = .ok code ∧
      Stores (.stored name.name address) op value code := by
  obtain ⟨computation, lowered, rule⟩ := computed 0
  have target : (Node.identifier mark name).variableOperand =
      .ok (.stored name.name address) := by
    simp only [variableOperand, addressed]
  cases combining : op.arithmetic? with
  | none =>
    refine ⟨computation.storedIn (.stored name.name address), ?_, rule.stores combining⟩
    simp only [lowerAssignment, target, lowered, combining]
    rfl
  | some arithmetic =>
    refine ⟨_, ?_, rule.combines combining⟩
    simp only [lowerAssignment, target, lowered, combining]
    rfl

/-- Statements that are lowered by their rules are lowered by them in order. Each starts with the
labels that the ones before have left. -/
theorem lowerStatements_rule {nodes : List Node} (each : ∀ node ∈ nodes, node.LowersByRule) :
    ∀ labels, ∃ code after, lowerStatements nodes labels = .ok (code, after) ∧
      Lowers (.statements nodes) labels code after := by
  induction nodes with
  | nil =>
    intro labels
    exact ⟨[], labels, by rw [lowerStatements], .nil⟩
  | cons node later inductionHypothesis =>
    obtain ⟨first, rest⟩ := List.forall_mem_cons.mp each
    intro labels
    obtain ⟨code, between, lowered, rule⟩ := first labels
    obtain ⟨laterCode, after, laterLowered, laterRule⟩ := inductionHypothesis rest between
    refine ⟨code ++ laterCode, after, ?_, .cons rule laterRule⟩
    rw [lowerStatements, lowered]
    simp only [bind, Except.bind, laterLowered]
    rfl

/-- Clauses whose parts are lowered by their rules are lowered by them in order, whatever label they
leave for. -/
theorem lowerClauses_rule {nodes : List Node} (each : ∀ node ∈ nodes, node.ClauseByRule)
    (done : Operand) : ∀ labels, ∃ code after, lowerClauses nodes done labels = .ok (code, after) ∧
      Lowers (.clauses nodes done) labels code after := by
  induction nodes with
  | nil =>
    intro labels
    exact ⟨[], labels, by rw [lowerClauses], .noClause⟩
  | cons node later inductionHypothesis =>
    obtain ⟨first, rest⟩ := List.forall_mem_cons.mp each
    obtain ⟨mark, tag, condition, body, rfl, tested, guarded⟩ := first
    intro labels
    obtain ⟨test, testLowered, testRule⟩ := tested 0
    obtain ⟨bodyCode, between, bodyLowered, bodyRule⟩ := guarded (labels + 1)
    obtain ⟨laterCode, after, laterLowered, laterRule⟩ := inductionHypothesis rest between
    refine ⟨_, after, ?_, .clause testRule bodyRule laterRule⟩
    rw [lowerClauses, testLowered]
    simp only [bind, Except.bind, bodyLowered, laterLowered]
    rfl

end Node

/-- A part is lowered without a fault, and to the code of its rule. -/
def Part.LowersByRule : Part → Prop
  | .expression _ node => node.ComputesByRule
  | .clause _ node => node.ClauseByRule
  | .statement node => node.LowersByRule
  | .body node => node.LowersByRule

/-- A well-formed part whose names are stamped is lowered by its rule. That names are stamped is all
that lowering needs of resolution. -/
theorem Part.WellFormed.lowersByRule {part : Part} (formed : part.WellFormed .stamped) :
    part.LowersByRule := by
  induction formed with
  | integer valued =>
    intro live
    exact ⟨_, rfl, .integer⟩
  | identifier used =>
    intro live
    obtain ⟨address, addressed⟩ := Option.isSome_iff_exists.mp used
    refine ⟨⟨_, _⟩, ?_, .identifier addressed⟩
    simp only [Node.lowerExpression, Node.variableOperand, addressed]
    rfl
  | unary inner operand =>
    intro live
    obtain ⟨computation, lowered, rule⟩ := operand live
    refine ⟨⟨_, _⟩, ?_, .unary rule⟩
    simp only [Node.lowerExpression, lowered]
    rfl
  | binary allowed first second left right =>
    intro live
    obtain ⟨leftComputation, leftLowered, leftRule⟩ := left live
    obtain ⟨rightComputation, rightLowered, rightRule⟩ :=
      right (leftComputation.value.liveAfter live)
    refine ⟨⟨_, _⟩, ?_, .binary leftRule rightRule⟩
    simp only [Node.lowerExpression, leftLowered, bind, Except.bind, rightLowered]
    rfl
  | clause tested guarded condition body => exact ⟨_, _, _, _, rfl, condition, body⟩
  | chain leading following first later =>
    intro labels
    obtain ⟨code, after, lowered, rule⟩ := Node.lowerClauses_rule
      (List.forall_mem_cons.mpr ⟨first, later⟩) (.label (labels + 1)) (labels + 1)
    refine ⟨_, after, ?_, .chain rule⟩
    rw [Node.lowerStatement, lowered]
    rfl
  | chainElse leading following otherwise first later body =>
    intro labels
    obtain ⟨code, between, lowered, rule⟩ := Node.lowerClauses_rule
      (List.forall_mem_cons.mpr ⟨first, later⟩) (.label (labels + 1)) (labels + 1)
    obtain ⟨bodyCode, after, bodyLowered, bodyRule⟩ := body between
    refine ⟨_, after, ?_, .chainElse rule bodyRule⟩
    rw [Node.lowerStatement, lowered]
    simp only [bind, Except.bind, bodyLowered]
    rfl
  | whileLoop tested repeated condition body =>
    intro labels
    obtain ⟨test, testLowered, testRule⟩ := condition 0
    obtain ⟨bodyCode, after, bodyLowered, bodyRule⟩ := body (labels + 2)
    refine ⟨_, after, ?_, .whileLoop testRule bodyRule⟩
    rw [Node.lowerStatement, testLowered]
    simp only [bind, Except.bind, bodyLowered]
    rfl
  | doWhile repeated tested body condition =>
    intro labels
    obtain ⟨bodyCode, after, bodyLowered, bodyRule⟩ := body (labels + 1)
    obtain ⟨test, testLowered, testRule⟩ := condition 0
    refine ⟨_, after, ?_, .doWhile bodyRule testRule⟩
    rw [Node.lowerStatement, bodyLowered]
    simp only [bind, Except.bind, testLowered]
    rfl
  | compound nonempty all statements =>
    intro labels
    obtain ⟨code, after, lowered, rule⟩ := Node.lowerStatements_rule statements labels
    exact ⟨code, after, by rw [Node.lowerStatement, lowered], .compound rule⟩
  | block nonempty all statements =>
    intro labels
    obtain ⟨code, after, lowered, rule⟩ := Node.lowerStatements_rule statements labels
    exact ⟨code, after, by rw [Node.lowerStatement, lowered], .block rule⟩
  | declaration declared =>
    intro labels
    exact ⟨[], labels, by rw [Node.lowerStatement], .declaration⟩
  | initialization declared computed value =>
    intro labels
    obtain ⟨address, addressed⟩ := Option.isSome_iff_exists.mp declared
    obtain ⟨code, lowered, rule⟩ := Node.lowerAssignment_rule addressed value .assign
    refine ⟨code, labels, ?_, .initialization addressed rule⟩
    rw [Node.lowerStatement, lowered]
    rfl
  | @assignment mark nameMark name op value used computed valueLowered =>
    intro labels
    obtain ⟨address, addressed⟩ := Option.isSome_iff_exists.mp used
    obtain ⟨code, lowered, rule⟩ := Node.lowerAssignment_rule addressed valueLowered op
    refine ⟨code, labels, ?_, .assignment addressed rule⟩
    rw [Node.lowerStatement, lowered]
    rfl
  | returned computed value =>
    intro labels
    obtain ⟨computation, lowered, rule⟩ := value 0
    refine ⟨_, labels, ?_, .returned rule⟩
    rw [Node.lowerStatement, lowered]
    rfl
  | empty =>
    intro labels
    exact ⟨[], labels, by rw [Node.lowerStatement], .empty⟩

/-- A program that parses and resolves is lowered, so no fault of lowering is ever seen. -/
theorem Parsed.isLowered {tokens : List Token} {parsed : Parsed}
    (accepted : Parsed.ofTokens tokens = .ok parsed)
    (resolved : parsed.root.resolve.fault = none) :
    ∃ lowered, Lowered.ofTree parsed.root.resolve.tree = .ok lowered := by
  obtain ⟨code, labels, isLowered, -⟩ := (Parsed.stamped accepted resolved).lowersByRule 0
  rw [Lowered.ofTree_eq, isLowered]
  exact ⟨_, rfl⟩

/-- A program that parses and resolves is lowered to the code of the rules. Later proofs go along
the rules and never open the functions that lower. -/
theorem Parsed.lowers {tokens : List Token} {parsed : Parsed} {lowered : Lowered}
    (accepted : Parsed.ofTokens tokens = .ok parsed)
    (resolved : parsed.root.resolve.fault = none)
    (isLowered : Lowered.ofTree parsed.root.resolve.tree = .ok lowered) :
    ∃ labels, Lowers (.statement parsed.root.resolve.tree) 0 lowered.program.quads labels := by
  obtain ⟨code, labels, statementLowered, rule⟩ :=
    (Parsed.stamped accepted resolved).lowersByRule 0
  rw [Lowered.ofTree_eq, statementLowered] at isLowered
  cases isLowered
  exact ⟨labels, rule⟩

/-!
## Labels
-/

/-- The name of the label that a quadruple is. -/
def Quad.labelName? (quad : Quad) : Option String :=
  if quad.kind? = some .label then quad.target.map Operand.name else none

/-- The names of the labels in the code, in order. -/
def labelNames (code : List Quad) : List String := code.filterMap Quad.labelName?

/-- The labels in the code are those with the given numbers, in order. -/
def Labelled (code : List Quad) (numbers : List Nat) : Prop :=
  labelNames code = numbers.map (fun number => (Operand.label number).name)

/-- Labels of different numbers have different names, since numerals are read back. -/
theorem Operand.label_name_injective :
    Function.Injective (fun number => (Operand.label number).name) := by
  intro first second same
  have texts := congrArg String.toList same
  simp only [Operand.label, String.toList_append, List.append_cancel_left_eq] at texts
  exact Text.decimal_injective (String.toList_inj.mp texts)

/-- Temporaries of different numbers have different names, since numerals are read back. -/
theorem Operand.temporary_name_injective :
    Function.Injective (fun number => (Operand.temporary number).name) := by
  intro first second same
  have texts := congrArg String.toList same
  simp only [Operand.temporary, String.toList_append, List.append_cancel_left_eq] at texts
  exact Text.decimal_injective (String.toList_inj.mp texts)

namespace Labelled

/-- Where there is no code there are no labels. -/
theorem nil : Labelled [] [] := rfl

/-- A label in front is the first one of the code. -/
theorem label {code : List Quad} {numbers : List Nat} (number : Nat)
    (labelled : Labelled code numbers) :
    Labelled (.label (.label number) :: code) (number :: numbers) := by
  rw [Labelled, labelNames] at labelled ⊢
  rw [List.filterMap_cons_some (show Quad.labelName? _ = some (Operand.label number).name from rfl),
    labelled, List.map_cons]

/-- A quadruple in front that is no label leaves the labels as they are. -/
theorem skip {code : List Quad} {numbers : List Nat} {quad : Quad}
    (plain : quad.labelName? = none) (labelled : Labelled code numbers) :
    Labelled (quad :: code) numbers := by
  rw [Labelled, labelNames] at labelled ⊢
  rw [List.filterMap_cons_none plain, labelled]

/-- The labels of code in a row are those of the first part and then those of the second one. -/
theorem append {first second : List Quad} {left right : List Nat}
    (firstLabelled : Labelled first left) (secondLabelled : Labelled second right) :
    Labelled (first ++ second) (left ++ right) := by
  rw [Labelled, labelNames] at firstLabelled secondLabelled ⊢
  rw [List.filterMap_append, firstLabelled, secondLabelled, List.map_append]

end Labelled

/-- A binary operation is no label, whatever its operator is. -/
theorem Quad.labelName_binary (op : BinaryOp) (left right target : Operand) :
    (Quad.binary op left right target).labelName? = none := by
  cases op <;> rfl

/-- The code of an expression has no labels. This holds of logical operators too, which compute both
sides. -/
theorem Computes.unlabelled {live : Nat} {node : Node} {target value : Operand}
    {code : List Quad} (computed : Computes live node target code value) : Labelled code [] := by
  induction computed with
  | integer => exact .nil
  | identifier addressed => exact .nil
  | unary inner inductionHypothesis => exact inductionHypothesis.append (.skip rfl .nil)
  | binary first second firstUnlabelled secondUnlabelled =>
    exact (firstUnlabelled.append secondUnlabelled).append (.skip (Quad.labelName_binary ..) .nil)

/-- The code of an assignment has no labels. -/
theorem Stores.unlabelled {target : Operand} {op : AssignOp} {value : Node} {code : List Quad}
    (stored : Stores target op value code) : Labelled code [] := by
  cases stored with
  | copied plain simple => exact .skip rfl .nil
  | computed plain direct nonempty => exact direct.unlabelled
  | combined combining operand =>
    exact operand.unlabelled.append (.skip (Quad.labelName_binary ..) .nil)

/-- The labels in the code are distinct, and their numbers are allowed ones. Which of the allowed
numbers occur is left open. -/
def LabelsWithin (allowed : Nat → Prop) (code : List Quad) : Prop :=
  ∃ numbers, Labelled code numbers ∧ numbers.Nodup ∧ ∀ number ∈ numbers, allowed number

namespace LabelsWithin

/-- One label has its own number, and no other is allowed. -/
theorem single (number : Nat) :
    LabelsWithin (fun other => other = number) [.label (.label number)] :=
  ⟨[number], .label number .nil, List.nodup_singleton number,
    fun _ member => List.mem_singleton.mp member⟩

/-- Code without labels is within any numbers. -/
theorem of_unlabelled {allowed : Nat → Prop} {code : List Quad} (unlabelled : Labelled code []) :
    LabelsWithin allowed code :=
  ⟨[], unlabelled, List.nodup_nil, List.forall_mem_nil _⟩

/-- Code without labels may stand in front. -/
theorem behind {allowed : Nat → Prop} {first second : List Quad} (unlabelled : Labelled first [])
    (labels : LabelsWithin allowed second) : LabelsWithin allowed (first ++ second) := by
  obtain ⟨numbers, labelled, distinct, within⟩ := labels
  exact ⟨numbers, unlabelled.append labelled, distinct, within⟩

/-- Code without labels may stand behind. -/
theorem ahead {allowed : Nat → Prop} {first second : List Quad}
    (labels : LabelsWithin allowed first) (unlabelled : Labelled second []) :
    LabelsWithin allowed (first ++ second) := by
  obtain ⟨numbers, labelled, distinct, within⟩ := labels
  have joined := labelled.append unlabelled
  rw [List.append_nil] at joined
  exact ⟨numbers, joined, distinct, within⟩

/-- Code in a row has distinct labels if the labels of the two parts cannot meet. The numbers that
are allowed together are those of both. -/
theorem append {allowed others : Nat → Prop} {first second : List Quad}
    (firstLabels : LabelsWithin allowed first) (secondLabels : LabelsWithin others second)
    (apart : ∀ number, allowed number → ¬ others number) :
    LabelsWithin (fun number => allowed number ∨ others number) (first ++ second) := by
  obtain ⟨left, leftLabelled, leftDistinct, leftAllowed⟩ := firstLabels
  obtain ⟨right, rightLabelled, rightDistinct, rightAllowed⟩ := secondLabels
  refine ⟨left ++ right, leftLabelled.append rightLabelled, ?_, ?_⟩
  · refine List.nodup_append.mpr ⟨leftDistinct, rightDistinct, ?_⟩
    rintro number inLeft other inRight rfl
    exact apart number (leftAllowed number inLeft) (rightAllowed number inRight)
  · intro number member
    rcases List.mem_append.mp member with inLeft | inRight
    · exact Or.inl (leftAllowed number inLeft)
    · exact Or.inr (rightAllowed number inRight)

/-- More numbers may be allowed than before, since the labels stay distinct. -/
theorem mono {allowed more : Nat → Prop} {code : List Quad} (labels : LabelsWithin allowed code)
    (weaker : ∀ number, allowed number → more number) : LabelsWithin more code := by
  obtain ⟨numbers, labelled, distinct, within⟩ := labels
  exact ⟨numbers, labelled, distinct, fun number member => weaker number (within number member)⟩

end LabelsWithin

/-- The code of a task has labels among those taken for it, each at most once. Since the numbers
that two tasks take in a row do not meet, all labels of a program are distinct. -/
theorem Lowers.labels {task : Task} {labels after : Nat} {code : List Quad}
    (lowers : Lowers task labels code after) :
    labels ≤ after ∧ LabelsWithin (fun number => labels < number ∧ number ≤ after) code := by
  induction lowers with
  | compound inner inductionHypothesis => exact inductionHypothesis
  | block inner inductionHypothesis => exact inductionHypothesis
  | empty => exact ⟨Nat.le_refl _, .of_unlabelled .nil⟩
  | declaration => exact ⟨Nat.le_refl _, .of_unlabelled .nil⟩
  | initialization addressed stored => exact ⟨Nat.le_refl _, .of_unlabelled stored.unlabelled⟩
  | assignment addressed stored => exact ⟨Nat.le_refl _, .of_unlabelled stored.unlabelled⟩
  | returned computed =>
    exact ⟨Nat.le_refl _, .of_unlabelled (computed.unlabelled.append (Labelled.skip (by rfl) .nil))⟩
  | chain inner clauses =>
    refine ⟨by omega, (clauses.2.append (.single _) ?_).mono ?_⟩ <;>
    · intro number
      omega
  | chainElse inner otherwise clauses body =>
    refine ⟨by omega, ((clauses.2.append body.2 ?_).append (.single _) ?_).mono ?_⟩ <;>
    · intro number
      omega
  | @whileLoop mark condition body labels after test bodyCode value tested repeated bodyLabels =>
    have inside : LabelsWithin _ (test ++ ([.jumpIfFalse value (.label (labels + 2))] ++
        (bodyCode ++ ([.jump (.label (labels + 1))] ++ [.label (.label (labels + 2))])))) :=
      .behind tested.unlabelled (.behind (.skip (by rfl) .nil) (bodyLabels.2.append
        (.behind (.skip (by rfl) .nil) (.single (labels + 2))) (by omega)))
    have all : LabelsWithin (fun number => labels < number ∧ number ≤ after) _ :=
      ((LabelsWithin.single (labels + 1)).append inside (by omega)).mono (by omega)
    refine ⟨by omega, ?_⟩
    simpa only [List.append_assoc, List.cons_append, List.nil_append] using all
  | @doWhile mark condition body labels after test bodyCode value repeated tested bodyLabels =>
    have inside : LabelsWithin _
        (bodyCode ++ (test ++ [.jumpIfTrue value (.label (labels + 1))])) :=
      bodyLabels.2.ahead (tested.unlabelled.append (Labelled.skip (by rfl) .nil))
    have all : LabelsWithin (fun number => labels < number ∧ number ≤ after) _ :=
      ((LabelsWithin.single (labels + 1)).append inside (by omega)).mono (by omega)
    refine ⟨by omega, ?_⟩
    simpa only [List.append_assoc, List.cons_append, List.nil_append] using all
  | nil => exact ⟨Nat.le_refl _, .of_unlabelled .nil⟩
  | cons first second firstLabels secondLabels =>
    refine ⟨by omega, (firstLabels.2.append secondLabels.2 ?_).mono ?_⟩ <;>
    · intro number
      omega
  | noClause => exact ⟨Nat.le_refl _, .of_unlabelled .nil⟩
  | @clause mark tag condition body later done labels between after test bodyCode rest value
      tested guarded following bodyLabels laterLabels =>
    have exits : LabelsWithin _ ([.jump done] ++ ([.label (.label (labels + 1))] ++ rest)) :=
      .behind (.skip (by rfl) .nil) ((LabelsWithin.single (labels + 1)).append laterLabels.2
        (by omega))
    have all : LabelsWithin (fun number => labels < number ∧ number ≤ after)
        (test ++ ([.jumpIfFalse value (.label (labels + 1))] ++ (bodyCode ++ _))) :=
      .behind tested.unlabelled (.behind (.skip (by rfl) .nil)
        ((bodyLabels.2.append exits (by omega)).mono (by omega)))
    refine ⟨by omega, ?_⟩
    simpa only [List.append_assoc, List.cons_append, List.nil_append] using all

end IntMain
