import IntMain.Quad.Lowering

/-!
# Lowering without a counter

Lowering counts the temporaries that hold values, and looks at the last quadruple to see
whether it has computed what is assigned. Here the same code is given by recursion on the
tree alone: the number of live temporaries is an argument, each statement starts with none,
and the code of an assignment is made from that of its value.

That the two agree, on any tree and also in their faults, is `Lowered.ofTree_eq`. It holds
because an expression leaves the count as it was, but for the temporary that has its value,
so that releasing this value always takes back what was taken and never meets a count of
zero; and because the last quadruple of an expression whose value is a temporary is the one
that computes it.
-/

namespace IntMain

/-- The code that computes an expression, and where its value then is. -/
structure Computation where
  code : List Quad
  value : Operand
  deriving DecidableEq, Repr

/-- The number of live temporaries once the operand holds its value. -/
def Operand.liveAfter (operand : Operand) (live : Nat) : Nat :=
  if operand.isTemporary then live + 1 else live

/-- Send the result of the last instruction to another target. -/
def retarget (target : Operand) : List Quad → List Quad
  | [] => []
  | [last] => [{ last with target := some target }]
  | quad :: later => quad :: retarget target later

/-- The code that computes a value and leaves it in `target`. What computes a temporary
computes into the target instead; another value is copied. -/
def Computation.storedIn (computation : Computation) (target : Operand) : List Quad :=
  if computation.value.isTemporary then retarget target computation.code
  else computation.code ++ [.copy computation.value target]

namespace Node

/-- Lower an expression while `live` temporaries hold values. -/
def lowerExpression (live : Nat) : Node → Except Fault Computation
  | .integer _ value _ => .ok ⟨[], .literal value⟩
  | .identifier mark occurrence => do
    let operand ← (Node.identifier mark occurrence).variableOperand
    return ⟨[], operand⟩
  | .unary _ op operand => do
    let operand ← operand.lowerExpression live
    let target := Operand.temporary (live + 1)
    return ⟨operand.code ++ [.unary op operand.value target], target⟩
  | .binary _ op left right => do
    let left ← left.lowerExpression live
    let right ← right.lowerExpression (left.value.liveAfter live)
    let target := Operand.temporary (live + 1)
    return ⟨left.code ++ right.code ++ [.binary op left.value right.value target], target⟩
  | other => .error (lowerFault (other.reference ++ " in expression position"))

/-- The code of an assignment. A compound one combines the old value with the new. No temporary
holds a value when an assignment begins. -/
def lowerAssignment (target : Node) (op : AssignOp) (value : Node) : Except Fault (List Quad) := do
  let target ← target.variableOperand
  let value ← value.lowerExpression 0
  match op.arithmetic? with
  | none => return value.storedIn target
  | some arithmetic =>
    let combined : Computation :=
      ⟨value.code ++ [.binary arithmetic target value.value (.temporary 1)], .temporary 1⟩
    return combined.storedIn target

mutual

/-- Lower a statement when `labels` labels are taken; the result tells how many are taken
then. -/
def lowerStatement (node : Node) (labels : Nat) : Except Fault (List Quad × Nat) :=
  match node with
  | .compound _ statements => lowerStatements statements labels
  | .block _ statements => lowerStatements statements labels
  | .empty _ => .ok ([], labels)
  | .declaration _ _ => .ok ([], labels)
  | .initialization _ name value => do
    return (← lowerAssignment name .assign value, labels)
  | .assignment _ target op value => do
    return (← lowerAssignment target op value, labels)
  | .returned _ value => do
    let value ← value.lowerExpression 0
    return (value.code ++ [.ret value.value], labels)
  | .chain _ clauses none => do
    let done := Operand.label (labels + 1)
    let (clauses, labels) ← lowerClauses clauses done (labels + 1)
    return (clauses ++ [.label done], labels)
  | .chain _ clauses (some body) => do
    let done := Operand.label (labels + 1)
    let (clauses, labels) ← lowerClauses clauses done (labels + 1)
    let (body, labels) ← body.lowerStatement labels
    return (clauses ++ body ++ [.label done], labels)
  | .whileLoop _ condition body => do
    let start := Operand.label (labels + 1)
    let done := Operand.label (labels + 2)
    let condition ← condition.lowerExpression 0
    let (body, labels) ← body.lowerStatement (labels + 2)
    return (.label start :: condition.code ++ [.jumpIfFalse condition.value done] ++ body ++
      [.jump start, .label done], labels)
  | .doWhile _ body condition => do
    let start := Operand.label (labels + 1)
    let (body, labels) ← body.lowerStatement (labels + 1)
    let condition ← condition.lowerExpression 0
    return (.label start :: body ++ condition.code ++ [.jumpIfTrue condition.value start], labels)
  | .clause mark _ _ _ =>
    .error (lowerFault ("if clause #" ++ Text.decimal mark.id ++ " outside of an if chain"))
  | other =>
    .error (lowerFault
      ("expression statement #" ++ Text.decimal other.id ++ " (" ++ other.tag ++ ")"))

/-- Lower statements in order. -/
def lowerStatements (nodes : List Node) (labels : Nat) : Except Fault (List Quad × Nat) :=
  match nodes with
  | [] => .ok ([], labels)
  | node :: later => do
    let (code, labels) ← node.lowerStatement labels
    let (rest, labels) ← lowerStatements later labels
    return (code ++ rest, labels)

/-- Lower the clauses of an if statement. Each jumps over its body when its condition does
not hold, and from the end of its body to `done`. -/
def lowerClauses (nodes : List Node) (done : Operand) (labels : Nat) :
    Except Fault (List Quad × Nat) :=
  match nodes with
  | [] => .ok ([], labels)
  | .clause _ _ condition body :: later => do
    let skip := Operand.label (labels + 1)
    let condition ← condition.lowerExpression 0
    let (body, labels) ← body.lowerStatement (labels + 1)
    let (rest, labels) ← lowerClauses later done labels
    return (condition.code ++ [.jumpIfFalse condition.value skip] ++ body ++
      [.jump done, .label skip] ++ rest, labels)
  | other :: _ => .error (lowerFault (other.reference ++ " inside an if chain"))

end

end Node

/-!
## Steps of a generator
-/

/-- A result of two steps is a result of the second on one of the first, so a computation that
succeeds can be taken apart step by step. -/
theorem bind_eq_ok {First Second : Type} {first : Except Fault First}
    {second : First → Except Fault Second} {result : Second}
    (bound : (first >>= second) = .ok result) :
    ∃ middle, first = .ok middle ∧ second middle = .ok result := by
  cases first with
  | error fault => cases bound
  | ok middle => exact ⟨middle, rfl, bound⟩

namespace Generating

variable {α β γ δ : Type} {step : Generating α} {next : α → Generating β} {generator : Generator}

/-- A step that succeeds is followed by the next one, which goes on with the generator that the step
has left. -/
theorem run_bind_ok {value : α} {later : Generator}
    (ran : step.run generator = .ok (value, later)) :
    (step >>= next).run generator = (next value).run later := by
  rw [StateT.run_bind, ran]
  rfl

/-- Two steps in a row do what two functions in a row do, if each step does what its function
does. A fault of the first function is the fault of both. -/
theorem run_bind_map {first : Except Fault γ} {place : γ → α × Generator}
    {second : γ → Except Fault δ} {finish : δ → β × Generator}
    (ran : step.run generator = first.map place)
    (continued : ∀ result, (next (place result).1).run (place result).2 =
      (second result).map finish) :
    (step >>= next).run generator = (first >>= second).map finish := by
  rw [StateT.run_bind, ran]
  cases first with
  | error fault => rfl
  | ok result => exact continued result

/-- The last step does what the last function does. It differs from the lemma above in that nothing
follows, so the result of the step is the result as a whole. -/
theorem run_eq_map {first : Except Fault γ} {place : γ → α × Generator}
    {second : γ → Except Fault δ} {finish : δ → α × Generator}
    (ran : step.run generator = first.map place)
    (same : ∀ result, .ok (place result) = (second result).map finish) :
    step.run generator = (first >>= second).map finish := by
  rw [ran]
  cases first with
  | error fault => rfl
  | ok result => exact same result

/-- Looking something up changes nothing: the generator stays, and a fault is passed on. -/
theorem run_lift (found : Except Fault α) (generator : Generator) :
    (liftM found : Generating α).run generator = found.map (fun value => (value, generator)) := by
  cases found with
  | error fault => rfl
  | ok value => rfl

end Generating

/-!
## The counter and the last quadruple
-/

namespace Generator

/-- A generator that has emitted some code. -/
def holding (code : List Quad) (temporaries labels : Nat) : Generator :=
  ⟨code.toArray, temporaries, labels⟩

variable (code : List Quad) (live labels : Nat)

/-- Taking a temporary counts one more, and gives the one with the new count as its number. -/
theorem run_newTemporary :
    newTemporary.run (holding code live labels) =
      .ok (.temporary (live + 1), holding code (live + 1) labels) :=
  rfl

/-- Taking a label counts one more, and gives the one with the new count as its number. Temporaries
are counted apart from labels. -/
theorem run_newLabel :
    newLabel.run (holding code live labels) =
      .ok (.label (labels + 1), holding code live (labels + 1)) :=
  rfl

/-- A quadruple that is emitted comes behind all others, and no counter changes. -/
theorem run_emit (quad : Quad) :
    (emit quad).run (holding code live labels) =
      .ok ((), holding (code ++ [quad]) live labels) := by
  rw [holding.eq_1 (code ++ [quad]), ← List.push_toArray]
  rfl

/-- Releasing a value takes back what the value has taken: one temporary if it is in one, and
nothing otherwise. The counter is never at zero when something is taken back, so subtraction does
not stop short. -/
theorem run_release (operand : Operand) :
    (release operand).run (holding code (operand.liveAfter live) labels) =
      .ok ((), holding code live labels) := by
  unfold Operand.liveAfter
  cases isTemporary : operand.isTemporary with
  | true =>
    simp only [release, isTemporary, if_true]
    rfl
  | false =>
    simp only [release, isTemporary]
    rfl

end Generator

/-- Only the last quadruple is sent elsewhere, and its operands stay as they are. -/
theorem retarget_concat (target : Operand) (code : List Quad) (last : Quad) :
    retarget target (code ++ [last]) = code ++ [{ last with target := some target }] := by
  induction code with
  | nil => rfl
  | cons quad later inductionHypothesis =>
    cases later with
    | nil => rfl
    | cons next later =>
      rw [List.cons_append, List.cons_append, retarget, ← List.cons_append, inductionHypothesis]
      · rfl
      · simp

/-- The last quadruple of some code has computed its value, if that is a temporary. This is what an
assignment checks before it sends that quadruple to the variable. -/
def Computation.Produced (computation : Computation) : Prop :=
  computation.value.isTemporary = true →
    ∃ before last, computation.code = before ++ [last] ∧ last.producesValue = true ∧
      last.target = some computation.value

/-- An assignment finds the quadruple that has computed its value, so a temporary is never
copied, and it releases the value. -/
theorem Computation.Produced.run_assign {computation : Computation}
    (produced : computation.Produced) (target : Operand) (before : List Quad)
    (live labels : Nat) :
    (Generator.assign target computation.value).run
        (.holding (before ++ computation.code) (computation.value.liveAfter live) labels) =
      .ok ((), .holding (before ++ computation.storedIn target) live labels) := by
  let reached := Generator.holding (before ++ computation.code)
    (computation.value.liveAfter live) labels
  cases isTemporary : computation.value.isTemporary with
  | true =>
    obtain ⟨earlier, last, isCode, produces, isTarget⟩ := produced isTemporary
    have found : reached.producer? computation.value = some last := by
      simp [reached, Generator.producer?, Generator.holding, isCode, isTemporary, produces,
        isTarget]
    have sent : (before ++ computation.code).toArray.pop.push { last with target := some target } =
        (before ++ computation.storedIn target).toArray := by
      rw [Computation.storedIn, if_pos isTemporary, isCode, retarget_concat]
      simp
    have assigned : (Generator.assign target computation.value).run reached =
        (Generator.release computation.value).run
          ⟨(before ++ computation.code).toArray.pop.push { last with target := some target },
            computation.value.liveAfter live, labels⟩ := by
      rw [Generator.assign, Generating.run_bind_ok rfl, found]
      rfl
    rw [assigned, sent]
    exact Generator.run_release ..
  | false =>
    have notFound : reached.producer? computation.value = none := by
      simp [Generator.producer?, isTemporary]
    rw [Generator.assign, Generating.run_bind_ok rfl, notFound]
    refine (Generating.run_bind_ok (Generator.run_release ..)).trans ?_
    rw [Generator.run_emit, List.append_assoc, Computation.storedIn, isTemporary]
    rfl

namespace Node

open Generator Generating

/-- A variable is no temporary, so releasing it takes nothing back. -/
theorem liveAfter_variableOperand {node : Node} {operand : Operand}
    (found : node.variableOperand = .ok operand) (live : Nat) : operand.liveAfter live = live := by
  cases node with
  | identifier mark occurrence =>
    cases addressed : occurrence.address with
    | none => simp [variableOperand, addressed] at found
    | some address =>
      simp only [variableOperand, addressed, Except.ok.injEq] at found
      rw [← found]
      rfl
  | _ => simp [variableOperand] at found

/-- An expression is lowered to the same code, and the counter has gone up by the temporary
that has its value, if one does. -/
theorem run_generateExpression : (node : Node) → (code : List Quad) → (live labels : Nat) →
    node.generateExpression.run (holding code live labels) =
      (node.lowerExpression live).map (fun computation => (computation.value,
        holding (code ++ computation.code) (computation.value.liveAfter live) labels))
  | .integer .., code, live, labels => by
    simp only [generateExpression, lowerExpression, Except.map, List.append_nil]
    rfl
  | .identifier mark occurrence, code, live, labels => by
    simp only [generateExpression, lowerExpression]
    cases found : (Node.identifier mark occurrence).variableOperand with
    | error fault => rfl
    | ok operand =>
      simp only [bind, Except.bind, Except.map, pure, Except.pure, List.append_nil,
        liveAfter_variableOperand found]
      rfl
  | .unary _ op operand, code, live, labels => by
    simp only [generateExpression, lowerExpression]
    refine run_bind_map (operand.run_generateExpression code live labels) ?_
    intro computation
    rw [run_bind_ok (run_release ..), run_bind_ok (run_newTemporary ..),
      run_bind_ok (run_emit ..), List.append_assoc]
    rfl
  | .binary _ op left right, code, live, labels => by
    simp only [generateExpression, lowerExpression]
    refine run_bind_map (left.run_generateExpression code live labels) ?_
    intro first
    refine run_bind_map (right.run_generateExpression ..) ?_
    intro second
    rw [run_bind_ok (run_release ..), run_bind_ok (run_release ..),
      run_bind_ok (run_newTemporary ..), run_bind_ok (run_emit ..)]
    simp only [List.append_assoc]
    rfl
  | .clause .., _, _, _ | .chain .., _, _, _ | .whileLoop .., _, _, _ | .doWhile .., _, _, _
  | .compound .., _, _, _ | .block .., _, _, _ | .declaration .., _, _, _
  | .initialization .., _, _, _ | .assignment .., _, _, _ | .returned .., _, _, _
  | .empty .., _, _, _ => rfl

/-- The last quadruple of an expression that is computed at all computes its value. So the check in
an assignment never fails on a temporary, and no copy reads one. -/
theorem produced_lowerExpression {node : Node} {live : Nat} {computation : Computation}
    (lowered : node.lowerExpression live = .ok computation) : computation.Produced := by
  intro isTemporary
  cases node with
  | integer mark value lexeme =>
    cases lowered
    cases isTemporary
  | identifier mark occurrence =>
    obtain ⟨operand, found, ⟨⟩⟩ := bind_eq_ok lowered
    have counted := liveAfter_variableOperand found 0
    rw [Operand.liveAfter, if_pos isTemporary] at counted
    cases counted
  | unary mark op operand =>
    obtain ⟨inner, -, ⟨⟩⟩ := bind_eq_ok lowered
    exact ⟨inner.code, _, rfl, rfl, rfl⟩
  | binary mark op left right =>
    obtain ⟨first, -, lowered⟩ := bind_eq_ok lowered
    obtain ⟨second, -, ⟨⟩⟩ := bind_eq_ok lowered
    exact ⟨first.code ++ second.code, _, rfl, by cases op <;> rfl, rfl⟩
  | _ => cases lowered

/-- A condition is lowered to the same code, and the counter is as it was. Its value is released
before the jump that reads it is emitted. -/
theorem run_generateCondition (node : Node) (code : List Quad) (live labels : Nat) :
    node.generateCondition.run (holding code live labels) =
      (node.lowerExpression live).map (fun computation => (computation.value,
        holding (code ++ computation.code) live labels)) := by
  rw [generateCondition, ← bind_pure (node.lowerExpression live)]
  refine run_bind_map (node.run_generateExpression ..) ?_
  intro computation
  rw [run_bind_ok (run_release ..)]
  rfl

/-- An assignment is lowered to the same code, and the counter is back at zero. A fault on the one
side is the same fault on the other. -/
theorem run_generateAssignment (target : Node) (op : AssignOp) (value : Node) (code : List Quad)
    (labels : Nat) :
    (generateAssignment target op value).run (holding code 0 labels) =
      (lowerAssignment target op value).map (fun more =>
        ((), holding (code ++ more) 0 labels)) := by
  rw [generateAssignment, lowerAssignment]
  refine run_bind_map (run_lift ..) ?_
  intro stored
  cases lowered : value.lowerExpression 0 with
  | error fault =>
    rw [StateT.run_bind, run_generateExpression, lowered]
    rfl
  | ok computation =>
    have ran := value.run_generateExpression code 0 labels
    rw [lowered] at ran
    rw [run_bind_ok ran]
    cases op.arithmetic? with
    | none => exact (produced_lowerExpression lowered).run_assign stored code 0 labels
    | some arithmetic =>
      have combined : Computation.Produced
          ⟨computation.code ++ [.binary arithmetic stored computation.value (.temporary 1)],
            .temporary 1⟩ := fun _ => ⟨_, _, rfl, by cases arithmetic <;> rfl, rfl⟩
      refine (run_bind_ok (run_release ..)).trans ?_
      rw [run_bind_ok (run_newTemporary ..), run_bind_ok (run_emit ..), List.append_assoc]
      exact combined.run_assign stored code 0 labels

mutual

/-- A statement is lowered to the same code, and the counter is back at zero, which is where the
next statement starts. A fault on the one side is the same fault on the other. The induction is on
the tree, with one case for each form of a statement. -/
theorem run_generateStatement : (node : Node) → (code : List Quad) → (labels : Nat) →
    node.generateStatement.run (holding code 0 labels) =
      (node.lowerStatement labels).map (fun lowered =>
        ((), holding (code ++ lowered.1) 0 lowered.2))
  | .compound mark statements, code, labels => by
    simp only [generateStatement, lowerStatement]
    exact run_generateStatements statements code labels
  | .block mark statements, code, labels => by
    simp only [generateStatement, lowerStatement]
    exact run_generateStatements statements code labels
  | .empty mark, code, labels => by
    simp only [generateStatement, lowerStatement, Except.map, List.append_nil]
    rfl
  | .declaration mark name, code, labels => by
    simp only [generateStatement, lowerStatement, Except.map, List.append_nil]
    rfl
  | .initialization mark name value, code, labels => by
    simp only [generateStatement, lowerStatement]
    exact run_eq_map (run_generateAssignment name .assign value code labels) (fun _ => rfl)
  | .assignment mark target op value, code, labels => by
    simp only [generateStatement, lowerStatement]
    exact run_eq_map (run_generateAssignment target op value code labels) (fun _ => rfl)
  | .returned mark value, code, labels => by
    simp only [generateStatement, lowerStatement]
    refine run_bind_map (value.run_generateExpression code 0 labels) ?_
    intro computation
    rw [run_bind_ok (run_release ..), run_emit, List.append_assoc]
    rfl
  | .chain mark clauses none, code, labels => by
    simp only [generateStatement, lowerStatement]
    rw [run_bind_ok (run_newLabel ..)]
    refine run_bind_map (run_generateClauses clauses ..) ?_
    rintro ⟨tests, after⟩
    rw [run_emit, List.append_assoc]
    rfl
  | .chain mark clauses (some body), code, labels => by
    simp only [generateStatement, lowerStatement]
    rw [run_bind_ok (run_newLabel ..)]
    refine run_bind_map (run_generateClauses clauses ..) ?_
    rintro ⟨tests, between⟩
    refine run_bind_map (body.run_generateStatement ..) ?_
    rintro ⟨otherwise, after⟩
    rw [run_emit]
    simp only [List.append_assoc]
    rfl
  | .whileLoop mark condition body, code, labels => by
    simp only [generateStatement, lowerStatement]
    rw [run_bind_ok (run_newLabel ..), run_bind_ok (run_newLabel ..), run_bind_ok (run_emit ..)]
    refine run_bind_map (condition.run_generateCondition ..) ?_
    intro test
    rw [run_bind_ok (run_emit ..)]
    refine run_bind_map (body.run_generateStatement ..) ?_
    rintro ⟨repeated, after⟩
    rw [run_bind_ok (run_emit ..), run_emit]
    simp only [List.append_assoc]
    rfl
  | .doWhile mark body condition, code, labels => by
    simp only [generateStatement, lowerStatement]
    rw [run_bind_ok (run_newLabel ..), run_bind_ok (run_emit ..)]
    refine run_bind_map (body.run_generateStatement ..) ?_
    rintro ⟨repeated, after⟩
    refine run_bind_map (condition.run_generateCondition ..) ?_
    intro test
    rw [run_emit]
    simp only [List.append_assoc]
    rfl
  | .clause .., _, _ | .integer .., _, _ | .identifier .., _, _ | .unary .., _, _
  | .binary .., _, _ => by
    simp only [generateStatement, lowerStatement]
    rfl

/-- Statements are lowered to the same code one after the other, each of them with the counter at
zero. -/
theorem run_generateStatements : (nodes : List Node) → (code : List Quad) → (labels : Nat) →
    (generateStatements nodes).run (holding code 0 labels) =
      (lowerStatements nodes labels).map (fun lowered =>
        ((), holding (code ++ lowered.1) 0 lowered.2))
  | [], code, labels => by
    simp only [generateStatements, lowerStatements, Except.map, List.append_nil]
    rfl
  | node :: later, code, labels => by
    simp only [generateStatements, lowerStatements]
    refine run_bind_map (node.run_generateStatement code labels) ?_
    rintro ⟨first, between⟩
    refine run_eq_map (run_generateStatements later ..) ?_
    rintro ⟨rest, after⟩
    rw [List.append_assoc]
    rfl

/-- Clauses are lowered to the same code one after the other. Each starts with the counter at zero,
since the condition before it has been released. -/
theorem run_generateClauses : (nodes : List Node) → (done : Operand) → (code : List Quad) →
    (labels : Nat) → (generateClauses nodes done).run (holding code 0 labels) =
      (lowerClauses nodes done labels).map (fun lowered =>
        ((), holding (code ++ lowered.1) 0 lowered.2))
  | [], done, code, labels => by
    simp only [generateClauses, lowerClauses, Except.map, List.append_nil]
    rfl
  | .clause mark tag condition body :: later, done, code, labels => by
    simp only [generateClauses, lowerClauses]
    rw [run_bind_ok (run_newLabel ..)]
    refine run_bind_map (condition.run_generateCondition ..) ?_
    intro test
    rw [run_bind_ok (run_emit ..)]
    refine run_bind_map (body.run_generateStatement ..) ?_
    rintro ⟨guarded, between⟩
    rw [run_bind_ok (run_emit ..), run_bind_ok (run_emit ..)]
    refine run_eq_map (run_generateClauses later ..) ?_
    rintro ⟨rest, after⟩
    simp only [List.append_assoc]
    rfl
  | .integer .. :: _, _, _, _ | .identifier .. :: _, _, _, _ | .unary .. :: _, _, _, _
  | .binary .. :: _, _, _, _ | .chain .. :: _, _, _, _ | .whileLoop .. :: _, _, _, _
  | .doWhile .. :: _, _, _, _ | .compound .. :: _, _, _, _ | .block .. :: _, _, _, _
  | .declaration .. :: _, _, _, _ | .initialization .. :: _, _, _, _
  | .assignment .. :: _, _, _, _ | .returned .. :: _, _, _, _ | .empty .. :: _, _, _, _ => by
    simp only [generateClauses, lowerClauses]
    rfl

end

end Node

/-- Lowering a program with a generator gives what lowering without a counter gives: the same
quadruples and the same number of labels, or the same fault. Nothing is asked of the tree, so
this also holds of trees that no source text has. -/
theorem Lowered.ofTree_eq (root : Node) :
    Lowered.ofTree root = (do
      let (quads, labels) ← root.lowerStatement 0
      let program : Program := ⟨quads, root.frameSize⟩
      return ⟨program, [.info ("lowered " ++ Text.decimal quads.length ++ " instructions, " ++
        Text.decimal labels ++ " labels, frame " ++ Text.decimal program.frameSize ++
        " bytes")]⟩) := by
  have ran : root.generateStatement.run {} = _ := root.run_generateStatement [] 0
  rw [Lowered.ofTree, ran]
  cases root.lowerStatement 0 with
  | error fault => rfl
  | ok lowered => rfl

/-- The generator that has lowered a program holds its quadruples, and no temporary is taken
any more. -/
theorem Lowered.exists_generator {root : Node} {lowered : Lowered}
    (isLowered : Lowered.ofTree root = .ok lowered) :
    ∃ generator, root.generateStatement.run {} = .ok ((), generator) ∧
      generator.quads.toList = lowered.program.quads ∧ generator.temporaries = 0 := by
  have ran : root.generateStatement.run {} = _ := root.run_generateStatement [] 0
  rw [Lowered.ofTree, ran] at isLowered
  cases functional : root.lowerStatement 0 with
  | error fault =>
    rw [functional] at isLowered
    cases isLowered
  | ok code =>
    rw [functional] at isLowered ran
    cases isLowered
    exact ⟨_, ran, rfl, rfl⟩

end IntMain
