import IntMain.Proofs.LoweringRules
import IntMain.Proofs.QuadMachine
import IntMain.Token.Lexer

/-!
# Lowered code means what its tree means

The machine for quadruples, started at the code of a statement, does what the statement
says. It reaches the end of the code with the memory that execution leaves, or ends the
program where a return does, and it goes on for at least as many steps as a loop had
rounds to spend when execution did not finish. The three are one invariant, `Simulates`,
which is preserved when code is put in a row, chosen or repeated.

A run is determined by its start. So the two readings of a program agree in both
directions although only one is proved step by step: a program that finishes makes the
machine end, one that diverges keeps it running, and each excludes the other.
-/

namespace IntMain

namespace QuadMachine

/-!
## Labels
-/

/-- A quadruple is a label of a name if that is its label's name. -/
theorem isLabel_iff {name : String} {quad : Quad} :
    isLabel name quad = true ↔ quad.labelName? = some name := by
  simp only [isLabel, Quad.labelName?, Bool.and_eq_true, beq_iff_eq, Option.any_eq_true]
  constructor
  · rintro ⟨kind, label, target, named⟩
    rw [if_pos kind, target, Option.map_some, named]
  · intro named
    by_cases kind : quad.kind? = some .label
    · rw [if_pos kind] at named
      obtain ⟨label, target, sameName⟩ := Option.map_eq_some_iff.mp named
      exact ⟨kind, label, target, sameName⟩
    · simp [if_neg kind] at named

/-- Where all labels are distinct, a label is found where it stands. Otherwise an earlier label of
the same name would be found. -/
theorem labelIndex_of_distinct {quads : List Quad} {index : Nat} {label : Operand}
    (distinct : (labelNames quads).Nodup) (placed : quads[index]? = some (.label label)) :
    labelIndex? quads label.name = some index := by
  induction quads generalizing index with
  | nil => simp at placed
  | cons quad later inductionHypothesis =>
    cases index with
    | zero =>
      have here : quad = .label label := by simpa using placed
      have found : isLabel label.name quad = true := by
        rw [isLabel_iff, here]
        rfl
      rw [labelIndex?, List.findIdx?_cons, if_pos found]
    | succ index =>
      have behind : later[index]? = some (.label label) := by simpa using placed
      have listed : label.name ∈ labelNames later :=
        List.mem_filterMap.mpr ⟨.label label, List.mem_of_getElem? behind, rfl⟩
      have other : ¬ isLabel label.name quad = true := by
        intro found
        rw [labelNames, List.filterMap_cons_some (isLabel_iff.mp found)] at distinct
        exact (List.nodup_cons.mp distinct).1 listed
      have laterDistinct : (labelNames later).Nodup :=
        distinct.sublist ((List.sublist_cons_self quad later).filterMap Quad.labelName?)
      rw [labelIndex?, List.findIdx?_cons, if_neg other]
      have found := inductionHypothesis laterDistinct behind
      rw [labelIndex?] at found
      rw [found, Option.map_some]

/-!
## Expressions
-/

section Expressions

variable {meaning : Interpretation} {quads : List Quad}

/-- Temporaries up to the number `live` have the same values in both states. These are the ones that
may still be read, so code may change all others. -/
def SameBelow (live : Nat) (first second : State) : Prop :=
  ∀ number ≤ live, second.temporaries (Operand.temporary number).name =
    first.temporaries (Operand.temporary number).name

/-- The run from `start` leads behind the code, and there the operand has the value. Only
temporaries above `live` have changed. -/
structure Settles (meaning : Interpretation) (quads : List Quad) (live length : Nat)
    (value : Operand) (result : Int) (start finish : State) : Prop where
  reached : Machine.Reaches (step meaning quads) start finish
  counter : finish.counter = start.counter + length
  memory : finish.memory = start.memory
  below : SameBelow live start finish
  read : finish.read? value = some result

/-- The run from `start` settles at once, or it leads to the quadruple that writes the
value to the target. -/
def Delivers (meaning : Interpretation) (quads : List Quad) (live : Nat) (target value : Operand)
    (code : List Quad) (result : Int) (start : State) : Prop :=
  (code = [] ∧ start.read? value = some result) ∨
    (code ≠ [] ∧ value = target ∧ ∃ last, Machine.Reaches (step meaning quads) start last ∧
      last.counter + 1 = start.counter + code.length ∧ last.memory = start.memory ∧
      SameBelow live start last ∧ ∀ written, last.write? target result = some written →
        step meaning quads last = some written.advance)

/-- What is delivered to the next free temporary settles there. This is how a value is delivered
within an expression; an assignment has it delivered to a variable. -/
theorem Delivers.settles {live : Nat} {value : Operand} {code : List Quad} {result : Int}
    {start : State} (delivered : Delivers meaning quads live (.temporary (live + 1)) value code
      result start) :
    ∃ finish, Settles meaning quads live code.length value result start finish := by
  rcases delivered with ⟨rfl, read⟩ | ⟨-, rfl, last, reached, counter, memory, below, writes⟩
  · exact ⟨start, .refl start, rfl, rfl, fun _ _ => rfl, read⟩
  · have stepped := writes _ (State.write_temporary last (live + 1) result)
    refine ⟨_, reached.trans (.single stepped), counter, memory, ?_, ?_⟩
    · intro number bound
      have other : (Operand.temporary number).name ≠ (Operand.temporary (live + 1)).name := by
        intro same
        have sameNumber := Operand.temporary_name_injective same
        omega
      exact (Function.update_of_ne other _ _).trans (below number bound)
    · exact congrArg some (Function.update_self _ _ _)

/-- The value of an operand stays while its temporary is live. If the operand is no temporary it is
a literal or a variable, and memory is the same. -/
theorem read_of_sameBelow {live : Nat} {node : Node} {value : Operand} {code : List Quad}
    (computed : Computes live node (.temporary (live + 1)) code value) {first second : State}
    (memory : second.memory = first.memory)
    (below : SameBelow (value.liveAfter live) first second) :
    second.read? value = first.read? value := by
  rcases computed.value_cases with ⟨-, ⟨number, rfl⟩ | ⟨name, address, rfl⟩⟩ | ⟨-, rfl⟩
  · rw [State.read_literal, State.read_literal]
  · rw [State.read_stored, State.read_stored, memory]
  · exact congrArg some (below (live + 1) (Nat.le_refl _))

/-- The code of an expression delivers its value, which the expression always has. The premise says
where the code stands; labels and jumps do not matter, as there are none in it. -/
theorem delivers_of_computes (meaning : Interpretation) {live : Nat} {node : Node}
    {target value : Operand} {code : List Quad}
    (computed : Computes live node target code value) (start : State)
    (placed : CodeAt quads start.counter code) :
    ∃ result, node.value? meaning start.memory = some result ∧
      Delivers meaning quads live target value code result start := by
  induction computed generalizing start with
  | integer => exact ⟨_, rfl, .inl ⟨rfl, State.read_literal start _⟩⟩
  | identifier addressed =>
    refine ⟨_, ?_, .inl ⟨rfl, State.read_stored start _ _⟩⟩
    rw [Node.value?, addressed, Option.map_some]
  | @unary live mark op operand target value code inner inductionHypothesis =>
    obtain ⟨innerPlaced, lastPlaced⟩ := placed.split
    obtain ⟨result, valued, delivered⟩ := inductionHypothesis start innerPlaced
    obtain ⟨last, settled⟩ := delivered.settles
    refine ⟨meaning.unary op result, by rw [Node.value?, valued, Option.map_some], ?_⟩
    refine .inr ⟨by simp, rfl, last, settled.reached, ?_, settled.memory, settled.below, ?_⟩
    · rw [settled.counter, List.length_append, List.length_singleton]
      omega
    · intro written stored
      rw [← settled.counter] at lastPlaced
      exact step_unary lastPlaced.fetch settled.read stored
  | @binary live mark op left right target leftValue rightValue leftCode rightCode first second
      firstDelivers secondDelivers =>
    obtain ⟨operandsPlaced, lastPlaced⟩ := placed.split
    obtain ⟨leftPlaced, rightPlaced⟩ := operandsPlaced.split
    obtain ⟨leftResult, leftValued, leftDelivered⟩ := firstDelivers start leftPlaced
    obtain ⟨middle, leftSettled⟩ := leftDelivered.settles
    rw [← leftSettled.counter] at rightPlaced
    obtain ⟨rightResult, rightValued, rightDelivered⟩ := secondDelivers middle rightPlaced
    obtain ⟨last, rightSettled⟩ := rightDelivered.settles
    have leftRead : last.read? leftValue = some leftResult :=
      (read_of_sameBelow first rightSettled.memory rightSettled.below).trans leftSettled.read
    have liveBound : live ≤ leftValue.liveAfter live := by
      unfold Operand.liveAfter
      split <;> omega
    rw [leftSettled.memory] at rightValued
    refine ⟨meaning.binary op leftResult rightResult, ?_, ?_⟩
    · simp [Node.value?, leftValued, rightValued]
    · refine .inr ⟨by simp, rfl, last, leftSettled.reached.trans rightSettled.reached,
        ?_, ?_, ?_, ?_⟩
      · rw [rightSettled.counter, leftSettled.counter, List.length_append, List.length_append,
          List.length_singleton]
        omega
      · rw [rightSettled.memory, leftSettled.memory]
      · intro number bound
        exact (rightSettled.below number (Nat.le_trans bound liveBound)).trans
          (leftSettled.below number bound)
      · intro written stored
        rw [List.length_append, ← Nat.add_assoc, ← leftSettled.counter,
          ← rightSettled.counter] at lastPlaced
        exact step_binary lastPlaced.fetch leftRead rightSettled.read stored

/-- The code of an expression leads behind itself with the expression's value, and leaves the memory
and the live temporaries alone. -/
theorem settles_of_computes (meaning : Interpretation) {live : Nat} {node : Node}
    {value : Operand} {code : List Quad}
    (computed : Computes live node (.temporary (live + 1)) code value) (start : State)
    (placed : CodeAt quads start.counter code) :
    ∃ result finish, node.value? meaning start.memory = some result ∧
      Settles meaning quads live code.length value result start finish := by
  obtain ⟨result, valued, delivered⟩ := delivers_of_computes meaning computed start placed
  obtain ⟨finish, settled⟩ := delivered.settles
  exact ⟨result, finish, valued, settled⟩

/-- An assignment to a stamped name stores its value there. A compound one combines it with the
value that was there before. -/
theorem assign_eq {mark : Mark} {name : Identifier} {address result : Int} {op : AssignOp}
    {value : Node} {memory : Memory} (addressed : name.address = some address)
    (valued : value.value? meaning memory = some result) :
    Node.assign meaning (.identifier mark name) op value memory = .finished
      (Function.update memory address (meaning.assigned op (memory address) result))
      .fellThrough := by
  simp only [Node.assign, Node.address?, addressed, valued]

/-- The code of an assignment stores what the assignment says, and leads behind itself. Which values
the temporaries then have is left open, since nothing reads them any more. -/
theorem reaches_of_stores {mark : Mark} {name : Identifier} {address : Int} {op : AssignOp}
    {value : Node} {code : List Quad} (addressed : name.address = some address)
    (stores : Stores (.stored name.name address) op value code) (start : State)
    (placed : CodeAt quads start.counter code) :
    ∃ memory temporaries,
      Node.assign meaning (.identifier mark name) op value start.memory =
        .finished memory .fellThrough ∧
      Machine.Reaches (step meaning quads) start
        ⟨start.counter + code.length, memory, temporaries⟩ := by
  cases stores with
  | copied plain simple =>
    have nothing : CodeAt quads start.counter [] := List.nil_prefix
    obtain ⟨result, valued, delivered⟩ := delivers_of_computes meaning simple start nothing
    rcases delivered with ⟨-, read⟩ | ⟨absurd, -⟩
    · refine ⟨_, start.temporaries, assign_eq addressed valued, ?_⟩
      have plainly : meaning.assigned op (start.memory address) result = result := by
        rw [Interpretation.assigned, plain]
      rw [plainly]
      exact .single (step_copy placed.fetch read (State.write_stored start _ _ _))
    · exact absurd.elim rfl
  | computed plain direct nonempty =>
    obtain ⟨result, valued, delivered⟩ := delivers_of_computes meaning direct start placed
    rcases delivered with ⟨empty, -⟩ | ⟨-, -, last, reached, counter, memory, -, writes⟩
    · exact (nonempty empty).elim
    · refine ⟨_, last.temporaries, assign_eq addressed valued, ?_⟩
      have plainly : meaning.assigned op (start.memory address) result = result := by
        rw [Interpretation.assigned, plain]
      rw [plainly, ← memory, ← counter]
      exact reached.trans (.single (writes _ (State.write_stored last _ _ _)))
  | @combined arithmetic _ code source combining operand =>
    obtain ⟨operandPlaced, lastPlaced⟩ := placed.split
    obtain ⟨result, last, valued, settled⟩ :=
      settles_of_computes meaning operand start operandPlaced
    refine ⟨_, last.temporaries, assign_eq addressed valued, ?_⟩
    have combined : meaning.assigned op (start.memory address) result =
        meaning.binary arithmetic (last.memory address) result := by
      rw [Interpretation.assigned, combining, settled.memory]
    have counter : last.counter + 1 =
        start.counter + (code ++ [Quad.binary arithmetic (.stored name.name address) source
          (.stored name.name address)]).length := by
      rw [settled.counter, List.length_append, List.length_singleton, Nat.add_assoc]
    rw [← settled.counter] at lastPlaced
    rw [combined, ← settled.memory, ← counter]
    exact settled.reached.trans (.single (step_binary lastPlaced.fetch
      (State.read_stored last _ _) settled.read (State.write_stored last _ _ _)))

end Expressions

/-!
## Statements
-/

section Statements

variable {meaning : Interpretation} {quads : List Quad}

/-- The run from `start` does what an execution says: it reaches `finish` where the
execution fell through, ends where it returned, and takes at least `steps` steps where
the execution did not finish. No run does what a stuck execution says. -/
def Simulates (meaning : Interpretation) (quads : List Quad) (steps : Nat) (start : State)
    (finish : Nat) : Execution → Prop
  | .finished memory .fellThrough => ∃ temporaries,
      Machine.Reaches (step meaning quads) start ⟨finish, memory, temporaries⟩
  | .finished memory (.returned value) => Halts meaning quads start memory (.returned value)
  | .unfinished => Machine.Lasts (step meaning quads) steps start
  | .stuck => False

namespace Simulates

variable {steps finish : Nat} {start middle : State} {execution : Execution}

/-- A run can be begun earlier. The number of steps that an unfinished run has to last only counts
what comes later, so it stays. -/
theorem of_reaches (reached : Machine.Reaches (step meaning quads) start middle)
    (simulates : Simulates meaning quads steps middle finish execution) :
    Simulates meaning quads steps start finish execution := by
  rcases execution with ⟨memory, _ | value⟩ | _ | _
  · obtain ⟨temporaries, ended⟩ := simulates
    exact ⟨temporaries, reached.trans ended⟩
  · obtain ⟨final, toFinal, ended, same⟩ := simulates
    exact ⟨final, reached.trans toFinal, ended, same⟩
  · exact Machine.Lasts.of_reaches reached simulates
  · exact simulates

/-- A step before a run counts, so an unfinished run lasts one step longer. -/
theorem of_step (stepped : step meaning quads start = some middle)
    (simulates : Simulates meaning quads steps middle finish execution) :
    Simulates meaning quads (steps + 1) start finish execution := by
  rcases execution with ⟨memory, ending⟩ | _ | _
  · cases ending <;> exact of_reaches (.single stepped) simulates
  · exact Machine.Lasts.head stepped simulates
  · exact simulates

/-- A run that lasts some steps lasts fewer. Code that is finished is not concerned. -/
theorem mono {fewer : Nat} (bound : fewer ≤ steps)
    (simulates : Simulates meaning quads steps start finish execution) :
    Simulates meaning quads fewer start finish execution := by
  rcases execution with ⟨memory, ending⟩ | _ | _
  · cases ending <;> exact simulates
  · exact Machine.Lasts.mono simulates bound
  · exact simulates

/-- Code in a row: the second piece starts where the first falls through. It has to be simulated
from any memory and temporaries, because the first piece may leave any. -/
theorem andThen {between : Nat} {later : Memory → Execution}
    (first : Simulates meaning quads steps start between execution)
    (second : ∀ memory temporaries,
      Simulates meaning quads steps ⟨between, memory, temporaries⟩ finish (later memory)) :
    Simulates meaning quads steps start finish (execution.andThen later) := by
  rcases execution with ⟨memory, _ | value⟩ | _ | _
  · obtain ⟨temporaries, reached⟩ := first
    exact of_reaches reached (second memory temporaries)
  · exact first
  · exact first
  · exact first

/-- Where the code falls through, the run goes on to another place, for example over a jump. A
return or an unfinished run is not concerned. -/
theorem through {between : Nat} (simulates : Simulates meaning quads steps start between execution)
    (leads : ∀ memory temporaries, Machine.Reaches (step meaning quads)
      ⟨between, memory, temporaries⟩ ⟨finish, memory, temporaries⟩) :
    Simulates meaning quads steps start finish execution := by
  rcases execution with ⟨memory, _ | value⟩ | _ | _
  · obtain ⟨temporaries, reached⟩ := simulates
    exact ⟨temporaries, reached.trans (leads memory temporaries)⟩
  · exact simulates
  · exact simulates
  · exact simulates

/-- A label is passed. It takes a step, and a loop that goes on passes one in every round. -/
theorem of_label {label : Operand} (placed : quads[start.counter]? = some (.label label))
    (simulates : Simulates meaning quads steps start.advance finish execution) :
    Simulates meaning quads (steps + 1) start finish execution :=
  of_step (step_label placed) simulates

/-- A jump leads to the place of its label. The labels have to be distinct for the machine to find
it there. -/
theorem of_jump {label : Operand} {index : Nat} (distinct : (labelNames quads).Nodup)
    (placed : quads[start.counter]? = some (.jump label))
    (labelled : quads[index]? = some (.label label))
    (simulates : Simulates meaning quads steps (start.goto index) finish execution) :
    Simulates meaning quads steps start finish execution := by
  have stepped : step meaning quads start = _ := step_jump placed
  rw [labelIndex_of_distinct distinct labelled, Option.map_some] at stepped
  exact of_reaches (.single stepped) simulates

/-- A test that jumps away when the condition does not hold chooses between two pieces of
code. -/
theorem of_falseTest {condition : Node} {test : List Quad} {value label : Operand} {index : Nat}
    {holds otherwise : Execution} (distinct : (labelNames quads).Nodup)
    (tested : Computes 0 condition (.temporary 1) test value)
    (placed : CodeAt quads start.counter (test ++ [.jumpIfFalse value label]))
    (labelled : quads[index]? = some (.label label))
    (taken : ∀ temporaries, Simulates meaning quads steps
      ⟨index, start.memory, temporaries⟩ finish otherwise)
    (passed : ∀ temporaries, Simulates meaning quads steps
      ⟨start.counter + test.length + 1, start.memory, temporaries⟩ finish holds) :
    Simulates meaning quads steps start finish
      (.choose (condition.value? meaning start.memory) holds otherwise) := by
  obtain ⟨testPlaced, jumpPlaced⟩ := placed.split
  obtain ⟨result, last, valued, settled⟩ := settles_of_computes meaning tested start testPlaced
  rw [← settled.counter] at jumpPlaced
  have jumped : step meaning quads last = _ := step_jumpIfFalse jumpPlaced.fetch settled.read
  rw [labelIndex_of_distinct distinct labelled, Option.map_some] at jumped
  refine of_reaches settled.reached ?_
  rw [valued, Execution.choose]
  by_cases zero : result = 0
  · rw [if_pos zero] at jumped ⊢
    have continued := taken last.temporaries
    rw [← settled.memory] at continued
    exact of_reaches (.single jumped) continued
  · rw [if_neg zero] at jumped ⊢
    have continued := passed last.temporaries
    rw [← settled.memory, ← settled.counter] at continued
    exact of_reaches (.single jumped) continued

/-- A test that jumps away when the condition holds chooses between two pieces of code. Both have to
be simulated with any temporaries, because the condition is computed in them. -/
theorem of_trueTest {condition : Node} {test : List Quad} {value label : Operand} {index : Nat}
    {holds otherwise : Execution} (distinct : (labelNames quads).Nodup)
    (tested : Computes 0 condition (.temporary 1) test value)
    (placed : CodeAt quads start.counter (test ++ [.jumpIfTrue value label]))
    (labelled : quads[index]? = some (.label label))
    (taken : ∀ temporaries, Simulates meaning quads steps
      ⟨index, start.memory, temporaries⟩ finish holds)
    (passed : ∀ temporaries, Simulates meaning quads steps
      ⟨start.counter + test.length + 1, start.memory, temporaries⟩ finish otherwise) :
    Simulates meaning quads steps start finish
      (.choose (condition.value? meaning start.memory) holds otherwise) := by
  obtain ⟨testPlaced, jumpPlaced⟩ := placed.split
  obtain ⟨result, last, valued, settled⟩ := settles_of_computes meaning tested start testPlaced
  rw [← settled.counter] at jumpPlaced
  have jumped : step meaning quads last = _ := step_jumpIfTrue jumpPlaced.fetch settled.read
  rw [labelIndex_of_distinct distinct labelled, Option.map_some] at jumped
  refine of_reaches settled.reached ?_
  rw [valued, Execution.choose]
  by_cases zero : result = 0
  · rw [if_pos zero] at jumped ⊢
    have continued := passed last.temporaries
    rw [← settled.memory, ← settled.counter] at continued
    exact of_reaches (.single jumped) continued
  · rw [if_neg zero] at jumped ⊢
    have continued := taken last.temporaries
    rw [← settled.memory] at continued
    exact of_reaches (.single jumped) continued

end Simulates

/-- Code with a label in front, a test, a body and a jump back repeats the body while the
test holds.

The induction is on the rounds that are left. Each round passes the label in front, so a
loop that uses up its rounds has taken at least as many steps. -/
theorem simulates_whileLoop {rounds position bodyEnd : Nat} {condition : Node}
    {test : List Quad} {value front done : Operand} {body : Memory → Execution}
    (distinct : (labelNames quads).Nodup)
    (tested : Computes 0 condition (.temporary 1) test value)
    (frontPlaced : quads[position]? = some (.label front))
    (testPlaced : CodeAt quads (position + 1) (test ++ [.jumpIfFalse value done]))
    (repeated : ∀ memory temporaries, Simulates meaning quads rounds
      ⟨position + 1 + test.length + 1, memory, temporaries⟩ bodyEnd (body memory))
    (backPlaced : quads[bodyEnd]? = some (.jump front))
    (donePlaced : quads[bodyEnd + 1]? = some (.label done)) :
    ∀ left ≤ rounds, ∀ memory temporaries, Simulates meaning quads left
      ⟨position, memory, temporaries⟩ (bodyEnd + 2)
      (.whileLoop (fun memory => condition.value? meaning memory) body left memory) := by
  intro left
  induction left with
  | zero =>
    intro _ memory temporaries
    rfl
  | succ left inductionHypothesis =>
    intro bound memory temporaries
    have again := inductionHypothesis (Nat.le_of_succ_le bound)
    refine .of_label frontPlaced (.of_falseTest distinct tested testPlaced donePlaced ?_ ?_)
    · intro temporaries
      exact ⟨temporaries, .single (step_label donePlaced)⟩
    · intro temporaries
      refine .andThen ((repeated memory temporaries).mono (Nat.le_of_succ_le bound)) ?_
      intro memory temporaries
      exact .of_jump distinct backPlaced frontPlaced (again memory temporaries)

/-- Code with a label in front, a body, and a test that jumps back repeats the body until
the test fails. -/
theorem simulates_doWhile {rounds position bodyEnd : Nat} {condition : Node}
    {test : List Quad} {value front : Operand} {body : Memory → Execution}
    (distinct : (labelNames quads).Nodup)
    (tested : Computes 0 condition (.temporary 1) test value)
    (frontPlaced : quads[position]? = some (.label front))
    (repeated : ∀ memory temporaries, Simulates meaning quads rounds
      ⟨position + 1, memory, temporaries⟩ bodyEnd (body memory))
    (testPlaced : CodeAt quads bodyEnd (test ++ [.jumpIfTrue value front])) :
    ∀ left ≤ rounds, ∀ memory temporaries, Simulates meaning quads left
      ⟨position, memory, temporaries⟩ (bodyEnd + test.length + 1)
      (.doWhile (fun memory => condition.value? meaning memory) body left memory) := by
  intro left
  induction left with
  | zero =>
    intro _ memory temporaries
    rfl
  | succ left inductionHypothesis =>
    intro bound memory temporaries
    have again := inductionHypothesis (Nat.le_of_succ_le bound)
    refine .of_label frontPlaced (.andThen
      ((repeated memory temporaries).mono (Nat.le_of_succ_le bound)) ?_)
    intro memory temporaries
    refine .of_trueTest distinct tested testPlaced frontPlaced (again memory) ?_
    intro temporaries
    exact ⟨temporaries, .refl _⟩

/-- Code with a test, a body and a jump to `done` does what a clause says: the body if the
test holds, and what follows the code otherwise. -/
theorem simulates_clause {rounds position bodyEnd finish : Nat} {condition : Node}
    {test : List Quad} {value skip done : Operand} {chosen otherwise : Execution}
    {memory : Memory} (distinct : (labelNames quads).Nodup)
    (tested : Computes 0 condition (.temporary 1) test value)
    (testPlaced : CodeAt quads position (test ++ [.jumpIfFalse value skip]))
    (guarded : ∀ temporaries, Simulates meaning quads rounds
      ⟨position + test.length + 1, memory, temporaries⟩ bodyEnd chosen)
    (leavePlaced : quads[bodyEnd]? = some (.jump done))
    (skipPlaced : quads[bodyEnd + 1]? = some (.label skip))
    (donePlaced : quads[finish]? = some (.label done))
    (following : ∀ temporaries, Simulates meaning quads rounds
      ⟨bodyEnd + 2, memory, temporaries⟩ (finish + 1) otherwise) (temporaries : String → Int) :
    Simulates meaning quads rounds ⟨position, memory, temporaries⟩ (finish + 1)
      (.choose (condition.value? meaning memory) chosen otherwise) := by
  refine .of_falseTest distinct tested testPlaced skipPlaced ?_ ?_
  · intro temporaries
    exact .of_reaches (.single (step_label skipPlaced)) (following temporaries)
  · intro temporaries
    refine .through (guarded temporaries) ?_
    intro memory temporaries
    have jumped : step meaning quads ⟨bodyEnd, memory, temporaries⟩ = _ := step_jump leavePlaced
    rw [labelIndex_of_distinct distinct donePlaced, Option.map_some] at jumped
    exact .head jumped (.single (step_label donePlaced))

/-- The code of a task does, wherever it stands, what executing the task does. Clauses
leave for the label `done`, and for the code behind them if none of them is chosen. -/
def Follows (meaning : Interpretation) (quads : List Quad) (code : List Quad) : Task → Prop
  | .statement node => ∀ rounds position, CodeAt quads position code →
      ∀ memory temporaries, Simulates meaning quads rounds ⟨position, memory, temporaries⟩
        (position + code.length) (node.execute meaning rounds memory)
  | .statements nodes => ∀ rounds position, CodeAt quads position code →
      ∀ memory temporaries, Simulates meaning quads rounds ⟨position, memory, temporaries⟩
        (position + code.length) (Node.executeAll meaning rounds nodes memory)
  | .clauses nodes done => ∀ rounds position finish otherwise, CodeAt quads position code →
      quads[finish]? = some (.label done) →
      (∀ memory temporaries, Simulates meaning quads rounds
        ⟨position + code.length, memory, temporaries⟩ (finish + 1) (otherwise memory)) →
      ∀ memory temporaries, Simulates meaning quads rounds ⟨position, memory, temporaries⟩
        (finish + 1) (Node.executeClauses meaning rounds nodes otherwise memory)

/-- The code that the rules give to a task does what executing the task does, wherever it stands in
a program with distinct labels. The induction is on the rules, and the two loops have lemmas of
their own with an induction on the rounds. -/
theorem follows_of_lowers (meaning : Interpretation) {task : Task} {labels after : Nat}
    {code : List Quad}
    (distinct : (labelNames quads).Nodup) (lowers : Lowers task labels code after) :
    Follows meaning quads code task := by
  induction lowers with
  | compound inner statements =>
    intro rounds position placed memory temporaries
    rw [Node.execute]
    exact statements rounds position placed memory temporaries
  | block inner statements =>
    intro rounds position placed memory temporaries
    rw [Node.execute]
    exact statements rounds position placed memory temporaries
  | empty =>
    intro rounds position placed memory temporaries
    rw [Node.execute]
    exact ⟨temporaries, .refl _⟩
  | declaration =>
    intro rounds position placed memory temporaries
    rw [Node.execute]
    exact ⟨temporaries, .refl _⟩
  | initialization addressed stored =>
    intro rounds position placed memory temporaries
    obtain ⟨written, temporaries, assigned, reached⟩ :=
      reaches_of_stores addressed stored ⟨position, memory, temporaries⟩ placed
    rw [Node.execute, assigned]
    exact ⟨temporaries, reached⟩
  | assignment addressed stored =>
    intro rounds position placed memory temporaries
    obtain ⟨written, temporaries, assigned, reached⟩ :=
      reaches_of_stores addressed stored ⟨position, memory, temporaries⟩ placed
    rw [Node.execute, assigned]
    exact ⟨temporaries, reached⟩
  | returned computed =>
    intro rounds position placed memory temporaries
    obtain ⟨valuePlaced, retPlaced⟩ := placed.split
    obtain ⟨result, last, valued, settled⟩ :=
      settles_of_computes meaning computed ⟨position, memory, temporaries⟩ valuePlaced
    rw [← settled.counter] at retPlaced
    rw [Node.execute, valued]
    exact ⟨last, settled.reached, ending_ret retPlaced.fetch settled.read, settled.memory⟩
  | chain inner clauses =>
    intro rounds position placed memory temporaries
    obtain ⟨clausesPlaced, donePlaced⟩ := placed.split
    rw [Node.execute, List.length_append, List.length_singleton, ← Nat.add_assoc]
    refine clauses rounds position _ _ clausesPlaced donePlaced.fetch ?_ memory temporaries
    intro memory temporaries
    exact ⟨temporaries, .single (step_label donePlaced.fetch)⟩
  | chainElse inner otherwise clauses body =>
    intro rounds position placed memory temporaries
    obtain ⟨codePlaced, donePlaced⟩ := placed.split
    obtain ⟨clausesPlaced, bodyPlaced⟩ := codePlaced.split
    rw [Node.execute, List.length_append, List.length_singleton, ← Nat.add_assoc]
    refine clauses rounds position _ _ clausesPlaced donePlaced.fetch ?_ memory temporaries
    intro memory temporaries
    refine .through (body rounds _ bodyPlaced memory temporaries) ?_
    intro memory temporaries
    rw [List.length_append, ← Nat.add_assoc] at donePlaced
    rw [List.length_append, ← Nat.add_assoc]
    exact .single (step_label donePlaced.fetch)
  | @whileLoop mark condition body labels after test bodyCode value tested repeated follows =>
    intro rounds position placed memory temporaries
    obtain ⟨codePlaced, exitPlaced⟩ := placed.split
    obtain ⟨headPlaced, bodyPlaced⟩ := codePlaced.split
    have bodyStart : position + (.label (.label (labels + 1)) :: test ++
        [.jumpIfFalse value (.label (labels + 2))] : List Quad).length =
        position + 1 + test.length + 1 := by
      simp only [List.length_append, List.length_cons, List.length_nil]
      omega
    rw [List.length_append, ← Nat.add_assoc, bodyStart] at exitPlaced
    rw [bodyStart] at bodyPlaced
    have finish : position + 1 + test.length + 1 + bodyCode.length + 2 = position + (
        .label (.label (labels + 1)) :: test ++ [.jumpIfFalse value (.label (labels + 2))] ++
          bodyCode ++ [.jump (.label (labels + 1)), .label (.label (labels + 2))] :
          List Quad).length := by
      simp only [List.length_append, List.length_cons, List.length_nil]
      omega
    rw [Node.execute, ← finish]
    exact simulates_whileLoop distinct tested headPlaced.fetch headPlaced.tail
      (follows rounds _ bodyPlaced) exitPlaced.fetch exitPlaced.tail.fetch rounds (Nat.le_refl _)
      memory temporaries
  | @doWhile mark condition body labels after test bodyCode value repeated tested follows =>
    intro rounds position placed memory temporaries
    rw [List.cons_append, List.cons_append, List.append_assoc] at placed
    obtain ⟨bodyPlaced, testPlaced⟩ := placed.tail.split
    have finish : position + 1 + bodyCode.length + test.length + 1 = position + (
        .label (.label (labels + 1)) :: bodyCode ++ test ++
          [.jumpIfTrue value (.label (labels + 1))] : List Quad).length := by
      simp only [List.length_append, List.length_cons, List.length_nil]
      omega
    rw [Node.execute, ← finish]
    exact simulates_doWhile distinct tested placed.fetch (follows rounds _ bodyPlaced) testPlaced
      rounds (Nat.le_refl _) memory temporaries
  | nil =>
    intro rounds position placed memory temporaries
    rw [Node.executeAll]
    exact ⟨temporaries, .refl _⟩
  | cons first second firstFollows secondFollows =>
    intro rounds position placed memory temporaries
    obtain ⟨firstPlaced, secondPlaced⟩ := placed.split
    rw [Node.executeAll, List.length_append, ← Nat.add_assoc]
    exact .andThen (firstFollows rounds position firstPlaced memory temporaries)
      (secondFollows rounds _ secondPlaced)
  | noClause =>
    intro rounds position finish otherwise placed donePlaced behind memory temporaries
    rw [Node.executeClauses]
    exact behind memory temporaries
  | @clause mark tag condition body later done labels between after test bodyCode rest value
      tested guarded following bodyFollows laterFollows =>
    intro rounds position finish otherwise placed donePlaced behind memory temporaries
    obtain ⟨codePlaced, restPlaced⟩ := placed.split
    obtain ⟨chosenPlaced, exitPlaced⟩ := codePlaced.split
    obtain ⟨testPlaced, bodyPlaced⟩ := chosenPlaced.split
    simp only [List.length_append, List.length_cons, List.length_nil, Nat.zero_add,
      ← Nat.add_assoc] at behind restPlaced exitPlaced bodyPlaced
    rw [Node.executeClauses]
    refine simulates_clause distinct tested testPlaced
      (bodyFollows rounds _ bodyPlaced memory) exitPlaced.fetch exitPlaced.tail.fetch donePlaced
      ?_ temporaries
    exact laterFollows rounds _ finish otherwise restPlaced donePlaced behind memory

/-- A run that simulates an execution for every bound on its rounds ends as the execution
does.

A run that ends takes a bounded number of steps, so with that many rounds the execution
cannot be unfinished, and a run has only one end. -/
theorem finished_iff_halts {start : State} {execution : Nat → Execution}
    (simulates : ∀ rounds, Simulates meaning quads rounds start quads.length (execution rounds))
    (memory : Memory) (ending : Ending) :
    (∃ rounds, execution rounds = .finished memory ending) ↔
      Halts meaning quads start memory ending := by
  have halts : ∀ rounds memory ending, execution rounds = .finished memory ending →
      Halts meaning quads start memory ending := by
    intro rounds memory ending finished
    have simulated := simulates rounds
    rw [finished] at simulated
    cases ending with
    | fellThrough =>
      obtain ⟨temporaries, reached⟩ := simulated
      refine ⟨_, reached, ?_, rfl⟩
      simp only [State.ending?, List.getElem?_length]
    | returned value => exact simulated
  constructor
  · rintro ⟨rounds, finished⟩
    exact halts rounds memory ending finished
  · intro halted
    obtain ⟨bound, notLonger⟩ := halted.exists_not_lasts
    refine ⟨bound, ?_⟩
    have simulated := simulates bound
    cases executed : execution bound with
    | finished otherMemory otherEnding =>
      obtain ⟨rfl, rfl⟩ := (halts bound otherMemory otherEnding executed).unique halted
      rfl
    | unfinished =>
      rw [executed] at simulated
      exact absurd simulated notLonger
    | stuck =>
      rw [executed] at simulated
      exact simulated.elim

/-- A run that simulates an execution for every bound on its rounds goes on forever if the
execution finishes for no bound. -/
theorem unfinished_iff_runsForever {start : State} {execution : Nat → Execution}
    (simulates : ∀ rounds, Simulates meaning quads rounds start quads.length (execution rounds)) :
    (∀ rounds, execution rounds = .unfinished) ↔
      Machine.RunsForever (step meaning quads) start := by
  constructor
  · intro unfinished rounds
    have simulated := simulates rounds
    rwa [unfinished rounds] at simulated
  · intro forever rounds
    have simulated := simulates rounds
    cases executed : execution rounds with
    | finished memory ending =>
      obtain ⟨bound, notLonger⟩ :=
        ((finished_iff_halts simulates memory ending).mp ⟨rounds, executed⟩).exists_not_lasts
      exact absurd (forever bound) notLonger
    | unfinished => rfl
    | stuck =>
      rw [executed] at simulated
      exact simulated.elim

/-- A run that simulates an execution for every bound on its rounds halts or runs forever;
it is never stuck. -/
theorem halts_or_runsForever {start : State} {execution : Nat → Execution}
    (simulates : ∀ rounds, Simulates meaning quads rounds start quads.length (execution rounds)) :
    (∃ memory ending, Halts meaning quads start memory ending) ∨
      Machine.RunsForever (step meaning quads) start := by
  by_cases finishes : ∃ rounds memory ending, execution rounds = .finished memory ending
  · obtain ⟨rounds, memory, ending, finished⟩ := finishes
    exact .inl ⟨memory, ending, (finished_iff_halts simulates memory ending).mp ⟨rounds, finished⟩⟩
  · refine .inr ((unfinished_iff_runsForever simulates).mp ?_)
    intro rounds
    have simulated := simulates rounds
    cases executed : execution rounds with
    | finished memory ending => exact absurd ⟨rounds, memory, ending, executed⟩ finishes
    | unfinished => rfl
    | stuck =>
      rw [executed] at simulated
      exact simulated.elim

end Statements

end QuadMachine

/-- The quadruples of a program that parses and resolves do what its tree says, for any reading of
the operators, any memory and any number of rounds. -/
theorem Parsed.simulates {tokens : List Token} {parsed : Parsed} {lowered : Lowered}
    (accepted : Parsed.ofTokens tokens = .ok parsed)
    (resolved : parsed.root.resolve.fault = none)
    (isLowered : Lowered.ofTree parsed.root.resolve.tree = .ok lowered)
    (meaning : Interpretation) (memory : Memory) (temporaries : String → Int) (rounds : Nat) :
    QuadMachine.Simulates meaning lowered.program.quads rounds ⟨0, memory, temporaries⟩
      lowered.program.quads.length
      (parsed.root.resolve.tree.execute meaning rounds memory) := by
  obtain ⟨labels, rule⟩ := Parsed.lowers accepted resolved isLowered
  obtain ⟨-, numbers, labelled, distinctNumbers, -⟩ := rule.labels
  have distinct : (labelNames lowered.program.quads).Nodup := by
    rw [labelled]
    exact distinctNumbers.map Operand.label_name_injective
  have followed := QuadMachine.follows_of_lowers meaning distinct rule rounds 0
    (CodeAt.whole _) memory temporaries
  rwa [Nat.zero_add] at followed

/-- A program that parses and resolves is lowered to quadruples that mean what its tree
means, for every reading of the arithmetic operators and every memory to start with: the
tree finishes with a memory and an ending exactly if the quadruples halt with them, and
it diverges exactly if they run forever. -/
theorem lowering_preserves_meaning (meaning : Interpretation) (tokens : List Token)
    (parsed : Parsed) (accepted : Parsed.ofTokens tokens = .ok parsed)
    (resolved : parsed.root.resolve.fault = none) :
    ∃ lowered, Lowered.ofTree parsed.root.resolve.tree = .ok lowered ∧
      ∀ memory temporaries,
        (∀ after ending,
          (∃ rounds, parsed.root.resolve.tree.execute meaning rounds memory =
            .finished after ending) ↔
          QuadMachine.Halts meaning lowered.program.quads ⟨0, memory, temporaries⟩ after ending) ∧
        ((∀ rounds, parsed.root.resolve.tree.execute meaning rounds memory = .unfinished) ↔
          Machine.RunsForever (QuadMachine.step meaning lowered.program.quads)
            ⟨0, memory, temporaries⟩) := by
  obtain ⟨lowered, isLowered⟩ := Parsed.isLowered accepted resolved
  refine ⟨lowered, isLowered, ?_⟩
  intro memory temporaries
  have simulates := Parsed.simulates accepted resolved isLowered meaning memory temporaries
  exact ⟨QuadMachine.finished_iff_halts simulates,
    QuadMachine.unfinished_iff_runsForever simulates⟩

/-- A program with a loop in a clause in a loop, which leaves both by a return. -/
def nestedLoops : String :=
  "int main() \x7b int x = 3; while (x > 0) \x7b if (x == 2) \x7b " ++
    "do \x7b x += 40; \x7d while (x < 42); return x; \x7d else \x7b x = x - 1; \x7d \x7d \x7d"

/-- The program above ends with the value 42, by its tree and so by its quadruples. Its return
stands in a clause in a loop, behind a loop of its own. -/
theorem lowering_preserves_meaning_nestedLoops :
    ∃ parsed, Parsed.ofTokens (Lexed.ofText nestedLoops).tokens = .ok parsed ∧
      parsed.root.resolve.fault = none ∧
      ∃ lowered, Lowered.ofTree parsed.root.resolve.tree = .ok lowered ∧
        ∀ temporaries, ∃ after, QuadMachine.Halts .integers lowered.program.quads
          ⟨0, fun _ => 0, temporaries⟩ after (.returned 42) := by
  have evaluated : (Parsed.ofTokens (Lexed.ofText nestedLoops).tokens).toOption.any (fun parsed =>
      parsed.root.resolve.fault.isNone &&
      (parsed.root.resolve.tree.execute .integers 3 (fun _ => 0)).ending? ==
        some (.returned 42)) = true := by
    decide +kernel
  obtain ⟨parsed, accepted, checked⟩ := exists_ok_of_any evaluated
  obtain ⟨resolved, ended⟩ := (Bool.and_eq_true _ _).mp checked
  rw [Option.isNone_iff_eq_none] at resolved
  obtain ⟨lowered, isLowered, agrees⟩ :=
    lowering_preserves_meaning .integers _ parsed accepted resolved
  refine ⟨parsed, accepted, resolved, lowered, isLowered, ?_⟩
  intro temporaries
  cases executed : parsed.root.resolve.tree.execute .integers 3 (fun _ => 0) with
  | finished after ending =>
    rw [executed, Execution.ending?, beq_iff_eq, Option.some_inj] at ended
    rw [ended] at executed
    exact ⟨after, ((agrees (fun _ => 0) temporaries).1 after _).mp ⟨3, executed⟩⟩
  | unfinished => simp [executed, Execution.ending?] at ended
  | stuck => simp [executed, Execution.ending?] at ended

end IntMain
