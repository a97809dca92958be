import IntMain.Proofs.AssemblyMeaning
import IntMain.Proofs.EmittedLines
import Mathlib.Data.List.Perm.Basic
import Mathlib.Data.List.Range

/-!
# Labels and the jumps to them

Lowering hands out labels by a counter and writes jumps to some of them before it places
them. Here it is proved, for every program that parses and resolves, that every label handed
out is placed exactly once and that every jump leads to one of them, in the direction that
its statement asks for. `Node.turns` lists the jumps that a tree asks for, in the order of the
code; the jumps among the quadruples are exactly these.

In assembly two more labels stand around the code. The text of a label occurs once, so every
jump in the text has one line to go to. The lines are those of the program, and for a program
that comes from a text `listings_show_lines` says that its listing has the same ones.
-/

namespace IntMain

namespace Quad

/-- Whether an instruction is a label. -/
def isLabel (quad : Quad) : Bool := quad.kind? == some .label

/-- Whether an instruction is a jump, on a condition or not. -/
def isJump (quad : Quad) : Bool :=
  quad.kind? == some .conditionalJump || quad.kind? == some .unconditionalJump

/-- Whether an instruction is neither a label nor a jump. -/
def isPlain (quad : Quad) : Bool := !quad.isLabel && !quad.isJump

/-- An instruction is plain if it is neither a label nor a jump. The two conditions are used apart
from each other. -/
theorem isPlain_iff (quad : Quad) :
    quad.isPlain = true ↔ quad.isLabel = false ∧ quad.isJump = false := by
  simp only [isPlain, Bool.and_eq_true, Bool.not_eq_true']

/-- A binary operation is neither a label nor a jump, whatever its operator and its operands are. -/
theorem isPlain_binary (op : BinaryOp) (left right target : Operand) :
    (Quad.binary op left right target).isPlain = true := by
  cases op <;> rfl

end Quad

/-- The code of an expression has neither labels nor jumps, not even that of a comparison. So only
statements have to be looked at. -/
theorem Computes.plain {live : Nat} {node : Node} {target value : Operand} {code : List Quad}
    (computed : Computes live node target code value) : ∀ quad ∈ code, quad.isPlain = true := by
  induction computed with
  | integer => exact List.forall_mem_nil _
  | identifier addressed => exact List.forall_mem_nil _
  | unary inner inductionHypothesis =>
    rw [List.forall_mem_append, List.forall_mem_singleton]
    exact ⟨inductionHypothesis, rfl⟩
  | binary first second firstPlain secondPlain =>
    rw [List.forall_mem_append, List.forall_mem_append, List.forall_mem_singleton]
    exact ⟨⟨firstPlain, secondPlain⟩, Quad.isPlain_binary ..⟩

/-- The code of an expression has no jumps. A condition is computed before the jump that depends on
it. -/
theorem Computes.straight {live : Nat} {node : Node} {target value : Operand} {code : List Quad}
    (computed : Computes live node target code value) : ∀ quad ∈ code, quad.isJump = false :=
  fun quad member => (quad.isPlain_iff.mp (computed.plain quad member)).2

/-- The code of an assignment has neither labels nor jumps, whether its value is computed into the
target or copied there. -/
theorem Stores.plain {target : Operand} {op : AssignOp} {value : Node} {code : List Quad}
    (stored : Stores target op value code) : ∀ quad ∈ code, quad.isPlain = true := by
  cases stored with
  | copied plain simple => exact List.forall_mem_singleton.mpr rfl
  | computed plain direct nonempty => exact direct.plain
  | combined combining operand =>
    rw [List.forall_mem_append, List.forall_mem_singleton]
    exact ⟨operand.plain, Quad.isPlain_binary ..⟩

/-!
## Every label once
-/

/-- The labels in the code are those from one count of labels to another, each once. Nothing is said
about their order: a loop hands out both of its labels before the labels of its body. -/
def Defines (labels : Nat) (code : List Quad) (after : Nat) : Prop :=
  labels ≤ after ∧ (code.filter Quad.isLabel).Perm
    ((List.range' (labels + 1) (after - labels)).map (fun number => .label (.label number)))

namespace Defines

variable {labels between after : Nat} {first second : List Quad}

/-- Code without labels leaves the count of labels as it is. -/
theorem none {code : List Quad} (unlabelled : ∀ quad ∈ code, quad.isLabel = false) :
    Defines labels code labels := by
  constructor
  · exact Nat.le_refl _
  · rw [List.filter_eq_nil_iff.mpr (fun quad member => by simp [unlabelled quad member]),
      Nat.sub_self]
    exact .refl _

/-- Code without labels and jumps leaves the count of labels as it is. -/
theorem plain {code : List Quad} (plain : ∀ quad ∈ code, quad.isPlain = true) :
    Defines labels code labels :=
  none (fun quad member => (quad.isPlain_iff.mp (plain quad member)).1)

/-- The next label is the one with the number behind the count. -/
theorem label : Defines labels [.label (.label (labels + 1))] (labels + 1) := by
  constructor
  · exact Nat.le_succ _
  · rw [Nat.add_sub_cancel_left]
    exact .refl _

/-- Code in a row has the labels of both parts, if the second part goes on where the count of the
first one ends. -/
theorem append (firstDefines : Defines labels first between)
    (secondDefines : Defines between second after) : Defines labels (first ++ second) after := by
  obtain ⟨firstMore, firstLabels⟩ := firstDefines
  obtain ⟨secondMore, secondLabels⟩ := secondDefines
  constructor
  · exact firstMore.trans secondMore
  · have range : List.range' (labels + 1) (after - labels) =
        List.range' (labels + 1) (between - labels) ++
          List.range' (between + 1) (after - between) := by
      have count : after - labels = (between - labels) + (after - between) := by omega
      have start : between + 1 = labels + 1 + (between - labels) := by omega
      rw [count, start, List.range'_append_1]
    rw [List.filter_append, range, List.map_append]
    exact firstLabels.append secondLabels

/-- The order of the code does not matter, so labels that are handed out early may stand behind code
whose labels are handed out later. -/
theorem swap (defines : Defines labels (first ++ second) after) :
    Defines labels (second ++ first) after := by
  constructor
  · exact defines.1
  · exact (List.perm_append_comm.filter _).trans defines.2

end Defines

/-- The code of a task has the labels that are handed out for it, each once. There is one case for
each rule of lowering, and no case looks at the code of an expression. -/
theorem Lowers.defines {task : Task} {labels after : Nat} {code : List Quad}
    (lowers : Lowers task labels code after) : Defines labels code after := by
  induction lowers with
  | compound inner inductionHypothesis => exact inductionHypothesis
  | block inner inductionHypothesis => exact inductionHypothesis
  | empty => exact .none (List.forall_mem_nil _)
  | declaration => exact .none (List.forall_mem_nil _)
  | initialization addressed stored => exact .plain stored.plain
  | assignment addressed stored => exact .plain stored.plain
  | returned computed =>
    exact (Defines.plain computed.plain).append (.none (List.forall_mem_singleton.mpr rfl))
  | chain inner clauses => exact (Defines.label.append clauses).swap
  | chainElse inner otherwise clauses body =>
    exact (Defines.label.append (clauses.append body)).swap
  | @whileLoop mark condition body labels after test bodyCode value tested repeated bodyDefines =>
    -- The label behind the loop is handed out before those of the body.
    have closing : Defines (labels + 1)
        ([.jump (.label (labels + 1))] ++ [.label (.label (labels + 2))]) (labels + 2) :=
      (Defines.none (List.forall_mem_singleton.mpr rfl)).append .label
    have leaving : Defines (labels + 1) [.jumpIfFalse value (.label (labels + 2))] (labels + 1) :=
      .none (List.forall_mem_singleton.mpr rfl)
    have inside := (Defines.plain tested.plain).append
      (leaving.append (closing.append bodyDefines).swap)
    simpa only [List.append_assoc, List.cons_append, List.nil_append] using
      Defines.label.append inside
  | @doWhile mark condition body labels after test bodyCode value repeated tested bodyDefines =>
    have closing : Defines after (test ++ [.jumpIfTrue value (.label (labels + 1))]) after :=
      (Defines.plain tested.plain).append (.none (List.forall_mem_singleton.mpr rfl))
    simpa only [List.append_assoc, List.cons_append, List.nil_append] using
      Defines.label.append (bodyDefines.append closing)
  | nil => exact .none (List.forall_mem_nil _)
  | cons first second firstDefines secondDefines => exact firstDefines.append secondDefines
  | noClause => exact .none (List.forall_mem_nil _)
  | @clause mark tag condition body later done labels between after test bodyCode rest value tested
      guarded following bodyDefines laterDefines =>
    have skipping : Defines labels [.jumpIfFalse value (.label (labels + 1))] labels :=
      .none (List.forall_mem_singleton.mpr rfl)
    have closing : Defines labels ([.jump done] ++ [.label (.label (labels + 1))]) (labels + 1) :=
      (Defines.none (List.forall_mem_singleton.mpr rfl)).append .label
    have guarding := ((Defines.plain tested.plain).append skipping).append
      (closing.append bodyDefines).swap
    simpa only [List.append_assoc, List.cons_append, List.nil_append] using
      guarding.append laterDefines

/-!
## The jumps of a tree
-/

/-- A jump that a statement asks for. -/
inductive Turn
  /-- Over the body of a clause whose condition does not hold. -/
  | skip
  /-- From the end of a clause's body to the end of the if statement. -/
  | finish
  /-- Out of a while loop whose condition does not hold. -/
  | leave
  /-- Back to the condition of a while loop. -/
  | again
  /-- Back to the body of a do-while loop whose condition holds. -/
  | retry
  deriving DecidableEq, Repr

namespace Turn

/-- The command of a jump. -/
def command : Turn → Command
  | .skip => ⟨Command.ifFalseText, .conditionalJump⟩
  | .finish => ⟨"goto", .unconditionalJump⟩
  | .leave => ⟨Command.ifFalseText, .conditionalJump⟩
  | .again => ⟨"goto", .unconditionalJump⟩
  | .retry => ⟨Command.ifTrueText, .conditionalJump⟩

/-- Whether a jump goes from one index to another in its direction: loops close by going
back, all else goes forward. -/
def Goes (source target : Nat) : Turn → Prop
  | .skip => source < target
  | .finish => source < target
  | .leave => source < target
  | .again => target < source
  | .retry => target < source

/-- The instruction at an index is a jump of this kind, and its label stands in the direction
of the jump. -/
def At (program : List Quad) (turn : Turn) (index : Nat) : Prop :=
  ∃ quad label target, program[index]? = some quad ∧ quad.command = some turn.command ∧
    quad.target = some label ∧ program[target]? = some (.label label) ∧ turn.Goes index target

end Turn

namespace Node

mutual

/-- The jumps that a tree asks for, in the order of their code. -/
def turns : Node → List Turn
  | .clause _ _ _ body => [.skip] ++ body.turns ++ [.finish]
  | .chain _ clauses none => turnsAll clauses
  | .chain _ clauses (some body) => turnsAll clauses ++ body.turns
  | .whileLoop _ _ body => [.leave] ++ body.turns ++ [.again]
  | .doWhile _ body _ => body.turns ++ [.retry]
  | .compound _ statements => turnsAll statements
  | .block _ statements => turnsAll statements
  | _ => []

/-- The jumps that several trees ask for. -/
def turnsAll : List Node → List Turn
  | [] => []
  | node :: later => node.turns ++ turnsAll later

end

end Node

/-- The jumps that a task asks for. -/
def Task.turns : Task → List Turn
  | .statement node => node.turns
  | .statements nodes => Node.turnsAll nodes
  | .clauses nodes _ => Node.turnsAll nodes

/-- The label for which clauses leave stands at or behind an index. -/
def Task.EndsBy (program : List Quad) (index : Nat) : Task → Prop
  | .clauses _ done => ∃ target, index ≤ target ∧ program[target]? = some (.label done)
  | _ => True

/-- The indexes of the jumps in code that stands at a position. -/
def jumpIndexes (position : Nat) : List Quad → List Nat
  | [] => []
  | quad :: later =>
    (if quad.isJump then [position] else []) ++ jumpIndexes (position + 1) later

/-- The jumps of code in a row are those of both parts. The second part stands behind the first one,
so its indexes begin there. -/
theorem jumpIndexes_append (position : Nat) (first second : List Quad) :
    jumpIndexes position (first ++ second) =
      jumpIndexes position first ++ jumpIndexes (position + first.length) second := by
  induction first generalizing position with
  | nil => rfl
  | cons quad later inductionHypothesis =>
    rw [List.cons_append, jumpIndexes, jumpIndexes, inductionHypothesis, List.append_assoc,
      List.length_cons, Nat.add_assoc, Nat.add_comm 1]

/-- The jumps among the code at a position are these, and each leads where it should. The jumps and
the turns are matched in order, so no jump is left over. -/
def Turned (program : List Quad) (turns : List Turn) (position : Nat) (code : List Quad) : Prop :=
  List.Forall₂ (Turn.At program) turns (jumpIndexes position code)

namespace Turned

variable {program first second : List Quad} {turns firstTurns secondTurns : List Turn}
  {position : Nat} {quad : Quad}

/-- Code without jumps asks for no turns, wherever it stands. -/
theorem none {code : List Quad} (straight : ∀ quad ∈ code, quad.isJump = false) :
    Turned program [] position code := by
  induction code generalizing position with
  | nil => exact .nil
  | cons quad later inductionHypothesis =>
    obtain ⟨noJump, laterStraight⟩ := List.forall_mem_cons.mp straight
    rw [Turned, jumpIndexes, noJump]
    exact inductionHypothesis laterStraight

/-- Code without labels and jumps asks for no turns, wherever it stands. -/
theorem plain {code : List Quad} (plain : ∀ quad ∈ code, quad.isPlain = true) :
    Turned program [] position code :=
  none (fun quad member => (quad.isPlain_iff.mp (plain quad member)).2)

/-- Code in a row takes the turns of both parts in order. The second part stands where the first one
ends. -/
theorem append (firstTurned : Turned program firstTurns position first)
    (secondTurned : Turned program secondTurns (position + first.length) second) :
    Turned program (firstTurns ++ secondTurns) position (first ++ second) := by
  rw [Turned, jumpIndexes_append]
  exact List.rel_append firstTurned secondTurned

/-- Code without jumps may follow, such as the label at the end of a loop. -/
theorem ahead (firstTurned : Turned program turns position first)
    (straight : ∀ quad ∈ second, quad.isJump = false) :
    Turned program turns position (first ++ second) := by
  rw [← List.append_nil turns]
  exact firstTurned.append (none straight)

/-- A jump at the front of some code takes its turn, if the label of its target stands where this
kind of jump goes to. The code must be a part of the program, because the turn speaks of its
indexes. -/
theorem jump (turn : Turn) {later : List Quad} {label : Operand} {target : Nat}
    (codeAt : CodeAt program position (quad :: later))
    (commanded : quad.command = some turn.command) (labelled : quad.target = some label)
    (placed : program[target]? = some (.label label)) (goes : turn.Goes position target) :
    Turned program [turn] position [quad] := by
  have isJump : quad.isJump = true := by
    rw [Quad.isJump, Quad.kind?, commanded]
    cases turn <;> rfl
  rw [Turned, jumpIndexes, isJump]
  exact .cons ⟨quad, label, target, codeAt.fetch, commanded, labelled, placed, goes⟩ .nil

end Turned

/-- The jumps in the code of a task are those that it asks for, and each leads where it should.
Clauses leave for a label that stands behind them, which is why it has to be in the program. -/
theorem Lowers.turned {task : Task} {labels after : Nat} {code : List Quad}
    (lowers : Lowers task labels code after) {program : List Quad} {position : Nat}
    (placed : CodeAt program position code)
    (ends : task.EndsBy program (position + code.length)) :
    Turned program task.turns position code := by
  induction lowers generalizing position with
  | compound inner statements => exact statements placed trivial
  | block inner statements => exact statements placed trivial
  | empty => exact .none (List.forall_mem_nil _)
  | declaration => exact .none (List.forall_mem_nil _)
  | initialization addressed stored => exact .plain stored.plain
  | assignment addressed stored => exact .plain stored.plain
  | returned computed =>
    exact (Turned.plain computed.plain).ahead (List.forall_mem_singleton.mpr rfl)
  | chain inner clausesTurned =>
    obtain ⟨clausesPlaced, labelPlaced⟩ := placed.split
    have turned := clausesTurned clausesPlaced ⟨_, Nat.le_refl _, labelPlaced.fetch⟩
    exact turned.ahead (List.forall_mem_singleton.mpr rfl)
  | @chainElse mark clauses body labels between after code bodyCode inner otherwise clausesTurned
      bodyTurned =>
    obtain ⟨innerPlaced, labelPlaced⟩ := placed.split
    obtain ⟨clausesPlaced, bodyPlaced⟩ := innerPlaced.split
    have behind : position + code.length ≤ position + (code ++ bodyCode).length := by
      rw [List.length_append]
      omega
    have turned := (clausesTurned clausesPlaced ⟨_, behind, labelPlaced.fetch⟩).append
      (bodyTurned bodyPlaced trivial)
    exact turned.ahead (List.forall_mem_singleton.mpr rfl)
  | @whileLoop mark condition body labels after test bodyCode value tested repeated bodyTurned =>
    obtain ⟨loopPlaced, closingPlaced⟩ := placed.split
    obtain ⟨frontPlaced, bodyPlaced⟩ := loopPlaced.split
    obtain ⟨testPlaced, leavePlaced⟩ := frontPlaced.split
    have testing : Turned program [] position (.label (.label (labels + 1)) :: test) :=
      .none (List.forall_mem_cons.mpr ⟨rfl, tested.straight⟩)
    have leaving := Turned.jump .leave leavePlaced rfl rfl closingPlaced.tail.fetch (by
      simp only [Turn.Goes, List.length_append]
      omega)
    have closing := Turned.jump .again closingPlaced rfl rfl testPlaced.fetch (by
      simp only [Turn.Goes, List.length_append, List.length_cons]
      omega)
    have looping := (testing.append leaving).append (bodyTurned bodyPlaced trivial)
    exact looping.append (closing.ahead (List.forall_mem_singleton.mpr rfl))
  | @doWhile mark condition body labels after test bodyCode value repeated tested bodyTurned =>
    obtain ⟨loopPlaced, retryPlaced⟩ := placed.split
    obtain ⟨innerPlaced, testPlaced⟩ := loopPlaced.split
    have starting : Turned program [] position [.label (.label (labels + 1))] :=
      .none (List.forall_mem_singleton.mpr rfl)
    have retrying := Turned.jump .retry retryPlaced rfl rfl innerPlaced.fetch (by
      simp only [Turn.Goes, List.length_append, List.length_cons]
      omega)
    have looping := starting.append (bodyTurned innerPlaced.tail trivial)
    exact (looping.ahead tested.straight).append retrying
  | nil => exact .none (List.forall_mem_nil _)
  | cons first second firstTurned secondTurned =>
    obtain ⟨firstPlaced, secondPlaced⟩ := placed.split
    exact (firstTurned firstPlaced trivial).append (secondTurned secondPlaced trivial)
  | noClause => exact .none (List.forall_mem_nil _)
  | @clause mark tag condition body later done labels between after test bodyCode rest value tested
      guarded following bodyTurned laterTurned =>
    obtain ⟨target, behind, donePlaced⟩ := ends
    rw [List.length_append, ← Nat.add_assoc] at behind
    obtain ⟨clausePlaced, laterPlaced⟩ := placed.split
    obtain ⟨innerPlaced, closingPlaced⟩ := clausePlaced.split
    obtain ⟨frontPlaced, bodyPlaced⟩ := innerPlaced.split
    obtain ⟨testPlaced, skipPlaced⟩ := frontPlaced.split
    have skipping := Turned.jump .skip skipPlaced rfl rfl closingPlaced.tail.fetch (by
      simp only [Turn.Goes, List.length_append]
      omega)
    have finishing := Turned.jump .finish closingPlaced rfl rfl donePlaced (by
      simp only [Turn.Goes, List.length_append, List.length_cons] at behind ⊢
      omega)
    have closing : Turned program [.finish] _
        ([.jump done] ++ [.label (.label (labels + 1))]) :=
      finishing.ahead (List.forall_mem_singleton.mpr rfl)
    have guarding := ((Turned.plain tested.plain).append skipping).append
      (bodyTurned bodyPlaced trivial)
    exact (guarding.append closing).append
      (laterTurned laterPlaced ⟨target, behind, donePlaced⟩)

/-- Every jump of code is listed by its index, counted from the position of the code. -/
theorem mem_jumpIndexes {position index : Nat} {code : List Quad} {quad : Quad}
    (fetched : code[index]? = some quad) (isJump : quad.isJump = true) :
    position + index ∈ jumpIndexes position code := by
  induction code generalizing position index with
  | nil => cases fetched
  | cons first later inductionHypothesis =>
    rw [jumpIndexes, List.mem_append]
    cases index with
    | zero =>
      obtain rfl : first = quad := Option.some.inj fetched
      rw [isJump]
      exact .inl List.mem_cons_self
    | succ index =>
      have listed : position + 1 + index ∈ jumpIndexes (position + 1) later :=
        inductionHypothesis fetched
      rw [Nat.add_right_comm] at listed
      exact .inr listed

/-- Every jump that is listed is one of some kind, and leads where this kind goes to. -/
theorem Turned.leads {program code : List Quad} {turns : List Turn} {position : Nat}
    (turned : Turned program turns position code) :
    ∀ index ∈ jumpIndexes position code, ∃ turn, Turn.At program turn index := by
  rw [Turned] at turned
  generalize jumpIndexes position code = indexes at turned ⊢
  induction turned with
  | nil => exact List.forall_mem_nil _
  | cons here later inductionHypothesis =>
    exact List.forall_mem_cons.mpr ⟨⟨_, here⟩, inductionHypothesis⟩

/-- Every jump of a program leads to one of its labels, so no jump leaves the program. Whether the
label stands before or behind the jump is not kept here. -/
theorem Turned.target {program : List Quad} {turns : List Turn}
    (turned : Turned program turns 0 program) {quad : Quad} (member : quad ∈ program)
    (isJump : quad.isJump = true) :
    ∃ label, quad.target = some label ∧ .label label ∈ program := by
  obtain ⟨index, fetched⟩ := List.mem_iff_getElem?.mp member
  have listed : 0 + index ∈ jumpIndexes 0 program := mem_jumpIndexes fetched isJump
  rw [Nat.zero_add] at listed
  obtain ⟨turn, other, label, target, otherFetched, -, labelled, placed, -⟩ :=
    turned.leads index listed
  obtain rfl : other = quad := Option.some.inj (otherFetched.symm.trans fetched)
  exact ⟨label, labelled, List.mem_of_getElem? placed⟩

/-!
## The lines of a program
-/

namespace Line

/-- The name of the label that a line is. -/
def labelName? : Line → Option String
  | .label name => some name
  | _ => none

/-- The label to which a line jumps, on a condition or not. -/
def jumpTarget? : Line → Option String
  | .instruction (.jump target) => some target
  | .instruction (.jumpIf _ target) => some target
  | _ => none

/-- Whether a line is neither a label nor a jump. -/
def isStill (line : Line) : Bool := line.labelName?.isNone && line.jumpTarget?.isNone

end Line

/-- A quadruple that is neither a label nor a return. -/
def Quad.Unmarked (quad : Quad) : Prop := quad.isLabel = false ∧ quad.kind? ≠ some .ret

/-- How the lines of a quadruple end, behind lines that are neither labels nor jumps. -/
inductive Quad.Ends (quad : Quad) : List Line → Prop
  | falls (unmarked : quad.Unmarked) : Ends quad []
  | label {target : Operand} (isLabel : quad = .label target) : Ends quad [.label target.name]
  | jump {target : Operand} (isJump : quad = .jump target) :
      Ends quad [.instruction (.jump target.name)]
  | ret (isReturn : quad.kind? = some .ret) : Ends quad [.instruction (.jump exitLabel)]
  | jumpIf (relation : Relation) (target : String) (unmarked : quad.Unmarked) :
      Ends quad [.instruction (.jumpIf relation target)]

section Shape

variable {quad : Quad} {named : Register} {left right place value : Place} {load lines : List Line}

/-- Loading an operand is neither a label nor a jump. It may take a line or none. -/
theorem Fetches.still (fetches : Fetches named value load) :
    ∀ line ∈ load, line.isStill = true := by
  cases fetches with
  | there => exact List.forall_mem_nil _
  | fetched => exact List.forall_mem_singleton.mpr rfl

/-- Loading two operands is neither a label nor a jump. -/
theorem Loads.still (loads : Loads named left right load place) :
    ∀ line ∈ load, line.isStill = true := by
  cases loads with
  | there => exact List.forall_mem_nil _
  | fetched rightElsewhere => exact List.forall_mem_singleton.mpr rfl
  | exchanged notScratch =>
    exact List.forall_mem_cons.mpr ⟨rfl, List.forall_mem_singleton.mpr rfl⟩

/-- Storing a result is neither a label nor a jump, and may take no line at all. -/
theorem Quad.WorksAt.still {workplace : Workplace} (works : quad.WorksAt named workplace) :
    ∀ line ∈ workplace.storing, line.isStill = true := by
  cases works with
  | temporary notScratch => exact List.forall_mem_nil _
  | stored listed => exact List.forall_mem_singleton.mpr rfl

/-- The note on the accumulator is neither a label nor a jump. It is a comment, or missing. -/
theorem Quad.accumulatorNote_still (op : Arithmetic) (register : Place) :
    ∀ line ∈ accumulatorNote op register, line.isStill = true := by
  intro line noted
  obtain ⟨text, rfl⟩ := accumulatorNote_comments op register line noted
  rfl

/-- A quadruple of another kind is neither a label nor a return. -/
theorem Quad.Unmarked.of_kind {kind : CommandKind} (kinded : quad.kind? = some kind)
    (noLabel : kind ≠ .label) (noReturn : kind ≠ .ret) : quad.Unmarked := by
  constructor
  · simp [Quad.isLabel, kinded, noLabel]
  · simp [kinded, noReturn]

/-- What computes a value is neither a label nor a return, because neither of them has a value. -/
theorem Quad.Unmarked.of_producesValue (produces : quad.producesValue = true) :
    quad.Unmarked := by
  cases kinded : quad.kind? with
  | none =>
    rw [Quad.producesValue, kinded] at produces
    cases produces
  | some kind =>
    rw [Quad.producesValue, kinded] at produces
    apply Quad.Unmarked.of_kind kinded
    · rintro rfl
      cases produces
    · rintro rfl
      cases produces

/-- The lines of a quadruple are neither labels nor jumps, up to the last one. Which last line there
may be depends on the quadruple, and all that follows about labels and jumps is read off it. -/
theorem Emitted.ends (emitted : Emitted quad lines) :
    ∃ still ending, lines = still ++ ending ∧ (∀ line ∈ still, line.isStill = true) ∧
      quad.Ends ending := by
  have ofBranch (isBranch : quad.kind? = some .conditionalJump) : quad.Unmarked :=
    .of_kind isBranch (by decide) (by decide)
  have ofCopy (isCopy : quad.kind? = some .copy) : quad.Unmarked :=
    .of_kind isCopy (by decide) (by decide)
  -- Where control only goes on, all of the lines are still.
  have falling {lines : List Line} (unmarked : quad.Unmarked)
      (still : ∀ line ∈ lines, line.isStill = true) :
      ∃ still ending, lines = still ++ ending ∧ (∀ line ∈ still, line.isStill = true) ∧
        quad.Ends ending :=
    ⟨lines, [], (List.append_nil lines).symm, still, .falls unmarked⟩
  cases emitted with
  | nothing isBranch => exact falling (ofBranch isBranch) (List.forall_mem_nil _)
  | comment text kinds =>
    apply falling (kinds.elim .of_producesValue ofBranch)
    exact List.forall_mem_singleton.mpr rfl
  | label isLabel => exact ⟨[], _, rfl, List.forall_mem_nil _, .label isLabel⟩
  | jump isJump => exact ⟨[], _, rfl, List.forall_mem_nil _, .jump isJump⟩
  | ret isReturn supplied loads => exact ⟨_, _, rfl, loads.still, .ret isReturn⟩
  | copy isCopy listed supplied noSlot =>
    exact falling (ofCopy isCopy) (List.forall_mem_singleton.mpr rfl)
  | copyVariable isCopy listed supplied =>
    apply falling (ofCopy isCopy)
    exact List.forall_mem_cons.mpr ⟨rfl, List.forall_mem_singleton.mpr rfl⟩
  | unary negates produces works supplied loads =>
    apply falling (.of_producesValue produces)
    rw [List.forall_mem_append, List.forall_mem_append]
    refine ⟨⟨loads.still, ?_⟩, works.still⟩
    split
    · exact List.forall_mem_singleton.mpr rfl
    · exact List.forall_mem_nil _
  | arithmetic op produces works leftSupplied rightSupplied loads =>
    apply falling (.of_producesValue produces)
    rw [List.forall_mem_append, List.forall_mem_append, List.forall_mem_append,
      List.forall_mem_singleton]
    exact ⟨⟨⟨loads.still, Quad.accumulatorNote_still op _⟩, rfl⟩, works.still⟩
  | @comparison named workplace left right place load relation label produces works leftSupplied
      rightSupplied loads =>
    refine ⟨load ++ [.instruction (.compare (.register named) place)], _, by simp, ?_,
      .jumpIf relation label (.of_producesValue produces)⟩
    rw [List.forall_mem_append, List.forall_mem_singleton]
    exact ⟨loads.still, rfl⟩
  | @test value relation label isBranch supplied noInteger =>
    exact ⟨[.instruction (.compare value (.immediate "0"))], _, rfl,
      List.forall_mem_singleton.mpr rfl, .jumpIf relation label (ofBranch isBranch)⟩
  | @testInteger value relation label isBranch supplied =>
    exact ⟨[.move scratch value, .instruction (.compare scratch (.immediate "0"))], _, rfl,
      List.forall_mem_cons.mpr ⟨rfl, List.forall_mem_singleton.mpr rfl⟩,
      .jumpIf relation label (ofBranch isBranch)⟩

/-- Lines that are neither labels nor jumps have no names of labels and no targets, so only the
ending of a quadruple counts. -/
theorem filterMap_still (still : ∀ line ∈ lines, line.isStill = true) :
    lines.filterMap Line.labelName? = [] ∧ lines.filterMap Line.jumpTarget? = [] := by
  have neither : ∀ line ∈ lines, line.labelName? = none ∧ line.jumpTarget? = none := by
    intro line member
    have both := still line member
    rw [Line.isStill, Bool.and_eq_true, Option.isNone_iff_eq_none,
      Option.isNone_iff_eq_none] at both
    exact both
  rw [List.filterMap_eq_nil_iff, List.filterMap_eq_nil_iff]
  exact ⟨fun line member => (neither line member).1, fun line member => (neither line member).2⟩

/-- The labels among the lines of a quadruple are its own, if it is one. No other quadruple makes a
label. -/
theorem Emitted.labelNames (emitted : Emitted quad lines) :
    lines.filterMap Line.labelName? = quad.labelName?.toList := by
  obtain ⟨still, ending, rfl, isStill, ends⟩ := emitted.ends
  rw [List.filterMap_append, (filterMap_still isStill).1, List.nil_append]
  have unlabelled (unmarked : quad.Unmarked) : quad.labelName? = none := by
    rw [Quad.labelName?, if_neg]
    intro isLabel
    have noLabel := unmarked.1
    simp [Quad.isLabel, isLabel] at noLabel
  cases ends with
  | falls unmarked =>
    rw [unlabelled unmarked]
    rfl
  | label isLabel =>
    rw [isLabel]
    rfl
  | jump isJump =>
    rw [isJump]
    rfl
  | ret isReturn =>
    rw [Quad.labelName?, isReturn]
    rfl
  | jumpIf relation target unmarked =>
    rw [unlabelled unmarked]
    rfl

/-- A return jumps behind the program's code and nowhere else, also if it stands at the very end. -/
theorem Emitted.jumpTargets_of_return (emitted : Emitted quad lines)
    (isReturn : quad.kind? = some .ret) : lines.filterMap Line.jumpTarget? = [exitLabel] := by
  obtain ⟨still, ending, rfl, isStill, ends⟩ := emitted.ends
  rw [List.filterMap_append, (filterMap_still isStill).2, List.nil_append]
  cases ends with
  | falls unmarked => exact absurd isReturn unmarked.2
  | label isLabel =>
    rw [isLabel] at isReturn
    cases isReturn
  | jump isJump =>
    rw [isJump] at isReturn
    cases isReturn
  | ret isReturn => rfl
  | jumpIf relation target unmarked => exact absurd isReturn unmarked.2

/-- A line that jumps leads behind the program's code, to the label of its own quadruple, or is
a conditional jump. -/
theorem Emitted.jump_cases (emitted : Emitted quad lines) {line : Line} {name : String}
    (member : line ∈ lines) (jumps : line.jumpTarget? = some name) :
    name = exitLabel ∨ (∃ target, quad = .jump target ∧ target.name = name) ∨
      ∃ relation, (relation, name) ∈ conditionalJumps lines := by
  obtain ⟨still, ending, rfl, isStill, ends⟩ := emitted.ends
  rcases List.mem_append.mp member with inStill | inEnding
  · have noTarget := isStill line inStill
    simp [Line.isStill, jumps] at noTarget
  · cases ends with
    | falls unmarked => cases inEnding
    | label isLabel =>
      rw [List.mem_singleton.mp inEnding] at jumps
      cases jumps
    | jump isJump =>
      rw [List.mem_singleton.mp inEnding] at jumps
      exact .inr (.inl ⟨_, isJump, Option.some.inj jumps⟩)
    | ret isReturn =>
      rw [List.mem_singleton.mp inEnding] at jumps
      exact .inl (Option.some.inj jumps).symm
    | jumpIf relation target unmarked =>
      rw [List.mem_singleton.mp inEnding] at jumps
      obtain rfl : target = name := Option.some.inj jumps
      refine .inr (.inr ⟨relation, ?_⟩)
      rw [conditionalJumps_append]
      exact List.mem_append_right _ List.mem_cons_self

end Shape

/-!
## The text of labels
-/

/-- A label stands at the left and everything else is indented, so no other line is written
like a label whose name does not begin with a space. -/
theorem Line.text_eq_label_iff {name : String} (flush : name.toList.head? ≠ some ' ')
    (line : Line) : line.text = (Line.label name).text ↔ line = .label name := by
  have indented (rest : List Char) (text : String) (spaced : text.toList = ' ' :: rest) :
      text ≠ (Line.label name).text := by
    rintro rfl
    have texts : name.toList ++ ":".toList = ' ' :: rest := by
      rw [← String.toList_append]
      exact spaced
    cases letters : name.toList with
    | nil =>
      rw [letters] at texts
      cases texts
    | cons first later =>
      rw [letters] at texts flush
      exact flush (congrArg some (List.cons.inj texts).1)
  cases line with
  | label other =>
    simp only [Line.text, Line.label.injEq]
    constructor
    · intro same
      have letters := congrArg String.toList same
      rw [String.toList_append, String.toList_append, List.append_cancel_right_eq] at letters
      exact String.toList_inj.mp letters
    · rintro rfl
      rfl
  | instruction executed =>
    constructor
    · intro same
      exact absurd same (indented _ _ (String.toList_append ..))
    · rintro ⟨⟩
  | comment text =>
    constructor
    · intro same
      exact absurd same (indented _ _ (String.toList_append ..))
    · rintro ⟨⟩

/-- A label occurs in the text as often as among the lines. The premise keeps the name apart from
the indented lines, whose text begins with a space. -/
theorem count_label_text {name : String} (flush : name.toList.head? ≠ some ' ')
    (lines : List Line) :
    (lines.map Line.text).count (Line.label name).text =
      (lines.filterMap Line.labelName?).count name := by
  induction lines with
  | nil => rfl
  | cons line later inductionHypothesis =>
    rw [List.map_cons, List.count_cons, inductionHypothesis]
    simp only [beq_iff_eq, Line.text_eq_label_iff flush]
    cases line with
    | label other => simp [Line.labelName?, List.count_cons]
    | instruction executed => simp [List.filterMap_cons, Line.labelName?]
    | comment text => simp [List.filterMap_cons, Line.labelName?]

/-- The lines that set up the frame and give it up have one label each, and no jumps. The size of
the frame does not matter for this. -/
theorem frameLines_labels (frameSize : Nat) :
    (prologue frameSize).filterMap Line.labelName? = ["main"] ∧
      epilogue.filterMap Line.labelName? = [exitLabel] ∧
      ∀ line ∈ prologue frameSize ++ epilogue, line.jumpTarget? = none := by
  rw [prologue]
  split
  · decide
  · refine ⟨rfl, rfl, ?_⟩
    simp [epilogue, Line.jumpTarget?, Line.move]

/-- No numbered label is the label of the program, since it is written with a capital letter. -/
theorem Operand.label_name_ne_main (number : Nat) : (Operand.label number).name ≠ "main" := by
  intro same
  have heads := congrArg (fun name => name.toList.head?) same
  simp [Operand.label, String.toList_append] at heads

/-- The labels of quadruples by their names, each once. As before, their order is left open. -/
theorem Defines.names_perm {code : List Quad} {labels after : Nat}
    (defines : Defines labels code after) :
    (labelNames code).Perm ((List.range' (labels + 1) (after - labels)).map
      (fun number => (Operand.label number).name)) := by
  have onLabels : labelNames code =
      (code.filter Quad.isLabel).filterMap Quad.labelName? := by
    rw [labelNames, List.filterMap_filter]
    congr 1
    funext quad
    by_cases isLabel : quad.kind? = some .label <;> simp [Quad.labelName?, Quad.isLabel, isLabel]
  rw [onLabels]
  apply (defines.2.filterMap _).trans
  rw [List.filterMap_map]
  apply List.Perm.of_eq
  exact List.filterMap_eq_map_iff_forall_eq_some.mpr (fun number _ => rfl)

/-!
## Whole programs
-/

/-- Lowering a program that parses and resolves follows the rules, and tells how many labels
it hands out. -/
theorem Parsed.lowersWithLabels {tokens : List Token} {parsed : Parsed}
    (accepted : Parsed.ofTokens tokens = .ok parsed)
    (resolved : parsed.root.resolve.fault = none) :
    ∃ lowered taken, Lowered.ofTree parsed.root.resolve.tree = .ok lowered ∧
      parsed.root.resolve.tree.lowerStatement 0 = .ok (lowered.program.quads, taken) ∧
      Lowers (.statement parsed.root.resolve.tree) 0 lowered.program.quads taken := by
  obtain ⟨code, taken, statementLowered, rule⟩ :=
    (Parsed.stamped accepted resolved).lowersByRule 0
  obtain ⟨lowered, isLowered⟩ := Parsed.isLowered accepted resolved
  have sameQuads : lowered.program.quads = code := by
    rw [Lowered.ofTree_eq, statementLowered] at isLowered
    cases isLowered
    rfl
  rw [← sameQuads] at statementLowered rule
  exact ⟨lowered, taken, isLowered, statementLowered, rule⟩

/-- The labels among the assembled lines: that of the program, those of the quadruples, and
the one behind the code. -/
theorem Parsed.lines_labelNames {quads : List Quad} {steps : List Selection.Step}
    (sameQuads : steps.map Selection.Step.quad = quads)
    (emitted : ∀ step ∈ steps, Emitted step.quad step.lines) (frameSize : Nat) :
    (prologue frameSize ++ steps.flatMap Selection.Step.lines ++ epilogue).filterMap
      Line.labelName? = "main" :: (labelNames quads ++ [exitLabel]) := by
  obtain ⟨setUp, giveUp, -⟩ := frameLines_labels frameSize
  have selected : (steps.flatMap Selection.Step.lines).filterMap Line.labelName? =
      labelNames quads := by
    rw [← sameQuads]
    clear sameQuads
    induction steps with
    | nil => rfl
    | cons step later inductionHypothesis =>
      obtain ⟨first, others⟩ := List.forall_mem_cons.mp emitted
      rw [List.flatMap_cons, List.filterMap_append, first.labelNames, inductionHypothesis others,
        labelNames, labelNames, List.map_cons, List.filterMap_cons]
      cases step.quad.labelName? <;> rfl
  rw [List.filterMap_append, List.filterMap_append, setUp, giveUp, selected]
  rfl

/-- The labels of a program with the two around its code are distinct. The numbered ones differ by
their numbers, and neither of the others looks like one of them. -/
theorem Defines.distinct {quads : List Quad} {taken : Nat} (defines : Defines 0 quads taken) :
    ("main" :: (labelNames quads ++ [exitLabel])).Nodup := by
  have numbered := defines.names_perm
  have named : ∀ name ∈ labelNames quads, name ≠ "main" ∧ name ≠ exitLabel := by
    intro name member
    obtain ⟨number, -, rfl⟩ := List.mem_map.mp (numbered.mem_iff.mp member)
    exact ⟨Operand.label_name_ne_main number, Operand.label_name_ne_exit number⟩
  have once : (labelNames quads).Nodup := by
    rw [numbered.nodup_iff]
    exact List.Nodup.map Operand.label_name_injective (List.nodup_range' ..)
  rw [List.nodup_cons, List.mem_append, List.mem_singleton]
  constructor
  · rintro (inside | same)
    · exact (named "main" inside).1 rfl
    · revert same
      decide
  · rw [List.nodup_append]
    refine ⟨once, List.nodup_singleton _, ?_⟩
    rintro name member other isExit rfl
    exact (named name member).2 (List.mem_singleton.mp isExit)

/-- The conditional jumps among the lines of a program lead to labels of its conditional
jumps. -/
theorem Handled.jump_label {conditions : List Node} {comparisons : List Comparison}
    {steps : List Selection.Step} (handled : Handled conditions comparisons steps)
    {relation : Relation} {name : String}
    (jumps : (relation, name) ∈ conditionalJumps (steps.flatMap Selection.Step.lines)) :
    ∃ step ∈ steps, step.quad.isBranch = true ∧ step.quad.target.map Operand.name = some name := by
  rw [handled.jumps] at jumps
  obtain ⟨⟨condition, branch⟩, paired, isJump⟩ := List.mem_filterMap.mp jumps
  obtain ⟨step, isStep, rfl⟩ := List.mem_map.mp (List.of_mem_zip paired).2
  obtain ⟨member, isBranch⟩ := List.mem_filter.mp isStep
  refine ⟨step, member, isBranch, ?_⟩
  simp only [Quad.jumpOn?] at isJump
  split at isJump
  · rename_i holds fails label decided labelled
    cases isJump
    rw [labelled]
    rfl
  · cases isJump

/-- The label to which a jump of a program leads is among its labels, by its name. The jump may be
one on a condition or not. -/
theorem Turned.mem_labelNames {program : List Quad} {turns : List Turn}
    (turned : Turned program turns 0 program) {quad : Quad} (member : quad ∈ program)
    (isJump : quad.isJump = true) {name : String}
    (named : quad.target.map Operand.name = some name) : name ∈ labelNames program := by
  obtain ⟨label, labelled, placed⟩ := turned.target member isJump
  rw [labelled] at named
  exact List.mem_filterMap.mpr ⟨.label label, placed, named⟩

/-- A label among those of a program, or one of the two around its code, is one line of the
text. -/
theorem Defines.label_once {quads : List Quad} {taken : Nat} (defines : Defines 0 quads taken)
    {lines : List Line}
    (labelsOf : lines.filterMap Line.labelName? = "main" :: (labelNames quads ++ [exitLabel]))
    {name : String} (listed : name ∈ "main" :: (labelNames quads ++ [exitLabel])) :
    (lines.map Line.text).count (Line.label name).text = 1 := by
  have flush : name.toList.head? ≠ some ' ' := by
    rw [List.mem_cons, List.mem_append, List.mem_singleton] at listed
    rcases listed with rfl | numbered | rfl
    · decide
    · obtain ⟨number, -, rfl⟩ := List.mem_map.mp (defines.names_perm.mem_iff.mp numbered)
      simp [Operand.label, String.toList_append]
    · decide
  rw [count_label_text flush, labelsOf]
  exact List.count_eq_one_of_mem defines.distinct listed

/-- The label to which a line of a program jumps is one of its quadruples or the one behind
the code. -/
theorem Turned.jumpTarget_listed {quads : List Quad} {turns : List Turn}
    (turned : Turned quads turns 0 quads) {conditions : List Node} {comparisons : List Comparison}
    {steps : List Selection.Step} (handled : Handled conditions comparisons steps)
    (sameQuads : steps.map Selection.Step.quad = quads)
    (emitted : ∀ step ∈ steps, Emitted step.quad step.lines) {step : Selection.Step} {line : Line}
    {name : String} (isStep : step ∈ steps) (ofStep : line ∈ step.lines)
    (jumps : line.jumpTarget? = some name) : name ∈ labelNames quads ++ [exitLabel] := by
  have isQuad {step : Selection.Step} (isStep : step ∈ steps) : step.quad ∈ quads := by
    rw [← sameQuads]
    exact List.mem_map_of_mem isStep
  rcases (emitted step isStep).jump_cases ofStep jumps with
    rfl | ⟨target, isGoto, named⟩ | ⟨relation, conditional⟩
  · exact List.mem_append_right _ List.mem_cons_self
  · apply List.mem_append_left
    apply turned.mem_labelNames (isQuad isStep)
    · rw [isGoto]
      rfl
    · rw [isGoto]
      exact congrArg some named
  · -- A comparison jumps for a branch further down, so its label is found by the pairing.
    have among : (relation, name) ∈ conditionalJumps (steps.flatMap Selection.Step.lines) := by
      obtain ⟨other, inStep, isJump⟩ := List.mem_filterMap.mp conditional
      exact List.mem_filterMap.mpr ⟨other, List.mem_flatMap.mpr ⟨step, isStep, inStep⟩, isJump⟩
    obtain ⟨branch, isBranchStep, isBranch, named⟩ := handled.jump_label among
    apply List.mem_append_left
    apply turned.mem_labelNames (isQuad isBranchStep) _ named
    rw [Quad.isJump, Bool.or_eq_true]
    exact .inl isBranch

/-- For every program that parses and resolves, the labels among its quadruples are exactly
those that lowering handed out, each once, and every jump leads to one of them. The jumps are
those that the tree asks for, in order: out of a clause or a loop they go forward, and those
that close a loop go back.

When it assembles, every jump in the text has exactly one line with its label, and so have the
beginning and the end of the program. Every return jumps to the end. -/
theorem labels_well_formed (tokens : List Token) (parsed : Parsed)
    (accepted : Parsed.ofTokens tokens = .ok parsed)
    (resolved : parsed.root.resolve.fault = none) :
    ∃ lowered taken, Lowered.ofTree parsed.root.resolve.tree = .ok lowered ∧
      parsed.root.resolve.tree.lowerStatement 0 = .ok (lowered.program.quads, taken) ∧
      (lowered.program.quads.filter Quad.isLabel).Perm
        ((List.range' 1 taken).map (fun number => .label (.label number))) ∧
      (∀ quad ∈ lowered.program.quads, quad.isJump = true →
        ∃ number, 1 ≤ number ∧ number ≤ taken ∧ quad.target = some (.label number)) ∧
      List.Forall₂ (Turn.At lowered.program.quads) parsed.root.resolve.tree.turns
        (jumpIndexes 0 lowered.program.quads) ∧
      ∀ lines, (Assembled.ofProgram lowered.program).result = .ok lines →
        (∀ line ∈ lines, ∀ name, line.jumpTarget? = some name →
          (lines.map Line.text).count (Line.label name).text = 1) ∧
        (lines.map Line.text).count "main:" = 1 ∧
        (lines.map Line.text).count "main_end:" = 1 ∧
        ∃ steps final,
          Selection.Passes (Pairing.ofQuads lowered.program.quads).feeding
            ⟨(Pairing.ofQuads lowered.program.quads).branches, []⟩ 0 lowered.program.quads steps
            final ∧
          steps.map Selection.Step.quad = lowered.program.quads ∧
          lines = prologue lowered.program.frameSize ++ steps.flatMap Selection.Step.lines ++
            epilogue ∧
          ∀ step ∈ steps, step.quad.kind? = some .ret →
            step.lines.filterMap Line.jumpTarget? = ["main_end"] := by
  obtain ⟨lowered, taken, isLowered, handsOut, lowers⟩ :=
    Parsed.lowersWithLabels accepted resolved
  have defines := lowers.defines
  have turned := lowers.turned (.whole _) trivial
  have numbered {label : Operand} (member : .label label ∈ lowered.program.quads) :
      ∃ number, 1 ≤ number ∧ number ≤ taken ∧ label = .label number := by
    have listed := defines.2.mem_iff.mp (List.mem_filter.mpr ⟨member, rfl⟩)
    obtain ⟨number, inRange, same⟩ := List.mem_map.mp listed
    obtain ⟨above, below⟩ := List.mem_range'_1.mp inRange
    cases same
    exact ⟨number, above, by omega, rfl⟩
  refine ⟨lowered, taken, isLowered, handsOut, defines.2, ?_, turned, ?_⟩
  · intro quad member isJump
    obtain ⟨label, labelled, placed⟩ := turned.target member isJump
    obtain ⟨number, above, below, rfl⟩ := numbered placed
    exact ⟨number, above, below, labelled⟩
  · intro lines assembled
    obtain ⟨steps, final, passes, linesOf, sameQuads, emitted⟩ :=
      Parsed.emitted accepted resolved isLowered assembled
    have labelsOf := Parsed.lines_labelNames sameQuads emitted lowered.program.frameSize
    rw [← linesOf] at labelsOf
    obtain ⟨arranged, -⟩ := lowers.outlined
    obtain ⟨handled, -⟩ := arranged.handled (fun _ _ => Iff.rfl) passes
    have around := (frameLines_labels lowered.program.frameSize).2.2
    refine ⟨?_, ?_, ?_, steps, final, passes, sameQuads, linesOf, ?_⟩
    · intro line listed name jumps
      apply defines.label_once labelsOf
      rcases mem_assembled (linesOf ▸ listed) with ofFrame | ⟨step, isStep, ofStep⟩
      · rw [around line ofFrame] at jumps
        cases jumps
      · exact List.mem_cons_of_mem _
          (turned.jumpTarget_listed handled sameQuads emitted isStep ofStep jumps)
    · exact defines.label_once labelsOf List.mem_cons_self
    · exact defines.label_once labelsOf
        (List.mem_cons_of_mem _ (List.mem_append_right _ List.mem_cons_self))
    · intro step isStep isReturn
      exact (emitted step isStep).jumpTargets_of_return isReturn

/-- A program with clauses, both kinds of loops inside of each other, and two returns. -/
def crossingJumps : String :=
  "int main() \x7b int a = 9; while (a > 1) \x7b if (a == 5) \x7b return a; \x7d " ++
  "else if (a < 3) \x7b do \x7b a -= 1; \x7d while (a > 2); \x7d " ++
  "else \x7b a = a - 2; \x7d \x7d return 0; \x7d"

/-- The program above has seven jumps among its quadruples and two returns, and each of the nine
jumps among its lines has one label to go to. -/
theorem labels_well_formed_crossingJumps :
    ∃ parsed lowered lines, Parsed.ofTokens (Lexed.ofText crossingJumps).tokens = .ok parsed ∧
      parsed.root.resolve.fault = none ∧
      Lowered.ofTree parsed.root.resolve.tree = .ok lowered ∧
      (Assembled.ofProgram lowered.program).result = .ok lines ∧
      List.Forall₂ (Turn.At lowered.program.quads)
        [.leave, .skip, .finish, .skip, .retry, .finish, .again] [3, 5, 7, 10, 14, 15, 19] ∧
      lines.filterMap Line.jumpTarget? =
        ["L2", "L4", "main_end", "L3", "L5", "L6", "L3", "L1", "main_end"] ∧
      ∀ line ∈ lines, ∀ name, line.jumpTarget? = some name →
        (lines.map Line.text).count (Line.label name).text = 1 := by
  have evaluated : (Parsed.ofTokens (Lexed.ofText crossingJumps).tokens).toOption.any
      (fun parsed => parsed.root.resolve.fault.isNone &&
        (Lowered.ofTree parsed.root.resolve.tree).toOption.any (fun lowered =>
          (Assembled.ofProgram lowered.program).result.toOption.any (fun lines =>
            parsed.root.resolve.tree.turns ==
              [.leave, .skip, .finish, .skip, .retry, .finish, .again] &&
            jumpIndexes 0 lowered.program.quads == [3, 5, 7, 10, 14, 15, 19] &&
            lines.filterMap Line.jumpTarget? ==
              ["L2", "L4", "main_end", "L3", "L5", "L6", "L3", "L1", "main_end"]))) = true := by
    decide +kernel
  obtain ⟨parsed, accepted, checked⟩ := exists_ok_of_any evaluated
  obtain ⟨resolved, checked⟩ := (Bool.and_eq_true _ _).mp checked
  rw [Option.isNone_iff_eq_none] at resolved
  obtain ⟨other, otherLowered, checked⟩ := exists_ok_of_any checked
  obtain ⟨lines, assembled, checked⟩ := exists_ok_of_any checked
  rw [Bool.and_eq_true, Bool.and_eq_true, beq_iff_eq, beq_iff_eq, beq_iff_eq] at checked
  obtain ⟨⟨asked, indexes⟩, targets⟩ := checked
  obtain ⟨lowered, taken, isLowered, -, -, -, turned, texts⟩ :=
    labels_well_formed _ parsed accepted resolved
  obtain rfl : other = lowered := Except.ok.inj (otherLowered.symm.trans isLowered)
  rw [asked, indexes] at turned
  exact ⟨parsed, other, lines, accepted, resolved, isLowered, assembled, turned, targets,
    (texts lines assembled).1⟩

end IntMain
