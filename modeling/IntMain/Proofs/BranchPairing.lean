import IntMain.Proofs.ConditionOrder
import IntMain.Proofs.SelectionRules
import IntMain.Token.Lexer

/-!
# Branches and their comparisons

Before lines are selected, the branches that test a comparison are put into a queue, and
selection hands them out: a comparison that is known to feed a branch takes the first one.
What keeps the queue in step is not checked anywhere. Here it is proved, for every program
that parses and resolves: each condition gets the jump that belongs to it, with the label
of its own branch, and the queue is empty in the end.

The argument goes along the blocks of `Arranged`. A block that is no test of a comparison
takes nothing from the queue. For a block that is one, pairing put its branch in front of
those of the later blocks, so the comparison takes its own branch. The comparisons known to
feed a branch are told apart by their index alone, and no block feeds a branch of another.

The jumps are told of as lines of the program. They are lines of its listing too: no line of a
program that comes from a text holds a line feed, as `listings_show_lines` says.
-/

namespace IntMain

/-- The relation and the label of a conditional jump. -/
def Line.jumpIf? : Line → Option (Relation × String)
  | .instruction (.jumpIf relation target) => some (relation, target)
  | _ => none

/-- The conditional jumps among lines, in order. -/
def conditionalJumps (lines : List Line) : List (Relation × String) :=
  lines.filterMap Line.jumpIf?

/-- The jump for a branch on a condition, to the label of the branch. It is taken when the
condition holds or when it does not, as the branch is. -/
def Quad.jumpOn? (branch : Quad) (condition : Node) : Option (Relation × String) :=
  match condition.jumps?, branch.target with
  | some (holds, fails), some label =>
    some (if branch.jumpsWhenTrue then holds else fails, label.name)
  | _, _ => none

/-!
## Selection step by step
-/

namespace Selection

/-- What selection does at a quadruple: its lines, and the branches that wait before and
behind it. -/
structure Step where
  quad : Quad
  before : List Branch
  lines : List Line
  after : List Branch
  deriving DecidableEq, Repr

/-- The step leaves a comment and no instruction, and takes no branch. -/
def Step.Comments (step : Step) : Prop :=
  (∃ text, step.lines = [.comment text]) ∧ step.after = step.before

/-- Selection passes the quadruples from an index on without a fault, in these steps and
with this in the end. -/
inductive Passes (feeding : List Nat) :
    Selection → Nat → List Quad → List Step → Selection → Prop
  | done {state : Selection} {index : Nat} : Passes feeding state index [] [] state
  | skip {state final : Selection} {index : Nat} {quad : Quad} {later : List Quad}
      {steps : List Step} (idle : quad.command = none)
      (rest : Passes feeding state (index + 1) later steps final) :
      Passes feeding state index (quad :: later) steps final
  | step {state final : Selection} {index : Nat} {quad : Quad} {command : Command}
      {selected : Selected} {later : List Quad} {steps : List Step}
      (commanded : quad.command = some command)
      (selects : state.selectCommand (feeding.contains index) quad command = .ok selected)
      (rest : Passes feeding ⟨selected.waiting, state.producersAfter quad⟩ (index + 1) later steps
        final) :
      Passes feeding state index (quad :: later)
        (⟨quad, state.waiting, selected.lines, selected.waiting⟩ :: steps) final

namespace Passes

variable {feeding : List Nat} {state final : Selection} {index : Nat} {quad : Quad}
  {later quads : List Quad} {steps : List Step}

/-- Selection without a fault passes the quadruples one by one, and has the lines of its steps and
no others. With this the lines of a program can be told of step by step. -/
theorem of_selectAll (noFault : (state.selectAll feeding index quads).fault = none) :
    ∃ steps final, Passes feeding state index quads steps final ∧
      (state.selectAll feeding index quads).lines = steps.flatMap Step.lines := by
  induction quads generalizing state index with
  | nil => exact ⟨[], state, .done, rfl⟩
  | cons quad later inductionHypothesis =>
    cases commanded : quad.command with
    | none =>
      rw [selectAll, commanded] at noFault ⊢
      obtain ⟨steps, final, passes, lines⟩ := inductionHypothesis noFault
      exact ⟨steps, final, .skip commanded passes, lines⟩
    | some command =>
      obtain ⟨selected, selects, lines, noFault⟩ := selectAll_cons commanded noFault
      obtain ⟨steps, final, passes, laterLines⟩ := inductionHypothesis noFault
      refine ⟨_, final, .step commanded selects passes, ?_⟩
      rw [lines, laterLines, List.flatMap_cons]

/-- The first step where a command comes first. Behind it the quadruple is recorded, as pairing
records it. -/
theorem first {command : Command} {waiting : List Branch} {producers : List (String × Producer)}
    (commanded : quad.command = some command)
    (passes : Passes feeding ⟨waiting, kindsOf producers⟩ index (quad :: later) steps final) :
    ∃ selected laterSteps, (Selection.mk waiting (kindsOf producers)).selectCommand
        (feeding.contains index) quad command = .ok selected ∧
      steps = ⟨quad, waiting, selected.lines, selected.waiting⟩ :: laterSteps ∧
      Passes feeding ⟨selected.waiting, kindsOf (recorded index producers quad)⟩ (index + 1) later
        laterSteps final := by
  cases passes with
  | skip idle rest => simp [idle] at commanded
  | step otherCommand selects rest =>
    obtain rfl := Option.some.inj (otherCommand.symm.trans commanded)
    rw [producersAfter_kindsOf _ index] at rest
    exact ⟨_, _, selects, rfl, rest⟩

/-- The steps at conditional jumps are those of the quadruples, in their order. No step is made for
a quadruple that is not there, and none is left out. -/
theorem branches (passes : Passes feeding state index quads steps final) :
    (steps.filter (fun step => step.quad.isBranch)).map Step.quad =
      quads.filter Quad.isBranch := by
  induction passes with
  | done => rfl
  | @skip state final index quad later steps idle rest inductionHypothesis =>
    have noBranch : ¬ quad.isBranch = true := by simp [Quad.isBranch, Quad.kind?, idle]
    rw [List.filter_cons_of_neg noBranch, inductionHypothesis]
  | @step state final index quad command selected later steps commanded selects rest
      inductionHypothesis =>
    rw [List.filter_cons, List.filter_cons]
    cases quad.isBranch with
    | true => exact congrArg (quad :: ·) inductionHypothesis
    | false => exact inductionHypothesis

end Passes

end Selection

/-!
## The conditional jumps of one quadruple
-/

/-- The jumps of lines in a row are those of the first and then those of the second, so each part of
a quadruple's lines can be looked at by itself. -/
theorem conditionalJumps_append (first second : List Line) :
    conditionalJumps (first ++ second) = conditionalJumps first ++ conditionalJumps second :=
  List.filterMap_append

namespace Workplace

variable (workplace : Workplace)

/-- Loading does not jump, whether the value has to be moved or is there already. -/
theorem load_jumps (source : Place) : conditionalJumps (workplace.load source) = [] := by
  unfold load
  split <;> rfl

/-- Storing does not jump, whether the result has to be moved or stays where it is. -/
theorem storing_jumps : conditionalJumps workplace.storing = [] := by
  unfold storing
  cases workplace.store <;> rfl

/-- Loading two operands does not jump, also if the right one has to be moved out of the way. -/
theorem loadPair_jumps (left right : Place) :
    conditionalJumps (workplace.loadPair left right).1 = [] := by
  unfold loadPair
  split
  · exact workplace.load_jumps left
  · exact workplace.load_jumps left

end Workplace

namespace Quad

variable {quad : Quad} {symbol : String} {lines : List Line}

/-- A return jumps, but not on a condition. It is told apart from the jumps that are counted
here. -/
theorem selectReturn_jumps (selected : quad.selectReturn = .ok lines) :
    conditionalJumps lines = [] := by
  obtain ⟨result, -, selected⟩ := bind_eq_ok selected
  obtain ⟨value, -, ⟨⟩⟩ := bind_eq_ok selected
  rw [conditionalJumps_append]
  split <;> rfl

/-- A copy does not jump, through the scratch register or not. -/
theorem selectCopy_jumps (selected : quad.selectCopy = .ok lines) :
    conditionalJumps lines = [] := by
  obtain ⟨source, -, selected⟩ := bind_eq_ok selected
  obtain ⟨target, -, selected⟩ := bind_eq_ok selected
  obtain ⟨value, -, selected⟩ := bind_eq_ok selected
  split at selected
  · cases selected
    rfl
  · obtain ⟨place, -, ⟨⟩⟩ := bind_eq_ok selected
    rfl

/-- A signed operand does not jump, whatever the spelling of its sign is. -/
theorem selectUnary_jumps (selected : quad.selectUnary symbol = .ok lines) :
    conditionalJumps lines = [] := by
  obtain ⟨operand, -, selected⟩ := bind_eq_ok selected
  obtain ⟨source, -, selected⟩ := bind_eq_ok selected
  obtain ⟨target, -, selected⟩ := bind_eq_ok selected
  obtain ⟨workplace, -, ⟨⟩⟩ := bind_eq_ok selected
  rw [conditionalJumps_append, conditionalJumps_append, workplace.load_jumps,
    workplace.storing_jumps]
  split <;> rfl

/-- An arithmetic operation does not jump. The note on the accumulator is a comment. -/
theorem selectArithmetic_jumps (selected : quad.selectArithmetic symbol = .ok lines) :
    conditionalJumps lines = [] := by
  obtain ⟨⟨left, right, workplace⟩, -, selected⟩ := bind_eq_ok selected
  dsimp only at selected
  split at selected
  · cases selected
  · rename_i op _
    cases selected
    have note : conditionalJumps (accumulatorNote op workplace.register) = [] := by
      unfold accumulatorNote
      split <;> rfl
    rw [conditionalJumps_append, conditionalJumps_append, conditionalJumps_append, note,
      workplace.loadPair_jumps, workplace.storing_jumps]
    rfl

/-- A comparison jumps once, for the branch that it takes: on its own relation if the branch is
taken on true, on the opposite one otherwise. Which branch that is, is up to the queue. -/
theorem selectComparison_jumps {branch : Branch}
    (selected : quad.selectComparison symbol branch = .ok lines) :
    ∃ relation, Relation.ofSymbol? symbol = some relation ∧ conditionalJumps lines =
      [(if branch.whenTrue then relation else relation.negated, branch.label)] := by
  obtain ⟨⟨left, right, workplace⟩, -, selected⟩ := bind_eq_ok selected
  dsimp only at selected
  split at selected
  · cases selected
  · rename_i relation found
    cases selected
    refine ⟨relation, found, ?_⟩
    rw [conditionalJumps_append, workplace.loadPair_jumps]
    rfl

end Quad

/-- A branch on what no comparison and no logical operator produced jumps once, if the value
is not zero or if it is. -/
theorem Quad.selectBranch_jumps {whenTrue : Bool} {condition label : Operand}
    {producer : Option CommandKind} {lines : List Line}
    (selected : (Quad.branch whenTrue condition label).selectBranch (.branch whenTrue) producer =
      .ok lines)
    (notRelational : producer ≠ some .relational) (notLogical : producer ≠ some .logical) :
    conditionalJumps lines = [(if whenTrue then .notEqual else .equal, label.name)] := by
  obtain ⟨place, -, rfl⟩ := Quad.selectBranch_plain ⟨notRelational, notLogical⟩ selected
  rw [conditionalJumps_append, Command.branch_jumpsWhenTrue]
  by_cases isLiteral : condition.kind = .literal
  · rw [if_pos isLiteral]
    rfl
  · rw [if_neg isLiteral]
    rfl

/-- A branch on the result of a logical operator is a comment, and not an error. The value of the
condition is not looked for, so it need not have a register. -/
theorem Quad.selectBranch_logical (whenTrue : Bool) (condition label : Operand)
    (command : Command) : ∃ text,
    (Quad.branch whenTrue condition label).selectBranch command (some .logical) =
      .ok [.comment text] := by
  cases whenTrue <;> exact ⟨_, rfl⟩

/-- A comparison decides a condition by the relation of its symbol, and its failure by the opposite
relation. This is what the tree asks for, without a look at the code. -/
theorem Node.jumps_comparison {op : BinaryOp} {relation : Relation}
    (found : Relation.ofSymbol? op.symbol = some relation) (mark : Mark) (left right : Node) :
    (Node.binary mark op left right).jumps? = some (relation, relation.negated) := by
  cases op <;> simp [Relation.ofSymbol?, BinaryOp.symbol, List.lookup_cons] at found <;>
    subst found <;> rfl

/-- The jump for a branch depends on when the branch is taken: it is on what makes the condition
hold or on what makes it fail. -/
theorem Quad.jumpOn_branch (whenTrue : Bool) (value label : Operand) (condition : Node) :
    (Quad.branch whenTrue value label).jumpOn? condition =
      condition.jumps?.map (fun (holds, fails) =>
        (if whenTrue then holds else fails, label.name)) := by
  unfold Quad.jumpOn?
  cases condition.jumps? <;> cases whenTrue <;> rfl

/-- A command that neither compares nor branches takes no branch and does not jump on a
condition. -/
theorem Selection.selectCommand_plain {state : Selection} {feeds : Bool} {quad : Quad}
    {command : Command} {selected : Selected} (noComparison : command.kind ≠ .relational)
    (noBranch : command.kind ≠ .conditionalJump)
    (selects : state.selectCommand feeds quad command = .ok selected) :
    selected.waiting = state.waiting ∧ conditionalJumps selected.lines = [] := by
  obtain ⟨text, kind⟩ := command
  cases kind with
  | label =>
    obtain ⟨target, -, ⟨⟩⟩ := bind_eq_ok selects
    exact ⟨rfl, rfl⟩
  | unconditionalJump =>
    obtain ⟨target, -, ⟨⟩⟩ := bind_eq_ok selects
    exact ⟨rfl, rfl⟩
  | ret =>
    obtain ⟨lines, chosen, ⟨⟩⟩ := bind_eq_ok selects
    exact ⟨rfl, Quad.selectReturn_jumps chosen⟩
  | copy =>
    obtain ⟨lines, chosen, ⟨⟩⟩ := bind_eq_ok selects
    exact ⟨rfl, Quad.selectCopy_jumps chosen⟩
  | unary =>
    obtain ⟨lines, chosen, ⟨⟩⟩ := bind_eq_ok selects
    exact ⟨rfl, Quad.selectUnary_jumps chosen⟩
  | arithmetic =>
    obtain ⟨lines, chosen, ⟨⟩⟩ := bind_eq_ok selects
    exact ⟨rfl, Quad.selectArithmetic_jumps chosen⟩
  | logical =>
    cases selects
    exact ⟨rfl, rfl⟩
  | relational => exact absurd rfl noComparison
  | conditionalJump => exact absurd rfl noBranch

/-!
## The queue along the blocks
-/

section Queue

variable {index : Nat} {producers : List (String × Producer)} {quad : Quad} {later : List Quad}

/-- What is no conditional jump tests nothing, even if its left operand is a temporary. -/
theorem Quad.untested_of_kind {kind : CommandKind} (kinded : quad.kind? = some kind)
    (noBranch : kind ≠ .conditionalJump) : quad.tested? = none := by
  rw [Quad.tested?, kinded, if_neg]
  rw [Option.some_inj]
  exact noBranch

/-- A binary operation tests nothing, whatever its operator is. -/
theorem Quad.untested_binary (op : BinaryOp) (left right target : Operand) :
    (Quad.binary op left right target).tested? = none := by
  cases op <;> rfl

/-- A jump on a literal or a variable tests no temporary. Nothing that has been computed before is
asked for, so no comparison can feed it. -/
theorem Quad.untested_branch {value : Operand} (notTemporary : value.isTemporary = false)
    (whenTrue : Bool) (label : Operand) :
    (Quad.branch whenTrue value label).tested? = none := by
  rw [Quad.branch_tested, notTemporary]
  rfl

/-- A comparison has the command of its symbol in the relational family, which is what selection
decides by. -/
theorem Quad.command_comparison {op : BinaryOp} (left right target : Operand)
    (isRelational : op.operatorClass = .relational) :
    (Quad.binary op left right target).command = some ⟨op.symbol, .relational⟩ := by
  simp only [Quad.binary, Command.binary, isRelational]

/-- What computes a temporary tests none, because only conditional jumps test and they compute
nothing. -/
theorem Quad.untested_of_produced {name : String} (produces : quad.produced? = some name) :
    quad.tested? = none := by
  rw [Quad.tested?, if_neg]
  intro isBranch
  rw [Quad.produced?, Quad.producesValue, isBranch] at produces
  cases produces

/-- A quadruple that tests nothing pairs nothing. It may be recorded as a producer, and pairing goes
on behind it with that. -/
theorem Pairing.collect_untested (untested : quad.tested? = none) :
    collect index producers (quad :: later) =
      collect (index + 1) (recorded index producers quad) later :=
  collect_unpaired (by simp [untested])

/-- A jump on a temporary finds the family of what produced it. Selection looks it up by family and
pairing by index, and both have recorded the same quadruple. -/
theorem Quad.tested_producer {kind : CommandKind} {number origin : Nat} (whenTrue : Bool)
    (label : Operand)
    (found : producers.lookup (Operand.temporary number).name = some ⟨kind, origin⟩) :
    (Quad.branch whenTrue (.temporary number) label).tested?.bind (fun name =>
      (kindsOf producers).lookup name) = some kind := by
  rw [Quad.branch_tested, if_pos (by rfl), Option.bind_some, lookup_kindsOf, found,
    Option.map_some]

/-- What computes a temporary is recorded as its producer, in front of anything that has computed
the same temporary before. -/
theorem lookup_recorded {kind : CommandKind} {name : String} (kinded : quad.kind? = some kind)
    (produces : quad.produced? = some name) :
    (recorded index producers quad).lookup name = some ⟨kind, index⟩ := by
  rw [recorded, produces, kinded, List.lookup_cons_self]

/-- A jump on a literal or a variable pairs nothing and records nothing, so pairing goes on as if it
were not there. -/
theorem Pairing.collect_simple {value : Operand} (notTemporary : value.isTemporary = false)
    (whenTrue : Bool) (label : Operand) :
    collect index producers (.branch whenTrue value label :: later) =
      collect (index + 1) producers later := by
  rw [collect_untested (Quad.untested_branch notTemporary whenTrue label), recorded_branch]

/-- A jump behind what produces its temporary pairs nothing, unless that is a comparison. The jump
directly behind is all that is looked at here, which is how lowering places it. -/
theorem Pairing.collect_computed {kind : CommandKind} {number : Nat}
    (kinded : quad.kind? = some kind)
    (produces : quad.produced? = some (Operand.temporary number).name)
    (noComparison : kind ≠ .relational) (whenTrue : Bool) (label : Operand) :
    collect index producers (quad :: .branch whenTrue (.temporary number) label :: later) =
      collect (index + 2) (recorded index producers quad) later := by
  rw [collect_untested (Quad.untested_of_produced produces), collect_unpaired, recorded_branch]
  intro comparison paired
  rw [recorded_branch, Quad.branch_tested, if_pos (by rfl), Option.bind_some,
    lookup_recorded kinded produces] at paired
  cases paired
  exact noComparison rfl

/-- A comparison and the jump that tests it are paired: the index of the comparison comes in front
of those that feed later branches, and the branch in front of the later branches. -/
theorem Pairing.collect_comparison {op : BinaryOp} {left right : Operand} {number : Nat}
    (whenTrue : Bool) (label : Operand) (isRelational : op.operatorClass = .relational) :
    collect index producers (.binary op left right (.temporary number) ::
      .branch whenTrue (.temporary number) label :: later) =
      let rest := collect (index + 2)
        (recorded index producers (.binary op left right (.temporary number))) later
      ⟨index :: rest.feeding, ⟨label.name, whenTrue⟩ :: rest.branches⟩ := by
  have kinded : (Quad.binary op left right (.temporary number)).kind? = some .relational := by
    rw [Quad.kind_binary, isRelational]
    rfl
  have produces := Quad.produced_binary op left right number
  rw [collect_untested (Quad.untested_of_produced produces),
    collect_paired whenTrue label (lookup_recorded kinded produces)]

/-- The comparisons from an index on that feed a branch are exactly those of the quadruples
from there on. -/
def FedExactly (feeding : List Nat) (index : Nat) (producers : List (String × Producer))
    (quads : List Quad) : Prop :=
  ∀ comparison ≥ index,
    comparison ∈ feeding ↔ comparison ∈ (Pairing.collect index producers quads).feeding

/-- What feeds the branches behind a block is known behind it. The comparisons that have been passed
have lower indices than all that follow, so none of them is taken for a later one. -/
theorem FedExactly.behind {feeding : List Nat} {next : Nat}
    {learned : List (String × Producer)} {quads : List Quad}
    (fed : FedExactly feeding index producers quads) (passed : List Nat)
    (split : (Pairing.collect index producers quads).feeding =
      passed ++ (Pairing.collect next learned later).feeding)
    (before : ∀ comparison ∈ passed, comparison < next) (onward : index ≤ next) :
    FedExactly feeding next learned later := by
  intro comparison bound
  rw [fed comparison (Nat.le_trans onward bound), split, List.mem_append]
  constructor
  · rintro (inPassed | inLater)
    · exact absurd (before comparison inPassed) (Nat.not_lt.mpr bound)
    · exact inLater
  · exact Or.inr

end Queue

/-- No block feeds a branch of an earlier block: every comparison that feeds a branch of the blocks
is among their own quadruples. The producers before the blocks do not matter, because a block that
tests a temporary computes it first. -/
theorem Arranged.feeding_ge {conditions : List Node} {comparisons : List Comparison}
    {quads : List Quad} (arranged : Arranged conditions comparisons quads) {index : Nat}
    {producers : List (String × Producer)} :
    ∀ comparison ∈ (Pairing.collect index producers quads).feeding, index ≤ comparison := by
  induction arranged generalizing index producers with
  | nil => exact List.forall_mem_nil _
  | plain kinded noComparison noBranch rest inductionHypothesis =>
    rw [Pairing.collect_untested (Quad.untested_of_kind kinded noBranch)]
    intro comparison member
    exact Nat.le_of_succ_le (inductionHypothesis comparison member)
  | nested isRelational rest inductionHypothesis =>
    rw [Pairing.collect_untested (Quad.untested_binary ..)]
    intro comparison member
    exact Nat.le_of_succ_le (inductionHypothesis comparison member)
  | @comparison conditions comparisons mark op leftNode rightNode left right label number whenTrue
      later isRelational rest inductionHypothesis =>
    rw [Pairing.collect_comparison whenTrue label isRelational]
    intro comparison member
    rcases List.mem_cons.mp member with rfl | inLater
    · exact Nat.le_refl _
    · exact Nat.le_trans (Nat.le_add_right index 2) (inductionHypothesis comparison inLater)
  | @computed conditions comparisons condition quad kind label number whenTrue later kinded produces
      noComparison jumps rest inductionHypothesis =>
    rw [Pairing.collect_computed kinded produces noComparison whenTrue label]
    intro comparison member
    exact Nat.le_trans (Nat.le_add_right index 2) (inductionHypothesis comparison member)
  | simple notTemporary jumps rest inductionHypothesis =>
    rw [Pairing.collect_simple notTemporary]
    intro comparison member
    exact Nat.le_of_succ_le (inductionHypothesis comparison member)

/-!
## What becomes of the conditions and the comparisons
-/

/-- The step of a comparison: one that is a whole condition takes a branch, another is left
as a comment. -/
def Comparison.TreatedIn (comparison : Comparison) (step : Selection.Step) : Prop :=
  step.quad.command = some (.binary comparison.op) ∧
    (comparison.isTest = true → ∃ branch, step.before = branch :: step.after) ∧
    (comparison.isTest = false → step.Comments)

/-- The steps have the jumps of the conditions in order, and they treat each condition and
each comparison as they should. -/
structure Handled (conditions : List Node) (comparisons : List Comparison)
    (steps : List Selection.Step) : Prop where
  jumps : conditionalJumps (steps.flatMap Selection.Step.lines) =
    (conditions.zip ((steps.filter (fun step => step.quad.isBranch)).map
      Selection.Step.quad)).filterMap (fun (condition, branch) => branch.jumpOn? condition)
  logical : List.Forall₂ (fun condition step => condition.jumps? = none → step.Comments)
    conditions (steps.filter (fun step => step.quad.isBranch))
  compared : List.Forall₂ Comparison.TreatedIn comparisons
    (steps.filter (fun step => step.quad.isComparison))

namespace Handled

variable {conditions : List Node} {comparisons : List Comparison} {steps : List Selection.Step}
  {step : Selection.Step}

/-- No steps handle no conditions and no comparisons. This is where the induction along the blocks
starts. -/
theorem nil : Handled [] [] [] := ⟨rfl, .nil, .nil⟩

/-- Steps in a row handle the conditions and the comparisons in a row. The order of both lists is
kept, which is what makes the jumps those of the conditions in order. -/
theorem append {laterConditions : List Node} {laterComparisons : List Comparison}
    {laterSteps : List Selection.Step} (handled : Handled conditions comparisons steps)
    (later : Handled laterConditions laterComparisons laterSteps) :
    Handled (conditions ++ laterConditions) (comparisons ++ laterComparisons)
      (steps ++ laterSteps) := by
  constructor
  · have sameLength := handled.logical.length_eq
    rw [← List.length_map Selection.Step.quad] at sameLength
    rw [List.flatMap_append, conditionalJumps_append, handled.jumps, later.jumps,
      List.filter_append, List.map_append, List.zip_append sameLength, List.filterMap_append]
  · rw [List.filter_append]
    exact List.rel_append handled.logical later.logical
  · rw [List.filter_append]
    exact List.rel_append handled.compared later.compared

/-- A step that neither compares nor branches handles nothing. Its lines have to be without a
conditional jump, or the jumps would be out of step from there on. -/
theorem plain {kind : CommandKind} (kinded : step.quad.kind? = some kind)
    (noComparison : kind ≠ .relational) (noBranch : kind ≠ .conditionalJump)
    (noJump : conditionalJumps step.lines = []) : Handled [] [] [step] := by
  have isNoBranch : step.quad.isBranch = false := by simp [Quad.isBranch, kinded, noBranch]
  have isNoComparison : step.quad.isComparison = false := by
    simp [Quad.isComparison, kinded, noComparison]
  refine ⟨?_, ?_, ?_⟩
  · simp [noJump]
  · simp [isNoBranch]
  · simp [isNoComparison]

/-- The step of a comparison that is no condition handles that comparison by a comment, and no
condition. -/
theorem nested {op : BinaryOp} (commanded : step.quad.command = some (.binary op))
    (isRelational : op.operatorClass = .relational) (comments : step.Comments) :
    Handled [] [⟨op, false⟩] [step] := by
  have kinded : step.quad.kind? = some .relational := by
    rw [Quad.kind?, commanded, Option.map_some, Command.binary, isRelational]
  have isNoBranch : step.quad.isBranch = false := by simp [Quad.isBranch, kinded]
  have isComparison : step.quad.isComparison = true := by simp [Quad.isComparison, kinded]
  obtain ⟨⟨text, lines⟩, untouched⟩ := comments
  refine ⟨?_, ?_, ?_⟩
  · simp [lines, conditionalJumps, Line.jumpIf?]
  · simp [isNoBranch]
  · simp [isComparison, Comparison.TreatedIn, commanded, Selection.Step.Comments, lines, untouched]

/-- The step of a branch handles its condition, if it has the jump that the tree asks for. A
condition that the tree gives no jump, which is a logical one, is left as a comment. -/
theorem branch {condition : Node} (isBranch : step.quad.isBranch = true)
    (jumps : conditionalJumps step.lines = (step.quad.jumpOn? condition).toList)
    (logical : condition.jumps? = none → step.Comments) : Handled [condition] [] [step] := by
  have isNoComparison : step.quad.isComparison = false := by
    rw [Quad.isBranch, beq_iff_eq] at isBranch
    simp [Quad.isComparison, isBranch]
  refine ⟨?_, ?_, ?_⟩
  · cases jump : step.quad.jumpOn? condition <;> simp [isBranch, jumps, jump]
  · simpa [isBranch] using logical
  · simp [isNoComparison]

/-- The step of a branch on what no comparison produced handles its condition: the value is tested,
or the branch is left as a comment behind a logical operator. The queue is not touched. -/
theorem of_selectBranch {whenTrue : Bool} {value label : Operand} {condition : Node}
    {producer : Option CommandKind} {waiting : List Branch} {lines : List Line}
    (selected : (Quad.branch whenTrue value label).selectBranch (.branch whenTrue) producer =
      .ok lines)
    (notRelational : producer ≠ some .relational)
    (jumps : condition.jumps? =
      if producer = some .logical then none else some (.notEqual, .equal)) :
    Handled [condition] [] [⟨.branch whenTrue value label, waiting, lines, waiting⟩] := by
  by_cases isLogical : producer = some .logical
  · obtain ⟨text, chosen⟩ := Quad.selectBranch_logical whenTrue value label (.branch whenTrue)
    rw [isLogical, chosen] at selected
    cases selected
    rw [if_pos isLogical] at jumps
    refine branch (Quad.isBranch_branch ..) ?_ (fun _ => ⟨⟨text, rfl⟩, rfl⟩)
    rw [Quad.jumpOn_branch, jumps]
    rfl
  · rw [if_neg isLogical] at jumps
    refine branch (Quad.isBranch_branch ..) ?_ ?_
    · rw [Quad.selectBranch_jumps selected notRelational isLogical, Quad.jumpOn_branch, jumps]
      rfl
    · rw [jumps]
      intro impossible
      cases impossible

/-- The steps of a comparison that is a condition and of its branch. The comparison takes
the branch, and jumps for it. -/
theorem comparison {op : BinaryOp} {mark : Mark} {leftNode rightNode : Node}
    {left right target value label : Operand} {whenTrue : Bool} {waiting : List Branch}
    {lines : List Line} (isRelational : op.operatorClass = .relational)
    (selected : (Quad.binary op left right target).selectComparison op.symbol
      ⟨label.name, whenTrue⟩ = .ok lines) :
    Handled [.binary mark op leftNode rightNode] [⟨op, true⟩]
      [⟨.binary op left right target, ⟨label.name, whenTrue⟩ :: waiting, lines, waiting⟩,
        ⟨.branch whenTrue value label, waiting, [], waiting⟩] := by
  obtain ⟨relation, found, jumps⟩ := Quad.selectComparison_jumps selected
  have onCondition : (Node.binary mark op leftNode rightNode).jumps? =
      some (relation, relation.negated) := Node.jumps_comparison found mark leftNode rightNode
  have compares : (Quad.binary op left right target).isComparison = true := by
    rw [Quad.isComparison, Quad.kind_binary, isRelational]
    rfl
  have noComparison : (Quad.branch whenTrue value label).isComparison = false := by
    cases whenTrue <;> rfl
  have commanded : (Quad.binary op left right target).command = some (.binary op) := rfl
  refine ⟨?_, ?_, ?_⟩
  · simp [Quad.isBranch_binary, Quad.isBranch_branch, jumps, Quad.jumpOn_branch, onCondition]
  · simp [Quad.isBranch_binary, Quad.isBranch_branch, onCondition]
  · simp [compares, noComparison, Comparison.TreatedIn, commanded]

end Handled

namespace Selection.Passes

variable {feeding : List Nat} {waiting : List Branch} {producers : List (String × Producer)}
  {index : Nat} {quad : Quad} {later : List Quad} {steps : List Step} {final : Selection}

/-- A quadruple that neither compares nor branches is passed by one step, which handles nothing and
takes nothing from the queue. -/
theorem plain {kind : CommandKind} (kinded : quad.kind? = some kind)
    (noComparison : kind ≠ .relational) (noBranch : kind ≠ .conditionalJump)
    (passes : Passes feeding ⟨waiting, kindsOf producers⟩ index (quad :: later) steps final) :
    ∃ step laterSteps, steps = step :: laterSteps ∧ Handled [] [] [step] ∧
      Passes feeding ⟨waiting, kindsOf (recorded index producers quad)⟩ (index + 1) later laterSteps
        final := by
  obtain ⟨command, commanded, rfl⟩ := Option.map_eq_some_iff.mp kinded
  obtain ⟨selected, laterSteps, selects, rfl, onward⟩ := passes.first commanded
  obtain ⟨untouched, noJump⟩ := selectCommand_plain noComparison noBranch selects
  rw [show selected.waiting = waiting from untouched] at onward
  exact ⟨_, laterSteps, rfl, .plain kinded noComparison noBranch noJump, onward⟩

/-- A comparison that feeds no branch is passed by one step, which leaves a comment and takes
nothing from the queue. That it feeds none is known by its index, which is not among those that
do. -/
theorem nested {op : BinaryOp} {left right target : Operand}
    (isRelational : op.operatorClass = .relational) (unfed : index ∉ feeding)
    (passes : Passes feeding ⟨waiting, kindsOf producers⟩ index
      (.binary op left right target :: later) steps final) :
    ∃ step laterSteps, steps = step :: laterSteps ∧ Handled [] [⟨op, false⟩] [step] ∧
      Passes feeding
        ⟨waiting, kindsOf (recorded index producers (.binary op left right target))⟩ (index + 1)
        later laterSteps final := by
  have notContained : feeding.contains index = false := by simpa using unfed
  obtain ⟨selected, laterSteps, selects, rfl, onward⟩ :=
    passes.first (Quad.command_comparison left right target isRelational)
  rw [notContained] at selects
  cases selects
  exact ⟨_, laterSteps, rfl, .nested rfl isRelational ⟨⟨_, rfl⟩, rfl⟩, onward⟩

/-- A branch on what no comparison produced is passed by one step, which handles its condition and
takes nothing from the queue. -/
theorem branch {whenTrue : Bool} {value label : Operand} {condition : Node}
    {producer : Option CommandKind}
    (produced : (Quad.branch whenTrue value label).tested?.bind (fun name =>
      (kindsOf producers).lookup name) = producer)
    (notRelational : producer ≠ some .relational)
    (jumps : condition.jumps? =
      if producer = some .logical then none else some (.notEqual, .equal))
    (passes : Passes feeding ⟨waiting, kindsOf producers⟩ index
      (.branch whenTrue value label :: later) steps final) :
    ∃ step laterSteps, steps = step :: laterSteps ∧ Handled [condition] [] [step] ∧
      Passes feeding ⟨waiting, kindsOf producers⟩ (index + 1) later laterSteps final := by
  obtain ⟨selected, laterSteps, selects, rfl, onward⟩ :=
    passes.first (Quad.branch_command whenTrue value label)
  obtain ⟨lines, chosen, ⟨⟩⟩ := bind_eq_ok selects
  rw [produced] at chosen
  rw [recorded_branch] at onward
  exact ⟨_, laterSteps, rfl, .of_selectBranch chosen notRelational jumps, onward⟩

/-- A comparison that feeds a branch takes the first that waits, and its own branch has no
lines. -/
theorem comparison {op : BinaryOp} {mark : Mark} {leftNode rightNode : Node}
    {left right label : Operand} {number : Nat} {whenTrue : Bool}
    (isRelational : op.operatorClass = .relational) (fed : index ∈ feeding)
    (passes : Passes feeding ⟨⟨label.name, whenTrue⟩ :: waiting, kindsOf producers⟩ index
      (.binary op left right (.temporary number) ::
        .branch whenTrue (.temporary number) label :: later) steps final) :
    ∃ step jump laterSteps, steps = step :: jump :: laterSteps ∧
      Handled [.binary mark op leftNode rightNode] [⟨op, true⟩] [step, jump] ∧
      Passes feeding
        ⟨waiting, kindsOf (recorded index producers (.binary op left right (.temporary number)))⟩
        (index + 2) later laterSteps final := by
  have contained : feeding.contains index = true := List.contains_iff_mem.mpr fed
  have kinded : (Quad.binary op left right (.temporary number)).kind? = some .relational := by
    rw [Quad.kind_binary, isRelational]
    rfl
  have found : (recorded index producers (.binary op left right (.temporary number))).lookup
      (Operand.temporary number).name = some ⟨.relational, index⟩ :=
    lookup_recorded kinded (Quad.produced_binary ..)
  obtain ⟨selected, laterSteps, selects, rfl, onward⟩ :=
    passes.first (Quad.command_comparison left right (.temporary number) isRelational)
  rw [contained] at selects
  obtain ⟨lines, compares, ⟨⟩⟩ := bind_eq_ok selects
  obtain ⟨jump, lastSteps, jumpSelects, rfl, behind⟩ :=
    onward.first (Quad.branch_command whenTrue (.temporary number) label)
  obtain ⟨jumpLines, jumps, ⟨⟩⟩ := bind_eq_ok jumpSelects
  rw [Quad.tested_producer whenTrue label found, Quad.selectBranch_paired] at jumps
  cases jumps
  rw [recorded_branch] at behind
  exact ⟨_, _, lastSteps, rfl, .comparison isRelational compares, behind⟩

end Selection.Passes

/-- The steps of selection handle the blocks of the code, and no branch is left waiting. The queue
holds the branches of the blocks that are still to come, and those only: this is the invariant that
keeps it in step, and a block takes its own branch from it or nothing. -/
theorem Arranged.handled {conditions : List Node} {comparisons : List Comparison}
    {quads : List Quad} (arranged : Arranged conditions comparisons quads) {feeding : List Nat}
    {index : Nat} {producers : List (String × Producer)} {steps : List Selection.Step}
    {final : Selection} (fed : FedExactly feeding index producers quads)
    (passes : Selection.Passes feeding
      ⟨(Pairing.collect index producers quads).branches, kindsOf producers⟩ index quads steps
      final) :
    Handled conditions comparisons steps ∧ final.waiting = [] := by
  induction arranged generalizing index producers steps with
  | nil =>
    cases passes
    exact ⟨.nil, rfl⟩
  | @plain conditions comparisons quad kind later kinded noComparison noBranch rest
      inductionHypothesis =>
    have queue : Pairing.collect index producers (quad :: later) = _ :=
      Pairing.collect_untested (Quad.untested_of_kind kinded noBranch)
    rw [queue] at passes
    obtain ⟨step, laterSteps, rfl, here, onward⟩ := passes.plain kinded noComparison noBranch
    obtain ⟨handled, empty⟩ := inductionHypothesis (fed.behind [] (congrArg Pairing.feeding queue)
      (List.forall_mem_nil _) (Nat.le_succ index)) onward
    exact ⟨here.append handled, empty⟩
  | @nested conditions comparisons op left right target later isRelational rest
      inductionHypothesis =>
    have queue : Pairing.collect index producers (.binary op left right target :: later) = _ :=
      Pairing.collect_untested (Quad.untested_binary ..)
    -- What feeds a later branch comes later, so this comparison feeds none.
    have unfed : index ∉ feeding := by
      rw [fed index (Nat.le_refl index), queue]
      intro member
      exact absurd (rest.feeding_ge index member) (Nat.not_succ_le_self index)
    rw [queue] at passes
    obtain ⟨step, laterSteps, rfl, here, onward⟩ := passes.nested isRelational unfed
    obtain ⟨handled, empty⟩ := inductionHypothesis (fed.behind [] (congrArg Pairing.feeding queue)
      (List.forall_mem_nil _) (Nat.le_succ index)) onward
    exact ⟨here.append handled, empty⟩
  | @comparison conditions comparisons mark op leftNode rightNode left right label number whenTrue
      later isRelational rest inductionHypothesis =>
    have queue : Pairing.collect index producers (.binary op left right (.temporary number) ::
        .branch whenTrue (.temporary number) label :: later) = _ :=
      Pairing.collect_comparison whenTrue label isRelational
    have here : index ∈ feeding := by
      rw [fed index (Nat.le_refl index), queue]
      exact List.mem_cons_self
    rw [queue] at passes
    obtain ⟨step, jump, laterSteps, rfl, handledHere, onward⟩ :=
      passes.comparison isRelational here
    obtain ⟨handled, empty⟩ := inductionHypothesis (fed.behind [index]
      (congrArg Pairing.feeding queue) (by simp) (Nat.le_add_right index 2)) onward
    exact ⟨handledHere.append handled, empty⟩
  | @computed conditions comparisons condition quad kind label number whenTrue later kinded produces
      noComparison jumps rest inductionHypothesis =>
    have noBranch : kind ≠ .conditionalJump := by
      rintro rfl
      rw [Quad.produced?, Quad.producesValue, kinded] at produces
      cases produces
    have found : (recorded index producers quad).lookup (Operand.temporary number).name =
        some ⟨kind, index⟩ := lookup_recorded kinded produces
    have queue : Pairing.collect index producers
        (quad :: .branch whenTrue (.temporary number) label :: later) = _ :=
      Pairing.collect_computed kinded produces noComparison whenTrue label
    rw [queue] at passes
    obtain ⟨step, laterSteps, rfl, here, onward⟩ := passes.plain kinded noComparison noBranch
    obtain ⟨jump, lastSteps, rfl, there, behind⟩ := onward.branch
      (Quad.tested_producer whenTrue label found) (by simpa using noComparison)
      (by simpa using jumps)
    obtain ⟨handled, empty⟩ := inductionHypothesis (fed.behind [] (congrArg Pairing.feeding queue)
      (List.forall_mem_nil _) (Nat.le_add_right index 2)) behind
    exact ⟨here.append (there.append handled), empty⟩
  | @simple conditions comparisons condition value label whenTrue later notTemporary jumps rest
      inductionHypothesis =>
    have queue : Pairing.collect index producers (.branch whenTrue value label :: later) = _ :=
      Pairing.collect_simple notTemporary whenTrue label
    have untested : (Quad.branch whenTrue value label).tested?.bind (fun name =>
        (kindsOf producers).lookup name) = none := by
      rw [Quad.untested_branch notTemporary, Option.bind_none]
    rw [queue] at passes
    obtain ⟨step, laterSteps, rfl, here, onward⟩ := passes.branch untested (by decide) jumps
    obtain ⟨handled, empty⟩ := inductionHypothesis (fed.behind [] (congrArg Pairing.feeding queue)
      (List.forall_mem_nil _) (Nat.le_succ index)) onward
    exact ⟨here.append handled, empty⟩

/-- What is assembled has no fault, and its result are all of its lines. -/
theorem Assembled.of_result {assembled : Assembled} {lines : List Line}
    (result : assembled.result = .ok lines) :
    assembled.fault = none ∧ assembled.lines = lines := by
  rw [Assembled.result] at result
  split at result
  · cases result
  · rename_i noFault
    cases result
    exact ⟨noFault, rfl⟩

/-- **Every condition has its own jump.**

Take any program that parses, resolves, is lowered and assembled. Selection passes its
quadruples in steps, and the lines of the program are those of the steps between the lines
that set up the frame and those that give it up. The conditional jumps among the quadruples
are those of the conditions of the program, in order.

The conditional jumps among the lines are, in the same order, those for the conditions that
are not logical operators, each to the label of its own branch. The branch of a logical
operator is left as a comment and takes nothing from the queue, and so is a comparison that
is not a whole condition; one that is takes a branch. In the end no branch waits. -/
theorem conditions_have_their_jumps (tokens : List Token) (parsed : Parsed)
    (accepted : Parsed.ofTokens tokens = .ok parsed) (resolved : parsed.root.resolve.fault = none)
    (lowered : Lowered) (isLowered : Lowered.ofTree parsed.root.resolve.tree = .ok lowered)
    (lines : List Line) (assembled : (Assembled.ofProgram lowered.program).result = .ok lines) :
    ∃ steps final,
      Selection.Passes (Pairing.ofQuads lowered.program.quads).feeding
        ⟨(Pairing.ofQuads lowered.program.quads).branches, []⟩ 0 lowered.program.quads steps
        final ∧
      lines = prologue lowered.program.frameSize ++ steps.flatMap Selection.Step.lines ++
        epilogue ∧
      List.Forall₂ (Node.TestedBy lowered.program.quads) parsed.root.resolve.tree.conditions
        (lowered.program.quads.filter Quad.isBranch) ∧
      conditionalJumps lines =
        (parsed.root.resolve.tree.conditions.zip
          (lowered.program.quads.filter Quad.isBranch)).filterMap
          (fun (condition, branch) => branch.jumpOn? condition) ∧
      List.Forall₂ (fun condition step => condition.jumps? = none → step.Comments)
        parsed.root.resolve.tree.conditions (steps.filter (fun step => step.quad.isBranch)) ∧
      List.Forall₂ Comparison.TreatedIn (parsed.root.resolve.tree.comparisons false)
        (steps.filter (fun step => step.quad.isComparison)) ∧
      final.waiting = [] := by
  obtain ⟨labels, lowers⟩ := Parsed.lowers accepted resolved isLowered
  obtain ⟨arranged, testing⟩ := lowers.outlined
  obtain ⟨noFault, rfl⟩ := Assembled.of_result assembled
  obtain ⟨steps, final, passes, selected⟩ := Selection.Passes.of_selectAll noFault
  obtain ⟨handled, empty⟩ := arranged.handled (fun _ _ => Iff.rfl) passes
  have layout : (Assembled.ofProgram lowered.program).lines =
      prologue lowered.program.frameSize ++ steps.flatMap Selection.Step.lines ++ epilogue := by
    rw [← selected]
    rfl
  refine ⟨steps, final, passes, layout, testing, ?_, handled.logical, handled.compared, empty⟩
  have setUp : conditionalJumps (prologue lowered.program.frameSize) = [] := by
    unfold prologue
    split <;> rfl
  have giveUp : conditionalJumps epilogue = [] := rfl
  rw [layout, conditionalJumps_append, conditionalJumps_append, setUp, giveUp, List.nil_append,
    List.append_nil, handled.jumps, passes.branches]
  rfl

/-- A program with a logical condition, a comparison in front of its branch, one inside of a
sum, and a condition that is a variable. -/
def mixedConditions : String :=
  "int main() \x7b int a = 1; int b = 2; if (a < b && b < 3) \x7b a = 2; \x7d " ++
  "else if (a < b) \x7b a = 3; \x7d do \x7b b -= 1; \x7d while (b); " ++
  "while (1 + (a == b)) \x7b a = a + 1; \x7d return a; \x7d"

/-- The program above has four conditions. The logical one is left as a comment, and the other three
have their jumps in the order of the program, each with the label of its own branch. -/
theorem conditions_have_their_jumps_mixedConditions :
    ∃ parsed lowered lines, Parsed.ofTokens (Lexed.ofText mixedConditions).tokens = .ok parsed ∧
      parsed.root.resolve.fault = none ∧
      Lowered.ofTree parsed.root.resolve.tree = .ok lowered ∧
      (Assembled.ofProgram lowered.program).result = .ok lines ∧
      conditionalJumps lines =
        [(.greaterOrEqual, "L3"), (.notEqual, "L4"), (.equal, "L6")] := by
  have evaluated : (Parsed.ofTokens (Lexed.ofText mixedConditions).tokens).toOption.any
      (fun parsed => parsed.root.resolve.fault.isNone &&
      (Lowered.ofTree parsed.root.resolve.tree).toOption.any (fun lowered =>
        (Assembled.ofProgram lowered.program).result.toOption.any (fun _ =>
          (parsed.root.resolve.tree.conditions.zip
            (lowered.program.quads.filter Quad.isBranch)).filterMap
            (fun (condition, branch) => branch.jumpOn? condition) ==
          [(.greaterOrEqual, "L3"), (.notEqual, "L4"), (.equal, "L6")]))) = true := by
    decide +kernel
  obtain ⟨parsed, accepted, checked⟩ := exists_ok_of_any evaluated
  obtain ⟨resolved, checked⟩ := (Bool.and_eq_true _ _).mp checked
  rw [Option.isNone_iff_eq_none] at resolved
  obtain ⟨lowered, isLowered, checked⟩ := exists_ok_of_any checked
  obtain ⟨lines, assembled, checked⟩ := exists_ok_of_any checked
  obtain ⟨steps, final, -, -, -, jumps, -⟩ := conditions_have_their_jumps _ parsed accepted resolved
    lowered isLowered lines assembled
  refine ⟨parsed, lowered, lines, accepted, resolved, isLowered, assembled, ?_⟩
  rw [jumps]
  exact beq_iff_eq.mp checked

end IntMain
