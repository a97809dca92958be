import IntMain.Proofs.DirectTests
import IntMain.Proofs.SelectedLines

/-!
# The lines of orderly quadruples

Selection walks through the quadruples with what it knows: the comparisons that feed a
branch, the branches that still wait for theirs, and what produced each temporary. Here
the lines are described by rules that need none of this. `Emits` gives the lines of
orderly quadruples one command at a time, and takes a comparison and the jump that tests
it together.

The two agree because in orderly quadruples a comparison is followed by its jump. So the
branches are handed out in the order in which the comparisons come, and the producer of a
temporary that another jump tests is never a comparison.
-/

namespace IntMain

/-- The lines of orderly quadruples when the first `live` temporaries hold values. A comparison and
the jump behind it are one case, because their lines are made together. -/
inductive Emits : Nat → List Quad → List Line → Prop
  | nil {live : Nat} : Emits live [] []
  | arithmetic {live next : Nat} {op : BinaryOp} {left right target : Operand}
      {later : List Quad} {block lines : List Line} (isArithmetic : op.operatorClass = .arithmetic)
      (leftReadable : left.Readable live) (rightReadable : right.Readable live)
      (writable : target.Writable live next)
      (selected : (Quad.binary op left right target).selectArithmetic op.symbol = .ok block)
      (rest : Emits next later lines) :
      Emits live (.binary op left right target :: later) (block ++ lines)
  | unary {live next : Nat} {op : UnaryOp} {operand target : Operand} {later : List Quad}
      {block lines : List Line} (readable : operand.Readable live)
      (writable : target.Writable live next)
      (selected : (Quad.unary op operand target).selectUnary op.symbol = .ok block)
      (rest : Emits next later lines) :
      Emits live (.unary op operand target :: later) (block ++ lines)
  | copy {live : Nat} {source : Operand} {name : String} {address : Int} {later : List Quad}
      {block lines : List Line} (readable : source.Readable live)
      (selected : (Quad.copy source (.stored name address)).selectCopy = .ok block)
      (rest : Emits 0 later lines) :
      Emits live (.copy source (.stored name address) :: later) (block ++ lines)
  | comparison {live number label : Nat} {op : BinaryOp} {left right : Operand}
      {whenTrue : Bool} {later : List Quad} {block lines : List Line}
      (isRelational : op.operatorClass = .relational)
      (leftReadable : left.Readable live) (rightReadable : right.Readable live)
      (selected : (Quad.binary op left right (.temporary number)).selectComparison op.symbol
        ⟨(Operand.label label).name, whenTrue⟩ = .ok block)
      (rest : Emits 0 later lines) :
      Emits live (.binary op left right (.temporary number) ::
        .branch whenTrue (.temporary number) (.label label) :: later) (block ++ lines)
  | branch {live label : Nat} {condition : Operand} {whenTrue : Bool} {command : Command}
      {producer : Option CommandKind} {later : List Quad} {block lines : List Line}
      (readable : condition.Readable live) (polarity : command.jumpsWhenTrue = whenTrue)
      (known : producer ≠ some .relational ∧ producer ≠ some .logical)
      (selected : (Quad.branch whenTrue condition (.label label)).selectBranch command producer =
        .ok block)
      (rest : Emits 0 later lines) :
      Emits live (.branch whenTrue condition (.label label) :: later) (block ++ lines)
  | label {live number : Nat} {later : List Quad} {lines : List Line}
      (rest : Emits 0 later lines) :
      Emits live (.label (.label number) :: later) (.label (Operand.label number).name :: lines)
  | jump {live label : Nat} {later : List Quad} {lines : List Line} (rest : Emits 0 later lines) :
      Emits live (.jump (.label label) :: later)
        (.instruction (.jump (Operand.label label).name) :: lines)
  | ret {live : Nat} {value : Operand} {later : List Quad} {block lines : List Line}
      (readable : value.Readable live) (selected : (Quad.ret value).selectReturn = .ok block)
      (rest : Emits 0 later lines) : Emits live (.ret value :: later) (block ++ lines)

/-!
## Producers
-/

/-- What is known of the producers of the first `live` temporaries: they left values that
can be tested. -/
def Known (live : Nat) (producers : List (String × CommandKind)) : Prop :=
  ∀ number, 0 < number → number ≤ live →
    producers.lookup (Operand.temporary number).name = some .arithmetic ∨
      producers.lookup (Operand.temporary number).name = some .unary

/-- Nothing is known of no temporaries, whatever has been recorded. -/
theorem Known.zero (producers : List (String × CommandKind)) : Known 0 producers := by
  intro number positive bound
  omega

/-- The producers that selection records, with the indices that pairing records. -/
def kindsOf (producers : List (String × Producer)) : List (String × CommandKind) :=
  producers.map (fun (name, producer) => (name, producer.kind))

/-- The kind of a producer is found where the producer is. -/
theorem lookup_kindsOf (producers : List (String × Producer)) (name : String) :
    (kindsOf producers).lookup name = (producers.lookup name).map Producer.kind := by
  induction producers with
  | nil => rfl
  | cons entry later inductionHypothesis =>
    rw [kindsOf, List.map_cons, List.lookup_cons, List.lookup_cons]
    cases name == entry.1 with
    | true => rfl
    | false => exact inductionHypothesis

/-- The producers behind a quadruple. -/
def recorded (index : Nat) (producers : List (String × Producer)) (quad : Quad) :
    List (String × Producer) :=
  match quad.produced?, quad.kind? with
  | some name, some kind => (name, ⟨kind, index⟩) :: producers
  | _, _ => producers

/-- Selection and pairing record the same producers. The two walks are separate, and this keeps them
in step. -/
theorem producersAfter_kindsOf (waiting : List Branch) (index : Nat)
    (producers : List (String × Producer)) (quad : Quad) :
    (Selection.mk waiting (kindsOf producers)).producersAfter quad =
      kindsOf (recorded index producers quad) := by
  unfold Selection.producersAfter recorded
  cases quad.produced? with
  | none => rfl
  | some name =>
    cases quad.kind? with
    | none => rfl
    | some kind => rfl

/-- Pairing looks at one quadruple, with what it has recorded behind it, and goes on. If the
quadruple tests a comparison, a branch is added in front. -/
theorem Pairing.collect_cons (index : Nat) (producers : List (String × Producer)) (quad : Quad)
    (later : List Quad) :
    collect index producers (quad :: later) =
      match quad.tested?.bind (fun name => (recorded index producers quad).lookup name),
        quad.target with
      | some ⟨.relational, comparison⟩, some label =>
        ⟨comparison :: (collect (index + 1) (recorded index producers quad) later).feeding,
          ⟨label.name, quad.jumpsWhenTrue⟩ ::
            (collect (index + 1) (recorded index producers quad) later).branches⟩
      | _, _ => collect (index + 1) (recorded index producers quad) later := rfl

/-- A quadruple that does not test a comparison pairs nothing. -/
theorem Pairing.collect_unpaired {index : Nat} {producers : List (String × Producer)}
    {quad : Quad} {later : List Quad}
    (unpaired : ∀ comparison, quad.tested?.bind (fun name =>
      (recorded index producers quad).lookup name) ≠ some ⟨.relational, comparison⟩) :
    collect index producers (quad :: later) =
      collect (index + 1) (recorded index producers quad) later := by
  rw [collect_cons]
  split
  · rename_i comparison label paired _
    exact absurd paired (unpaired comparison)
  · rfl

/-- What is written is known, and what was known below it. The kind is one that a jump can test with
lines of its own. -/
theorem Known.written {live next index : Nat} {producers : List (String × Producer)} {quad : Quad}
    {target : Operand} {kind : CommandKind} (known : Known live (kindsOf producers))
    (writable : target.Writable live next) (targeted : quad.target = some target)
    (kinded : quad.kind? = some kind) (testable : kind = .arithmetic ∨ kind = .unary) :
    Known next (kindsOf (recorded index producers quad)) := by
  cases writable with
  | stored => exact Known.zero _
  | temporary bound =>
    have produces : quad.produced? = some (Operand.temporary next).name := by
      rcases testable with rfl | rfl <;>
        simp [Quad.produced?, Quad.producesValue, kinded, CommandKind.producesValue, targeted,
          Operand.isTemporary, Operand.temporary]
    intro number positive small
    rw [recorded, produces, kinded, kindsOf, List.map_cons, List.lookup_cons]
    by_cases isTarget : number = next
    · subst isTarget
      rw [beq_self_eq_true]
      exact testable.imp (congrArg some) (congrArg some)
    · have otherName : ((Operand.temporary number).name == (Operand.temporary next).name) =
          false := by
        rw [beq_eq_false_iff_ne]
        intro sameName
        exact isTarget (Operand.temporary_name_injective sameName)
      rw [otherName]
      exact known number positive (by omega)

/-- The command of a jump on a condition. -/
def Command.branch (whenTrue : Bool) : Command :=
  ⟨if whenTrue then ifTrueText else ifFalseText, .conditionalJump⟩

/-- The command of a jump tells when it is taken, by its spelling. -/
theorem Command.branch_jumpsWhenTrue (whenTrue : Bool) :
    (Command.branch whenTrue).jumpsWhenTrue = whenTrue := by
  cases whenTrue <;> rfl

/-- A jump on a condition has its command. -/
theorem Quad.branch_command (whenTrue : Bool) (condition label : Operand) :
    (Quad.branch whenTrue condition label).command = some (.branch whenTrue) := by
  cases whenTrue <;> rfl

/-- A jump on a condition tests it if it is a temporary. A variable or a literal is no test, as
nothing has produced it. -/
theorem Quad.branch_tested (whenTrue : Bool) (condition label : Operand) :
    (Quad.branch whenTrue condition label).tested? =
      if condition.isTemporary then some condition.name else none := by
  have tested : (Quad.branch whenTrue condition label).tested? =
      ((some condition).filter Operand.isTemporary).map Operand.name := by
    cases whenTrue <;> rfl
  rw [tested, Option.filter_some]
  by_cases temporary : condition.isTemporary = true
  · rw [if_pos temporary, if_pos temporary, Option.map_some]
  · rw [if_neg temporary, if_neg temporary, Option.map_none]

/-- A jump produces nothing, so the record stays. -/
theorem recorded_branch (index : Nat) (producers : List (String × Producer)) (whenTrue : Bool)
    (condition label : Operand) :
    recorded index producers (.branch whenTrue condition label) = producers := by
  cases whenTrue <;> rfl

/-- What a jump on a readable operand tests was not produced by a comparison, nor by a logical
operator. So the jump has lines of its own. -/
theorem Known.tested {live : Nat} {producers : List (String × Producer)} {condition : Operand}
    (known : Known live (kindsOf producers)) (readable : condition.Readable live)
    (whenTrue : Bool) (label : Operand) :
    (Quad.branch whenTrue condition label).tested?.bind (fun name =>
        (kindsOf producers).lookup name) ≠ some .relational ∧
      (Quad.branch whenTrue condition label).tested?.bind (fun name =>
        (kindsOf producers).lookup name) ≠ some .logical := by
  rw [Quad.branch_tested]
  cases readable with
  | literal => exact ⟨(Option.some_ne_none _).symm, (Option.some_ne_none _).symm⟩
  | stored => exact ⟨(Option.some_ne_none _).symm, (Option.some_ne_none _).symm⟩
  | @temporary number positive bound =>
    rw [if_pos (by rfl), Option.bind_some]
    rcases known number positive bound with isArithmetic | isUnary
    · rw [isArithmetic]
      decide
    · rw [isUnary]
      decide

/-!
## Selection follows the rules
-/

/-- A walk without a fault has the lines of the first quadruple, and goes on behind it without a
fault. -/
theorem Selection.selectAll_cons {feeding : List Nat} {state : Selection} {index : Nat}
    {quad : Quad} {command : Command} {later : List Quad} (commanded : quad.command = some command)
    (noFault : (state.selectAll feeding index (quad :: later)).fault = none) :
    ∃ selected, state.selectCommand (feeding.contains index) quad command = .ok selected ∧
      (state.selectAll feeding index (quad :: later)).lines = selected.lines ++
        ((Selection.mk selected.waiting (state.producersAfter quad)).selectAll feeding (index + 1)
          later).lines ∧
      ((Selection.mk selected.waiting (state.producersAfter quad)).selectAll feeding (index + 1)
        later).fault = none := by
  rw [selectAll, commanded] at noFault ⊢
  cases chosen : state.selectCommand (feeding.contains index) quad command with
  | error fault =>
    simp only [chosen] at noFault
    cases noFault
  | ok selected =>
    simp only [chosen] at noFault ⊢
    exact ⟨selected, rfl, rfl, noFault⟩

section Walk

variable {feeding : List Nat} {index : Nat} {producers : List (String × Producer)}

/-- The lines that selection emits for quadruples when the branches that wait are their
own. -/
def walk (feeding : List Nat) (index : Nat) (producers : List (String × Producer))
    (quads : List Quad) : Assembled :=
  Selection.selectAll feeding
    ⟨(Pairing.collect index producers quads).branches, kindsOf producers⟩ index quads

/-- Every comparison that feeds a branch of the quadruples is known to feed one. -/
def Fed (feeding : List Nat) (index : Nat) (producers : List (String × Producer))
    (quads : List Quad) : Prop :=
  ∀ comparison ∈ (Pairing.collect index producers quads).feeding, comparison ∈ feeding

/-- A quadruple whose lines do not depend on the branches that wait is passed, and the
branches go on waiting. -/
theorem walk_plain {quad : Quad} {command : Command} {later : List Quad}
    {select : Except Fault (List Line)} (commanded : quad.command = some command)
    (unpaired : ∀ comparison, quad.tested?.bind (fun name =>
      (recorded index producers quad).lookup name) ≠ some ⟨.relational, comparison⟩)
    (selects : ∀ waiting feeds, (Selection.mk waiting (kindsOf producers)).selectCommand feeds quad
      command = select.map (fun lines => { lines, waiting }))
    (fed : Fed feeding index producers (quad :: later))
    (noFault : (walk feeding index producers (quad :: later)).fault = none) :
    ∃ block, select = .ok block ∧ (walk feeding index producers (quad :: later)).lines =
        block ++ (walk feeding (index + 1) (recorded index producers quad) later).lines ∧
      Fed feeding (index + 1) (recorded index producers quad) later ∧
      (walk feeding (index + 1) (recorded index producers quad) later).fault = none := by
  rw [Fed, Pairing.collect_unpaired unpaired] at fed
  rw [walk, Pairing.collect_unpaired unpaired] at noFault ⊢
  obtain ⟨selected, chosen, lines, noFault⟩ := Selection.selectAll_cons commanded noFault
  rw [selects] at chosen
  cases select with
  | error fault => cases chosen
  | ok block =>
    cases chosen
    rw [producersAfter_kindsOf _ index] at lines noFault
    exact ⟨block, rfl, lines, fed, noFault⟩

/-- A jump that tests a comparison is paired with it, by the index that was recorded. -/
theorem Pairing.collect_paired {comparison number : Nat} (whenTrue : Bool) (label : Operand)
    {later : List Quad} (produced : producers.lookup (Operand.temporary number).name =
      some ⟨.relational, comparison⟩) :
    collect index producers (.branch whenTrue (.temporary number) label :: later) =
      ⟨comparison :: (collect (index + 1) producers later).feeding,
        ⟨label.name, whenTrue⟩ :: (collect (index + 1) producers later).branches⟩ := by
  have polarity : (Quad.branch whenTrue (.temporary number) label).jumpsWhenTrue = whenTrue := by
    cases whenTrue <;> rfl
  rw [collect_cons, recorded_branch, Quad.branch_tested, if_pos (by rfl), Option.bind_some,
    produced, Quad.branch_target, polarity]

/-- A jump that tests a comparison has no lines, because the comparison has jumped already. -/
theorem Quad.selectBranch_paired (whenTrue : Bool) (condition label : Operand)
    (command : Command) :
    (Quad.branch whenTrue condition label).selectBranch command (some .relational) = .ok [] := by
  cases whenTrue <;> rfl

/-- A comparison takes the first branch that waits, and the jump that tests it has no lines
of its own. -/
theorem walk_comparison {op : BinaryOp} {left right : Operand} {number : Nat} {whenTrue : Bool}
    {label : Operand} {later : List Quad} (isRelational : op.operatorClass = .relational)
    (fed : Fed feeding index producers (.binary op left right (.temporary number) ::
      .branch whenTrue (.temporary number) label :: later))
    (noFault : (walk feeding index producers (.binary op left right (.temporary number) ::
      .branch whenTrue (.temporary number) label :: later)).fault = none) :
    ∃ block learned, (Quad.binary op left right (.temporary number)).selectComparison op.symbol
        ⟨label.name, whenTrue⟩ = .ok block ∧
      (walk feeding index producers (.binary op left right (.temporary number) ::
        .branch whenTrue (.temporary number) label :: later)).lines =
        block ++ (walk feeding (index + 2) learned later).lines ∧
      Fed feeding (index + 2) learned later ∧
      (walk feeding (index + 2) learned later).fault = none := by
  have command : (Quad.binary op left right (.temporary number)).command =
      some ⟨op.symbol, .relational⟩ := by
    simp only [Quad.binary, Command.binary, isRelational]
  have kind : (Quad.binary op left right (.temporary number)).kind? = some .relational := by
    rw [Quad.kind?, command, Option.map_some]
  have untested : (Quad.binary op left right (.temporary number)).tested? = none := by
    rw [Quad.tested?, kind, if_neg (by decide)]
  have learned : recorded index producers (.binary op left right (.temporary number)) =
      ((Operand.temporary number).name, ⟨.relational, index⟩) :: producers := by
    have produces : (Quad.binary op left right (.temporary number)).produced? =
        some (Operand.temporary number).name := by
      rw [Quad.produced?, Quad.producesValue, kind]
      rfl
    rw [recorded, produces, kind]
  have found : (recorded index producers (.binary op left right (.temporary number))).lookup
      (Operand.temporary number).name = some ⟨.relational, index⟩ := by
    rw [learned, List.lookup_cons_self]
  rw [Fed, Pairing.collect_unpaired (by simp [untested]),
    Pairing.collect_paired whenTrue label found] at fed
  rw [walk, Pairing.collect_unpaired (by simp [untested]),
    Pairing.collect_paired whenTrue label found] at noFault ⊢
  obtain ⟨here, laterFed⟩ := List.forall_mem_cons.mp fed
  obtain ⟨selected, chosen, lines, noFault⟩ := Selection.selectAll_cons command noFault
  have feeds : feeding.contains index = true := List.contains_iff_mem.mpr here
  rw [feeds] at chosen
  obtain ⟨block, blockSelected, ⟨⟩⟩ := bind_eq_ok chosen
  rw [producersAfter_kindsOf _ index] at lines noFault
  obtain ⟨jump, jumpChosen, jumpLines, noFault⟩ :=
    Selection.selectAll_cons (Quad.branch_command whenTrue _ label) noFault
  have producer : (Quad.branch whenTrue (.temporary number) label).tested?.bind (fun name =>
      (kindsOf (recorded index producers (.binary op left right (.temporary number)))).lookup
        name) = some .relational := by
    rw [Quad.branch_tested, if_pos (by rfl), Option.bind_some, lookup_kindsOf, found,
      Option.map_some]
  obtain ⟨jumpBlock, jumpSelected, ⟨⟩⟩ := bind_eq_ok jumpChosen
  rw [producer, Quad.selectBranch_paired] at jumpSelected
  cases jumpSelected
  rw [producersAfter_kindsOf _ (index + 1), recorded_branch] at jumpLines noFault
  refine ⟨block, _, blockSelected, ?_, laterFed, noFault⟩
  rw [lines, jumpLines]
  rfl

/-- Selection emits the lines of the rules for orderly quadruples. The induction is on their order;
what selection has recorded and which comparisons feed a jump are carried along. -/
theorem Orderly.emits {live : Nat} {quads : List Quad} (orderly : Orderly live quads)
    (known : Known live (kindsOf producers)) (fed : Fed feeding index producers quads)
    (noFault : (walk feeding index producers quads).fault = none) :
    Emits live quads (walk feeding index producers quads).lines := by
  induction orderly generalizing index producers with
  | nil => exact .nil
  | @arithmetic live next op left right target later isArithmetic leftReadable rightReadable
      writable rest inductionHypothesis =>
    have command : (Quad.binary op left right target).command = some ⟨op.symbol, .arithmetic⟩ := by
      simp only [Quad.binary, Command.binary, isArithmetic]
    have kind : (Quad.binary op left right target).kind? = some .arithmetic := by
      rw [Quad.kind?, command, Option.map_some]
    have untested : (Quad.binary op left right target).tested? = none := by
      rw [Quad.tested?, kind, if_neg (by decide)]
    obtain ⟨block, selected, lines, fed, noFault⟩ := walk_plain command
      (by simp [untested]) (fun _ _ => rfl) fed noFault
    rw [lines]
    exact .arithmetic isArithmetic leftReadable rightReadable writable selected
      (inductionHypothesis (known.written writable rfl kind (.inl rfl)) fed noFault)
  | @unary live next op operand target later readable writable rest inductionHypothesis =>
    have untested : (Quad.unary op operand target).tested? = none := rfl
    obtain ⟨block, selected, lines, fed, noFault⟩ := walk_plain rfl (by simp [untested])
      (fun _ _ => rfl) fed noFault
    rw [lines]
    exact .unary readable writable selected
      (inductionHypothesis (known.written writable rfl rfl (.inr rfl)) fed noFault)
  | @copy live source name address later readable rest inductionHypothesis =>
    have untested : (Quad.copy source (.stored name address)).tested? = none := rfl
    obtain ⟨block, selected, lines, fed, noFault⟩ := walk_plain rfl (by simp [untested])
      (fun _ _ => rfl) fed noFault
    rw [lines]
    exact .copy readable selected (inductionHypothesis (Known.zero _) fed noFault)
  | @comparison live number label op left right whenTrue later isRelational leftReadable
      rightReadable rest inductionHypothesis =>
    obtain ⟨block, learned, selected, lines, fed, noFault⟩ :=
      walk_comparison isRelational fed noFault
    rw [lines]
    exact .comparison isRelational leftReadable rightReadable selected
      (inductionHypothesis (Known.zero _) fed noFault)
  | @branch live label condition whenTrue later readable rest inductionHypothesis =>
    have producer := known.tested readable whenTrue (.label label)
    have selects : ∀ waiting feeds, (Selection.mk waiting (kindsOf producers)).selectCommand feeds
        (.branch whenTrue condition (.label label)) (.branch whenTrue) =
        ((Quad.branch whenTrue condition (.label label)).selectBranch (.branch whenTrue)
          ((Quad.branch whenTrue condition (.label label)).tested?.bind (fun name =>
            (kindsOf producers).lookup name))).map (fun lines => { lines, waiting }) :=
      fun _ _ => rfl
    have unpaired : ∀ comparison,
        (Quad.branch whenTrue condition (.label label)).tested?.bind (fun name =>
          (recorded index producers (.branch whenTrue condition (.label label))).lookup name) ≠
        some ⟨.relational, comparison⟩ := by
      intro comparison paired
      rw [recorded_branch] at paired
      refine producer.1 ?_
      obtain ⟨name, tested, found⟩ := Option.bind_eq_some_iff.mp paired
      rw [tested, Option.bind_some, lookup_kindsOf, found, Option.map_some]
    obtain ⟨block, selected, lines, fed, noFault⟩ := walk_plain
      (Quad.branch_command whenTrue condition (.label label)) unpaired selects fed noFault
    rw [lines]
    exact .branch readable (Command.branch_jumpsWhenTrue whenTrue) producer selected
      (inductionHypothesis (Known.zero _) fed noFault)
  | @label live number later rest inductionHypothesis =>
    have untested : (Quad.label (.label number)).tested? = none := rfl
    have selects : ∀ waiting feeds, (Selection.mk waiting (kindsOf producers)).selectCommand feeds
        (.label (.label number)) ⟨"label", .label⟩ =
        (Except.ok [.label (Operand.label number).name]).map (fun lines => { lines, waiting }) :=
      fun _ _ => rfl
    obtain ⟨block, ⟨⟩, lines, fed, noFault⟩ := walk_plain rfl (by simp [untested]) selects fed
      noFault
    rw [lines]
    exact .label (inductionHypothesis (Known.zero _) fed noFault)
  | @jump live label later rest inductionHypothesis =>
    have untested : (Quad.jump (.label label)).tested? = none := rfl
    have selects : ∀ waiting feeds, (Selection.mk waiting (kindsOf producers)).selectCommand feeds
        (.jump (.label label)) ⟨"goto", .unconditionalJump⟩ =
        (Except.ok [.instruction (.jump (Operand.label label).name)]).map
          (fun lines => { lines, waiting }) :=
      fun _ _ => rfl
    obtain ⟨block, ⟨⟩, lines, fed, noFault⟩ := walk_plain rfl (by simp [untested]) selects fed
      noFault
    rw [lines]
    exact .jump (inductionHypothesis (Known.zero _) fed noFault)
  | @ret live value later readable rest inductionHypothesis =>
    have untested : (Quad.ret value).tested? = none := rfl
    obtain ⟨block, selected, lines, fed, noFault⟩ := walk_plain rfl (by simp [untested])
      (fun _ _ => rfl) fed noFault
    rw [lines]
    exact .ret readable selected (inductionHypothesis (Known.zero _) fed noFault)

end Walk

/-- The lines of an orderly program: those that set up the frame, those of the rules, and
those that give the frame up. -/
theorem Assembled.emits {program : Program} {lines : List Line} (orderly : Orderly 0 program.quads)
    (assembled : (Assembled.ofProgram program).result = .ok lines) :
    ∃ body, lines = prologue program.frameSize ++ body ++ epilogue ∧
      Emits 0 program.quads body := by
  have noFault : (Assembled.ofProgram program).fault = none := by
    rw [Assembled.result] at assembled
    cases fault : (Assembled.ofProgram program).fault with
    | none => rfl
    | some fault' =>
      rw [fault] at assembled
      cases assembled
  rw [Assembled.result, noFault] at assembled
  cases assembled
  exact ⟨_, rfl, orderly.emits (Known.zero _) (fun _ member => member) noFault⟩

end IntMain
