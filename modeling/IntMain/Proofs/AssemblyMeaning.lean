import IntMain.Proofs.LoweringMeaning
import IntMain.Proofs.SelectionRules

/-!
# The lines of a program do what its quadruples do

Both machines run side by side. They are aligned when the lines that are left are those of
the quadruples that are left, and the registers and the frame agree with the temporaries
and the variables. From aligned states the quadruple machine takes a step, or the two of a
comparison and its jump, and the line machine takes the steps of its lines, to aligned
states again. Where the quadruples end, the lines lead to the label behind them.

A quadruple can have no lines at all, so the line machine may stand still while the other
moves; but then the other moves forward in its code, and it cannot do that forever.
-/

namespace IntMain

/-!
## Labels
-/

/-- Lines without labels. -/
def Unlabelled (lines : List Line) : Prop := ∀ name, Line.label name ∉ lines

/-- Lines that are executed from the first to the last have no labels, because a label is not
executed this way. So a run of lines never has to be searched for the target of a jump. -/
theorem Unlabelled.of_performed {meaning : Interpretation} {store stored : LineMachine.Store}
    {lines : List Line} (performed : store.performAll? meaning lines = some stored) :
    Unlabelled lines := by
  induction lines generalizing store with
  | nil =>
    intro name member
    cases member
  | cons line later inductionHypothesis =>
    intro name member
    cases line with
    | label other => cases performed
    | comment text =>
      rcases List.mem_cons.mp member with same | behind
      · cases same
      · exact inductionHypothesis performed name behind
    | instruction executed =>
      obtain ⟨middle, -, continued⟩ := Option.bind_eq_some_iff.mp performed
      rcases List.mem_cons.mp member with same | behind
      · cases same
      · exact inductionHypothesis continued name behind

/-- A jump behind lines without labels is no label either, nor is any other instruction. The lines
of a quadruple that ends in a jump are of this form. -/
theorem Unlabelled.concat {lines : List Line} (unlabelled : Unlabelled lines)
    (executed : Instruction) : Unlabelled (lines ++ [.instruction executed]) := by
  intro name member
  rcases List.mem_append.mp member with inFront | last
  · exact unlabelled name inFront
  · cases List.mem_singleton.mp last

/-- A state of each machine in which everything is zero. Such states agree however many temporaries
matter, and are used where lines are executed only to see that they have no labels. -/
theorem agrees_zero (live : Nat) :
    Agrees live ⟨0, fun _ => 0, fun _ => 0⟩ ⟨fun _ => 0, fun _ => 0, (0, 0)⟩ :=
  ⟨rfl, fun _ _ _ _ => rfl⟩

/-- Quadruples and their lines start with a label, or with quadruples and lines that have
none. -/
theorem Emits.uncons {live : Nat} {quads : List Quad} {body : List Line}
    (emits : Emits live quads body) :
    (quads = [] ∧ body = []) ∨
    (∃ number later lines, quads = .label (.label number) :: later ∧
      body = .label (Operand.label number).name :: lines ∧ Emits 0 later lines) ∨
    ∃ next front later block lines, front ≠ [] ∧ quads = front ++ later ∧ body = block ++ lines ∧
      Emits next later lines ∧ (∀ quad ∈ front, quad.labelName? = none) ∧ Unlabelled block := by
  -- the lines of a command can be executed from some state, so they have no labels
  have agrees := agrees_zero live
  cases emits with
  | nil => exact .inl ⟨rfl, rfl⟩
  | label rest => exact .inr (.inl ⟨_, _, _, rfl, rfl, rest⟩)
  | @arithmetic _ next op left right target later block lines isArithmetic leftReadable
      rightReadable writable selected rest =>
    obtain ⟨_, _, _, _, -, -, -, performed, -⟩ :=
      arithmetic_performed .integers agrees leftReadable rightReadable writable selected
    refine .inr (.inr ⟨_, [_], _, _, _, by simp, rfl, rfl, rest, ?_, .of_performed performed⟩)
    exact List.forall_mem_singleton.mpr (Quad.labelName_binary op left right target)
  | unary readable writable selected rest =>
    obtain ⟨_, _, _, -, -, performed, -⟩ :=
      unary_performed .integers agrees readable writable selected
    refine .inr (.inr ⟨_, [_], _, _, _, by simp, rfl, rfl, rest, ?_, .of_performed performed⟩)
    exact List.forall_mem_singleton.mpr rfl
  | copy readable selected rest =>
    obtain ⟨_, _, _, -, -, performed, -⟩ := copy_performed .integers agrees readable selected
    refine .inr (.inr ⟨_, [_], _, _, _, by simp, rfl, rfl, rest, ?_, .of_performed performed⟩)
    exact List.forall_mem_singleton.mpr rfl
  | @comparison _ number label op left right whenTrue later block lines isRelational leftReadable
      rightReadable selected rest =>
    obtain ⟨_, _, _, _, _, -, -, -, rfl, performed, -⟩ :=
      comparison_performed .integers agrees leftReadable rightReadable selected
    refine .inr (.inr ⟨_, [_, _], _, _, _, by simp, rfl, rfl, rest, ?_,
      (Unlabelled.of_performed performed).concat _⟩)
    refine List.forall_mem_cons.mpr ⟨Quad.labelName_binary .., List.forall_mem_singleton.mpr ?_⟩
    cases whenTrue <;> rfl
  | @branch _ label condition whenTrue command producer later block lines readable polarity known
      selected rest =>
    obtain ⟨_, _, _, -, rfl, performed, -⟩ :=
      branch_performed .integers agrees readable known selected
    refine .inr (.inr ⟨_, [_], _, _, _, by simp, rfl, rfl, rest, ?_,
      (Unlabelled.of_performed performed).concat _⟩)
    refine List.forall_mem_singleton.mpr ?_
    cases whenTrue <;> rfl
  | @jump _ label later lines rest =>
    refine .inr (.inr ⟨_, [_], _, [_], _, by simp, rfl, rfl, rest, ?_, ?_⟩)
    · exact List.forall_mem_singleton.mpr rfl
    · intro name member
      cases List.mem_singleton.mp member
  | ret readable selected rest =>
    obtain ⟨_, _, _, -, rfl, performed, -⟩ := ret_performed .integers agrees readable selected
    refine .inr (.inr ⟨_, [_], _, _, _, by simp, rfl, rfl, rest, ?_,
      (Unlabelled.of_performed performed).concat _⟩)
    exact List.forall_mem_singleton.mpr rfl

/-- Quadruples in front without that label do not hide it: it is found behind them, further on by
their number. Other labels in front are no hindrance. -/
theorem QuadMachine.labelIndex_behind {front later : List Quad} {name : String}
    (unlabelled : ∀ quad ∈ front, quad.labelName? ≠ some name) :
    labelIndex? (front ++ later) name =
      (labelIndex? later name).map (fun index => index + front.length) := by
  have none : front.findIdx? (isLabel name) = none := by
    rw [List.findIdx?_eq_none_iff]
    intro quad member
    rw [Bool.eq_false_iff, ne_eq, isLabel_iff]
    exact unlabelled quad member
  rw [labelIndex?, List.findIdx?_append, none, Option.none_or]
  rfl

/-- Lines in front without that label do not hide it: it is found behind them, further on by their
number. Other labels in front are no hindrance. -/
theorem LineMachine.labelIndex_behind {front later : List Line} {name : String}
    (unlabelled : Line.label name ∉ front) :
    labelIndex? (front ++ later) name =
      (labelIndex? later name).map (fun index => index + front.length) := by
  have none : front.findIdx? (fun line => line == .label name) = none := by
    rw [List.findIdx?_eq_none_iff]
    intro line member
    rw [beq_eq_false_iff_ne]
    rintro rfl
    exact unlabelled member
  rw [labelIndex?, List.findIdx?_append, none, Option.none_or]
  rfl

/-- Quadruples and their lines start with a given label, or with quadruples and lines that
do not have it. -/
theorem Emits.uncons_label {live : Nat} {quads : List Quad} {body : List Line}
    (emits : Emits live quads body) (number : Nat) :
    (quads = [] ∧ body = []) ∨
    (∃ later lines, quads = .label (.label number) :: later ∧
      body = .label (Operand.label number).name :: lines ∧ Emits 0 later lines) ∨
    ∃ next front later block lines, front ≠ [] ∧ quads = front ++ later ∧ body = block ++ lines ∧
      Emits next later lines ∧
      (∀ quad ∈ front, quad.labelName? ≠ some (Operand.label number).name) ∧
      Line.label (Operand.label number).name ∉ block := by
  rcases emits.uncons with none | ⟨other, later, lines, rfl, rfl, rest⟩ |
    ⟨next, front, later, block, lines, nonempty, rfl, rfl, rest, noLabels, unlabelled⟩
  · exact .inl none
  · by_cases here : other = number
    · subst here
      exact .inr (.inl ⟨later, lines, rfl, rfl, rest⟩)
    · have otherName : (Operand.label other).name ≠ (Operand.label number).name :=
        fun same => here (Operand.label_name_injective same)
      refine .inr (.inr ⟨0, [_], later, [_], lines, by simp, rfl, rfl, rest, ?_, ?_⟩)
      · refine List.forall_mem_singleton.mpr ?_
        intro same
        exact otherName (Option.some.inj same)
      · intro member
        exact otherName (Line.label.inj (List.mem_singleton.mp member)).symm
  · refine .inr (.inr ⟨next, front, later, block, lines, nonempty, rfl, rfl, rest, ?_,
      unlabelled _⟩)
    intro quad member
    rw [noLabels quad member]
    exact (Option.some_ne_none _).symm

/-- Where a jump goes in the quadruples, it goes in the lines: the label is found in both, and the
quadruples from there on are emitted as the lines from there on. At a label no temporary matters,
which is why the rest is emitted with none. -/
theorem Emits.target {live number index : Nat} {quads : List Quad} {body : List Line}
    (emits : Emits live quads body)
    (found : QuadMachine.labelIndex? quads (Operand.label number).name = some index) :
    ∃ first second, body = first ++ second ∧ Emits 0 (quads.drop index) second ∧
      LineMachine.labelIndex? body (Operand.label number).name = some first.length := by
  generalize size : quads.length = count
  induction count using Nat.strongRecOn generalizing live quads body index with
  | ind count inductionHypothesis =>
    rcases emits.uncons_label number with ⟨rfl, rfl⟩ | ⟨later, lines, rfl, rfl, rest⟩ |
      ⟨next, front, later, block, lines, nonempty, rfl, rfl, rest, noLabel, unlabelled⟩
    · cases found
    · have isHere : QuadMachine.isLabel (Operand.label number).name (.label (.label number)) =
          true := QuadMachine.isLabel_iff.mpr rfl
      rw [QuadMachine.labelIndex?, List.findIdx?_cons, if_pos isHere] at found
      cases found
      refine ⟨[], _, rfl, .label rest, ?_⟩
      rw [LineMachine.labelIndex?, List.findIdx?_cons, if_pos (beq_self_eq_true _)]
      rfl
    · rw [QuadMachine.labelIndex_behind noLabel] at found
      obtain ⟨within, foundLater, rfl⟩ := Option.map_eq_some_iff.mp found
      have shorter : later.length < count := by
        have positive := List.length_pos_of_ne_nil nonempty
        rw [List.length_append] at size
        omega
      obtain ⟨first, second, rfl, emitted, lineFound⟩ :=
        inductionHypothesis later.length shorter rest foundLater rfl
      refine ⟨block ++ first, second, by rw [List.append_assoc], ?_, ?_⟩
      · rwa [Nat.add_comm, ← List.drop_drop, List.drop_left]
      · rw [LineMachine.labelIndex_behind unlabelled, lineFound, Option.map_some,
          List.length_append, Nat.add_comm]

/-- The only labels among the lines are numbered ones. The label of the program and the one behind
its code are therefore not hidden by any of them. -/
theorem Emits.labels_numbered {live : Nat} {quads : List Quad} {body : List Line}
    (emits : Emits live quads body) {name : String} (member : Line.label name ∈ body) :
    ∃ number, name = (Operand.label number).name := by
  generalize size : quads.length = count
  induction count using Nat.strongRecOn generalizing live quads body with
  | ind count inductionHypothesis =>
    rcases emits.uncons with ⟨rfl, rfl⟩ | ⟨number, later, lines, rfl, rfl, rest⟩ |
      ⟨next, front, later, block, lines, nonempty, rfl, rfl, rest, -, unlabelled⟩
    · cases member
    · rcases List.mem_cons.mp member with same | behind
      · exact ⟨number, Line.label.inj same⟩
      · exact inductionHypothesis later.length (by simp [← size]) rest behind rfl
    · have shorter : later.length < count := by
        have positive := List.length_pos_of_ne_nil nonempty
        rw [List.length_append] at size
        omega
      rcases List.mem_append.mp member with inBlock | behind
      · exact absurd inBlock (unlabelled name)
      · exact inductionHypothesis later.length shorter rest behind rfl

/-- The lines of a program: some in front, those of the quadruples, and those behind. No
label in front can be mistaken for one of the program's own. -/
structure Layout (quads : List Quad) (lines front body : List Line) : Prop where
  whole : lines = front ++ (body ++ epilogue)
  emits : Emits 0 quads body
  numbered : ∀ number, Line.label (Operand.label number).name ∉ front
  exit : Line.label exitLabel ∉ front

/-- No numbered label is the label behind the program's code, since the two start with different
letters. -/
theorem Operand.label_name_ne_exit (number : Nat) : (Operand.label number).name ≠ exitLabel := by
  intro same
  have heads := congrArg (fun name => name.toList.head?) same
  simp [Operand.label, exitLabel, String.toList_append] at heads

namespace Layout

variable {quads : List Quad} {lines front body : List Line}

/-- A jump of the quadruples leads to the lines of its target, with the lines that set up the frame
in front of them and those that give it up behind them. -/
theorem target (layout : Layout quads lines front body) {number index : Nat}
    (found : QuadMachine.labelIndex? quads (Operand.label number).name = some index) :
    ∃ position rest, LineMachine.labelIndex? lines (Operand.label number).name = some position ∧
      Emits 0 (quads.drop index) rest ∧ lines.drop position = rest ++ epilogue := by
  obtain ⟨first, second, rfl, emitted, lineFound⟩ := layout.emits.target found
  refine ⟨front.length + first.length, second, ?_, emitted, ?_⟩
  · have inBody : LineMachine.labelIndex? (first ++ second ++ epilogue)
        (Operand.label number).name = some first.length := by
      rw [LineMachine.labelIndex?] at lineFound ⊢
      rw [List.findIdx?_append, lineFound, Option.some_or]
    rw [layout.whole, LineMachine.labelIndex_behind (layout.numbered number), inBody,
      Option.map_some, Nat.add_comm]
  · rw [layout.whole, ← List.drop_drop, List.drop_left, List.append_assoc, List.drop_left]

/-- A return leads to the label behind the program's code. It is found there, because neither the
frame nor the code has a label of that name. -/
theorem exit_found (layout : Layout quads lines front body) :
    ∃ position, LineMachine.labelIndex? lines exitLabel = some position ∧
      lines[position]? = some (.label exitLabel) := by
  have notInBody : Line.label exitLabel ∉ body := by
    intro member
    obtain ⟨number, same⟩ := layout.emits.labels_numbered member
    exact Operand.label_name_ne_exit number same.symm
  refine ⟨0 + body.length + front.length, ?_, ?_⟩
  · rw [layout.whole, LineMachine.labelIndex_behind layout.exit,
      LineMachine.labelIndex_behind notInBody]
    rfl
  · rw [layout.whole, List.getElem?_append_right (by omega), List.getElem?_append_right (by omega)]
    simp [epilogue]

end Layout

/-!
## One step of both machines
-/

/-- The lines that are left are those of the quadruples that are left, and the stores
agree. -/
def Aligned (quads : List Quad) (lines : List Line) (state : QuadMachine.State)
    (lineState : LineMachine.State) : Prop :=
  ∃ live body, Emits live (quads.drop state.counter) body ∧ Agrees live state lineState.store ∧
    lines.drop lineState.counter = body ++ epilogue

/-- The quadruples end here, and the lines lead to the label behind them with the same
memory, and with the value that is returned. -/
def Arrives (meaning : Interpretation) (quads : List Quad) (lines : List Line)
    (state : QuadMachine.State) (lineState : LineMachine.State) : Prop :=
  ∃ ending final, state.ending? quads = some ending ∧
    Machine.Reaches (LineMachine.step meaning lines) lineState final ∧ final.atExit lines ∧
    final.store.memory = state.memory ∧
    ∀ value, ending = .returned value → final.store.registers .eax = value

/-- Both machines go on to aligned states. The line machine takes a step, or the other
moves to the next quadruple. -/
def Progresses (meaning : Interpretation) (quads : List Quad) (lines : List Line)
    (state : QuadMachine.State) (lineState : LineMachine.State) : Prop :=
  ∃ taken next steps lineNext, 0 < taken ∧
    Machine.after (QuadMachine.step meaning quads) taken state = some next ∧
    Machine.after (LineMachine.step meaning lines) steps lineState = some lineNext ∧
    Aligned quads lines next lineNext ∧
    (0 < steps ∨ (state.counter < quads.length ∧ next.counter = state.counter + 1))

section Steps

variable {meaning : Interpretation} {quads : List Quad} {lines front body : List Line}
  {state : QuadMachine.State} {lineState : LineMachine.State}

/-- What is left starts with the instruction that is fetched. Stated for any instructions, since the
machine of quadruples and that of lines fetch alike. -/
theorem fetch_of_drop {Instruction : Type} {program later : List Instruction} {position : Nat}
    {instruction : Instruction} (left : program.drop position = instruction :: later) :
    program[position]? = some instruction ∧ program.drop (position + 1) = later ∧
      position < program.length := by
  have fetched : program[position]? = some instruction := by
    rw [← List.head?_drop, left, List.head?_cons]
  refine ⟨fetched, ?_, ?_⟩
  · rw [← List.drop_drop, left]
    rfl
  · exact (List.getElem?_eq_some_iff.mp fetched).choose

/-- A quadruple that leads on to the next one, with lines that lead on. The states behind both have
to agree on the temporaries that matter from there on, which may be fewer than before. -/
theorem progresses_straight {quad : Quad} {later : List Quad} {block rest : List Line}
    {next : Nat} {written : QuadMachine.State} {stored : LineMachine.Store}
    (left : quads.drop state.counter = quad :: later)
    (linesLeft : lines.drop lineState.counter = block ++ rest ++ epilogue)
    (stepped : QuadMachine.step meaning quads state = some written.advance)
    (here : written.counter = state.counter)
    (performed : lineState.store.performAll? meaning block = some stored)
    (emits : Emits next later rest) (agrees : Agrees next written stored) :
    Progresses meaning quads lines state lineState := by
  obtain ⟨-, behind, inside⟩ := fetch_of_drop left
  have placed : CodeAt lines lineState.counter block :=
    ⟨rest ++ epilogue, by rw [linesLeft, List.append_assoc]⟩
  refine ⟨1, written.advance, block.length, _, Nat.one_pos, ?_,
    LineMachine.reaches_performAll placed performed,
    ⟨next, rest, ?_, ⟨agrees.memory, agrees.registers⟩, ?_⟩, .inr ⟨inside, ?_⟩⟩
  · rw [Machine.after_one, stepped]
  · rw [QuadMachine.State.advance, here, behind]
    exact emits
  · rw [← List.drop_drop, linesLeft, List.append_assoc, List.drop_left]
  · rw [QuadMachine.State.advance, here]

/-- Every state that is reached and has no next one is an end. A jump to a label that is not there
is stuck, and so is a quadruple that lacks an operand; for such runs nothing is claimed about the
lines. -/
def NeverStuck (meaning : Interpretation) (quads : List Quad) (start : QuadMachine.State) : Prop :=
  ∀ reached, Machine.Reaches (QuadMachine.step meaning quads) start reached →
    QuadMachine.step meaning quads reached = none → (reached.ending? quads).isSome = true

/-- A jump on a condition is taken if the condition's value says so, for both kinds of jump. The
label is looked up only if the jump is taken. -/
theorem QuadMachine.step_branch {whenTrue : Bool} {condition label : Operand} {value : Int}
    (fetched : quads[state.counter]? = some (.branch whenTrue condition label))
    (read : state.read? condition = some value) :
    step meaning quads state =
      if decide (value ≠ 0) = whenTrue then (labelIndex? quads label.name).map state.goto
      else some state.advance := by
  cases whenTrue with
  | true =>
    rw [step_jumpIfTrue fetched read]
    by_cases zero : value = 0 <;> simp [zero]
  | false =>
    rw [step_jumpIfFalse fetched read]
    by_cases zero : value = 0 <;> simp [zero]

/-- A jump that is not stuck finds its label. That labels are there is not proved here but taken
from the run, so nothing has to be known about how the program was lowered. -/
theorem NeverStuck.label_found {branchState : QuadMachine.State} {quad : Quad} {name : String}
    (neverStuck : NeverStuck meaning quads state)
    (reached : Machine.Reaches (QuadMachine.step meaning quads) state branchState)
    (fetched : quads[branchState.counter]? = some quad) (noReturn : quad.kind? ≠ some .ret)
    (stepped : QuadMachine.step meaning quads branchState =
      (QuadMachine.labelIndex? quads name).map branchState.goto) :
    ∃ index, QuadMachine.labelIndex? quads name = some index := by
  cases found : QuadMachine.labelIndex? quads name with
  | some index => exact ⟨index, rfl⟩
  | none =>
    rw [found, Option.map_none] at stepped
    have ended := neverStuck branchState reached stepped
    rw [QuadMachine.State.ending?, fetched] at ended
    simp [noReturn] at ended

/-- Lines that compare and jump lead where the quadruples do. How many quadruples this takes is left
open: a comparison and its branch are two quadruples and one jump of the lines, a test of a value is
one. Behind the jump no temporary matters, so the memories have to agree and nothing else. -/
theorem progresses_jumpIf {taken number : Nat} {relation : Relation} {later : List Quad}
    {compare rest : List Line} {stored : LineMachine.Store} {branchState : QuadMachine.State}
    (layout : Layout quads lines front body)
    (linesLeft : lines.drop lineState.counter = compare ++
      [.instruction (.jumpIf relation (Operand.label number).name)] ++ rest ++ epilogue)
    (performed : lineState.store.performAll? meaning compare = some stored)
    (memory : stored.memory = branchState.memory) (emits : Emits 0 later rest)
    (positive : 0 < taken)
    (jumps : relation.holds stored.compared.1 stored.compared.2 = true → ∃ index,
      QuadMachine.labelIndex? quads (Operand.label number).name = some index ∧
      Machine.after (QuadMachine.step meaning quads) taken state = some (branchState.goto index))
    (passes : relation.holds stored.compared.1 stored.compared.2 = false →
      Machine.after (QuadMachine.step meaning quads) taken state = some branchState.advance)
    (behind : quads.drop (branchState.counter + 1) = later) :
    Progresses meaning quads lines state lineState := by
  have comparePlaced : CodeAt lines lineState.counter (compare ++
      [.instruction (.jumpIf relation (Operand.label number).name)]) :=
    ⟨rest ++ epilogue, by rw [linesLeft, List.append_assoc _ rest]⟩
  obtain ⟨placed, jumpPlaced⟩ := comparePlaced.split
  have compared := LineMachine.reaches_performAll placed performed
  have jumped : LineMachine.step meaning lines ⟨lineState.counter + compare.length, stored⟩ = _ :=
    LineMachine.step_jumpIf jumpPlaced.fetch
  cases holds : relation.holds stored.compared.1 stored.compared.2 with
  | true =>
    obtain ⟨index, found, reached⟩ := jumps holds
    obtain ⟨position, targetLines, lineFound, emitted, linesAt⟩ := layout.target found
    rw [if_pos holds, lineFound, Option.map_some] at jumped
    refine ⟨taken, _, compare.length + 1, ⟨position, stored⟩, positive, reached, ?_,
      ⟨0, targetLines, emitted, .of_memory memory, linesAt⟩, .inl (Nat.succ_pos _)⟩
    rw [Machine.after_add, compared, Option.bind_some, Machine.after_one, jumped]
  | false =>
    rw [if_neg (by simp [holds])] at jumped
    refine ⟨taken, _, compare.length + 1, ⟨lineState.counter + compare.length + 1, stored⟩,
      positive, passes holds, ?_, ⟨0, rest, ?_, .of_memory memory, ?_⟩, .inl (Nat.succ_pos _)⟩
    · rw [Machine.after_add, compared, Option.bind_some, Machine.after_one, jumped]
    · rw [QuadMachine.State.advance, behind]
      exact emits
    · rw [Nat.add_assoc, ← List.drop_drop, linesLeft, List.append_assoc, List.drop_left']
      simp

/-- A jump of the quadruples is taken when the lines jump. The premise on the polarity is the only
one that the kinds of conditions have to meet each in its own way. -/
theorem progresses_branch {taken number : Nat} {relation : Relation} {later : List Quad}
    {compare rest : List Line} {stored : LineMachine.Store} {branchState : QuadMachine.State}
    {whenTrue : Bool} {condition : Operand} {value : Int}
    (layout : Layout quads lines front body) (neverStuck : NeverStuck meaning quads state)
    (reached : Machine.after (QuadMachine.step meaning quads) taken state = some branchState)
    (left : quads.drop branchState.counter =
      .branch whenTrue condition (.label number) :: later)
    (read : branchState.read? condition = some value)
    (linesLeft : lines.drop lineState.counter = compare ++
      [.instruction (.jumpIf relation (Operand.label number).name)] ++ rest ++ epilogue)
    (performed : lineState.store.performAll? meaning compare = some stored)
    (memory : stored.memory = branchState.memory)
    (polarity : relation.holds stored.compared.1 stored.compared.2 =
      decide (decide (value ≠ 0) = whenTrue)) (emits : Emits 0 later rest) :
    Progresses meaning quads lines state lineState := by
  obtain ⟨fetched, behind, -⟩ := fetch_of_drop left
  have stepped : QuadMachine.step meaning quads branchState = _ :=
    QuadMachine.step_branch fetched read
  have afterBranch : Machine.after (QuadMachine.step meaning quads) (taken + 1) state =
      QuadMachine.step meaning quads branchState := by
    rw [Machine.after_add, reached, Option.bind_some, Machine.after_one]
  refine progresses_jumpIf layout linesLeft performed memory emits (Nat.succ_pos taken) ?_ ?_
    behind
  · intro holds
    rw [polarity, decide_eq_true_iff] at holds
    rw [if_pos holds] at stepped
    have noReturn : (Quad.branch whenTrue condition (.label number)).kind? ≠ some .ret := by
      cases whenTrue <;>
        · intro impossible
          cases impossible
    obtain ⟨index, found⟩ := neverStuck.label_found ⟨taken, reached⟩ fetched noReturn stepped
    refine ⟨index, found, ?_⟩
    rw [afterBranch, stepped, found, Option.map_some]
  · intro fails
    rw [polarity, decide_eq_false_iff_not] at fails
    rw [afterBranch, stepped, if_neg fails]

/-- From aligned states, the quadruples end and the lines arrive, or both go on and are aligned
again. This is the step of the simulation; each rule of `Emits` is one of its cases. -/
theorem Aligned.continues (layout : Layout quads lines front body)
    (aligned : Aligned quads lines state lineState) (neverStuck : NeverStuck meaning quads state) :
    Arrives meaning quads lines state lineState ∨
      Progresses meaning quads lines state lineState := by
  obtain ⟨live, linesOfRest, emits, agrees, linesLeft⟩ := aligned
  generalize left : quads.drop state.counter = remaining at emits
  cases emits with
  | nil =>
    refine .inl ⟨.fellThrough, lineState, ?_, .refl _, ?_, agrees.memory, ?_⟩
    · rw [QuadMachine.State.ending?, List.getElem?_eq_none (List.drop_eq_nil_iff.mp left)]
    · exact (fetch_of_drop linesLeft).1
    · intro value impossible
      cases impossible
  | arithmetic isArithmetic leftReadable rightReadable writable selected rest =>
    obtain ⟨first, second, written, stored, leftRead, rightRead, wrote, performed, after⟩ :=
      arithmetic_performed meaning agrees leftReadable rightReadable writable selected
    have stepped := QuadMachine.step_binary (fetch_of_drop left).1 leftRead rightRead wrote
    exact .inr (progresses_straight left linesLeft stepped (QuadMachine.State.write_counter wrote)
      performed rest after)
  | unary readable writable selected rest =>
    obtain ⟨value, written, stored, read, wrote, performed, after⟩ :=
      unary_performed meaning agrees readable writable selected
    have stepped := QuadMachine.step_unary (fetch_of_drop left).1 read wrote
    exact .inr (progresses_straight left linesLeft stepped (QuadMachine.State.write_counter wrote)
      performed rest after)
  | copy readable selected rest =>
    obtain ⟨value, written, stored, read, wrote, performed, after⟩ :=
      copy_performed meaning agrees readable selected
    have stepped : QuadMachine.step meaning quads state = some written.advance :=
      QuadMachine.step_copy (fetch_of_drop left).1 read wrote
    exact .inr (progresses_straight left linesLeft stepped (QuadMachine.State.write_counter wrote)
      performed rest after)
  | @comparison _ number label op leftOperand rightOperand whenTrue later block restLines
      isRelational leftReadable rightReadable selected rest =>
    obtain ⟨first, second, relation, compare, stored, leftRead, rightRead, found, rfl, performed,
      compared, memory⟩ := comparison_performed meaning agrees leftReadable rightReadable selected
    obtain ⟨fetched, behind, -⟩ := fetch_of_drop left
    have stepped := QuadMachine.step_binary fetched leftRead rightRead
      (QuadMachine.State.write_temporary state number (meaning.binary op first second))
    have reached : Machine.after (QuadMachine.step meaning quads) 1 state = some _ :=
      (Machine.after_one state).trans stepped
    refine .inr (progresses_branch layout neverStuck reached behind
      (congrArg some (Function.update_self _ _ _)) linesLeft performed memory ?_ rest)
    rw [compared]
    cases whenTrue with
    | true => simp [Relation.holds_iff meaning found]
    | false => simp [Relation.holds_negated, Relation.holds_iff meaning found]
  | @branch _ label condition whenTrue command producer later block restLines readable polarity
      known selected rest =>
    obtain ⟨value, compare, stored, read, rfl, performed, compared, memory⟩ :=
      branch_performed meaning agrees readable known selected
    have here : Machine.after (QuadMachine.step meaning quads) 0 state = some state := rfl
    refine .inr (progresses_branch layout neverStuck here left read linesLeft performed memory
      ?_ rest)
    rw [compared, polarity]
    cases whenTrue <;> simp [Relation.holds]
  | @label _ number later restLines rest =>
    obtain ⟨fetched, behind, inside⟩ := fetch_of_drop left
    obtain ⟨lineFetched, linesBehind, -⟩ := fetch_of_drop linesLeft
    have stepped : QuadMachine.step meaning quads state = some state.advance :=
      QuadMachine.step_label fetched
    have lineStepped : LineMachine.step meaning lines lineState = some _ :=
      LineMachine.step_label lineFetched (Operand.label_name_ne_exit number)
    refine .inr ⟨1, state.advance, 1, ⟨lineState.counter + 1, lineState.store⟩, Nat.one_pos,
      (Machine.after_one state).trans stepped, (Machine.after_one lineState).trans lineStepped,
      ⟨0, restLines, ?_, .of_memory agrees.memory, linesBehind⟩, .inl Nat.one_pos⟩
    rw [QuadMachine.State.advance, behind]
    exact rest
  | @jump _ label later restLines rest =>
    obtain ⟨fetched, -, -⟩ := fetch_of_drop left
    have stepped : QuadMachine.step meaning quads state = _ := QuadMachine.step_jump fetched
    have noReturn : (Quad.jump (.label label)).kind? ≠ some .ret := by
      intro impossible
      cases impossible
    obtain ⟨index, found⟩ := neverStuck.label_found (.refl state) fetched noReturn stepped
    obtain ⟨position, targetLines, lineFound, emitted, linesAt⟩ := layout.target found
    have lineStepped : LineMachine.step meaning lines lineState = some _ :=
      LineMachine.step_jump (fetch_of_drop linesLeft).1 lineFound
    rw [found, Option.map_some] at stepped
    exact .inr ⟨1, state.goto index, 1, ⟨position, lineState.store⟩, Nat.one_pos,
      (Machine.after_one state).trans stepped, (Machine.after_one lineState).trans lineStepped,
      ⟨0, targetLines, emitted, .of_memory agrees.memory, linesAt⟩, .inl Nat.one_pos⟩
  | @ret _ operand later block restLines readable selected rest =>
    obtain ⟨result, load, stored, read, rfl, performed, inAccumulator, memory⟩ :=
      ret_performed meaning agrees readable selected
    obtain ⟨position, found, atExit⟩ := layout.exit_found
    have placed : CodeAt lines lineState.counter (load ++ [.instruction (.jump exitLabel)]) :=
      ⟨restLines ++ epilogue, by rw [linesLeft, List.append_assoc _ restLines]⟩
    obtain ⟨loadPlaced, jumpPlaced⟩ := placed.split
    have loaded := LineMachine.reaches_performAll loadPlaced performed
    have jumped : LineMachine.step meaning lines ⟨lineState.counter + load.length, stored⟩ =
        some ⟨position, stored⟩ :=
      LineMachine.step_jump jumpPlaced.fetch found
    have reached : Machine.Reaches (LineMachine.step meaning lines) lineState ⟨position, stored⟩ :=
      .trans ⟨load.length, loaded⟩ (.single jumped)
    refine .inl ⟨.returned result, ⟨position, stored⟩,
      QuadMachine.ending_ret (fetch_of_drop left).1 read, reached, atExit, memory, ?_⟩
    intro value same
    cases same
    exact inAccumulator

/-!
## Whole runs
-/

/-- What is reached from a state that is never stuck is never stuck either, so the premise can be
carried along a run. -/
theorem NeverStuck.of_reaches {next : QuadMachine.State}
    (neverStuck : NeverStuck meaning quads state)
    (reached : Machine.Reaches (QuadMachine.step meaning quads) state next) :
    NeverStuck meaning quads next := by
  intro later further halted
  exact neverStuck later (reached.trans further) halted

/-- A run that halts is not stuck anywhere, because the machine has one next state at most and the
run passes through all that are reached. -/
theorem QuadMachine.Halts.neverStuck {memory : Memory} {ending : Ending}
    (halts : Halts meaning quads state memory ending) : NeverStuck meaning quads state := by
  obtain ⟨last, reached, ended, -⟩ := halts
  intro other path halted
  obtain rfl := Machine.final_unique reached (step_ended ended) path halted
  rw [ended, Option.isSome_some]

/-- When the quadruples halt, the lines arrive behind the code with the same memory, and with the
value in the register of the result if one is returned. The induction is on the length of the
run. -/
theorem Aligned.arrives_of_halts {memory : Memory} {ending : Ending}
    (layout : Layout quads lines front body) (aligned : Aligned quads lines state lineState)
    (neverStuck : NeverStuck meaning quads state)
    (halts : QuadMachine.Halts meaning quads state memory ending) :
    ∃ final, Machine.Reaches (LineMachine.step meaning lines) lineState final ∧
      final.atExit lines ∧ final.store.memory = memory ∧
      ∀ value, ending = .returned value → final.store.registers .eax = value := by
  obtain ⟨last, ⟨count, reached⟩, ended, rfl⟩ := halts
  have halted : QuadMachine.step meaning quads last = none := QuadMachine.step_ended ended
  induction count using Nat.strongRecOn generalizing state lineState with
  | ind count inductionHypothesis =>
    rcases aligned.continues layout neverStuck with
      ⟨endingHere, final, endedHere, arrived, atExit, memory, returned⟩ |
      ⟨taken, next, steps, lineNext, positive, stepped, lineStepped, alignedNext, -⟩
    · obtain rfl : state = last :=
        Machine.final_unique (.refl state) (QuadMachine.step_ended endedHere) ⟨count, reached⟩
          halted
      obtain rfl : endingHere = ending := Option.some.inj (endedHere.symm.trans ended)
      exact ⟨final, arrived, atExit, memory, returned⟩
    · obtain ⟨notLonger, rest⟩ := Machine.after_final reached halted stepped
      obtain ⟨final, arrived, facts⟩ := inductionHypothesis (count - taken) (by omega)
        alignedNext (neverStuck.of_reaches ⟨taken, stepped⟩) rest
      exact ⟨final, .trans ⟨steps, lineStepped⟩ arrived, facts⟩

/-- When the quadruples run forever, so do the lines.

The outer induction is on the number of steps that the lines have to take. The inner one
is on the quadruples that are left, since the lines may wait for the other machine only
while that one moves forward in its code. -/
theorem Aligned.runsForever (layout : Layout quads lines front body)
    (aligned : Aligned quads lines state lineState)
    (forever : Machine.RunsForever (QuadMachine.step meaning quads) state) :
    Machine.RunsForever (LineMachine.step meaning lines) lineState := by
  intro count
  induction count generalizing state lineState with
  | zero => rfl
  | succ count countHypothesis =>
    generalize size : quads.length - state.counter = left
    induction left using Nat.strongRecOn generalizing state with
    | ind left leftHypothesis =>
      have neverStuck : NeverStuck meaning quads state := by
        intro reached path halted
        obtain ⟨bound, notLonger⟩ := Machine.exists_not_lasts path halted
        exact absurd (forever bound) notLonger
      rcases aligned.continues layout neverStuck with ⟨ending, -, ended, -⟩ |
        ⟨taken, next, steps, lineNext, -, stepped, lineStepped, alignedNext, moved⟩
      · have halted : QuadMachine.step meaning quads state = none :=
          QuadMachine.step_ended ended
        obtain ⟨bound, notLonger⟩ := Machine.exists_not_lasts (.refl state) halted
        exact absurd (forever bound) notLonger
      · have nextForever : Machine.RunsForever (QuadMachine.step meaning quads) next := by
          intro more
          have longer := forever (taken + more)
          rwa [Machine.Lasts, Machine.after_add, stepped] at longer
        cases steps with
        | zero =>
          cases lineStepped
          rcases moved with absurd | ⟨inside, forward⟩
          · omega
          · exact leftHypothesis (quads.length - next.counter) (by omega) alignedNext nextForever
              rfl
        | succ steps =>
          have lasting := countHypothesis alignedNext nextForever
          have longer : Machine.Lasts (LineMachine.step meaning lines) (steps + 1 + count)
              lineState := by
            rw [Machine.Lasts, Machine.after_add, lineStepped]
            exact lasting
          exact longer.mono (by omega)

end Steps

/-- The only label in front of a program's code is that of the program, so the code's own labels are
not hidden by the lines that set up the frame. -/
theorem label_mem_prologue {frameSize : Nat} {name : String}
    (member : Line.label name ∈ prologue frameSize) : name = "main" := by
  unfold prologue at member
  split at member <;> simpa [Line.move] using member

/-- The lines of a direct program are laid out by the rules: the frame, the lines of its quadruples,
and the lines behind them. That the program is direct is what the comparisons need, since others are
left as comments. -/
theorem Parsed.layout {tokens : List Token} {parsed : Parsed} {lowered : Lowered}
    {lines : List Line} (accepted : Parsed.ofTokens tokens = .ok parsed)
    (resolved : parsed.root.resolve.fault = none) (direct : parsed.root.direct false = true)
    (isLowered : Lowered.ofTree parsed.root.resolve.tree = .ok lowered)
    (assembled : (Assembled.ofProgram lowered.program).result = .ok lines) :
    ∃ body, Layout lowered.program.quads lines (prologue lowered.program.frameSize) body := by
  obtain ⟨labels, rule⟩ := Parsed.lowers accepted resolved isLowered
  have treeDirect : parsed.root.resolve.tree.direct false = true :=
    (parsed.root.resolveFrom_direct false Resolution.start).trans direct
  have orderly : Orderly 0 lowered.program.quads := by
    have closed := rule.orderly treeDirect .nil
    rwa [List.append_nil] at closed
  obtain ⟨body, whole, emits⟩ := Assembled.emits orderly assembled
  refine ⟨body, by rw [whole, List.append_assoc], emits, ?_, ?_⟩
  · intro number member
    have heads := congrArg (fun name => name.toList.head?) (label_mem_prologue member)
    simp [Operand.label, String.toList_append] at heads
  · intro member
    exact absurd (label_mem_prologue member) (by decide)

/-- The assembly lines of a direct program do what its quadruples do, for every reading of
the arithmetic operators and whatever the memory, the registers and the temporaries hold
to start with. Behind the lines that set up the frame, the lines lead to the label behind
the code with a memory exactly if the quadruples halt with it; and when the quadruples
return a value, the lines leave it in the accumulator. -/
theorem assembly_simulates_quads (meaning : Interpretation) (tokens : List Token)
    (parsed : Parsed) (accepted : Parsed.ofTokens tokens = .ok parsed)
    (resolved : parsed.root.resolve.fault = none) (direct : parsed.root.direct false = true)
    (lowered : Lowered) (isLowered : Lowered.ofTree parsed.root.resolve.tree = .ok lowered)
    (lines : List Line) (assembled : (Assembled.ofProgram lowered.program).result = .ok lines)
    (memory : Memory) (temporaries : String → Int) (registers : Register → Int)
    (compared : Int × Int) :
    (∀ after,
      (∃ final, Machine.Reaches (LineMachine.step meaning lines)
          ⟨(prologue lowered.program.frameSize).length, ⟨registers, memory, compared⟩⟩ final ∧
        final.atExit lines ∧ final.store.memory = after) ↔
      ∃ ending, QuadMachine.Halts meaning lowered.program.quads ⟨0, memory, temporaries⟩ after
        ending) ∧
    ∀ after value, QuadMachine.Halts meaning lowered.program.quads ⟨0, memory, temporaries⟩ after
        (.returned value) →
      ∀ final, Machine.Reaches (LineMachine.step meaning lines)
          ⟨(prologue lowered.program.frameSize).length, ⟨registers, memory, compared⟩⟩ final →
        final.atExit lines → final.store.registers .eax = value := by
  obtain ⟨body, layout⟩ := Parsed.layout accepted resolved direct isLowered assembled
  have aligned : Aligned lowered.program.quads lines ⟨0, memory, temporaries⟩
      ⟨(prologue lowered.program.frameSize).length, ⟨registers, memory, compared⟩⟩ := by
    refine ⟨0, body, layout.emits, .of_memory rfl, ?_⟩
    rw [layout.whole, List.drop_left]
  have arrives : ∀ after ending, QuadMachine.Halts meaning lowered.program.quads
      ⟨0, memory, temporaries⟩ after ending → _ :=
    fun after ending halts => aligned.arrives_of_halts layout halts.neverStuck halts
  refine ⟨?_, ?_⟩
  · intro after
    constructor
    · rintro ⟨final, reached, atExit, rfl⟩
      rcases QuadMachine.halts_or_runsForever
        (Parsed.simulates accepted resolved isLowered meaning memory temporaries) with
        ⟨other, ending, halts⟩ | forever
      · obtain ⟨arrived, toArrived, arrivedAtExit, rfl, -⟩ := arrives other ending halts
        obtain rfl := Machine.final_unique toArrived (LineMachine.step_atExit arrivedAtExit) reached
          (LineMachine.step_atExit atExit)
        exact ⟨ending, halts⟩
      · obtain ⟨bound, notLonger⟩ :=
          Machine.exists_not_lasts reached (LineMachine.step_atExit atExit)
        exact absurd (aligned.runsForever layout forever bound) notLonger
    · rintro ⟨ending, halts⟩
      obtain ⟨final, reached, atExit, sameMemory, -⟩ := arrives after ending halts
      exact ⟨final, reached, atExit, sameMemory⟩
  · intro after value halts final reached atExit
    obtain ⟨arrived, toArrived, arrivedAtExit, -, returned⟩ := arrives after _ halts
    obtain rfl := Machine.final_unique toArrived (LineMachine.step_atExit arrivedAtExit) reached
      (LineMachine.step_atExit atExit)
    exact returned value rfl

/-- A program whose right operands stand in the register of the result. -/
def rightOperands : String :=
  "int main() \x7b int x = 9; while (x > 6) \x7b x = x - 1; \x7d return x * (7 - (x - 6)); \x7d"

/-- The program above computes 42 in assembly, from any registers and with any earlier comparison.
Its right operands have to be moved out of the way, and its loop is entered three times. -/
theorem assembly_simulates_quads_rightOperands :
    ∃ parsed lowered lines, Parsed.ofTokens (Lexed.ofText rightOperands).tokens = .ok parsed ∧
      parsed.root.resolve.fault = none ∧ parsed.root.direct false = true ∧
      Lowered.ofTree parsed.root.resolve.tree = .ok lowered ∧
      (Assembled.ofProgram lowered.program).result = .ok lines ∧
      ∀ registers compared, ∃ final, Machine.Reaches (LineMachine.step .integers lines)
          ⟨(prologue lowered.program.frameSize).length, ⟨registers, fun _ => 0, compared⟩⟩ final ∧
        final.atExit lines ∧ final.store.registers .eax = 42 := by
  have evaluated : (Parsed.ofTokens (Lexed.ofText rightOperands).tokens).toOption.any (fun parsed =>
      parsed.root.resolve.fault.isNone && parsed.root.direct false &&
      (Lowered.ofTree parsed.root.resolve.tree).toOption.any (fun lowered =>
        (Assembled.ofProgram lowered.program).result.toOption.any (fun _ =>
          (Machine.after (QuadMachine.step .integers lowered.program.quads) 23
            ⟨0, fun _ => 0, fun _ => 0⟩).any (fun last =>
              last.ending? lowered.program.quads == some (.returned 42))))) = true := by
    decide +kernel
  obtain ⟨parsed, accepted, checked⟩ := exists_ok_of_any evaluated
  obtain ⟨checked, laterChecked⟩ := (Bool.and_eq_true _ _).mp checked
  obtain ⟨resolved, direct⟩ := (Bool.and_eq_true _ _).mp checked
  rw [Option.isNone_iff_eq_none] at resolved
  obtain ⟨lowered, isLowered, laterChecked⟩ := exists_ok_of_any laterChecked
  obtain ⟨lines, assembled, laterChecked⟩ := exists_ok_of_any laterChecked
  obtain ⟨last, reached, ended⟩ := (Option.any_eq_true _ _).mp laterChecked
  have halts : QuadMachine.Halts .integers lowered.program.quads ⟨0, fun _ => 0, fun _ => 0⟩
      last.memory (.returned 42) := ⟨last, ⟨23, reached⟩, beq_iff_eq.mp ended, rfl⟩
  refine ⟨parsed, lowered, lines, accepted, resolved, direct, isLowered, assembled, ?_⟩
  intro registers compared
  obtain ⟨sameMemory, sameValue⟩ := assembly_simulates_quads .integers _ parsed accepted resolved
    direct lowered isLowered lines assembled (fun _ => 0) (fun _ => 0) registers compared
  obtain ⟨final, toFinal, atExit, -⟩ := (sameMemory last.memory).mpr ⟨_, halts⟩
  exact ⟨final, toFinal, atExit, sameValue last.memory 42 halts final toFinal atExit⟩

end IntMain
