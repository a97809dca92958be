import IntMain.Proofs.BranchPairing
import IntMain.Proofs.StageFailures
import IntMain.Proofs.TemporaryLifetimes

/-!
# The lines of one quadruple

Selection chooses the lines of a quadruple by its command, by where its operands are and by
what produced the value that it tests. `Emitted` lists what can come out, one rule for each
way. It is proved once that selection follows the rules, for every quadruple that lowering
makes; what the lines of a program have in common then follows rule by rule, without a look
at selection.

The places in the rules are those that the quadruple itself supplies: registers that hold
temporaries, integers, and the slots of its own variables. The scratch register is none of
them.
-/

namespace IntMain

/-- The operands of a quadruple. -/
def Quad.operandList (quad : Quad) : List Operand :=
  quad.left.toList ++ quad.right.toList ++ quad.target.toList

/-- A place where a value of a quadruple is: the register of a temporary, an integer, or the
slot of one of its variables. -/
inductive Quad.Supplies (quad : Quad) : Place → Prop
  | immediate {value : Int} : Supplies quad (.immediate (Text.integer value))
  | memory {name : String} {address : Int} (listed : .stored name address ∈ quad.operandList) :
      Supplies quad (.memory (Operand.stored name address).text)
  | register {named : Register} (notScratch : named ≠ .edi) : Supplies quad (.register named)

/-- Where the result of a quadruple is computed: in the register of a temporary, or in the
scratch register on its way to the slot of a variable. -/
inductive Quad.WorksAt (quad : Quad) : Register → Workplace → Prop
  | temporary {named : Register} (notScratch : named ≠ .edi) :
      WorksAt quad named ⟨.register named, none⟩
  | stored {name : String} {address : Int} (listed : .stored name address ∈ quad.operandList) :
      WorksAt quad .edi ⟨scratch, some (.memory (Operand.stored name address).text)⟩

/-- The lines that bring the left operand to a register, and where the right one is then. -/
inductive Loads (named : Register) : Place → Place → List Line → Place → Prop
  | there {right : Place} : Loads named (.register named) right [] right
  | fetched {left right : Place} (rightElsewhere : right ≠ .register named) :
      Loads named left right [.move (.register named) left] right
  | exchanged {left : Place} (notScratch : named ≠ .edi) :
      Loads named left (.register named)
        [.move scratch (.register named), .move (.register named) left] scratch

/-- The lines that bring one operand to a register. -/
inductive Fetches (named : Register) : Place → List Line → Prop
  | there : Fetches named (.register named) []
  | fetched {source : Place} : Fetches named source [.move (.register named) source]

/-- The lines that can be emitted for a quadruple. The rules say less than selection does: which
label a jump has, which relation it is on and what a comment says is left open. -/
inductive Emitted (quad : Quad) : List Line → Prop
  /-- A jump that its comparison has made already. -/
  | nothing (isBranch : quad.kind? = some .conditionalJump) : Emitted quad []
  | comment (text : String)
      (kinds : quad.producesValue = true ∨ quad.kind? = some .conditionalJump) :
      Emitted quad [.comment text]
  | label {target : Operand} (isLabel : quad = .label target) : Emitted quad [.label target.name]
  | jump {target : Operand} (isJump : quad = .jump target) :
      Emitted quad [.instruction (.jump target.name)]
  | ret {value : Place} {load : List Line} (isReturn : quad.kind? = some .ret)
      (supplied : quad.Supplies value) (loads : Fetches .eax value load) :
      Emitted quad (load ++ [.instruction (.jump exitLabel)])
  | copy {name : String} {address : Int} {value : Place} (isCopy : quad.kind? = some .copy)
      (listed : .stored name address ∈ quad.operandList) (supplied : quad.Supplies value)
      (noSlot : ∀ text, value ≠ .memory text) :
      Emitted quad [.move (.memory (Operand.stored name address).text) value]
  | copyVariable {name : String} {address : Int} {value : Place}
      (isCopy : quad.kind? = some .copy) (listed : .stored name address ∈ quad.operandList)
      (supplied : quad.Supplies value) :
      Emitted quad [.move scratch value,
        .move (.memory (Operand.stored name address).text) scratch]
  | unary {named : Register} {workplace : Workplace} {source : Place} {load : List Line}
      (negates : Bool) (produces : quad.producesValue = true)
      (works : quad.WorksAt named workplace) (supplied : quad.Supplies source)
      (loads : Fetches named source load) :
      Emitted quad (load ++
        (if negates then [.instruction (.negate (.register named))] else []) ++ workplace.storing)
  | arithmetic {named : Register} {workplace : Workplace} {left right place : Place}
      {load : List Line} (op : Arithmetic) (produces : quad.producesValue = true)
      (works : quad.WorksAt named workplace) (leftSupplied : quad.Supplies left)
      (rightSupplied : quad.Supplies right) (loads : Loads named left right load place) :
      Emitted quad (load ++ Quad.accumulatorNote op (.register named) ++
        [.instruction (.arithmetic op (.register named) place)] ++ workplace.storing)
  | comparison {named : Register} {workplace : Workplace} {left right place : Place}
      {load : List Line} (relation : Relation) (label : String)
      (produces : quad.producesValue = true) (works : quad.WorksAt named workplace)
      (leftSupplied : quad.Supplies left) (rightSupplied : quad.Supplies right)
      (loads : Loads named left right load place) :
      Emitted quad (load ++
        [.instruction (.compare (.register named) place), .instruction (.jumpIf relation label)])
  | test {value : Place} (relation : Relation) (label : String)
      (isBranch : quad.kind? = some .conditionalJump) (supplied : quad.Supplies value)
      (noInteger : ∀ text, value ≠ .immediate text) :
      Emitted quad [.instruction (.compare value (.immediate "0")),
        .instruction (.jumpIf relation label)]
  | testInteger {value : Place} (relation : Relation) (label : String)
      (isBranch : quad.kind? = some .conditionalJump) (supplied : quad.Supplies value) :
      Emitted quad [.move scratch value, .instruction (.compare scratch (.immediate "0")),
        .instruction (.jumpIf relation label)]

/-!
## Places and loads
-/

/-- What a quadruple supplies is an ordinary place, so it is written like a register only if it is
one. -/
theorem Quad.Supplies.ordinary {quad : Quad} {place : Place} (supplied : quad.Supplies place) :
    place.Ordinary := by
  cases supplied with
  | immediate => exact .immediate
  | memory listed => exact .memory
  | register notScratch => exact .register notScratch

/-- A temporary that has a place is in a register, and not in the scratch register. A temporary
whose number is too high has no place, and nothing is said about it. -/
theorem Operand.temporary_place {number : Nat} {place : Place}
    (placed : (Operand.temporary number).place = .ok place) :
    ∃ named, named ≠ .edi ∧ place = .register named := by
  rw [Operand.place] at placed
  cases register : (Operand.temporary number).register with
  | error fault =>
    rw [register] at placed
    cases placed
  | ok named =>
    rw [register] at placed
    cases placed
    exact ⟨named, Operand.register_ne_scratch register, rfl⟩

/-- An operand that can be read is where the quadruple supplies its value. It has to be one of the
quadruple's own operands, since otherwise its slot would not be one of the quadruple's. -/
theorem Operand.Readable.supplied {bound : Nat} {quad : Quad} {operand : Operand} {place : Place}
    (readable : operand.Readable bound) (listed : operand ∈ quad.operandList)
    (placed : operand.place = .ok place) : quad.Supplies place := by
  cases readable with
  | literal =>
    cases placed
    exact .immediate
  | stored =>
    cases placed
    exact .memory listed
  | temporary positive inBound =>
    obtain ⟨named, notScratch, rfl⟩ := Operand.temporary_place placed
    exact .register notScratch

/-- A target that can be written has a workplace of the quadruple: its own register, or the scratch
register with the slot of the variable behind it. -/
theorem Operand.Storable.worksAt {bound : Nat} {quad : Quad} {target : Operand}
    {workplace : Workplace} (storable : target.Storable bound) (listed : target ∈ quad.operandList)
    (chosen : Workplace.ofTarget target = .ok workplace) :
    ∃ named, quad.WorksAt named workplace := by
  cases storable with
  | stored =>
    cases chosen
    exact ⟨.edi, .stored listed⟩
  | @temporary number positive inBound =>
    rw [Workplace.ofTarget] at chosen
    cases register : (Operand.temporary number).register with
    | error fault =>
      rw [register] at chosen
      cases chosen
    | ok named =>
      rw [register] at chosen
      cases chosen
      exact ⟨named, .temporary (Operand.register_ne_scratch register)⟩

/-- The register of a workplace is the one that is named, so a workplace is never in memory. -/
theorem Quad.WorksAt.register_eq {quad : Quad} {named : Register} {workplace : Workplace}
    (works : quad.WorksAt named workplace) : workplace.register = .register named := by
  cases works <;> rfl

/-- Loading one operand takes a move, or nothing if the operand is in that register already. The
place is compared by its text, and an ordinary place is written like a register only if it is that
one. -/
theorem Workplace.fetches {quad : Quad} {named : Register} {workplace : Workplace} {source : Place}
    (isRegister : workplace.register = .register named) (supplied : quad.Supplies source) :
    Fetches named source (workplace.load source) := by
  have same := supplied.ordinary.same_register named
  rw [Workplace.load, isRegister]
  by_cases there : source = .register named
  · rw [if_pos (same.mpr there), there]
    exact .there
  · rw [if_neg (fun alike => there (same.mp alike))]
    exact .fetched

/-- Loading two operands follows one of three ways: the left one is there, it is fetched, or the
right one has to be moved out of the way first. In the last case the register is not the scratch
register, since that holds no operand. -/
theorem Workplace.loads {quad : Quad} {named : Register} {workplace : Workplace}
    {left right : Place} (isRegister : workplace.register = .register named)
    (leftSupplied : quad.Supplies left) (rightSupplied : quad.Supplies right) :
    Loads named left right (workplace.loadPair left right).1 (workplace.loadPair left right).2 := by
  obtain ⟨register, slot⟩ := workplace
  obtain rfl : register = .register named := isRegister
  have leftOrdinary := leftSupplied.ordinary
  have rightOrdinary := rightSupplied.ordinary
  by_cases leftThere : left = .register named
  · rw [LineMachine.loadPair_kept leftOrdinary rightOrdinary (.inr leftThere), Workplace.load,
      if_pos ((leftOrdinary.same_register named).mpr leftThere), leftThere]
    exact .there
  · by_cases rightThere : right = .register named
    · have notScratch : named ≠ .edi := by
        rintro rfl
        exact rightOrdinary.ne_scratch rightThere
      rw [LineMachine.loadPair_overwritten leftOrdinary rightOrdinary rightThere leftThere,
        rightThere]
      exact .exchanged notScratch
    · rw [LineMachine.loadPair_kept leftOrdinary rightOrdinary (.inl rightThere), Workplace.load,
        if_neg (fun alike => leftThere ((leftOrdinary.same_register named).mp alike))]
      exact .fetched rightThere

/-- The note on the accumulator is a comment, so whatever it says, no instruction comes from it. -/
theorem Quad.accumulatorNote_comments (op : Arithmetic) (register : Place) :
    ∀ line ∈ accumulatorNote op register, ∃ text, line = .comment text := by
  rw [accumulatorNote]
  split
  · exact List.forall_mem_singleton.mpr ⟨_, rfl⟩
  · exact List.forall_mem_nil _

/-!
## Selection follows the rules
-/

section Selecting

variable {bound : Nat} {left right source target : Operand} {symbol : String} {lines : List Line}

/-- The places of a binary operation are supplied by it, and its result has a workplace. That the
operands can be read and the target written is known from lowering. -/
theorem Quad.operands_supplied {op : BinaryOp} {leftPlace rightPlace : Place}
    {workplace : Workplace} (leftReadable : left.Readable bound)
    (rightReadable : right.Readable bound) (storable : target.Storable bound)
    (placed : (Quad.binary op left right target).operands =
      .ok (leftPlace, rightPlace, workplace)) :
    (Quad.binary op left right target).Supplies leftPlace ∧
      (Quad.binary op left right target).Supplies rightPlace ∧
      ∃ named, (Quad.binary op left right target).WorksAt named workplace := by
  obtain ⟨leftPlaced, rightPlaced, chosen⟩ := Quad.operands_binary placed
  have listed : (Quad.binary op left right target).operandList = [left, right, target] := rfl
  exact ⟨leftReadable.supplied (by simp [listed]) leftPlaced,
    rightReadable.supplied (by simp [listed]) rightPlaced,
    storable.worksAt (by simp [listed]) chosen⟩

/-- An arithmetic operation emits the lines of its rule. The spelling is any text for which there is
an instruction, since the rule leaves open which one it is. -/
theorem Quad.selectArithmetic_emitted {op : BinaryOp} (leftReadable : left.Readable bound)
    (rightReadable : right.Readable bound) (storable : target.Storable bound)
    (selected : (Quad.binary op left right target).selectArithmetic symbol = .ok lines) :
    Emitted (.binary op left right target) lines := by
  obtain ⟨⟨leftPlace, rightPlace, workplace⟩, placed, selected⟩ := bind_eq_ok selected
  obtain ⟨leftSupplied, rightSupplied, named, works⟩ :=
    Quad.operands_supplied leftReadable rightReadable storable placed
  dsimp only at selected
  split at selected
  · cases selected
  · rename_i arithmetic _
    cases selected
    have loads := Workplace.loads works.register_eq leftSupplied rightSupplied
    rw [works.register_eq]
    exact .arithmetic arithmetic (Quad.producesValue_binary ..) works leftSupplied rightSupplied
      loads

/-- A comparison that feeds a branch emits the lines of its rule, with the label of the branch that
it takes. -/
theorem Quad.selectComparison_emitted {op : BinaryOp} {branch : Branch}
    (leftReadable : left.Readable bound) (rightReadable : right.Readable bound)
    (storable : target.Storable bound)
    (selected : (Quad.binary op left right target).selectComparison symbol branch = .ok lines) :
    Emitted (.binary op left right target) lines := by
  obtain ⟨⟨leftPlace, rightPlace, workplace⟩, placed, selected⟩ := bind_eq_ok selected
  obtain ⟨leftSupplied, rightSupplied, named, works⟩ :=
    Quad.operands_supplied leftReadable rightReadable storable placed
  dsimp only at selected
  split at selected
  · cases selected
  · rename_i relation _
    cases selected
    have loads := Workplace.loads works.register_eq leftSupplied rightSupplied
    rw [works.register_eq]
    exact .comparison _ branch.label (Quad.producesValue_binary ..) works leftSupplied
      rightSupplied loads

/-- A binary operation of any class emits the lines of a rule: those of an arithmetic operation,
those of a comparison that feeds a branch, or a comment for the others. -/
theorem Quad.selectBinary_emitted {op : BinaryOp} {state : Selection} {feeds : Bool}
    {selected : Selected} (leftReadable : left.Readable bound)
    (rightReadable : right.Readable bound) (storable : target.Storable bound)
    (selects : state.selectCommand feeds (.binary op left right target) (.binary op) =
      .ok selected) : Emitted (.binary op left right target) selected.lines := by
  have produces := Quad.producesValue_binary op left right target
  cases kind : op.operatorClass with
  | arithmetic =>
    rw [Command.binary, kind] at selects
    obtain ⟨lines, chosen, ⟨⟩⟩ := bind_eq_ok selects
    exact Quad.selectArithmetic_emitted leftReadable rightReadable storable chosen
  | relational =>
    rw [Command.binary, kind] at selects
    unfold Selection.selectCommand at selects
    dsimp only at selects
    split at selects
    · obtain ⟨lines, chosen, ⟨⟩⟩ := bind_eq_ok selects
      exact Quad.selectComparison_emitted leftReadable rightReadable storable chosen
    · cases selects
      exact .comment _ (.inl produces)
  | logical =>
    rw [Command.binary, kind] at selects
    cases selects
    exact .comment _ (.inl produces)

/-- A signed operand emits the lines of its rule, with a negation or without one. -/
theorem Quad.selectUnary_emitted {op : UnaryOp} (readable : source.Readable bound)
    (storable : target.Storable bound)
    (selected : (Quad.unary op source target).selectUnary symbol = .ok lines) :
    Emitted (.unary op source target) lines := by
  obtain ⟨_, ⟨⟩, selected⟩ := bind_eq_ok selected
  obtain ⟨place, placed, selected⟩ := bind_eq_ok selected
  obtain ⟨_, ⟨⟩, selected⟩ := bind_eq_ok selected
  obtain ⟨workplace, chosen, ⟨⟩⟩ := bind_eq_ok selected
  have listed : (Quad.unary op source target).operandList = [source, target] := rfl
  have supplied : (Quad.unary op source target).Supplies place :=
    readable.supplied (by simp [listed]) placed
  have isTarget : target ∈ (Quad.unary op source target).operandList := by simp [listed]
  obtain ⟨named, works⟩ := storable.worksAt isTarget chosen
  have loads := Workplace.fetches works.register_eq supplied
  rw [works.register_eq]
  have emitted := Emitted.unary (decide (symbol = "-")) (by rfl) works supplied loads
  by_cases negates : symbol = "-"
  · simpa [negates] using emitted
  · simpa [negates] using emitted

/-- A copy to a variable emits the lines of one of two rules. Only if the source is a variable too,
the value goes through the scratch register, so no move has both operands in memory. -/
theorem Quad.selectCopy_emitted {name : String} {address : Int} (readable : source.Readable bound)
    (selected : (Quad.copy source (.stored name address)).selectCopy = .ok lines) :
    Emitted (.copy source (.stored name address)) lines := by
  obtain ⟨_, ⟨⟩, selected⟩ := bind_eq_ok selected
  obtain ⟨_, ⟨⟩, selected⟩ := bind_eq_ok selected
  obtain ⟨place, placed, selected⟩ := bind_eq_ok selected
  have listed : (Quad.copy source (.stored name address)).operandList =
      [source, .stored name address] := rfl
  have supplied : (Quad.copy source (.stored name address)).Supplies place :=
    readable.supplied (by simp [listed]) placed
  have isTarget : Operand.stored name address ∈
      (Quad.copy source (.stored name address)).operandList := by simp [listed]
  split at selected
  · cases selected
    exact .copyVariable rfl isTarget supplied
  · rename_i notBoth
    cases selected
    apply Emitted.copy rfl isTarget supplied
    -- Only a variable is in a slot, and then both operands would be variables.
    rintro text rfl
    apply notBoth
    constructor
    · rfl
    · cases readable with
      | literal => cases placed
      | stored => rfl
      | temporary positive inBound =>
        obtain ⟨named, -, impossible⟩ := Operand.temporary_place placed
        cases impossible

/-- A jump on a condition emits the lines of a rule, by what produced its condition: nothing behind
a comparison, a comment behind a logical operator, a test otherwise. An integer is brought to the
scratch register before it is tested. -/
theorem Quad.selectBranch_emitted {whenTrue : Bool} {condition label : Operand}
    {producer : Option CommandKind} (readable : condition.Readable bound)
    (selected : (Quad.branch whenTrue condition label).selectBranch (.branch whenTrue) producer =
      .ok lines) : Emitted (.branch whenTrue condition label) lines := by
  have isBranch : (Quad.branch whenTrue condition label).kind? = some .conditionalJump := by
    cases whenTrue <;> rfl
  by_cases relational : producer = some .relational
  · rw [relational, Quad.selectBranch_paired] at selected
    cases selected
    exact .nothing isBranch
  by_cases logical : producer = some .logical
  · obtain ⟨text, chosen⟩ := Quad.selectBranch_logical whenTrue condition label (.branch whenTrue)
    rw [logical, chosen] at selected
    cases selected
    exact .comment text (.inr isBranch)
  obtain ⟨place, placed, rfl⟩ := Quad.selectBranch_plain ⟨relational, logical⟩ selected
  have listed : (Quad.branch whenTrue condition label).operandList = [condition, label] := by
    cases whenTrue <;> rfl
  have supplied : (Quad.branch whenTrue condition label).Supplies place :=
    readable.supplied (by simp [listed]) placed
  by_cases isLiteral : condition.kind = .literal
  · rw [if_pos isLiteral]
    exact .testInteger _ _ isBranch supplied
  · rw [if_neg isLiteral]
    apply Emitted.test _ _ isBranch supplied
    rintro text rfl
    cases readable with
    | literal => exact isLiteral rfl
    | stored => cases placed
    | temporary positive inBound =>
      obtain ⟨named, -, impossible⟩ := Operand.temporary_place placed
      cases impossible

/-- A return emits the lines of its rule: its value is brought to the accumulator, unless it is
there, and then the jump leads behind the code. -/
theorem Quad.selectReturn_emitted {value : Operand} (readable : value.Readable bound)
    (selected : (Quad.ret value).selectReturn = .ok lines) : Emitted (.ret value) lines := by
  obtain ⟨_, ⟨⟩, selected⟩ := bind_eq_ok selected
  obtain ⟨place, placed, ⟨⟩⟩ := bind_eq_ok selected
  have supplied : (Quad.ret value).Supplies place :=
    readable.supplied List.mem_cons_self placed
  have loads : Fetches .eax place ((⟨accumulator, none⟩ : Workplace).load place) :=
    Workplace.fetches rfl supplied
  exact .ret rfl supplied loads

end Selecting

/-- Selection emits the lines of a rule for every quadruple that has what its lines take. Nothing is
asked of what selection knows, so this holds wherever the quadruple stands in a program. -/
theorem Quad.Uses.emitted {bound : Nat} {quad : Quad} (uses : quad.Uses bound) {command : Command}
    (commanded : quad.command = some command) {state : Selection} {feeds : Bool}
    {selected : Selected} (selects : state.selectCommand feeds quad command = .ok selected) :
    Emitted quad selected.lines := by
  cases uses with
  | binary leftReadable rightReadable storable =>
    cases commanded
    exact Quad.selectBinary_emitted leftReadable rightReadable storable selects
  | unary readable storable =>
    cases commanded
    obtain ⟨lines, chosen, ⟨⟩⟩ := bind_eq_ok selects
    exact Quad.selectUnary_emitted readable storable chosen
  | copy readable =>
    cases commanded
    obtain ⟨lines, chosen, ⟨⟩⟩ := bind_eq_ok selects
    exact Quad.selectCopy_emitted readable chosen
  | branch whenTrue readable =>
    rw [Quad.branch_command] at commanded
    cases commanded
    obtain ⟨lines, chosen, ⟨⟩⟩ := bind_eq_ok selects
    exact Quad.selectBranch_emitted readable chosen
  | label =>
    cases commanded
    cases selects
    exact .label rfl
  | jump =>
    cases commanded
    cases selects
    exact .jump rfl
  | ret readable =>
    cases commanded
    obtain ⟨lines, chosen, ⟨⟩⟩ := bind_eq_ok selects
    exact Quad.selectReturn_emitted readable chosen

/-- Every quadruple that has what its lines take has a command, so selection makes a step for
each. -/
theorem Quad.Uses.commanded {bound : Nat} {quad : Quad} (uses : quad.Uses bound) :
    quad.command ≠ none := by
  cases uses with
  | branch whenTrue readable =>
    rw [Quad.branch_command]
    exact Option.some_ne_none _
  | _ => exact Option.some_ne_none _

/-- The steps of selection are those of the quadruples, in order, and each emits the lines of
a rule for its quadruple. -/
theorem Selection.Passes.emitted {feeding : List Nat} {state final : Selection} {index bound : Nat}
    {quads : List Quad} {steps : List Step} (passes : Passes feeding state index quads steps final)
    (uses : ∀ quad ∈ quads, quad.Uses bound) :
    steps.map Step.quad = quads ∧ ∀ step ∈ steps, Emitted step.quad step.lines := by
  induction passes with
  | done => exact ⟨rfl, List.forall_mem_nil _⟩
  | skip idle rest inductionHypothesis =>
    exact absurd idle (uses _ List.mem_cons_self).commanded
  | step commanded selects rest inductionHypothesis =>
    obtain ⟨first, others⟩ := List.forall_mem_cons.mp uses
    obtain ⟨sameQuads, emitted⟩ := inductionHypothesis others
    constructor
    · rw [List.map_cons, sameQuads]
    · exact List.forall_mem_cons.mpr ⟨first.emitted commanded selects, emitted⟩

/-- A line of a program belongs to the frame or to one of the steps. The lines of the frame in front
of the code and behind it are treated alike. -/
theorem mem_assembled {frameSize : Nat} {steps : List Selection.Step} {line : Line}
    (member : line ∈ prologue frameSize ++ steps.flatMap Selection.Step.lines ++ epilogue) :
    line ∈ prologue frameSize ++ epilogue ∨ ∃ step ∈ steps, line ∈ step.lines := by
  rw [List.append_assoc, List.mem_append, List.mem_append, List.mem_flatMap] at member
  rcases member with setUp | selected | givenUp
  · exact .inl (List.mem_append_left _ setUp)
  · exact .inr selected
  · exact .inl (List.mem_append_right _ givenUp)

/-- A program that parses and resolves is assembled quadruple by quadruple: its lines are
those of the steps of selection, between those that set up the frame and those that give it
up, and each step emits the lines of a rule. -/
theorem Parsed.emitted {tokens : List Token} {parsed : Parsed} {lowered : Lowered}
    {lines : List Line} (accepted : Parsed.ofTokens tokens = .ok parsed)
    (resolved : parsed.root.resolve.fault = none)
    (isLowered : Lowered.ofTree parsed.root.resolve.tree = .ok lowered)
    (assembled : (Assembled.ofProgram lowered.program).result = .ok lines) :
    ∃ steps final,
      Selection.Passes (Pairing.ofQuads lowered.program.quads).feeding
        ⟨(Pairing.ofQuads lowered.program.quads).branches, []⟩ 0 lowered.program.quads steps
        final ∧
      lines = prologue lowered.program.frameSize ++ steps.flatMap Selection.Step.lines ++
        epilogue ∧
      steps.map Selection.Step.quad = lowered.program.quads ∧
      ∀ step ∈ steps, Emitted step.quad step.lines := by
  obtain ⟨bound, fits⟩ := parsed.root.exists_needsAtMost
  obtain ⟨labels, lowers⟩ := Parsed.lowers accepted resolved isLowered
  have uses := lowers.uses (parsed.root.needsAtMost_resolve.mpr fits)
  obtain ⟨noFault, rfl⟩ := Assembled.of_result assembled
  obtain ⟨steps, final, passes, selected⟩ := Selection.Passes.of_selectAll noFault
  obtain ⟨sameQuads, emitted⟩ := passes.emitted uses
  refine ⟨steps, final, passes, ?_, sameQuads, emitted⟩
  rw [← selected]
  rfl

end IntMain
