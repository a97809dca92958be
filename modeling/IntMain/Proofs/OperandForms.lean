import IntMain.Proofs.EmittedLines

/-!
# Operands of the emitted instructions

The first operand of an instruction may not be an immediate value, not both operands may be
in memory, and arithmetic works on a register. The assembler has one register for what does
not fit: the scratch register. Here it is proved that every line that is emitted has operands
of these forms, and that the scratch register carries nothing from one quadruple to the next:
a line reads it only behind a line of the same quadruple that writes it. What the machine's
own multiplication and division take is another matter, on which the assembler leaves a note.

Both go rule by rule along `Emitted`. They are about the lines of the program; that its listing
has these lines and no others, if the program comes from a text, is `listings_show_lines`.
-/

namespace IntMain

/-- Whether a place is a register. -/
def Place.isRegister : Place → Bool
  | .register _ => true
  | _ => false

/-- Whether a place is in memory. -/
def Place.isMemory : Place → Bool
  | .memory _ => true
  | _ => false

/-- Whether two places can be the operands of one instruction, in this order. -/
def Place.pairs (first second : Place) : Bool :=
  (first.isRegister || first.isMemory) && !(first.isMemory && second.isMemory)

namespace Instruction

/-- Whether the operands of an instruction have a legal form. -/
def legalOperands : Instruction → Bool
  | .move target source => target.pairs source
  | .compare left right => left.pairs right
  | .arithmetic _ target source => target.isRegister && target.pairs source
  | .negate target => target.isRegister
  | .push source => source.isRegister
  | .pop target => target.isRegister
  | .ret => true
  | .jump _ => true
  | .jumpIf _ _ => true

/-- The places that an instruction reads. -/
def reads : Instruction → List Place
  | .push source => [source]
  | .move _ source => [source]
  | .arithmetic _ target source => [target, source]
  | .negate target => [target]
  | .compare left right => [left, right]
  | .pop _ => []
  | .ret => []
  | .jump _ => []
  | .jumpIf _ _ => []

/-- The places that an instruction writes. -/
def writes : Instruction → List Place
  | .pop target => [target]
  | .move target _ => [target]
  | .arithmetic _ target _ => [target]
  | .negate target => [target]
  | .push _ => []
  | .ret => []
  | .compare _ _ => []
  | .jump _ => []
  | .jumpIf _ _ => []

end Instruction

namespace Line

/-- The instruction on a line. -/
def instruction? : Line → Option Instruction
  | .instruction executed => some executed
  | _ => none

/-- Whether the operands on a line have a legal form. -/
def legalOperands (line : Line) : Bool := line.instruction?.all Instruction.legalOperands

/-- The places that a line reads. -/
def reads (line : Line) : List Place := (line.instruction?.map Instruction.reads).getD []

/-- The places that a line writes. -/
def writes (line : Line) : List Place := (line.instruction?.map Instruction.writes).getD []

/-- The places on a line. -/
def places (line : Line) : List Place := line.reads ++ line.writes

end Line

/-!
## Single lines
-/

/-- A place of a quadruple or the scratch register: nothing else is an operand. -/
def Quad.Mentions (quad : Quad) (place : Place) : Prop :=
  place = scratch ∨ quad.Supplies place

/-- A line with operands of a legal form, all of them places of a quadruple. -/
structure Quad.Accepts (quad : Quad) (line : Line) : Prop where
  legalOperands : line.legalOperands = true
  mentions : ∀ place ∈ line.places, quad.Mentions place

section Lines

variable {quad : Quad} {named : Register} {left right place value : Place} {load : List Line}

/-- What is in memory pairs with every place that is not. Two places in memory are what the
instructions do not take. -/
theorem Place.memory_pairs (text : String) (elsewhere : ∀ slot, value ≠ .memory slot) :
    (Place.memory text).pairs value = true := by
  cases value with
  | memory slot => exact absurd rfl (elsewhere slot)
  | register named => rfl
  | immediate shown => rfl
  | symbol name => rfl

/-- A quadruple mentions every register, since registers may hold its temporaries. -/
theorem Quad.mentions_register (named : Register) : quad.Mentions (.register named) := by
  by_cases isScratch : named = .edi
  · exact .inl (congrArg Place.register isScratch)
  · exact .inr (.register isScratch)

/-- Zero is an integer like any other, so a comparison with it needs no operand of the quadruple. -/
theorem Quad.mentions_zero : quad.Mentions (.immediate "0") :=
  .inr (.immediate : quad.Supplies (.immediate (Text.integer 0)))

/-- A line without operands is accepted by every quadruple. Labels, comments and jumps are such
lines. -/
theorem Quad.accepts_plain {line : Line} (legalOperands : line.legalOperands = true)
    (bare : line.places = []) : quad.Accepts line := by
  constructor
  · exact legalOperands
  · rw [bare]
    exact List.forall_mem_nil _

/-- A move between places that pair is accepted, if the quadruple mentions both. -/
theorem Quad.accepts_move {target : Place} (targetMentioned : quad.Mentions target)
    (valueMentioned : quad.Mentions value) (pairs : target.pairs value = true) :
    quad.Accepts (.move target value) := by
  constructor
  · exact pairs
  · exact List.forall_mem_cons.mpr ⟨valueMentioned, List.forall_mem_singleton.mpr targetMentioned⟩

/-- A comparison of places that pair is accepted, if the quadruple mentions both. -/
theorem Quad.accepts_compare (leftMentioned : quad.Mentions left)
    (rightMentioned : quad.Mentions right) (pairs : left.pairs right = true) :
    quad.Accepts (.instruction (.compare left right)) := by
  constructor
  · exact pairs
  · exact List.forall_mem_cons.mpr ⟨leftMentioned, List.forall_mem_singleton.mpr rightMentioned⟩

/-- Arithmetic in a register is accepted with any other operand that the quadruple mentions. A
register pairs with every place. -/
theorem Quad.accepts_arithmetic (op : Arithmetic) (named : Register)
    (mentioned : quad.Mentions value) :
    quad.Accepts (.instruction (.arithmetic op (.register named) value)) := by
  constructor
  · rfl
  · have register := quad.mentions_register named
    exact List.forall_mem_cons.mpr
      ⟨register, List.forall_mem_cons.mpr ⟨mentioned, List.forall_mem_singleton.mpr register⟩⟩

/-- A change of sign in a register is accepted. -/
theorem Quad.accepts_negate (named : Register) :
    quad.Accepts (.instruction (.negate (.register named))) := by
  constructor
  · rfl
  · have register := quad.mentions_register named
    exact List.forall_mem_cons.mpr ⟨register, List.forall_mem_singleton.mpr register⟩

/-- The lines that bring one operand to a register are accepted, if it is an operand of the
quadruple. -/
theorem Fetches.accepts (fetches : Fetches named value load) (supplied : quad.Supplies value) :
    ∀ line ∈ load, quad.Accepts line := by
  cases fetches with
  | there => exact List.forall_mem_nil _
  | fetched =>
    exact List.forall_mem_singleton.mpr
      (Quad.accepts_move (Quad.mentions_register named) (.inr supplied) rfl)

/-- The lines that bring two operands together are accepted, and what they leave for the instruction
is mentioned as well: the right operand or the scratch register. -/
theorem Loads.accepts (loads : Loads named left right load place)
    (leftSupplied : quad.Supplies left) (rightSupplied : quad.Supplies right) :
    (∀ line ∈ load, quad.Accepts line) ∧ quad.Mentions place := by
  have fetch : quad.Accepts (.move (.register named) left) :=
    Quad.accepts_move (Quad.mentions_register named) (.inr leftSupplied) rfl
  cases loads with
  | there => exact ⟨List.forall_mem_nil _, .inr rightSupplied⟩
  | fetched rightElsewhere => exact ⟨List.forall_mem_singleton.mpr fetch, .inr rightSupplied⟩
  | exchanged notScratch =>
    have saved : quad.Accepts (.move scratch (.register named)) :=
      Quad.accepts_move (.inl rfl) (Quad.mentions_register named) rfl
    constructor
    · exact List.forall_mem_cons.mpr ⟨saved, List.forall_mem_singleton.mpr fetch⟩
    · exact .inl rfl

/-- The line that stores a result is accepted, if there is one. The result is stored from a
register, so it pairs with any place. -/
theorem Quad.WorksAt.accepts {workplace : Workplace} (works : quad.WorksAt named workplace) :
    ∀ line ∈ workplace.storing, quad.Accepts line := by
  cases works with
  | temporary notScratch => exact List.forall_mem_nil _
  | stored listed =>
    exact List.forall_mem_singleton.mpr
      (Quad.accepts_move (.inr (.memory listed)) (.inl rfl) rfl)

end Lines

/-- The operands of every line that is emitted have a legal form and are places of the
quadruple. -/
theorem Emitted.accepts {quad : Quad} {lines : List Line} (emitted : Emitted quad lines) :
    ∀ line ∈ lines, quad.Accepts line := by
  cases emitted with
  | nothing isBranch => exact List.forall_mem_nil _
  | comment text kinds => exact List.forall_mem_singleton.mpr (Quad.accepts_plain rfl rfl)
  | label isLabel => exact List.forall_mem_singleton.mpr (Quad.accepts_plain rfl rfl)
  | jump isJump => exact List.forall_mem_singleton.mpr (Quad.accepts_plain rfl rfl)
  | ret isReturn supplied loads =>
    rw [List.forall_mem_append, List.forall_mem_singleton]
    exact ⟨loads.accepts supplied, Quad.accepts_plain rfl rfl⟩
  | copy isCopy listed supplied noSlot =>
    rw [List.forall_mem_singleton]
    apply Quad.accepts_move (.inr (.memory listed)) (.inr supplied)
    exact Place.memory_pairs _ noSlot
  | copyVariable isCopy listed supplied =>
    rw [List.forall_mem_cons, List.forall_mem_singleton]
    constructor
    · exact Quad.accepts_move (.inl rfl) (.inr supplied) rfl
    · exact Quad.accepts_move (.inr (.memory listed)) (.inl rfl) rfl
  | @unary named workplace source load negates produces works supplied loads =>
    rw [List.forall_mem_append, List.forall_mem_append]
    refine ⟨⟨loads.accepts supplied, ?_⟩, works.accepts⟩
    split
    · exact List.forall_mem_singleton.mpr (Quad.accepts_negate named)
    · exact List.forall_mem_nil _
  | @arithmetic named workplace left right place load op produces works leftSupplied rightSupplied
      loads =>
    obtain ⟨loading, mentioned⟩ := loads.accepts leftSupplied rightSupplied
    have noting : ∀ line ∈ Quad.accumulatorNote op (.register named), quad.Accepts line := by
      intro line noted
      obtain ⟨text, rfl⟩ := Quad.accumulatorNote_comments _ _ line noted
      exact Quad.accepts_plain rfl rfl
    rw [List.forall_mem_append, List.forall_mem_append, List.forall_mem_append,
      List.forall_mem_singleton]
    exact ⟨⟨⟨loading, noting⟩, Quad.accepts_arithmetic op named mentioned⟩, works.accepts⟩
  | @comparison named workplace left right place load relation label produces works leftSupplied
      rightSupplied loads =>
    obtain ⟨loading, mentioned⟩ := loads.accepts leftSupplied rightSupplied
    have compares : quad.Accepts (.instruction (.compare (.register named) place)) :=
      Quad.accepts_compare (Quad.mentions_register named) mentioned rfl
    rw [List.forall_mem_append, List.forall_mem_cons, List.forall_mem_singleton]
    exact ⟨loading, compares, Quad.accepts_plain rfl rfl⟩
  | @test value relation label isBranch supplied noInteger =>
    have compares : quad.Accepts (.instruction (.compare value (.immediate "0"))) := by
      apply Quad.accepts_compare (.inr supplied) Quad.mentions_zero
      cases supplied with
      | immediate => exact absurd rfl (noInteger _)
      | memory listed => rfl
      | register notScratch => rfl
    rw [List.forall_mem_cons, List.forall_mem_singleton]
    exact ⟨compares, Quad.accepts_plain rfl rfl⟩
  | @testInteger value relation label isBranch supplied =>
    have loading : quad.Accepts (.move scratch value) :=
      Quad.accepts_move (.inl rfl) (.inr supplied) rfl
    have compares : quad.Accepts (.instruction (.compare scratch (.immediate "0"))) :=
      Quad.accepts_compare (.inl rfl) Quad.mentions_zero rfl
    rw [List.forall_mem_cons, List.forall_mem_cons, List.forall_mem_singleton]
    exact ⟨loading, compares, Quad.accepts_plain rfl rfl⟩

/-!
## The scratch register
-/

/-- A line reads the scratch register only behind one that writes it. So the lines do not depend on
what the register held before them. -/
def ScratchInOrder (lines : List Line) : Prop :=
  ∀ before line after, lines = before ++ line :: after → scratch ∈ line.reads →
    ∃ earlier ∈ before, scratch ∈ earlier.writes

/-- Lines that do not read the scratch register. -/
def LeaveScratch (lines : List Line) : Prop := ∀ line ∈ lines, scratch ∉ line.reads

section Scratch

variable {quad : Quad} {named : Register} {left right place value : Place} {load rest : List Line}

/-- What is not read need not be written. -/
theorem LeaveScratch.inOrder (leave : LeaveScratch load) : ScratchInOrder load := by
  rintro before line after rfl read
  exact absurd read (leave line (List.mem_append_right before List.mem_cons_self))

/-- Anything can follow a line that fills the scratch register from another place. -/
theorem ScratchInOrder.filled (elsewhere : value ≠ scratch) :
    ScratchInOrder (.move scratch value :: rest) := by
  intro before line after split read
  cases before with
  | nil =>
    obtain ⟨rfl, rfl⟩ := List.cons.inj split
    exact absurd (List.mem_singleton.mp read).symm elsewhere
  | cons first others =>
    obtain ⟨rfl, rfl⟩ := List.cons.inj split
    exact ⟨.move scratch value, List.mem_cons_self, List.mem_singleton.mpr rfl⟩

/-- What a quadruple supplies is not in the scratch register, because no temporary lives there. -/
theorem Quad.Supplies.ne_scratch (supplied : quad.Supplies value) : value ≠ scratch :=
  supplied.ordinary.ne_scratch

/-- A line that reads only other places leaves the scratch register alone. It may write the
register. -/
theorem LeaveScratch.single {line : Line} (elsewhere : ∀ place ∈ line.reads, place ≠ scratch) :
    LeaveScratch [line] :=
  List.forall_mem_singleton.mpr (fun read => elsewhere scratch read rfl)

/-- An instruction that reads two other places leaves the scratch register alone. -/
theorem LeaveScratch.pair {instruction : Instruction} (reads : instruction.reads = [left, right])
    (leftElsewhere : left ≠ scratch) (rightElsewhere : right ≠ scratch) :
    LeaveScratch [.instruction instruction] := by
  apply LeaveScratch.single
  change ∀ place ∈ instruction.reads, place ≠ scratch
  rw [reads, List.forall_mem_cons, List.forall_mem_singleton]
  exact ⟨leftElsewhere, rightElsewhere⟩

/-- If neither of two lists of lines reads the scratch register, no line of both does. -/
theorem LeaveScratch.append {first second : List Line} (leaveFirst : LeaveScratch first)
    (leaveSecond : LeaveScratch second) : LeaveScratch (first ++ second) :=
  List.forall_mem_append.mpr ⟨leaveFirst, leaveSecond⟩

/-- A load into another register leaves the scratch register alone. A load that goes there
begins with filling it. -/
theorem Fetches.scratch_cases (fetches : Fetches named value load)
    (supplied : quad.Supplies value) :
    (named ≠ .edi ∧ LeaveScratch load) ∨ ∃ rest, load = .move scratch value :: rest := by
  cases fetches with
  | there =>
    refine .inl ⟨?_, List.forall_mem_nil _⟩
    rintro rfl
    exact supplied.ne_scratch rfl
  | fetched =>
    by_cases isScratch : named = .edi
    · subst isScratch
      exact .inr ⟨[], rfl⟩
    · refine .inl ⟨isScratch, .single ?_⟩
      exact List.forall_mem_singleton.mpr supplied.ne_scratch

/-- Two loads leave the scratch register alone, or begin with filling it. In the first case neither
the register of the result nor the right operand is the scratch register. -/
theorem Loads.scratch_cases (loads : Loads named left right load place)
    (leftSupplied : quad.Supplies left) (rightSupplied : quad.Supplies right) :
    (named ≠ .edi ∧ place ≠ scratch ∧ LeaveScratch load) ∨
      ∃ source rest, source ≠ scratch ∧ load = .move scratch source :: rest := by
  cases loads with
  | there =>
    refine .inl ⟨?_, rightSupplied.ne_scratch, List.forall_mem_nil _⟩
    rintro rfl
    exact leftSupplied.ne_scratch rfl
  | fetched rightElsewhere =>
    rcases Fetches.fetched.scratch_cases leftSupplied with ⟨notScratch, leave⟩ | ⟨rest, filled⟩
    · exact .inl ⟨notScratch, rightSupplied.ne_scratch, leave⟩
    · exact .inr ⟨left, rest, leftSupplied.ne_scratch, filled⟩
  | exchanged notScratch =>
    exact .inr ⟨.register named, _, fun same => notScratch (Place.register.inj same), rfl⟩

/-- A result in another register than the scratch register is stored by no line, so nothing is
read. -/
theorem Quad.WorksAt.leaveScratch {workplace : Workplace} (works : quad.WorksAt named workplace)
    (notScratch : named ≠ .edi) : LeaveScratch workplace.storing := by
  cases works with
  | temporary distinct => exact List.forall_mem_nil _
  | stored listed => exact absurd rfl notScratch

/-- The note on the accumulator reads nothing, since it is a comment. -/
theorem Quad.accumulatorNote_leaveScratch (op : Arithmetic) (register : Place) :
    LeaveScratch (accumulatorNote op register) := by
  intro line noted
  obtain ⟨text, rfl⟩ := accumulatorNote_comments op register line noted
  exact List.not_mem_nil

end Scratch

/-- The lines of a quadruple read the scratch register only behind one that writes it. There is one
case for each way in which lines are emitted, and those that use the register begin with filling
it. -/
theorem Emitted.scratchInOrder {quad : Quad} {lines : List Line} (emitted : Emitted quad lines) :
    ScratchInOrder lines := by
  have register_ne {named : Register} (notScratch : named ≠ .edi) :
      Place.register named ≠ scratch := fun same => notScratch (Place.register.inj same)
  cases emitted with
  | nothing isBranch => exact LeaveScratch.inOrder (List.forall_mem_nil _)
  | comment text kinds => exact (LeaveScratch.single (List.forall_mem_nil _)).inOrder
  | label isLabel => exact (LeaveScratch.single (List.forall_mem_nil _)).inOrder
  | jump isJump => exact (LeaveScratch.single (List.forall_mem_nil _)).inOrder
  | ret isReturn supplied loads =>
    rcases loads.scratch_cases supplied with ⟨-, leave⟩ | ⟨rest, rfl⟩
    · exact (leave.append (.single (List.forall_mem_nil _))).inOrder
    · exact .filled supplied.ne_scratch
  | copy isCopy listed supplied noSlot =>
    apply LeaveScratch.inOrder
    apply LeaveScratch.single
    exact List.forall_mem_singleton.mpr supplied.ne_scratch
  | copyVariable isCopy listed supplied => exact .filled supplied.ne_scratch
  | unary negates produces works supplied loads =>
    rcases loads.scratch_cases supplied with ⟨notScratch, leave⟩ | ⟨rest, rfl⟩
    · apply LeaveScratch.inOrder
      refine (leave.append ?_).append (works.leaveScratch notScratch)
      split
      · exact .single (List.forall_mem_singleton.mpr (register_ne notScratch))
      · exact List.forall_mem_nil _
    · exact .filled supplied.ne_scratch
  | arithmetic op produces works leftSupplied rightSupplied loads =>
    rcases loads.scratch_cases leftSupplied rightSupplied with
      ⟨notScratch, elsewhere, leave⟩ | ⟨source, rest, distinct, rfl⟩
    · apply LeaveScratch.inOrder
      apply LeaveScratch.append _ (works.leaveScratch notScratch)
      apply LeaveScratch.append (leave.append (Quad.accumulatorNote_leaveScratch op _))
      exact LeaveScratch.pair rfl (register_ne notScratch) elsewhere
    · exact .filled distinct
  | comparison relation label produces works leftSupplied rightSupplied loads =>
    rcases loads.scratch_cases leftSupplied rightSupplied with
      ⟨notScratch, elsewhere, leave⟩ | ⟨source, rest, distinct, rfl⟩
    · apply LeaveScratch.inOrder
      apply leave.append
      apply (LeaveScratch.pair rfl (register_ne notScratch) elsewhere).append
      exact .single (List.forall_mem_nil _)
    · exact .filled distinct
  | test relation label isBranch supplied noInteger =>
    apply LeaveScratch.inOrder
    apply (LeaveScratch.pair rfl supplied.ne_scratch Place.noConfusion).append
    exact .single (List.forall_mem_nil _)
  | testInteger relation label isBranch supplied => exact .filled supplied.ne_scratch

/-!
## Whole programs
-/

/-- The lines that set up the frame and give it up have operands of a legal form, and
use neither memory nor the scratch register. -/
theorem frameLines_legal (frameSize : Nat) :
    ∀ line ∈ prologue frameSize ++ epilogue, line.legalOperands = true ∧
      ∀ place ∈ line.places, place.isMemory = false ∧ place ≠ scratch := by
  intro line listed
  rw [prologue] at listed
  split at listed
  · revert line
    decide
  · simp only [epilogue, List.cons_append, List.nil_append, List.mem_cons,
      List.not_mem_nil, or_false] at listed
    rcases listed with rfl | rfl | rfl | rfl | rfl | rfl | rfl | rfl <;>
      simp [Line.legalOperands, Line.places, Line.reads, Line.writes, Line.instruction?, Line.move,
        Instruction.legalOperands, Instruction.reads, Instruction.writes, Place.isRegister,
        Place.isMemory, Place.pairs, scratch]

/-- For every program that parses, resolves and assembles, the lines are those of its
quadruples, in order, between the lines that set up the frame and those that give it up. On
every line the operands have a legal form: the first operand of a move or a comparison is a
register or in memory, not both operands are in memory, and arithmetic and changes of sign
work on a register. The places on the lines of a quadruple are registers, integers and the
slots of its own variables. A line reads the scratch register only behind one that writes it
among the lines of the same quadruple, and the other lines do not read it. -/
theorem emitted_operands_legal (tokens : List Token) (parsed : Parsed)
    (accepted : Parsed.ofTokens tokens = .ok parsed)
    (resolved : parsed.root.resolve.fault = none) :
    ∃ lowered, Lowered.ofTree parsed.root.resolve.tree = .ok lowered ∧
      ∀ lines, (Assembled.ofProgram lowered.program).result = .ok lines →
        ∃ steps final,
          Selection.Passes (Pairing.ofQuads lowered.program.quads).feeding
            ⟨(Pairing.ofQuads lowered.program.quads).branches, []⟩ 0 lowered.program.quads steps
            final ∧
          steps.map Selection.Step.quad = lowered.program.quads ∧
          lines = prologue lowered.program.frameSize ++ steps.flatMap Selection.Step.lines ++
            epilogue ∧
          (∀ line ∈ lines, line.legalOperands = true) ∧
          (∀ step ∈ steps, ∀ line ∈ step.lines, ∀ place ∈ line.places,
            step.quad.Mentions place) ∧
          (∀ step ∈ steps, ScratchInOrder step.lines) ∧
          ∀ line ∈ prologue lowered.program.frameSize ++ epilogue, scratch ∉ line.reads := by
  obtain ⟨lowered, isLowered⟩ := Parsed.isLowered accepted resolved
  refine ⟨lowered, isLowered, ?_⟩
  intro lines assembled
  obtain ⟨steps, final, passes, linesOf, sameQuads, emitted⟩ :=
    Parsed.emitted accepted resolved isLowered assembled
  have frame := frameLines_legal lowered.program.frameSize
  refine ⟨steps, final, passes, sameQuads, linesOf, ?_, ?_, ?_, ?_⟩
  · intro line listed
    rcases mem_assembled (linesOf ▸ listed) with ofFrame | ⟨step, isStep, ofStep⟩
    · exact (frame line ofFrame).1
    · exact ((emitted step isStep).accepts line ofStep).legalOperands
  · intro step isStep line ofStep
    exact ((emitted step isStep).accepts line ofStep).mentions
  · intro step isStep
    exact (emitted step isStep).scratchInOrder
  · intro line listed read
    exact ((frame line listed).2 scratch (List.mem_append_left _ read)).2 rfl

/-- A program that needs the scratch register for a copy, a stored result, a tested integer
and a right operand in the way. -/
def crossedOperands : String :=
  "int main() \x7b int a = 2; int b; b = a; b -= a * 3; if (1) \x7b b = 1 - (a - (b + 1)); \x7d " ++
  "while (a < b) \x7b a += 1; \x7d return -b; \x7d"

/-- The program above reads the scratch register in nine lines, which are listed. All of its lines
have legal operands, and each read stands behind a write for the same quadruple. -/
theorem emitted_operands_legal_crossedOperands :
    ∃ parsed lowered lines, Parsed.ofTokens (Lexed.ofText crossedOperands).tokens = .ok parsed ∧
      parsed.root.resolve.fault = none ∧
      Lowered.ofTree parsed.root.resolve.tree = .ok lowered ∧
      (Assembled.ofProgram lowered.program).result = .ok lines ∧
      (lines.filter (fun line => line.reads.contains scratch)).map Line.text =
        ["    mov [ebp-8], edi", "    sub edi, eax", "    mov [ebp-8], edi", "    cmp edi, 0",
          "    sub eax, edi", "    sub edi, eax", "    mov [ebp-8], edi", "    add edi, 1",
          "    mov [ebp-4], edi"] ∧
      (∀ line ∈ lines, line.legalOperands = true) ∧
      ∃ steps : List Selection.Step, steps.map Selection.Step.quad = lowered.program.quads ∧
        lines = prologue lowered.program.frameSize ++ steps.flatMap Selection.Step.lines ++
          epilogue ∧
        ∀ step ∈ steps, ScratchInOrder step.lines := by
  have evaluated : (Parsed.ofTokens (Lexed.ofText crossedOperands).tokens).toOption.any
      (fun parsed => parsed.root.resolve.fault.isNone &&
        (Lowered.ofTree parsed.root.resolve.tree).toOption.any (fun lowered =>
          (Assembled.ofProgram lowered.program).result.toOption.any (fun lines =>
            (lines.filter (fun line => line.reads.contains scratch)).map Line.text ==
              ["    mov [ebp-8], edi", "    sub edi, eax", "    mov [ebp-8], edi",
                "    cmp edi, 0", "    sub eax, edi", "    sub edi, eax", "    mov [ebp-8], edi",
                "    add edi, 1", "    mov [ebp-4], edi"]))) = true := by
    decide +kernel
  obtain ⟨parsed, accepted, checked⟩ := exists_ok_of_any evaluated
  obtain ⟨resolved, checked⟩ := (Bool.and_eq_true _ _).mp checked
  rw [Option.isNone_iff_eq_none] at resolved
  obtain ⟨other, otherLowered, checked⟩ := exists_ok_of_any checked
  obtain ⟨lines, assembled, checked⟩ := exists_ok_of_any checked
  obtain ⟨lowered, isLowered, legal⟩ := emitted_operands_legal _ parsed accepted resolved
  obtain rfl : other = lowered := Except.ok.inj (otherLowered.symm.trans isLowered)
  obtain ⟨steps, final, -, sameQuads, linesOf, legalOperands, -, inOrder, -⟩ :=
    legal lines assembled
  exact ⟨parsed, other, lines, accepted, resolved, isLowered, assembled, beq_iff_eq.mp checked,
    legalOperands, steps, sameQuads, linesOf, inOrder⟩

end IntMain
