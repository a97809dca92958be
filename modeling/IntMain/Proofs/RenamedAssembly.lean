import IntMain.Proofs.Renaming

/-!
# Assembly does not show the names of variables

Selection takes the place of a variable from its address. The names of labels and
temporaries do show, but those are not touched. So a program under new names is assembled
like the program itself, up to the texts of the comments, which quote whole quadruples.
-/

namespace IntMain

/-- The line without the text of a comment. -/
def Line.blanked : Line → Line
  | .comment _ => .comment ""
  | other => other

/-- Lines that differ inside comments only. There are as many of them, so a comment stands where the
other one has a comment. -/
def SameLines (lines others : List Line) : Prop :=
  others.map Line.blanked = lines.map Line.blanked

/-- Equal lines do not differ, inside of comments or elsewhere. -/
theorem SameLines.of_alike {first second : Except Fault (List Line)}
    (alike : Alike Eq first second) : Alike SameLines first second :=
  alike.mono (fun _ _ same => congrArg _ same.symm)

/-!
## Labels and jumps
-/

/-- The families of quadruples that name a label. -/
def labelling : List CommandKind := [.label, .unconditionalJump, .conditionalJump]

/-- A label, a jump or a branch has a label as its target. -/
def Quad.Targeted (quad : Quad) : Prop :=
  ∀ kind ∈ labelling, quad.kind? = some kind →
    ∀ target, quad.target = some target → target.kind = .label

/-- A quadruple of another family may have any target. -/
theorem Quad.Targeted.of_kind {quad : Quad} (kind : CommandKind) (isKind : quad.kind? = some kind)
    (plain : kind ∉ labelling) : quad.Targeted := by
  intro other isLabelling isOther
  rw [isKind] at isOther
  cases isOther
  exact absurd isLabelling plain

/-- A quadruple with a label as its target is as it should be, whatever its family is. -/
theorem Quad.Targeted.of_label {quad : Quad} {number : Nat}
    (isLabel : quad.target = some (.label number)) : quad.Targeted := by
  intro kind isLabelling isKind target isTarget
  rw [isLabel] at isTarget
  cases isTarget
  rfl

/-- A binary operation may have any target, since it belongs to another family. -/
theorem Quad.binary_targeted (op : BinaryOp) (left right target : Operand) :
    (Quad.binary op left right target).Targeted := by
  cases op <;> exact .of_kind _ rfl (by decide)

/-- The code of an expression has no jumps and no labels, so its targets may be any. -/
theorem Computes.targeted {live : Nat} {node : Node} {target value : Operand} {code : List Quad}
    (computed : Computes live node target code value) : ∀ quad ∈ code, quad.Targeted := by
  induction computed with
  | integer => exact List.forall_mem_nil _
  | identifier addressed => exact List.forall_mem_nil _
  | unary inner inductionHypothesis =>
    exact List.forall_mem_append.mpr ⟨inductionHypothesis,
      List.forall_mem_singleton.mpr (.of_kind .unary rfl (by decide))⟩
  | binary first second left right =>
    exact List.forall_mem_append.mpr ⟨List.forall_mem_append.mpr ⟨left, right⟩,
      List.forall_mem_singleton.mpr (Quad.binary_targeted _ _ _ _)⟩

/-- The code of an assignment has no jumps and no labels, so its targets may be any. -/
theorem Stores.targeted {target : Operand} {op : AssignOp} {value : Node} {code : List Quad}
    (stored : Stores target op value code) : ∀ quad ∈ code, quad.Targeted := by
  cases stored with
  | copied plain simple => exact List.forall_mem_singleton.mpr (.of_kind .copy rfl (by decide))
  | computed plain direct nonempty => exact direct.targeted
  | combined combining operand =>
    exact List.forall_mem_append.mpr ⟨operand.targeted,
      List.forall_mem_singleton.mpr (Quad.binary_targeted _ _ _ _)⟩

/-- Clauses leave for a numbered label. -/
def Task.Targeted : Task → Prop
  | .clauses _ done => ∃ number, done = .label number
  | _ => True

/-- Labels and jumps name labels in the code of every task. Clauses are given the label for which
they leave, which is why it has to be a numbered one. -/
theorem Lowers.targeted {task : Task} {labels after : Nat} {code : List Quad}
    (lowers : Lowers task labels code after) (leaves : task.Targeted) :
    ∀ quad ∈ code, quad.Targeted := by
  induction lowers with
  | compound inner statements => exact statements trivial
  | block inner statements => exact statements trivial
  | empty => exact List.forall_mem_nil _
  | declaration => exact List.forall_mem_nil _
  | initialization addressed stored => exact stored.targeted
  | assignment addressed stored => exact stored.targeted
  | returned computed =>
    exact List.forall_mem_append.mpr ⟨computed.targeted,
      List.forall_mem_singleton.mpr (.of_kind .ret rfl (by decide))⟩
  | chain inner clauses =>
    exact List.forall_mem_append.mpr ⟨clauses ⟨_, rfl⟩,
      List.forall_mem_singleton.mpr (.of_label rfl)⟩
  | chainElse inner otherwise clauses body =>
    simp only [List.forall_mem_append, List.forall_mem_singleton]
    exact ⟨⟨clauses ⟨_, rfl⟩, body trivial⟩, .of_label rfl⟩
  | whileLoop tested repeated body =>
    simp only [List.forall_mem_append, List.forall_mem_cons, List.not_mem_nil, false_implies,
      implies_true, and_true]
    exact ⟨⟨⟨⟨.of_label rfl, tested.targeted⟩, .of_label rfl⟩, body trivial⟩, .of_label rfl,
      .of_label rfl⟩
  | doWhile repeated tested body =>
    simp only [List.forall_mem_append, List.forall_mem_cons, List.not_mem_nil, false_implies,
      implies_true, and_true]
    exact ⟨⟨⟨.of_label rfl, body trivial⟩, tested.targeted⟩, .of_label rfl⟩
  | nil => exact List.forall_mem_nil _
  | cons first second head tail =>
    exact List.forall_mem_append.mpr ⟨head trivial, tail trivial⟩
  | noClause => exact List.forall_mem_nil _
  | clause tested guarded following body clauses =>
    obtain ⟨number, rfl⟩ := leaves
    simp only [List.forall_mem_append, List.forall_mem_cons, List.not_mem_nil, false_implies,
      implies_true, and_true]
    exact ⟨⟨⟨⟨tested.targeted, .of_label rfl⟩, body trivial⟩, .of_label rfl, .of_label rfl⟩,
      clauses ⟨number, rfl⟩⟩

/-!
## Places under new names
-/

section Selected

variable (rename : String → String)

namespace Operand

/-- An operand that is no variable keeps its name. Temporaries and labels are not renamed. -/
theorem name_renamed {operand : Operand} (notVariable : operand.kind ≠ .variable) :
    (operand.renamed rename).name = operand.name := by
  rw [renamed, if_neg notVariable]

/-- An operand keeps its place, because the place of a variable is found by its address. -/
theorem place_renamed (operand : Operand) : (operand.renamed rename).place = operand.place := by
  obtain ⟨kind, name, text⟩ := operand
  cases kind <;> rfl

/-- A target keeps its workplace, and the faults are the same as well: none of them names a
variable. -/
theorem ofTarget_renamed (target : Operand) :
    Workplace.ofTarget (target.renamed rename) = Workplace.ofTarget target := by
  obtain ⟨kind, name, text⟩ := target
  cases kind <;> rfl

/-- The name of an operand that is a temporary stays, and an operand that is none does not become
one. -/
theorem temporaryName_renamed (operand : Option Operand) :
    ((operand.map (renamed rename)).filter isTemporary).map name =
      (operand.filter isTemporary).map name := by
  cases operand with
  | none => rfl
  | some operand =>
    obtain ⟨kind, name, text⟩ := operand
    cases kind <;> rfl

end Operand

namespace Quad

/-- A needed operand is there under its new name, or it is missing in both quadruples. -/
theorem required_renamed (quad other : Quad) (operand : Option Operand) (what : String) :
    Alike (fun found renamed => renamed = found.renamed rename) (quad.required operand what)
      (other.required (operand.map (Operand.renamed rename)) what) := by
  cases operand <;> trivial

/-- Operands keep their places and the result its workplace. The faults of the two may differ in
what they name. -/
theorem operands_renamed (quad : Quad) :
    Alike Eq quad.operands (quad.renamed rename).operands := by
  refine (required_renamed rename quad _ quad.left _).bind ?_
  rintro left _ rfl
  rw [Operand.place_renamed]
  refine Alike.refl.bind ?_
  rintro leftPlace _ rfl
  refine (required_renamed rename quad _ quad.right _).bind ?_
  rintro right _ rfl
  rw [Operand.place_renamed]
  refine Alike.refl.bind ?_
  rintro rightPlace _ rfl
  refine (required_renamed rename quad _ quad.target _).bind ?_
  rintro target _ rfl
  rw [Operand.ofTarget_renamed]
  exact Alike.refl

/-- A return has the same lines, since its value keeps its place. -/
theorem selectReturn_renamed (quad : Quad) :
    Alike Eq quad.selectReturn (quad.renamed rename).selectReturn := by
  refine (required_renamed rename quad _ quad.target _).bind ?_
  rintro value _ rfl
  rw [Operand.place_renamed]
  exact Alike.refl

/-- A copy has the same lines. Whether it goes through the scratch register depends on the kinds of
its operands, and these stay. -/
theorem selectCopy_renamed (quad : Quad) :
    Alike Eq quad.selectCopy (quad.renamed rename).selectCopy := by
  refine (required_renamed rename quad _ quad.left _).bind ?_
  rintro source _ rfl
  refine (required_renamed rename quad _ quad.target _).bind ?_
  rintro target _ rfl
  have sameText : (target.renamed rename).text = target.text := by
    unfold Operand.renamed
    split <;> rfl
  simp only [Operand.place_renamed, Operand.kind_renamed, sameText]
  exact Alike.refl

/-- A signed operand has the same lines, since operand and result keep their places. -/
theorem selectUnary_renamed (quad : Quad) (symbol : String) :
    Alike Eq (quad.selectUnary symbol) ((quad.renamed rename).selectUnary symbol) := by
  refine (required_renamed rename quad _ quad.left _).bind ?_
  rintro source _ rfl
  rw [Operand.place_renamed]
  refine Alike.refl.bind ?_
  rintro place _ rfl
  refine (required_renamed rename quad _ quad.target _).bind ?_
  rintro target _ rfl
  rw [Operand.ofTarget_renamed]
  exact Alike.refl

/-- An arithmetic operation has the same lines, comments included: its note on the accumulator names
registers only. -/
theorem selectArithmetic_renamed (quad : Quad) (symbol : String) :
    Alike Eq (quad.selectArithmetic symbol) ((quad.renamed rename).selectArithmetic symbol) := by
  refine (operands_renamed rename quad).bind ?_
  rintro places _ rfl
  exact Alike.refl

/-- A comparison that feeds a branch has the same lines. The branch is given and keeps its label. -/
theorem selectComparison_renamed (quad : Quad) (symbol : String) (branch : Branch) :
    Alike Eq (quad.selectComparison symbol branch)
      ((quad.renamed rename).selectComparison symbol branch) := by
  refine (operands_renamed rename quad).bind ?_
  rintro places _ rfl
  exact Alike.refl

/-- The target of a label, a jump or a branch keeps its name, because it is a label. -/
theorem Targeted.name_renamed {quad : Quad} (targeted : quad.Targeted) (kind : CommandKind)
    (isKind : quad.kind? = some kind) (isLabelling : kind ∈ labelling) :
    ∀ target, quad.target = some target → (target.renamed rename).name = target.name := by
  intro target isTarget
  have isLabel := targeted kind isLabelling isKind target isTarget
  apply Operand.name_renamed
  rw [isLabel]
  decide

/-- A needed label is there under its own name, or it is missing in both quadruples. -/
theorem required_label {quad : Quad} (keepsName : ∀ target, quad.target = some target →
      (target.renamed rename).name = target.name) (what : String) :
    Alike (fun found other => other.name = found.name) (quad.required quad.target what)
      ((quad.renamed rename).required (quad.renamed rename).target what) := by
  have sameTarget : (quad.renamed rename).target =
      quad.target.map (Operand.renamed rename) := rfl
  rw [sameTarget]
  cases isTarget : quad.target with
  | none => trivial
  | some target => exact keepsName target isTarget

/-- A branch has the same lines up to comments, if its target keeps its name. The comment on a
branch that is not supported quotes the quadruple, with the names in it. -/
theorem selectBranch_renamed {quad : Quad} (keepsName : ∀ target, quad.target = some target →
      (target.renamed rename).name = target.name) (command : Command)
    (producer : Option CommandKind) :
    Alike SameLines (quad.selectBranch command producer)
      ((quad.renamed rename).selectBranch command producer) := by
  refine (required_renamed rename quad _ quad.left _).bind ?_
  rintro condition _ rfl
  refine (required_label rename keepsName _).bind ?_
  intro label other sameName
  simp only [Operand.place_renamed, Operand.kind_renamed, sameName]
  split
  · rfl
  · rfl
  · exact SameLines.of_alike Alike.refl

/-- A quadruple keeps the temporary that it writes, and writes none if it wrote none. -/
theorem produced?_renamed (quad : Quad) : (quad.renamed rename).produced? = quad.produced? := by
  have sameTarget : ((quad.renamed rename).target.filter Operand.isTemporary).map Operand.name =
      (quad.target.filter Operand.isTemporary).map Operand.name :=
    Operand.temporaryName_renamed rename quad.target
  rw [produced?, sameTarget]
  rfl

/-- A quadruple keeps the temporary that it tests, and tests none if it tested none. -/
theorem tested?_renamed (quad : Quad) : (quad.renamed rename).tested? = quad.tested? := by
  have sameLeft : ((quad.renamed rename).left.filter Operand.isTemporary).map Operand.name =
      (quad.left.filter Operand.isTemporary).map Operand.name :=
    Operand.temporaryName_renamed rename quad.left
  rw [tested?, sameLeft]
  rfl

/-- Only a branch tests a temporary, so a quadruple that tests one has a label as its target. -/
theorem kind?_of_tested? {quad : Quad} {name : String} (tests : quad.tested? = some name) :
    quad.kind? = some .conditionalJump := by
  unfold tested? at tests
  split at tests
  · assumption
  · cases tests

end Quad

/-!
## Programs under new names
-/

/-- A comparison is recorded under new names as it is before, because it is recorded for a
temporary. -/
theorem recorded_renamed (index : Nat) (producers : List (String × Producer)) (quad : Quad) :
    recorded index producers (quad.renamed rename) = recorded index producers quad := by
  simp only [recorded, Quad.produced?_renamed]
  rfl

/-- Comparisons are paired with the same branches, as the pairing goes by temporaries and labels. -/
theorem Pairing.collect_renamed (index : Nat) (producers : List (String × Producer))
    {quads : List Quad} (targeted : ∀ quad ∈ quads, quad.Targeted) :
    collect index producers (quads.map (Quad.renamed rename)) =
      collect index producers quads := by
  induction quads generalizing index producers with
  | nil => rfl
  | cons quad later inductionHypothesis =>
    obtain ⟨here, rest⟩ := List.forall_mem_cons.mp targeted
    have samePolarity : (quad.renamed rename).jumpsWhenTrue = quad.jumpsWhenTrue := rfl
    rw [List.map_cons, collect_cons, collect_cons, recorded_renamed, Quad.tested?_renamed,
      inductionHypothesis _ _ rest, samePolarity]
    cases tests : quad.tested? with
    | none => rfl
    | some name =>
      have keepsName := here.name_renamed rename .conditionalJump (Quad.kind?_of_tested? tests)
        (by decide)
      have sameTarget : (quad.renamed rename).target =
          quad.target.map (Operand.renamed rename) := rfl
      rw [Option.bind_some, sameTarget]
      cases (recorded index producers quad).lookup name with
      | none => rfl
      | some producer =>
        obtain ⟨kind, comparison⟩ := producer
        cases isTarget : quad.target with
        | none => rfl
        | some label =>
          rw [Option.map_some]
          cases kind with
          | relational => simp only [keepsName label isTarget]
          | _ => rfl

namespace Selection

/-- One command has the same lines up to comments, and leaves the same branches waiting. The target
of a label or a jump has to be a label, for a variable would be renamed. -/
theorem selectCommand_renamed (state : Selection) (feeds : Bool) {quad : Quad}
    {command : Command} (commanded : quad.command = some command) (targeted : quad.Targeted) :
    Alike (fun selected other => SameLines selected.lines other.lines ∧
        other.waiting = selected.waiting)
      (state.selectCommand feeds quad command)
      (state.selectCommand feeds (quad.renamed rename) command) := by
  have isKind : quad.kind? = some command.kind := by rw [Quad.kind?, commanded, Option.map_some]
  obtain ⟨text, kind⟩ := command
  have plain : ∀ first second : Except Fault (List Line), Alike SameLines first second →
      Alike (fun selected other => SameLines selected.lines other.lines ∧
          other.waiting = selected.waiting)
        (do return ({ lines := ← first, waiting := state.waiting } : Selected))
        (do return ({ lines := ← second, waiting := state.waiting } : Selected)) := by
    intro first second alike
    refine alike.bind ?_
    intro lines others same
    exact ⟨same, rfl⟩
  cases kind with
  | arithmetic =>
    exact plain _ _ (SameLines.of_alike (Quad.selectArithmetic_renamed rename quad text))
  | unary => exact plain _ _ (SameLines.of_alike (Quad.selectUnary_renamed rename quad text))
  | copy => exact plain _ _ (SameLines.of_alike (Quad.selectCopy_renamed rename quad))
  | ret => exact plain _ _ (SameLines.of_alike (Quad.selectReturn_renamed rename quad))
  | logical => exact ⟨rfl, rfl⟩
  | relational =>
    obtain ⟨waiting, producers⟩ := state
    cases feeds with
    | false => exact ⟨rfl, rfl⟩
    | true =>
      cases waiting with
      | nil => exact ⟨rfl, rfl⟩
      | cons branch waiting =>
        refine (Quad.selectComparison_renamed rename quad text branch).bind ?_
        rintro lines _ rfl
        exact ⟨rfl, rfl⟩
  | label =>
    have keepsName := targeted.name_renamed rename .label isKind (by decide)
    refine (Quad.required_label rename keepsName _).bind ?_
    intro label other sameName
    exact ⟨congrArg (fun name => [Line.label name]) sameName, rfl⟩
  | unconditionalJump =>
    have keepsName := targeted.name_renamed rename .unconditionalJump isKind (by decide)
    refine (Quad.required_label rename keepsName _).bind ?_
    intro label other sameName
    exact ⟨congrArg (fun name => [Line.instruction (.jump name)]) sameName, rfl⟩
  | conditionalJump =>
    have keepsName := targeted.name_renamed rename .conditionalJump isKind (by decide)
    simp only [selectCommand, Quad.tested?_renamed]
    exact plain _ _ (Quad.selectBranch_renamed rename keepsName _ _)

/-- Quadruples have the same lines up to comments, and a fault together. With a fault the lines
before it still agree. -/
theorem selectAll_renamed (feeding : List Nat) (state : Selection) (index : Nat)
    {quads : List Quad} (targeted : ∀ quad ∈ quads, quad.Targeted) :
    SameLines (state.selectAll feeding index quads).lines
        (state.selectAll feeding index (quads.map (Quad.renamed rename))).lines ∧
      (state.selectAll feeding index quads).fault.isSome =
        (state.selectAll feeding index (quads.map (Quad.renamed rename))).fault.isSome := by
  induction quads generalizing state index with
  | nil => exact ⟨rfl, rfl⟩
  | cons quad later inductionHypothesis =>
    obtain ⟨here, rest⟩ := List.forall_mem_cons.mp targeted
    have sameCommand : (quad.renamed rename).command = quad.command := rfl
    rw [List.map_cons, selectAll, selectAll, sameCommand]
    cases commanded : quad.command with
    | none => exact inductionHypothesis state (index + 1) rest
    | some command =>
      have alike := selectCommand_renamed rename state (feeding.contains index) commanded here
      have sameProducers : state.producersAfter (quad.renamed rename) =
          state.producersAfter quad := by
        simp only [producersAfter, Quad.produced?_renamed]
        rfl
      dsimp only
      rw [sameProducers]
      generalize state.selectCommand (feeding.contains index) quad command = first at alike ⊢
      generalize state.selectCommand (feeding.contains index) (quad.renamed rename) command =
        second at alike ⊢
      cases first with
      | error fault =>
        cases second with
        | error otherFault => exact ⟨rfl, rfl⟩
        | ok other => exact alike.elim
      | ok selected =>
        cases second with
        | error otherFault => exact alike.elim
        | ok other =>
          obtain ⟨sameLines, sameWaiting⟩ := alike
          obtain ⟨sameRest, sameFault⟩ := inductionHypothesis
            ⟨selected.waiting, state.producersAfter quad⟩ (index + 1) rest
          dsimp only
          rw [sameWaiting]
          refine ⟨?_, sameFault⟩
          simp only [SameLines, List.map_append] at sameLines sameRest ⊢
          rw [sameLines, sameRest]

end Selection

/-- Results are alike if the lines are the same up to comments, and faults come together. -/
theorem Assembled.result_alike {first second : Assembled}
    (sameLines : SameLines first.lines second.lines)
    (sameFault : first.fault.isSome = second.fault.isSome) :
    Alike SameLines first.result second.result := by
  unfold Assembled.result
  cases firstFault : first.fault with
  | none =>
    cases secondFault : second.fault with
    | none => exact sameLines
    | some fault => simp [firstFault, secondFault] at sameFault
  | some fault =>
    cases secondFault : second.fault with
    | none => simp [firstFault, secondFault] at sameFault
    | some otherFault => trivial

/-- A program is assembled under new names as it is before, up to comments. The frame has the same
size, so the lines around the code are equal. -/
theorem Assembled.ofProgram_renamed {program : Program}
    (targeted : ∀ quad ∈ program.quads, quad.Targeted) :
    Alike SameLines (Assembled.ofProgram program).result
      (Assembled.ofProgram (program.renamed rename)).result := by
  have samePairing : Pairing.ofQuads (program.renamed rename).quads =
      Pairing.ofQuads program.quads := Pairing.collect_renamed rename 0 [] targeted
  obtain ⟨sameLines, sameFault⟩ := Selection.selectAll_renamed rename
    (Pairing.ofQuads program.quads).feeding ⟨(Pairing.ofQuads program.quads).branches, []⟩ 0
    targeted
  refine Assembled.result_alike ?_ ?_
  · simp only [Assembled.ofProgram, samePairing]
    simp only [SameLines, List.map_append] at sameLines ⊢
    rw [← sameLines]
    rfl
  · simp only [Assembled.ofProgram, samePairing]
    exact sameFault

end Selected

/-- **Compilation does not depend on the names of variables, as long as they are not names
of scopes.**

Give every variable of a program that parses another name, different variables different
names. If no old or new name is that of the builtin type or of a scope of the program, then
the program is resolved under the new names exactly if it is under the old ones, with the
same stamps. Both are lowered, and assembled to the same lines up to the texts of comments,
or not at all. -/
theorem assembly_hides_names (rename : String → String) (tokens : List Token) (parsed : Parsed)
    (accepted : Parsed.ofTokens tokens = .ok parsed)
    (faithful : Faithful rename parsed.root.names parsed.root.reserved) :
    ((parsed.root.renamed rename).resolve.fault = none ↔ parsed.root.resolve.fault = none) ∧
    (parsed.root.resolve.fault = none →
      (parsed.root.renamed rename).resolve.tree = parsed.root.resolve.tree.renamed rename ∧
      ∃ lowered renamed, Lowered.ofTree parsed.root.resolve.tree = .ok lowered ∧
        Lowered.ofTree (parsed.root.renamed rename).resolve.tree = .ok renamed ∧
        Alike SameLines (Assembled.ofProgram lowered.program).result
          (Assembled.ofProgram renamed.program).result) := by
  obtain ⟨sameFault, sameTree⟩ := Node.resolve_renamed faithful
  constructor
  · rw [← Option.isNone_iff_eq_none, ← Option.isNone_iff_eq_none, ← Option.not_isSome,
      ← Option.not_isSome, sameFault]
  · intro resolved
    refine ⟨sameTree resolved, ?_⟩
    obtain ⟨lowered, isLowered⟩ := Parsed.isLowered accepted resolved
    obtain ⟨labels, lowers⟩ := Parsed.lowers accepted resolved isLowered
    have alike := Lowered.ofTree_renamed rename parsed.root.resolve.tree
    rw [isLowered] at alike
    obtain ⟨renamed, isRenamed, sameProgram⟩ := alike.of_ok
    refine ⟨lowered, renamed, isLowered, ?_, ?_⟩
    · rw [sameTree resolved]
      exact isRenamed
    · rw [sameProgram]
      exact Assembled.ofProgram_renamed rename (lowers.targeted trivial)

/-- Two names change places. -/
def exchange (first second name : String) : String :=
  if name = first then second else if name = second then first else name

/-- Two variables, with a shadow of one in the body of a loop. -/
def twoVariables : String :=
  "int main() \x7b int a; int b = a; while (a < b) \x7b int a = b; b = a; \x7d \x7d"

/-- In the program above the two names can change places, and the assembly stays the same up to
comments. -/
theorem assembly_hides_names_exchanged :
    ∃ parsed, Parsed.ofTokens (Lexed.ofText twoVariables).tokens = .ok parsed ∧
      Faithful (exchange "a" "b") parsed.root.names parsed.root.reserved ∧
      (parsed.root.renamed (exchange "a" "b")).resolve.fault = none ∧
      ∃ lowered renamed, Lowered.ofTree parsed.root.resolve.tree = .ok lowered ∧
        Lowered.ofTree (parsed.root.renamed (exchange "a" "b")).resolve.tree = .ok renamed ∧
        Alike SameLines (Assembled.ofProgram lowered.program).result
          (Assembled.ofProgram renamed.program).result := by
  have evaluated : (Parsed.ofTokens (Lexed.ofText twoVariables).tokens).toOption.any
      (fun parsed => decide (
        (∀ first ∈ parsed.root.names, ∀ second ∈ parsed.root.names,
          exchange "a" "b" first = exchange "a" "b" second → first = second) ∧
        (∀ name ∈ parsed.root.names, name ∉ parsed.root.reserved) ∧
        (∀ name ∈ parsed.root.names, exchange "a" "b" name ∉ parsed.root.reserved) ∧
        parsed.root.resolve.fault = none)) = true := by
    decide +kernel
  obtain ⟨parsed, accepted, checked⟩ := exists_ok_of_any evaluated
  obtain ⟨injective, apart, renamedApart, resolved⟩ := of_decide_eq_true checked
  have faithful : Faithful (exchange "a" "b") parsed.root.names parsed.root.reserved :=
    ⟨injective, apart, renamedApart⟩
  obtain ⟨sameFault, same⟩ := assembly_hides_names (exchange "a" "b") _ parsed accepted faithful
  exact ⟨parsed, accepted, faithful, sameFault.mpr resolved, (same resolved).2⟩

/-- The name of a scope is taken in the scope around it: behind a block, a variable cannot
have the name of the block, though it is the only variable of the program. -/
theorem block_name_is_taken :
    ∃ parsed, Parsed.ofTokens (Lexed.ofText
        "int main() \x7b \x7b \x7d int x; \x7d").tokens = .ok parsed ∧
      Function.Injective (exchange "x" "block_1") ∧
      parsed.root.resolve.fault = none ∧
      (parsed.root.renamed (exchange "x" "block_1")).resolve.fault =
        some (.redefinition "block_1" ⟨1, 22⟩) := by
  have evaluated : (Parsed.ofTokens (Lexed.ofText
      "int main() \x7b \x7b \x7d int x; \x7d").tokens).toOption.any
      (fun parsed => decide (parsed.root.resolve.fault = none ∧
        (parsed.root.renamed (exchange "x" "block_1")).resolve.fault =
          some (.redefinition "block_1" ⟨1, 22⟩))) = true := by
    decide +kernel
  obtain ⟨parsed, accepted, checked⟩ := exists_ok_of_any evaluated
  have injective : Function.Injective (exchange "x" "block_1") := by
    intro first second same
    unfold exchange at same
    grind
  exact ⟨parsed, accepted, injective, of_decide_eq_true checked⟩

end IntMain
