import IntMain.Proofs.AssemblyMeaning
import IntMain.Proofs.FaultPlaces

/-!
# How many registers a program takes

Temporaries are numbered from one, and the assembler has four registers for them. How many
an expression takes can be read from the expression: `need` counts those that hold values at
once. The left operand is computed first and keeps a temporary while the right one is
computed, unless it is a literal or a variable.

Lowering writes the temporaries up to the need of an expression and no other, so a program
whose expressions need four or fewer is assembled. The converse takes a program in which
every quadruple is turned into lines: the assembler passes over the result of a logical
operator, and of a comparison that feeds no branch, without asking where it is.
-/

namespace IntMain

namespace Node

/-- A literal or a variable: a value that no code computes. -/
def isAtom : Node → Bool
  | .integer _ _ _ => true
  | .identifier _ _ => true
  | _ => false

/-- The number of temporaries that hold values at once while an expression is computed. What
is no expression needs none. -/
def need : Node → Nat
  | .unary _ _ operand => max 1 operand.need
  | .binary _ _ left right =>
    max 1 (max left.need (right.need + if left.isAtom then 0 else 1))
  | _ => 0

/-- An atom needs no temporary, as it is read where it is. -/
theorem need_of_isAtom {node : Node} (isAtom : node.isAtom = true) : node.need = 0 := by
  cases node with
  | integer mark value lexeme => rfl
  | identifier mark name => rfl
  | _ => cases isAtom

/-- No part of a tree needs more than a number of temporaries. -/
def NeedsAtMost (bound : Nat) (root : Node) : Prop := ∀ node ∈ root.postorder, node.need ≤ bound

/-- The needs of a tree are its own and those of its children. A statement needs nothing itself. -/
theorem needsAtMost_iff {bound : Nat} {root : Node} :
    root.NeedsAtMost bound ↔
      root.need ≤ bound ∧ ∀ child ∈ root.children, child.NeedsAtMost bound := by
  simp only [NeedsAtMost]
  rw [postorder_eq]
  constructor
  · intro all
    constructor
    · exact all root (List.mem_append_right _ (List.mem_singleton_self root))
    · intro child isChild node inChild
      exact all node (List.mem_append_left _ (List.mem_flatMap.mpr ⟨child, isChild, inChild⟩))
  · rintro ⟨own, each⟩ node member
    rcases List.mem_append.mp member with inChild | isRoot
    · obtain ⟨child, isChild, inChild⟩ := List.mem_flatMap.mp inChild
      exact each child isChild node inChild
    · rw [List.mem_singleton.mp isRoot]
      exact own

/-- What a tree needs itself is within the bound. -/
theorem NeedsAtMost.own {bound : Nat} {root : Node} (fits : root.NeedsAtMost bound) :
    root.need ≤ bound :=
  (needsAtMost_iff.mp fits).1

/-- What a child needs is within the bound. -/
theorem NeedsAtMost.child {bound : Nat} {root child : Node} (fits : root.NeedsAtMost bound)
    (isChild : child ∈ root.children) : child.NeedsAtMost bound :=
  (needsAtMost_iff.mp fits).2 child isChild

/-- What is no expression needs what its children need, so nothing else has to be shown. -/
theorem NeedsAtMost.of_children {bound : Nat} {root : Node} (noExpression : root.need = 0)
    (each : ∀ child ∈ root.children, child.NeedsAtMost bound) : root.NeedsAtMost bound := by
  apply needsAtMost_iff.mpr
  constructor
  · rw [noExpression]
    exact Nat.zero_le bound
  · exact each

/-- A statement that has two parts needs what they need. -/
theorem NeedsAtMost.of_two {bound : Nat} {root first second : Node} (noExpression : root.need = 0)
    (areChildren : root.children = [first, second]) (firstFits : first.NeedsAtMost bound)
    (secondFits : second.NeedsAtMost bound) : root.NeedsAtMost bound := by
  apply of_children noExpression
  rw [areChildren]
  exact List.forall_mem_cons.mpr ⟨firstFits, List.forall_mem_singleton.mpr secondFits⟩

/-- A name needs no temporary, within any bound. -/
theorem NeedsAtMost.identifier (bound : Nat) (mark : Mark) (name : Identifier) :
    (Node.identifier mark name).NeedsAtMost bound :=
  of_children rfl (List.forall_mem_nil _)

/-- Names do not count for what a tree needs, so they may be changed. -/
theorem need_mapNames (change : Identifier → Identifier) (node : Node) :
    (node.mapNames change).need = node.need := by
  induction node using induction_children with
  | step node each =>
    cases node with
    | unary mark op operand =>
      simp only [mapNames, need, each operand List.mem_cons_self]
    | binary mark op left right =>
      have sameAtom : (left.mapNames change).isAtom = left.isAtom := by
        cases left with
        | chain mark clauses otherwise => cases otherwise <;> simp only [mapNames, isAtom]
        | _ => simp only [mapNames, isAtom]
      simp only [mapNames, need, sameAtom, each left List.mem_cons_self,
        each right (List.mem_cons_of_mem _ List.mem_cons_self)]
    | chain mark clauses otherwise => cases otherwise <;> simp only [mapNames, need]
    | _ => simp only [mapNames, need]

/-- Names do not count for what the parts of a tree need. -/
theorem needsAtMost_mapNames {bound : Nat} (change : Identifier → Identifier) (root : Node) :
    (root.mapNames change).NeedsAtMost bound ↔ root.NeedsAtMost bound := by
  induction root using induction_children with
  | step root each =>
    rw [needsAtMost_iff, needsAtMost_iff, need_mapNames, children_mapNames, List.forall_mem_map]
    exact and_congr_right fun _ => forall₂_congr each

/-- Resolution does not change what a tree needs, because it changes names only. So the need of a
program can be read off the tree that the parser gives. -/
theorem needsAtMost_resolve {bound : Nat} (root : Node) :
    root.resolve.tree.NeedsAtMost bound ↔ root.NeedsAtMost bound := by
  rw [← needsAtMost_mapNames .unstamped root.resolve.tree, ← needsAtMost_mapNames .unstamped root]
  have sameTree := root.resolveFrom_unstamped Resolution.start
  exact iff_of_eq (congrArg (NeedsAtMost bound) sameTree)

end Node

/-!
## The temporaries of a program's code
-/

/-- An operand that can be written while the temporaries are numbered up to a bound. -/
inductive Operand.Storable (bound : Nat) : Operand → Prop
  | stored {name : String} {address : Int} : Storable bound (.stored name address)
  | temporary {number : Nat} (positive : 0 < number) (inBound : number ≤ bound) :
      Storable bound (.temporary number)

/-- What can be written can be read. The converse fails for literals. -/
theorem Operand.Storable.readable {bound : Nat} {operand : Operand}
    (storable : operand.Storable bound) : operand.Readable bound := by
  cases storable with
  | stored => exact .stored
  | temporary positive inBound => exact .temporary positive inBound

/-- A quadruple that has what its lines take, with temporaries numbered up to a bound. -/
inductive Quad.Uses (bound : Nat) : Quad → Prop
  | binary {op : BinaryOp} {left right target : Operand} (leftReadable : left.Readable bound)
      (rightReadable : right.Readable bound) (storable : target.Storable bound) :
      Uses bound (.binary op left right target)
  | unary {op : UnaryOp} {operand target : Operand} (readable : operand.Readable bound)
      (storable : target.Storable bound) : Uses bound (.unary op operand target)
  | copy {source : Operand} {name : String} {address : Int} (readable : source.Readable bound) :
      Uses bound (.copy source (.stored name address))
  | branch (whenTrue : Bool) {condition label : Operand} (readable : condition.Readable bound) :
      Uses bound (.branch whenTrue condition label)
  | label {label : Operand} : Uses bound (.label label)
  | jump {label : Operand} : Uses bound (.jump label)
  | ret {value : Operand} (readable : value.Readable bound) : Uses bound (.ret value)

namespace Computes

variable {live : Nat} {node : Node} {target value : Operand} {code : List Quad}

/-- A value takes a temporary unless it is an atom. This is how the number of live temporaries
depends on the tree alone. -/
theorem liveAfter_eq (computed : Computes live node (.temporary (live + 1)) code value) :
    value.liveAfter live = live + if node.isAtom then 0 else 1 := by
  cases computed <;> rfl

/-- What is computed needs a temporary, also if its code is later sent to a variable. -/
theorem one_le_need (computed : Computes live node target code value)
    (isComputed : node.isAtom = false) : 1 ≤ node.need := by
  cases computed with
  | integer => cases isComputed
  | identifier addressed => cases isComputed
  | unary inner => exact Nat.le_max_left _ _
  | binary first second => exact Nat.le_max_left _ _

/-- The code of an expression uses the temporaries up to its need, behind those that hold
values already, and its target. -/
theorem uses (computed : Computes live node target code value) {bound : Nat}
    (enough : node.isAtom = false → target.Storable bound ∧ live + node.need ≤ bound) :
    (∀ quad ∈ code, quad.Uses bound) ∧ value.Readable bound := by
  induction computed with
  | integer => exact ⟨List.forall_mem_nil _, .literal⟩
  | identifier addressed => exact ⟨List.forall_mem_nil _, .stored⟩
  | @unary live mark op operand target value code inner operandUses =>
    obtain ⟨storable, fits⟩ := enough rfl
    rw [Node.need] at fits
    obtain ⟨codeUses, readable⟩ := operandUses fun _ =>
      ⟨.temporary (Nat.succ_pos live) (by omega), by omega⟩
    refine ⟨List.forall_mem_append.mpr ⟨codeUses, ?_⟩, storable.readable⟩
    exact List.forall_mem_singleton.mpr (.unary readable storable)
  | @binary live mark op left right target leftValue rightValue leftCode rightCode first second
      leftUses rightUses =>
    obtain ⟨storable, fits⟩ := enough rfl
    rw [Node.need] at fits
    rw [first.liveAfter_eq] at second rightUses
    obtain ⟨leftCodeUses, leftReadable⟩ := leftUses fun _ =>
      ⟨.temporary (Nat.succ_pos live) (by omega), by omega⟩
    obtain ⟨rightCodeUses, rightReadable⟩ := rightUses fun isComputed => by
      have positive := second.one_le_need isComputed
      exact ⟨.temporary (Nat.succ_pos _) (by omega), by omega⟩
    refine ⟨List.forall_mem_append.mpr
      ⟨List.forall_mem_append.mpr ⟨leftCodeUses, rightCodeUses⟩, ?_⟩, storable.readable⟩
    exact List.forall_mem_singleton.mpr (.binary leftReadable rightReadable storable)

/-- The code of an expression on its own uses as many temporaries as the expression needs, since
none is live before it. -/
theorem uses_alone (computed : Computes 0 node (.temporary 1) code value) {bound : Nat}
    (fits : node.need ≤ bound) : (∀ quad ∈ code, quad.Uses bound) ∧ value.Readable bound := by
  apply computed.uses
  intro isComputed
  have positive := computed.one_le_need isComputed
  exact ⟨.temporary Nat.one_pos (by omega), by omega⟩

end Computes

/-- The code of an assignment uses what its value needs. A compound one combines the value with the
variable in its last quadruple and takes no temporary for that. -/
theorem Stores.uses {name : String} {address : Int} {op : AssignOp} {value : Node}
    {code : List Quad} (stores : Stores (.stored name address) op value code) {bound : Nat}
    (fits : value.need ≤ bound) : ∀ quad ∈ code, quad.Uses bound := by
  cases stores with
  | copied plain simple =>
    have readable := simple.readable_of_nil.mono (Nat.zero_le bound)
    exact List.forall_mem_singleton.mpr (.copy readable)
  | computed plain direct nonempty => exact (direct.uses fun _ => ⟨.stored, by omega⟩).1
  | combined combining operand =>
    obtain ⟨codeUses, readable⟩ := operand.uses_alone fits
    refine List.forall_mem_append.mpr ⟨codeUses, ?_⟩
    exact List.forall_mem_singleton.mpr (.binary .stored readable .stored)

/-- No part of what is lowered needs more than a number of temporaries. -/
def Task.NeedsAtMost (bound : Nat) : Task → Prop
  | .statement node => node.NeedsAtMost bound
  | .statements nodes => ∀ node ∈ nodes, node.NeedsAtMost bound
  | .clauses nodes _ => ∀ node ∈ nodes, node.NeedsAtMost bound

/-- The code of a task uses what its parts need. Statements do not add to each other, because no
temporary is live between them. -/
theorem Lowers.uses {task : Task} {labels after : Nat} {code : List Quad}
    (lowers : Lowers task labels code after) {bound : Nat} (fits : task.NeedsAtMost bound) :
    ∀ quad ∈ code, quad.Uses bound := by
  induction lowers with
  | compound inner statements => exact statements fun node member => fits.child member
  | block inner statements => exact statements fun node member => fits.child member
  | empty => exact List.forall_mem_nil _
  | declaration => exact List.forall_mem_nil _
  | initialization addressed stored =>
    have valueFits := fits.child (List.mem_cons_of_mem _ List.mem_cons_self)
    exact stored.uses valueFits.own
  | assignment addressed stored =>
    have valueFits := fits.child (List.mem_cons_of_mem _ List.mem_cons_self)
    exact stored.uses valueFits.own
  | returned computed =>
    have valueFits := fits.child List.mem_cons_self
    obtain ⟨codeUses, readable⟩ := computed.uses_alone valueFits.own
    refine List.forall_mem_append.mpr ⟨codeUses, ?_⟩
    exact List.forall_mem_singleton.mpr (.ret readable)
  | chain inner clauses =>
    have clausesUse := clauses fun node member => fits.child (List.mem_append_left _ member)
    refine List.forall_mem_append.mpr ⟨clausesUse, ?_⟩
    exact List.forall_mem_singleton.mpr .label
  | chainElse inner otherwise clauses body =>
    have clausesUse := clauses fun node member => fits.child (List.mem_append_left _ member)
    have bodyUses := body (fits.child (List.mem_append_right _ List.mem_cons_self))
    refine List.forall_mem_append.mpr ⟨List.forall_mem_append.mpr ⟨clausesUse, bodyUses⟩, ?_⟩
    exact List.forall_mem_singleton.mpr .label
  | whileLoop tested repeated body =>
    have conditionFits := fits.child List.mem_cons_self
    obtain ⟨testUses, readable⟩ := tested.uses_alone conditionFits.own
    have bodyUses := body (fits.child (List.mem_cons_of_mem _ List.mem_cons_self))
    simp only [List.forall_mem_append, List.forall_mem_cons]
    exact ⟨⟨⟨⟨.label, testUses⟩, .branch false readable, List.forall_mem_nil _⟩, bodyUses⟩,
      .jump, .label, List.forall_mem_nil _⟩
  | doWhile repeated tested body =>
    have bodyUses := body (fits.child List.mem_cons_self)
    have conditionFits := fits.child (List.mem_cons_of_mem _ List.mem_cons_self)
    obtain ⟨testUses, readable⟩ := tested.uses_alone conditionFits.own
    simp only [List.forall_mem_append, List.forall_mem_cons]
    exact ⟨⟨⟨.label, bodyUses⟩, testUses⟩, .branch true readable, List.forall_mem_nil _⟩
  | nil => exact List.forall_mem_nil _
  | cons first second node later =>
    obtain ⟨nodeFits, laterFit⟩ := List.forall_mem_cons.mp fits
    exact List.forall_mem_append.mpr ⟨node nodeFits, later laterFit⟩
  | noClause => exact List.forall_mem_nil _
  | clause tested guarded following body later =>
    obtain ⟨clauseFits, laterFit⟩ := List.forall_mem_cons.mp fits
    have conditionFits := clauseFits.child List.mem_cons_self
    obtain ⟨testUses, readable⟩ := tested.uses_alone conditionFits.own
    have bodyUses := body (clauseFits.child (List.mem_cons_of_mem _ List.mem_cons_self))
    simp only [List.forall_mem_append, List.forall_mem_cons]
    exact ⟨⟨⟨⟨testUses, .branch false readable, List.forall_mem_nil _⟩, bodyUses⟩,
      .jump, .label, List.forall_mem_nil _⟩, later laterFit⟩

/-!
## Temporaries beyond the registers
-/

/-- A fault tells of a temporary, numbered up to a bound, for which there is no register. -/
def Fault.BeyondRegisters (bound : Nat) (fault : Fault) : Prop :=
  ∃ number, 4 < number ∧ number ≤ bound ∧
    fault = .unsupported .assemble ("temporary " ++ (Operand.temporary number).name ++
      " does not fit the 4 available registers")

/-- A temporary that has a register is one of the first four. -/
theorem Operand.le_of_register {number : Nat} {named : Register}
    (placed : (Operand.temporary number).register = .ok named) : number ≤ 4 := by
  obtain ⟨positive, listed⟩ := Operand.register_temporary.mp placed
  obtain ⟨inside, -⟩ := List.getElem?_eq_some_iff.mp listed
  have length : temporaryRegisters.length = 4 := rfl
  omega

section Selecting

variable {bound : Nat}

/-- A temporary has a register, or it is beyond the registers. Temporaries are numbered from one,
and zero would have no register either. -/
theorem Operand.register_failsOnly {number : Nat} (positive : 0 < number)
    (inBound : number ≤ bound) :
    FailsOnly (Fault.BeyondRegisters bound) (Operand.temporary number).register := by
  intro fault failed
  have beyond : 4 < number := by
    apply Nat.lt_of_not_le
    intro small
    have inside : number - 1 < temporaryRegisters.length := Nat.sub_one_lt_of_le positive small
    have placed := Operand.register_temporary.mpr
      ⟨Nat.ne_of_gt positive, List.getElem?_eq_getElem inside⟩
    rw [placed] at failed
    cases failed
  refine ⟨number, beyond, inBound, ?_⟩
  unfold Operand.register at failed
  dsimp only at failed
  split at failed
  · cases failed
  · cases failed
    have registers : Text.decimal temporaryRegisters.length = "4" := by decide
    simp [Operand.assemblyFault, registers, String.append_assoc]

/-- What can be read has a place, or it is a temporary beyond the registers. Labels cannot be
read. -/
theorem Operand.Readable.place_failsOnly {operand : Operand} (readable : operand.Readable bound) :
    FailsOnly (Fault.BeyondRegisters bound) operand.place := by
  cases readable with
  | literal => exact .ok
  | stored => exact .ok
  | temporary positive inBound => exact (Operand.register_failsOnly positive inBound).map

/-- What can be written has a workplace, or it is a temporary beyond the registers. -/
theorem Operand.Storable.workplace_failsOnly {target : Operand}
    (storable : target.Storable bound) :
    FailsOnly (Fault.BeyondRegisters bound) (Workplace.ofTarget target) := by
  cases storable with
  | stored => exact .ok
  | temporary positive inBound => exact (Operand.register_failsOnly positive inBound).map

/-- The places of a binary operation are found, or one of its temporaries is beyond the
registers. -/
theorem Quad.operands_failsOnly (op : BinaryOp) {left right target : Operand}
    (leftReadable : left.Readable bound) (rightReadable : right.Readable bound)
    (storable : target.Storable bound) :
    FailsOnly (Fault.BeyondRegisters bound) (Quad.binary op left right target).operands := by
  change FailsOnly _ (left.place >>= fun _ => right.place >>= fun _ =>
    Workplace.ofTarget target >>= fun _ => .ok _)
  refine leftReadable.place_failsOnly.bind fun _ => ?_
  refine rightReadable.place_failsOnly.bind fun _ => ?_
  exact storable.workplace_failsOnly.bind fun _ => .ok

/-- Every arithmetic operator has an instruction, so selection does not fail for want of one. -/
theorem Arithmetic.exists_ofSymbol {op : BinaryOp} (isArithmetic : op.operatorClass = .arithmetic) :
    ∃ arithmetic, Arithmetic.ofSymbol? op.symbol = some arithmetic := by
  cases op <;> first | exact ⟨_, rfl⟩ | cases isArithmetic

/-- Every comparison has a relation, so selection does not fail for want of one. -/
theorem Relation.exists_ofSymbol {op : BinaryOp} (isRelational : op.operatorClass = .relational) :
    ∃ relation, Relation.ofSymbol? op.symbol = some relation := by
  cases op <;> first | exact ⟨_, rfl⟩ | cases isRelational

/-- Selecting the lines of a binary operation fails only for a temporary beyond the registers. This
covers arithmetic, comparisons that feed a branch and those that do not, and logical operators. -/
theorem Quad.selectBinary_failsOnly (op : BinaryOp) {left right target : Operand}
    (leftReadable : left.Readable bound) (rightReadable : right.Readable bound)
    (storable : target.Storable bound) (state : Selection) (feeds : Bool) :
    FailsOnly (Fault.BeyondRegisters bound)
      (state.selectCommand feeds (.binary op left right target) (.binary op)) := by
  have places := Quad.operands_failsOnly op leftReadable rightReadable storable
  cases kind : op.operatorClass with
  | arithmetic =>
    have command : Command.binary op = ⟨op.symbol, .arithmetic⟩ := by rw [Command.binary, kind]
    obtain ⟨arithmetic, found⟩ := Arithmetic.exists_ofSymbol kind
    have lines : FailsOnly (Fault.BeyondRegisters bound)
        ((Quad.binary op left right target).selectArithmetic op.symbol) := by
      unfold Quad.selectArithmetic
      apply places.bind
      rintro ⟨left, right, workplace⟩
      rw [found]
      exact .ok
    rw [command]
    exact lines.bind fun _ => .ok
  | relational =>
    have command : Command.binary op = ⟨op.symbol, .relational⟩ := by rw [Command.binary, kind]
    obtain ⟨relation, found⟩ := Relation.exists_ofSymbol kind
    have lines : ∀ branch, FailsOnly (Fault.BeyondRegisters bound)
        ((Quad.binary op left right target).selectComparison op.symbol branch) := by
      intro branch
      unfold Quad.selectComparison
      apply places.bind
      rintro ⟨left, right, workplace⟩
      rw [found]
      exact .ok
    rw [command]
    unfold Selection.selectCommand
    dsimp only
    split
    · exact (lines _).bind fun _ => .ok
    · exact .ok
  | logical =>
    have command : Command.binary op = ⟨op.symbol, .logical⟩ := by rw [Command.binary, kind]
    rw [command]
    exact .ok

/-- Selecting the lines of a quadruple fails only for a temporary beyond the registers. The state of
the selection has no part in it. -/
theorem Quad.Uses.selectCommand {quad : Quad} (uses : quad.Uses bound) {command : Command}
    (commanded : quad.command = some command) (state : Selection) (feeds : Bool) :
    FailsOnly (Fault.BeyondRegisters bound) (state.selectCommand feeds quad command) := by
  cases uses with
  | @binary op left right target leftReadable rightReadable storable =>
    cases commanded
    exact Quad.selectBinary_failsOnly op leftReadable rightReadable storable state feeds
  | @unary op operand target readable storable =>
    cases commanded
    have lines : FailsOnly (Fault.BeyondRegisters bound)
        ((Quad.unary op operand target).selectUnary op.symbol) :=
      readable.place_failsOnly.bind fun _ => storable.workplace_failsOnly.bind fun _ => .ok
    exact lines.bind fun _ => .ok
  | @copy source name address readable =>
    cases commanded
    have lines : FailsOnly (Fault.BeyondRegisters bound)
        (Quad.copy source (.stored name address)).selectCopy := by
      refine readable.place_failsOnly.bind fun _ => ?_
      split
      · exact .ok
      · exact .ok
    exact lines.bind fun _ => .ok
  | @branch whenTrue condition label readable =>
    rw [Quad.branch_command] at commanded
    cases commanded
    have lines : ∀ producer, FailsOnly (Fault.BeyondRegisters bound)
        ((Quad.branch whenTrue condition label).selectBranch (.branch whenTrue) producer) := by
      intro producer
      rw [Quad.selectBranch, Quad.branch_left, Quad.branch_target]
      cases producer with
      | none => exact readable.place_failsOnly.bind fun _ => .ok
      | some kind =>
        cases kind with
        | relational => exact .ok
        | logical => exact .ok
        | _ => exact readable.place_failsOnly.bind fun _ => .ok
    exact (lines _).bind fun _ => .ok
  | label =>
    cases commanded
    exact .ok
  | jump =>
    cases commanded
    exact .ok
  | @ret value readable =>
    cases commanded
    have lines : FailsOnly (Fault.BeyondRegisters bound) (Quad.ret value).selectReturn :=
      readable.place_failsOnly.bind fun _ => .ok
    exact lines.bind fun _ => .ok

/-- Selecting the lines of all quadruples fails only for a temporary beyond the registers. The fault
is that of the first quadruple that has one. -/
theorem Selection.selectAll_beyond {feeding : List Nat} {state : Selection} {index : Nat}
    {quads : List Quad} (uses : ∀ quad ∈ quads, quad.Uses bound) {fault : Fault}
    (stopped : (state.selectAll feeding index quads).fault = some fault) :
    fault.BeyondRegisters bound := by
  induction quads generalizing state index with
  | nil => cases stopped
  | cons quad later inductionHypothesis =>
    obtain ⟨quadUses, laterUse⟩ := List.forall_mem_cons.mp uses
    rw [Selection.selectAll] at stopped
    split at stopped
    · exact inductionHypothesis laterUse stopped
    · rename_i command commanded
      split at stopped
      · rename_i refused
        cases stopped
        exact quadUses.selectCommand commanded _ _ _ refused
      · exact inductionHypothesis laterUse stopped

/-- Assembling a program fails only for a temporary beyond the registers. The lines around the code
never fail. -/
theorem Assembled.result_failsOnly {program : Program}
    (uses : ∀ quad ∈ program.quads, quad.Uses bound) :
    FailsOnly (Fault.BeyondRegisters bound) (Assembled.ofProgram program).result := by
  intro fault failed
  rw [Assembled.result] at failed
  split at failed
  · rename_i other stopped
    cases failed
    exact Selection.selectAll_beyond uses stopped
  · cases failed

end Selecting

/-- A program fails to be assembled only for a temporary that its expressions need. With a bound of
four there is no such temporary, so the program is assembled. -/
theorem Parsed.assembly_failsOnly {tokens : List Token} {parsed : Parsed} {lowered : Lowered}
    {bound : Nat} (accepted : Parsed.ofTokens tokens = .ok parsed)
    (resolved : parsed.root.resolve.fault = none)
    (isLowered : Lowered.ofTree parsed.root.resolve.tree = .ok lowered)
    (fits : parsed.root.NeedsAtMost bound) :
    FailsOnly (Fault.BeyondRegisters bound) (Assembled.ofProgram lowered.program).result := by
  obtain ⟨labels, lowers⟩ := Parsed.lowers accepted resolved isLowered
  exact Assembled.result_failsOnly (lowers.uses (parsed.root.needsAtMost_resolve.mpr fits))

/-!
## Registers that are asked for
-/

/-- The target of a quadruple is no temporary above a limit. -/
def Quad.EndsWithin (limit : Nat) (quad : Quad) : Prop :=
  ∀ number, quad.target = some (.temporary number) → number ≤ limit

namespace Quad.EndsWithin

variable {quad : Quad} {target : Operand}

/-- What is no temporary is none above a limit. -/
theorem of_other {limit : Nat} (isTarget : quad.target = some target)
    (other : target.isTemporary = false) : quad.EndsWithin limit := by
  intro number isTemporary
  rw [isTarget] at isTemporary
  rw [Option.some.inj isTemporary] at other
  cases other

/-- A temporary that was given a register, for whatever purpose, is within the registers. -/
theorem of_register {Result : Type} (change : Register → Result) {result : Result}
    (isTarget : quad.target = some target)
    (placed : ∀ number, target = .temporary number →
      (Operand.temporary number).register.map change = .ok result) : quad.EndsWithin 4 := by
  intro number isTemporary
  have mapped := placed number (Option.some.inj (isTarget.symm.trans isTemporary))
  cases named : (Operand.temporary number).register with
  | error fault =>
    rw [named] at mapped
    cases mapped
  | ok register => exact Operand.le_of_register named

/-- A result that has a workplace is within the registers, or it is a variable. -/
theorem of_workplace {workplace : Workplace} (isTarget : quad.target = some target)
    (chosen : Workplace.ofTarget target = .ok workplace) : quad.EndsWithin 4 := by
  apply of_register (fun register => (⟨.register register, none⟩ : Workplace)) isTarget
  intro number isTemporary
  rw [isTemporary] at chosen
  exact chosen

/-- A value that has a place is within the registers, or it is no temporary. -/
theorem of_place {place : Place} (isTarget : quad.target = some target)
    (placed : target.place = .ok place) : quad.EndsWithin 4 := by
  apply of_register Place.register isTarget
  intro number isTemporary
  rw [isTemporary] at placed
  exact placed

end Quad.EndsWithin

/-- Every quadruple that the rules turn into lines ends within the registers. So a program that is
assembled has no temporary beyond them. -/
theorem Emits.endsWithin {live : Nat} {quads : List Quad} {lines : List Line}
    (emits : Emits live quads lines) : ∀ quad ∈ quads, quad.EndsWithin 4 := by
  have branchEnds : ∀ whenTrue condition label,
      (Quad.branch whenTrue condition (.label label)).EndsWithin 4 := by
    intro whenTrue condition label
    exact .of_other (Quad.branch_target whenTrue condition _) rfl
  induction emits with
  | nil => exact List.forall_mem_nil _
  | arithmetic isArithmetic leftReadable rightReadable writable selected rest later =>
    obtain ⟨places, placed, -⟩ := bind_eq_ok selected
    have chosen := (Quad.operands_binary placed).2.2
    exact List.forall_mem_cons.mpr ⟨.of_workplace rfl chosen, later⟩
  | unary readable writable selected rest later =>
    obtain ⟨_, ⟨⟩, selected⟩ := bind_eq_ok selected
    obtain ⟨source, sourcePlaced, selected⟩ := bind_eq_ok selected
    obtain ⟨_, ⟨⟩, selected⟩ := bind_eq_ok selected
    obtain ⟨workplace, chosen, -⟩ := bind_eq_ok selected
    exact List.forall_mem_cons.mpr ⟨.of_workplace rfl chosen, later⟩
  | copy readable selected rest later =>
    exact List.forall_mem_cons.mpr ⟨.of_other rfl rfl, later⟩
  | comparison isRelational leftReadable rightReadable selected rest later =>
    obtain ⟨places, placed, -⟩ := bind_eq_ok selected
    have chosen := (Quad.operands_binary placed).2.2
    refine List.forall_mem_cons.mpr ⟨.of_workplace rfl chosen, ?_⟩
    exact List.forall_mem_cons.mpr ⟨branchEnds _ _ _, later⟩
  | branch readable polarity known selected rest later =>
    exact List.forall_mem_cons.mpr ⟨branchEnds _ _ _, later⟩
  | label rest later => exact List.forall_mem_cons.mpr ⟨.of_other rfl rfl, later⟩
  | jump rest later => exact List.forall_mem_cons.mpr ⟨.of_other rfl rfl, later⟩
  | ret readable selected rest later =>
    obtain ⟨_, ⟨⟩, selected⟩ := bind_eq_ok selected
    obtain ⟨place, placed, -⟩ := bind_eq_ok selected
    exact List.forall_mem_cons.mpr ⟨.of_place rfl placed, later⟩

namespace Computes

variable {live : Nat} {node : Node} {target value : Operand} {code : List Quad}

/-- What is computed ends in its target: some quadruple of the code writes it. -/
theorem exists_target (computed : Computes live node target code value)
    (isComputed : node.isAtom = false) : ∃ quad ∈ code, quad.target = some target := by
  cases computed with
  | integer => cases isComputed
  | identifier addressed => cases isComputed
  | unary inner => exact ⟨_, List.mem_append_right _ List.mem_cons_self, rfl⟩
  | binary first second => exact ⟨_, List.mem_append_right _ List.mem_cons_self, rfl⟩

/-- Code that ends within a limit computes what does not need more. The last temporary may
be the target, which need not be one. -/
theorem need_le (computed : Computes live node target code value) {limit : Nat}
    (ends : ∀ quad ∈ code, quad.EndsWithin limit) : live + node.need ≤ max limit (live + 1) := by
  induction computed with
  | integer => exact Nat.le_trans (Nat.le_succ _) (Nat.le_max_right _ _)
  | identifier addressed => exact Nat.le_trans (Nat.le_succ _) (Nat.le_max_right _ _)
  | unary inner operandNeed =>
    have operandFits := operandNeed (List.forall_mem_append.mp ends).1
    rw [Node.need]
    omega
  | @binary live mark op left right target leftValue rightValue leftCode rightCode first second
      leftNeed rightNeed =>
    obtain ⟨leftEnds, rightEnds⟩ := List.forall_mem_append.mp (List.forall_mem_append.mp ends).1
    have leftFits := leftNeed leftEnds
    have rightFits := rightNeed rightEnds
    have after := first.liveAfter_eq
    rw [Node.need]
    have atMostOne : (if left.isAtom then 0 else 1) ≤ 1 := by split <;> decide
    cases isComputed : right.isAtom with
    | true =>
      rw [Node.need_of_isAtom isComputed]
      omega
    | false =>
      -- The right operand is computed into the temporary behind that of the left one.
      obtain ⟨last, inCode, isTarget⟩ := second.exists_target isComputed
      have lastFits := rightEnds last inCode _ isTarget
      omega

/-- No part of an expression needs more than the expression, so only whole expressions have to be
looked at. -/
theorem needsAtMost (computed : Computes live node target code value) {bound : Nat}
    (fits : node.need ≤ bound) : node.NeedsAtMost bound := by
  induction computed with
  | integer => exact Node.needsAtMost_iff.mpr ⟨fits, List.forall_mem_nil _⟩
  | identifier addressed => exact Node.needsAtMost_iff.mpr ⟨fits, List.forall_mem_nil _⟩
  | unary inner operandFits =>
    refine Node.needsAtMost_iff.mpr ⟨fits, List.forall_mem_singleton.mpr (operandFits ?_)⟩
    rw [Node.need] at fits
    omega
  | binary first second leftFits rightFits =>
    refine Node.needsAtMost_iff.mpr ⟨fits, List.forall_mem_cons.mpr ⟨leftFits ?_,
      List.forall_mem_singleton.mpr (rightFits ?_)⟩⟩
    all_goals
      rw [Node.need] at fits
      omega

/-- An expression whose code ends within the registers needs no more than they are. The limit is
positive because the last quadruple may end in a variable and still count for one temporary. -/
theorem needsAtMost_of_ends (computed : Computes 0 node target code value) {limit : Nat}
    (positive : 0 < limit) (ends : ∀ quad ∈ code, quad.EndsWithin limit) :
    node.NeedsAtMost limit := by
  have fits := computed.need_le ends
  apply computed.needsAtMost
  omega

end Computes

/-- A value whose assignment ends within the registers needs no more than they are. The last
quadruple ends in the target, and those before it end in temporaries. -/
theorem Stores.needsAtMost_of_ends {target : Operand} {op : AssignOp} {value : Node}
    {code : List Quad} (stores : Stores target op value code) {limit : Nat} (positive : 0 < limit)
    (ends : ∀ quad ∈ code, quad.EndsWithin limit) : value.NeedsAtMost limit := by
  cases stores with
  | copied plain simple => exact simple.needsAtMost_of_ends positive (List.forall_mem_nil _)
  | computed plain direct nonempty => exact direct.needsAtMost_of_ends positive ends
  | combined combining operand =>
    exact operand.needsAtMost_of_ends positive (List.forall_mem_append.mp ends).1

/-- What is lowered is well formed, and its names have addresses. -/
def Task.WellFormed : Task → Prop
  | .statement node =>
    Part.WellFormed .stamped (.statement node) ∨ Part.WellFormed .stamped (.body node)
  | .statements nodes => ∀ node ∈ nodes, Part.WellFormed .stamped (.statement node)
  | .clauses nodes _ => ∀ node ∈ nodes, ∃ tag, Part.WellFormed .stamped (.clause tag node)

/-- Code that ends within the registers comes from parts that need no more than they are. The parts
have to be well formed, because a task may hold nodes that have no code. -/
theorem Lowers.needsAtMost_of_ends {task : Task} {labels after : Nat} {code : List Quad}
    (lowers : Lowers task labels code after) (formed : task.WellFormed) {limit : Nat}
    (positive : 0 < limit) (ends : ∀ quad ∈ code, quad.EndsWithin limit) :
    task.NeedsAtMost limit := by
  -- No code comes from a declaration: that it holds a name only is known from its form.
  induction lowers with
  | compound inner statements =>
    rcases formed with formed | formed
    · cases formed
    · cases formed with
      | compound nonempty all => exact Node.NeedsAtMost.of_children rfl (statements all ends)
  | block inner statements =>
    rcases formed with formed | formed
    · cases formed with
      | block nonempty all => exact Node.NeedsAtMost.of_children rfl (statements all ends)
    · cases formed
  | empty => exact Node.NeedsAtMost.of_children rfl (List.forall_mem_nil _)
  | declaration =>
    rcases formed with formed | formed
    · cases formed with
      | declaration declared =>
        apply Node.NeedsAtMost.of_children rfl
        exact List.forall_mem_singleton.mpr (.identifier limit _ _)
    · cases formed
  | initialization addressed stored =>
    have valueFits := stored.needsAtMost_of_ends positive ends
    exact Node.NeedsAtMost.of_two rfl rfl (.identifier limit _ _) valueFits
  | assignment addressed stored =>
    have valueFits := stored.needsAtMost_of_ends positive ends
    exact Node.NeedsAtMost.of_two rfl rfl (.identifier limit _ _) valueFits
  | returned computed =>
    have valueFits := computed.needsAtMost_of_ends positive (List.forall_mem_append.mp ends).1
    exact Node.NeedsAtMost.of_children rfl (List.forall_mem_singleton.mpr valueFits)
  | chain inner clauses =>
    rcases formed with formed | formed
    · cases formed with
      | chain leading following =>
        have clausesFit := clauses (List.forall_mem_cons.mpr
          ⟨⟨_, leading⟩, fun clause member => ⟨_, following clause member⟩⟩)
          (List.forall_mem_append.mp ends).1
        apply Node.NeedsAtMost.of_children rfl
        exact List.forall_mem_append.mpr ⟨clausesFit, List.forall_mem_nil _⟩
    · cases formed
  | chainElse inner otherwise clauses body =>
    rcases formed with formed | formed
    · cases formed with
      | chainElse leading following bodyFormed =>
        obtain ⟨clausesEnd, bodyEnds⟩ :=
          List.forall_mem_append.mp (List.forall_mem_append.mp ends).1
        have clausesFit := clauses (List.forall_mem_cons.mpr
          ⟨⟨_, leading⟩, fun clause member => ⟨_, following clause member⟩⟩) clausesEnd
        have bodyFits := body (.inr bodyFormed) bodyEnds
        apply Node.NeedsAtMost.of_children rfl
        exact List.forall_mem_append.mpr ⟨clausesFit, List.forall_mem_singleton.mpr bodyFits⟩
    · cases formed
  | whileLoop tested repeated body =>
    simp only [List.forall_mem_append, List.forall_mem_cons] at ends
    obtain ⟨⟨⟨⟨-, testEnds⟩, -⟩, bodyEnds⟩, -⟩ := ends
    rcases formed with formed | formed
    · cases formed with
      | whileLoop testFormed bodyFormed =>
        have testFits := tested.needsAtMost_of_ends positive testEnds
        exact Node.NeedsAtMost.of_two rfl rfl testFits (body (.inr bodyFormed) bodyEnds)
    · cases formed
  | doWhile repeated tested body =>
    simp only [List.forall_mem_append, List.forall_mem_cons] at ends
    obtain ⟨⟨⟨-, bodyEnds⟩, testEnds⟩, -⟩ := ends
    rcases formed with formed | formed
    · cases formed with
      | doWhile bodyFormed testFormed =>
        have testFits := tested.needsAtMost_of_ends positive testEnds
        exact Node.NeedsAtMost.of_two rfl rfl (body (.inr bodyFormed) bodyEnds) testFits
    · cases formed
  | nil => exact List.forall_mem_nil _
  | cons first second node later =>
    obtain ⟨nodeEnds, laterEnds⟩ := List.forall_mem_append.mp ends
    obtain ⟨nodeFormed, laterFormed⟩ := List.forall_mem_cons.mp formed
    exact List.forall_mem_cons.mpr ⟨node (.inl nodeFormed) nodeEnds, later laterFormed laterEnds⟩
  | noClause => exact List.forall_mem_nil _
  | clause tested guarded following body later =>
    simp only [List.forall_mem_append, List.forall_mem_cons] at ends
    obtain ⟨⟨⟨⟨testEnds, -⟩, bodyEnds⟩, -⟩, laterEnds⟩ := ends
    obtain ⟨⟨tag, clauseFormed⟩, laterFormed⟩ := List.forall_mem_cons.mp formed
    cases clauseFormed with
    | clause testFormed bodyFormed =>
      have testFits := tested.needsAtMost_of_ends positive testEnds
      refine List.forall_mem_cons.mpr ⟨?_, later laterFormed laterEnds⟩
      exact Node.NeedsAtMost.of_two rfl rfl testFits (body (.inr bodyFormed) bodyEnds)

/-- **Whether the registers suffice can be read from the source.** A program that parses and
resolves is lowered, and if no part of it needs more than four temporaries, it is assembled.
If it joins no conditions and compares only to decide, so that every quadruple has lines, it
is assembled only if no part of it needs more. -/
theorem assembles_within_registers (tokens : List Token) (parsed : Parsed)
    (accepted : Parsed.ofTokens tokens = .ok parsed)
    (resolved : parsed.root.resolve.fault = none) :
    ∃ lowered, Lowered.ofTree parsed.root.resolve.tree = .ok lowered ∧
      ((∀ node ∈ parsed.root.postorder, node.need ≤ 4) →
        ∃ lines, (Assembled.ofProgram lowered.program).result = .ok lines) ∧
      (parsed.root.direct false = true →
        ∀ lines, (Assembled.ofProgram lowered.program).result = .ok lines →
          ∀ node ∈ parsed.root.postorder, node.need ≤ 4) := by
  obtain ⟨lowered, isLowered⟩ := Parsed.isLowered accepted resolved
  refine ⟨lowered, isLowered, ?_, ?_⟩
  · intro fits
    have fails := Parsed.assembly_failsOnly accepted resolved isLowered fits
    cases result : (Assembled.ofProgram lowered.program).result with
    | ok lines => exact ⟨lines, rfl⟩
    | error fault =>
      obtain ⟨number, beyond, inBound, -⟩ := fails fault result
      omega
  · intro direct lines assembled
    obtain ⟨body, layout⟩ := Parsed.layout accepted resolved direct isLowered assembled
    obtain ⟨labels, lowers⟩ := Parsed.lowers accepted resolved isLowered
    have formed : Task.WellFormed (.statement parsed.root.resolve.tree) :=
      .inr (Parsed.stamped accepted resolved)
    have treeFits := lowers.needsAtMost_of_ends formed (by decide) layout.emits.endsWithin
    exact parsed.root.needsAtMost_resolve.mp treeFits

/-- A program that keeps a value in each register. -/
def fourDeep : String :=
  "int main() \x7b int a = 9; return (a - 1) - ((a - 2) - ((a - 3) - (a - 4))); \x7d"

/-- A program that would keep a value in a fifth register. -/
def fiveDeep : String :=
  "int main() \x7b int a = 9; return (a - 1) - ((a - 2) - ((a - 3) - ((a - 4) - -a))); \x7d"

/-- The first program above needs four temporaries and is assembled. The second one needs five and
is not. -/
theorem assembles_within_registers_differences :
    (∃ parsed lowered lines, Parsed.ofTokens (Lexed.ofText fourDeep).tokens = .ok parsed ∧
      parsed.root.resolve.fault = none ∧
      Lowered.ofTree parsed.root.resolve.tree = .ok lowered ∧
      (Assembled.ofProgram lowered.program).result = .ok lines) ∧
    ∃ parsed lowered, Parsed.ofTokens (Lexed.ofText fiveDeep).tokens = .ok parsed ∧
      parsed.root.resolve.fault = none ∧
      Lowered.ofTree parsed.root.resolve.tree = .ok lowered ∧
      ∀ lines, (Assembled.ofProgram lowered.program).result ≠ .ok lines := by
  constructor
  · have evaluated : (Parsed.ofTokens (Lexed.ofText fourDeep).tokens).toOption.any (fun parsed =>
        parsed.root.resolve.fault.isNone &&
        parsed.root.postorder.all (fun node => node.need ≤ 4)) = true := by
      decide +kernel
    obtain ⟨parsed, accepted, checked⟩ := exists_ok_of_any evaluated
    obtain ⟨resolved, fits⟩ := (Bool.and_eq_true _ _).mp checked
    rw [Option.isNone_iff_eq_none] at resolved
    obtain ⟨lowered, isLowered, assembles, -⟩ :=
      assembles_within_registers _ parsed accepted resolved
    obtain ⟨lines, assembled⟩ := assembles (by simpa using fits)
    exact ⟨parsed, lowered, lines, accepted, resolved, isLowered, assembled⟩
  · have evaluated : (Parsed.ofTokens (Lexed.ofText fiveDeep).tokens).toOption.any (fun parsed =>
        parsed.root.resolve.fault.isNone && parsed.root.direct false &&
        parsed.root.postorder.any (fun node => node.need == 5)) = true := by
      decide +kernel
    obtain ⟨parsed, accepted, checked⟩ := exists_ok_of_any evaluated
    obtain ⟨checked, needsFive⟩ := (Bool.and_eq_true _ _).mp checked
    obtain ⟨resolved, direct⟩ := (Bool.and_eq_true _ _).mp checked
    rw [Option.isNone_iff_eq_none] at resolved
    obtain ⟨node, inTree, isFive⟩ := List.any_eq_true.mp needsFive
    obtain ⟨lowered, isLowered, -, onlyIf⟩ :=
      assembles_within_registers _ parsed accepted resolved
    refine ⟨parsed, lowered, accepted, resolved, isLowered, ?_⟩
    intro lines assembled
    have small := onlyIf direct lines assembled node inTree
    rw [beq_iff_eq.mp isFive] at small
    omega

end IntMain
