import IntMain.Assembly.Pairing
import IntMain.Proofs.ConditionOrder
import IntMain.Token.Lexer

/-!
# Temporaries are read once

A temporary is written, read once, and then free to be written again. The assembler relies
on it: it keeps a temporary in a register and asks for nothing when the next value goes
there, and it looks for what a jump tests in front of the jump.

`Stacked` says how lowering gets there. The temporaries that hold values that are still to
be read are the first few, like a stack. A quadruple reads the topmost of them and nothing
below. Then it either puts its result on top of what is left, or it ends a statement and
leaves the stack empty. Labels, jumps and returns are of the second kind, so no value is
carried across one of them.
-/

namespace IntMain

/-- The name of an operand that is a temporary. -/
def Operand.temporaryName? (operand : Option Operand) : Option String :=
  (operand.filter Operand.isTemporary).map Operand.name

namespace Quad

/-- The temporaries that a quadruple reads, one entry for each operand: its sources, and what
a return returns. -/
def readTemporaries (quad : Quad) : List String :=
  (Operand.temporaryName? quad.left).toList ++ (Operand.temporaryName? quad.right).toList ++
    if quad.kind? = some .ret then (Operand.temporaryName? quad.target).toList else []

/-- The temporary that a quadruple writes, which is the target of a copy or of what computes
a value. -/
def writtenTemporary? (quad : Quad) : Option String :=
  if quad.producesValue || quad.kind? == some .copy then Operand.temporaryName? quad.target
  else none

end Quad

/-- The quadruples behind a write to a temporary in which the written value can be read: up
to the next write, which reads before it writes. -/
def lifetime (name : String) : List Quad → List Quad
  | [] => []
  | quad :: later =>
    if quad.writtenTemporary? = some name then [quad] else quad :: lifetime name later

/-- A value is read once in its lifetime, and up to there values are computed or copied only:
there is no label, no jump and no return. -/
structure ReadOnce (name : String) (quads : List Quad) : Prop where
  once : (quads.flatMap Quad.readTemporaries).count name = 1
  straight : ∃ between reader rest, quads = between ++ reader :: rest ∧
    name ∈ reader.readTemporaries ∧
    ∀ quad ∈ between, quad.producesValue = true ∨ quad.kind? = some .copy

/-!
## The stack of temporaries
-/

/-- The names of the next few temporaries above a depth. -/
def temporaryNames (depth count : Nat) : List String :=
  (List.range' (depth + 1) count).map (fun number => (Operand.temporary number).name)

/-- The names above a depth are those of the numbers above it, up to as many as are asked for. -/
theorem mem_temporaryNames {depth count : Nat} {name : String} :
    name ∈ temporaryNames depth count ↔
      ∃ number, depth < number ∧ number ≤ depth + count ∧
        name = (Operand.temporary number).name := by
  simp only [temporaryNames, List.mem_map, List.mem_range'_1]
  constructor
  · rintro ⟨number, ⟨above, below⟩, rfl⟩
    exact ⟨number, above, by omega, rfl⟩
  · rintro ⟨number, above, below, rfl⟩
    exact ⟨number, ⟨above, by omega⟩, rfl⟩

/-- A temporary is among the names above a depth if its number is. Different numbers have different
names, so the name tells the number. -/
theorem temporary_mem_temporaryNames {depth count number : Nat} :
    (Operand.temporary number).name ∈ temporaryNames depth count ↔
      depth < number ∧ number ≤ depth + count := by
  rw [mem_temporaryNames]
  constructor
  · rintro ⟨other, above, below, same⟩
    obtain rfl := Operand.temporary_name_injective same
    exact ⟨above, below⟩
  · rintro ⟨above, below⟩
    exact ⟨number, above, below, rfl⟩

/-- No name is listed twice, so a quadruple that reads these names reads each of them once. -/
theorem temporaryNames_nodup (depth count : Nat) : (temporaryNames depth count).Nodup :=
  List.Nodup.map Operand.temporary_name_injective (List.nodup_range' ..)

/-- The names of some temporaries and of those above them are those of both together. -/
theorem temporaryNames_append (depth first second : Nat) :
    temporaryNames depth first ++ temporaryNames (depth + first) second =
      temporaryNames depth (first + second) := by
  rw [temporaryNames, temporaryNames, temporaryNames, ← List.map_append,
    show depth + first + 1 = depth + 1 + first by omega, List.range'_append_1]

/-- Quadruples in which temporaries are used like a stack, when the first `depth` of them hold
values that are still to be read. -/
inductive Stacked : Nat → List Quad → Prop
  | nil : Stacked 0 []
  /-- The result goes to the top of what is left. -/
  | push {depth taken : Nat} {quad : Quad} {later : List Quad}
      (produces : quad.producesValue = true)
      (reads : quad.readTemporaries = temporaryNames depth taken)
      (writes : quad.writtenTemporary? = some (Operand.temporary (depth + 1)).name)
      (rest : Stacked (depth + 1) later) : Stacked (depth + taken) (quad :: later)
  /-- Everything is read, and no temporary is written. -/
  | settle {taken : Nat} {quad : Quad} {later : List Quad}
      (reads : quad.readTemporaries = temporaryNames 0 taken)
      (writes : quad.writtenTemporary? = none)
      (reader : taken = 0 ∨ quad.producesValue = true ∨
        taken = 1 ∧ (quad.kind? = some .conditionalJump ∨ quad.kind? = some .ret))
      (rest : Stacked 0 later) : Stacked taken (quad :: later)

/-!
## Lifetimes on the stack
-/

/-- A quadruple that writes something else is part of the lifetime, which goes on behind it. -/
theorem lifetime_cons {name : String} {quad : Quad} {later : List Quad}
    (other : quad.writtenTemporary? ≠ some name) :
    lifetime name (quad :: later) = quad :: lifetime name later :=
  if_neg other

/-- A read of the value by the first quadruple, when no later one reads it, is the only one. -/
theorem ReadOnce.first {name : String} {quad : Quad} {later : List Quad}
    (reads : quad.readTemporaries.count name = 1)
    (unread : ∀ other ∈ later, name ∉ other.readTemporaries) : ReadOnce name (quad :: later) := by
  have none : name ∉ later.flatMap Quad.readTemporaries := by
    intro member
    obtain ⟨other, listed, read⟩ := List.mem_flatMap.mp member
    exact unread other listed read
  constructor
  · rw [List.flatMap_cons, List.count_append, reads, List.count_eq_zero_of_not_mem none]
  · refine ⟨[], quad, later, rfl, ?_, List.forall_mem_nil _⟩
    exact List.count_pos_iff.mp (by omega)

/-- A value that is read once behind a quadruple that computes and does not read it is read once
with that quadruple in front. The quadruple must be no jump and no label. -/
theorem ReadOnce.later {name : String} {quad : Quad} {later : List Quad}
    (once : ReadOnce name later) (unread : name ∉ quad.readTemporaries)
    (produces : quad.producesValue = true) : ReadOnce name (quad :: later) := by
  obtain ⟨between, reader, rest, split, read, straight⟩ := once.straight
  constructor
  · rw [List.flatMap_cons, List.count_append, List.count_eq_zero_of_not_mem unread, once.once]
  · refine ⟨quad :: between, reader, rest, by rw [split, List.cons_append], read, ?_⟩
    exact List.forall_mem_cons.mpr ⟨Or.inl produces, straight⟩

namespace Stacked

variable {depth : Nat} {quads : List Quad}

/-- What is above the stack is not read before it is written. So a value that is written there is
not mixed up with an older one. -/
theorem unread (stacked : Stacked depth quads) {number : Nat} (above : depth < number) :
    ∀ quad ∈ lifetime (Operand.temporary number).name quads,
      (Operand.temporary number).name ∉ quad.readTemporaries := by
  induction stacked with
  | nil => exact List.forall_mem_nil _
  | @push depth taken quad later produces reads writes rest inductionHypothesis =>
    have notRead : (Operand.temporary number).name ∉ quad.readTemporaries := by
      rw [reads, temporary_mem_temporaryNames]
      omega
    by_cases isTarget : number = depth + 1
    · rw [lifetime, if_pos (by rw [writes, isTarget])]
      exact List.forall_mem_singleton.mpr notRead
    · have other : quad.writtenTemporary? ≠ some (Operand.temporary number).name := by
        rw [writes]
        intro same
        exact isTarget (Operand.temporary_name_injective (Option.some.inj same)).symm
      rw [lifetime_cons other]
      exact List.forall_mem_cons.mpr ⟨notRead, inductionHypothesis (by omega)⟩
  | @settle taken quad later reads writes reader rest inductionHypothesis =>
    have notRead : (Operand.temporary number).name ∉ quad.readTemporaries := by
      rw [reads, temporary_mem_temporaryNames]
      omega
    rw [lifetime_cons (by simp [writes])]
    exact List.forall_mem_cons.mpr ⟨notRead, inductionHypothesis (by omega)⟩

/-- Every value on the stack is read once in its lifetime. The induction is on the quadruples: each
of them reads the value from the top, or leaves it for later. -/
theorem readOnce (stacked : Stacked depth quads) {number : Nat} (positive : 0 < number)
    (inStack : number ≤ depth) :
    ReadOnce (Operand.temporary number).name
      (lifetime (Operand.temporary number).name quads) := by
  induction stacked with
  | nil => omega
  | @push depth taken quad later produces reads writes rest inductionHypothesis =>
    by_cases isLeft : number ≤ depth
    · have notRead : (Operand.temporary number).name ∉ quad.readTemporaries := by
        rw [reads, temporary_mem_temporaryNames]
        omega
      have other : quad.writtenTemporary? ≠ some (Operand.temporary number).name := by
        rw [writes]
        intro same
        have sameNumber := Operand.temporary_name_injective (Option.some.inj same)
        omega
      rw [lifetime_cons other]
      exact (inductionHypothesis (by omega)).later notRead produces
    · have readHere : quad.readTemporaries.count (Operand.temporary number).name = 1 := by
        rw [reads]
        apply List.count_eq_one_of_mem (temporaryNames_nodup depth taken)
        exact temporary_mem_temporaryNames.mpr ⟨by omega, inStack⟩
      -- The quadruple may write what it has read; then the lifetime ends with it.
      by_cases isTarget : number = depth + 1
      · rw [lifetime, if_pos (by rw [writes, isTarget])]
        exact .first readHere (List.forall_mem_nil _)
      · have other : quad.writtenTemporary? ≠ some (Operand.temporary number).name := by
          rw [writes]
          intro same
          exact isTarget (Operand.temporary_name_injective (Option.some.inj same)).symm
        rw [lifetime_cons other]
        exact .first readHere (rest.unread (by omega))
  | @settle taken quad later reads writes reader rest inductionHypothesis =>
    have readHere : quad.readTemporaries.count (Operand.temporary number).name = 1 := by
      rw [reads]
      apply List.count_eq_one_of_mem (temporaryNames_nodup 0 taken)
      exact temporary_mem_temporaryNames.mpr ⟨positive, by omega⟩
    rw [lifetime_cons (by simp [writes])]
    exact .first readHere (rest.unread positive)

/-- Behind some of the quadruples there is a stack again, of some depth. -/
theorem behind {before later : List Quad} (stacked : Stacked depth (before ++ later)) :
    ∃ left, Stacked left later := by
  induction before generalizing depth with
  | nil => exact ⟨depth, stacked⟩
  | cons quad before inductionHypothesis =>
    cases stacked with
    | push produces reads writes rest => exact inductionHypothesis rest
    | settle reads writes reader rest => exact inductionHypothesis rest

/-- Every value that is written is read once in its lifetime, wherever its writer stands. What is
written is on top of the stack behind it. -/
theorem written_readOnce {before later : List Quad} {writer : Quad} {name : String}
    (stacked : Stacked depth (before ++ writer :: later))
    (written : writer.writtenTemporary? = some name) : ReadOnce name (lifetime name later) := by
  obtain ⟨left, fromWriter⟩ := stacked.behind
  cases fromWriter with
  | push produces reads writes rest =>
    obtain rfl := Option.some.inj (writes.symm.trans written)
    exact rest.readOnce (Nat.succ_pos _) (Nat.le_refl _)
  | settle reads writes reader rest =>
    rw [writes] at written
    cases written

/-- Nothing is read before it is written. The values on the stack have been written
earlier. -/
theorem read_written {earlier before later : List Quad} {reader : Quad} {name : String}
    (stacked : Stacked depth (before ++ reader :: later))
    (known : ∀ number, 0 < number → number ≤ depth → ∃ writer ∈ earlier,
      writer.writtenTemporary? = some (Operand.temporary number).name)
    (read : name ∈ reader.readTemporaries) :
    ∃ writer ∈ earlier ++ before, writer.writtenTemporary? = some name := by
  induction before generalizing depth earlier with
  | nil =>
    rw [List.append_nil]
    cases stacked with
    | push produces reads writes rest =>
      obtain ⟨number, above, below, rfl⟩ := mem_temporaryNames.mp (reads ▸ read)
      exact known number (by omega) below
    | settle reads writes isReader rest =>
      obtain ⟨number, above, below, rfl⟩ := mem_temporaryNames.mp (reads ▸ read)
      exact known number above (by omega)
  | cons quad before inductionHypothesis =>
    rw [← List.singleton_append, ← List.append_assoc]
    cases stacked with
    | @push left taken _ _ produces reads writes rest =>
      refine inductionHypothesis rest ?_
      intro number positive inStack
      by_cases isTop : number = left + 1
      · exact ⟨quad, List.mem_append_right _ (List.mem_singleton_self quad), by rw [writes, isTop]⟩
      · obtain ⟨writer, listed, written⟩ := known number positive (by omega)
        exact ⟨writer, List.mem_append_left _ listed, written⟩
    | settle reads writes isReader rest =>
      refine inductionHypothesis rest ?_
      intro number positive inStack
      omega

/-- A temporary is read by what computes a value, or it is the first one and is tested or
returned. -/
theorem readers (stacked : Stacked depth quads) :
    ∀ quad ∈ quads, ∀ name ∈ quad.readTemporaries, quad.producesValue = true ∨
      (quad.kind? = some .conditionalJump ∨ quad.kind? = some .ret) ∧
        name = (Operand.temporary 1).name := by
  induction stacked with
  | nil => exact List.forall_mem_nil _
  | push produces reads writes rest inductionHypothesis =>
    exact List.forall_mem_cons.mpr ⟨fun _ _ => Or.inl produces, inductionHypothesis⟩
  | settle reads writes reader rest inductionHypothesis =>
    refine List.forall_mem_cons.mpr ⟨?_, inductionHypothesis⟩
    intro name read
    rw [reads] at read
    rcases reader with rfl | produces | ⟨rfl, kinds⟩
    · cases read
    · exact Or.inl produces
    · exact Or.inr ⟨kinds, List.mem_singleton.mp read⟩

end Stacked

/-!
## Lowering uses temporaries like a stack
-/

/-- Where a result can go when the values below it are still to be read, and the depth of the
stack then. A variable takes the result of a whole statement only. -/
inductive Operand.Receives : Nat → Operand → Nat → Prop
  | stored {name : String} {address : Int} : Receives 0 (.stored name address) 0
  | temporary {depth : Nat} : Receives depth (.temporary (depth + 1)) (depth + 1)

/-- The values that a computed operand puts on the stack. -/
def Operand.Stacks (operand : Operand) (depth taken : Nat) : Prop :=
  operand.liveAfter depth = depth + taken ∧
    (Operand.temporaryName? (some operand)).toList = temporaryNames depth taken

/-- The value of an expression is on top of the stack, unless no code computes it. A literal or a
variable puts nothing there. -/
theorem Computes.stacks {live : Nat} {node : Node} {code : List Quad} {value : Operand}
    (computed : Computes live node (.temporary (live + 1)) code value) :
    ∃ taken, value.Stacks live taken := by
  rcases computed.value_cases with ⟨-, ⟨number, rfl⟩ | ⟨name, address, rfl⟩⟩ | ⟨-, rfl⟩
  · exact ⟨0, rfl, rfl⟩
  · exact ⟨0, rfl, rfl⟩
  · exact ⟨1, rfl, rfl⟩

/-- A quadruple that reads the top of the stack and computes a value uses the stack as it should.
Its target is a variable or the temporary that is then on top. -/
theorem Stacked.computed {depth taken next : Nat} {quad : Quad} {target : Operand}
    {later : List Quad} (produces : quad.producesValue = true)
    (reads : quad.readTemporaries = temporaryNames depth taken)
    (isTarget : quad.target = some target) (receives : target.Receives depth next)
    (rest : Stacked next later) : Stacked (depth + taken) (quad :: later) := by
  have written : quad.writtenTemporary? = Operand.temporaryName? (some target) := by
    rw [Quad.writtenTemporary?, produces, isTarget, Bool.true_or, if_pos rfl]
  cases receives with
  | stored =>
    rw [Nat.zero_add]
    exact .settle reads written (Or.inr (Or.inl produces)) rest
  | temporary => exact .push produces reads written rest

namespace Quad

/-- A binary operation computes a value, whatever its operator is. -/
theorem producesValue_binary (op : BinaryOp) (left right target : Operand) :
    (Quad.binary op left right target).producesValue = true := by
  cases op <;> rfl

/-- A binary operation reads its operands, the left one first. -/
theorem readTemporaries_binary (op : BinaryOp) (left right target : Operand) :
    (Quad.binary op left right target).readTemporaries =
      (Operand.temporaryName? (some left)).toList ++
        (Operand.temporaryName? (some right)).toList := by
  have noReturn : ¬ (Quad.binary op left right target).kind? = some .ret := by
    rw [Quad.kind_binary]
    cases op <;> decide
  rw [readTemporaries, if_neg noReturn, List.append_nil]
  rfl

/-- A jump on a condition reads the condition and no other temporary. -/
theorem readTemporaries_branch (whenTrue : Bool) (condition label : Operand) :
    (Quad.branch whenTrue condition label).readTemporaries =
      (Operand.temporaryName? (some condition)).toList := by
  cases whenTrue <;> exact (List.append_nil _).trans (List.append_nil _)

end Quad

namespace Computes

variable {live : Nat} {node : Node} {target value : Operand} {code : List Quad}

/-- Code behind an expression that reads its value, by whether the value took code. Without code
there is nothing more on the stack than before. -/
theorem stacked_cases (computed : Computes live node (.temporary (live + 1)) code value)
    {later : List Quad} (behind : Stacked (value.liveAfter live) later) :
    (code = [] → Stacked live later) ∧ (code ≠ [] → Stacked (live + 1) later) := by
  constructor
  · intro none
    rwa [computed.liveAfter_of_nil none] at behind
  · intro nonempty
    rwa [computed.liveAfter_of_ne_nil nonempty] at behind

/-- The code of an expression uses temporaries like a stack, in front of code that goes on from
there. The code behind it finds one value more on the stack, or none if there was no code or it went
to a variable. -/
theorem stacked (computed : Computes live node target code value) {next : Nat}
    (receives : target.Receives live next) {later : List Quad}
    (behindNone : code = [] → Stacked live later) (behindSome : code ≠ [] → Stacked next later) :
    Stacked live (code ++ later) := by
  induction computed generalizing next later with
  | integer => exact behindNone rfl
  | identifier addressed => exact behindNone rfl
  | @unary live mark op operand target value code inner operandStacked =>
    obtain ⟨taken, depth, names⟩ := inner.stacks
    have last : Stacked (value.liveAfter live) (.unary op value target :: later) := by
      rw [depth]
      refine .computed (by rfl) ?_ rfl receives (behindSome (by simp))
      exact (List.append_nil _).trans ((List.append_nil _).trans names)
    obtain ⟨behindNone, behindSome⟩ := inner.stacked_cases last
    rw [List.append_assoc]
    exact operandStacked .temporary behindNone behindSome
  | @binary live mark op left right target leftValue rightValue leftCode rightCode first second
      leftStacked rightStacked =>
    obtain ⟨leftTaken, leftDepth, leftNames⟩ := first.stacks
    obtain ⟨rightTaken, rightDepth, rightNames⟩ := second.stacks
    have last : Stacked (rightValue.liveAfter (leftValue.liveAfter live))
        (.binary op leftValue rightValue target :: later) := by
      rw [rightDepth, leftDepth, Nat.add_assoc]
      refine .computed (Quad.producesValue_binary ..) ?_ rfl receives (behindSome (by simp))
      rw [Quad.readTemporaries_binary, leftNames, rightNames, leftDepth, temporaryNames_append]
    obtain ⟨behindNone, behindSome⟩ := second.stacked_cases last
    have behindLeft : Stacked (leftValue.liveAfter live)
        (rightCode ++ .binary op leftValue rightValue target :: later) :=
      rightStacked .temporary behindNone behindSome
    obtain ⟨behindNone, behindSome⟩ := first.stacked_cases behindLeft
    rw [List.append_assoc, List.append_assoc]
    exact leftStacked .temporary behindNone behindSome

/-- The code of an operand in front of code that reads its value uses temporaries like a stack. -/
theorem stacked_operand (computed : Computes live node (.temporary (live + 1)) code value)
    {later : List Quad} (behind : Stacked (value.liveAfter live) later) :
    Stacked live (code ++ later) := by
  obtain ⟨behindNone, behindSome⟩ := computed.stacked_cases behind
  exact computed.stacked .temporary behindNone behindSome

/-- The code of an expression in front of a jump or a return, which reads its value, uses
temporaries like a stack. Behind them the stack is empty. -/
theorem stacked_settled (computed : Computes 0 node (.temporary 1) code value) {quad : Quad}
    (reads : quad.readTemporaries = (Operand.temporaryName? (some value)).toList)
    (kinds : quad.kind? = some .conditionalJump ∨ quad.kind? = some .ret)
    {later : List Quad} (behind : Stacked 0 later) : Stacked 0 (code ++ quad :: later) := by
  have writes : quad.writtenTemporary? = none := by
    rcases kinds with isBranch | isReturn
    · simp [Quad.writtenTemporary?, Quad.producesValue, isBranch, CommandKind.producesValue]
    · simp [Quad.writtenTemporary?, Quad.producesValue, isReturn, CommandKind.producesValue]
  apply computed.stacked_operand
  rcases computed.value_cases with ⟨-, ⟨number, rfl⟩ | ⟨name, address, rfl⟩⟩ | ⟨-, rfl⟩
  · exact .settle reads writes (Or.inl rfl) behind
  · exact .settle reads writes (Or.inl rfl) behind
  · exact .settle reads writes (Or.inr (Or.inr ⟨rfl, kinds⟩)) behind

/-- The code of a condition with its jump uses temporaries like a stack, on whichever value the jump
is taken. -/
theorem stacked_test (tested : Computes 0 node (.temporary 1) code value) (whenTrue : Bool)
    (label : Operand) {later : List Quad} (behind : Stacked 0 later) :
    Stacked 0 (code ++ .branch whenTrue value label :: later) := by
  refine tested.stacked_settled (Quad.readTemporaries_branch ..) (Or.inl ?_) behind
  cases whenTrue <;> rfl

end Computes

/-- The code of an assignment to a variable uses temporaries like a stack and leaves it empty. It
copies a literal or a variable only, so no copy reads a temporary. -/
theorem Stores.stacked {name : String} {address : Int} {op : AssignOp} {value : Node}
    {code later : List Quad} (stores : Stores (.stored name address) op value code)
    (behind : Stacked 0 later) : Stacked 0 (code ++ later) := by
  cases stores with
  | copied plain simple =>
    rcases simple.value_cases with ⟨-, ⟨number, rfl⟩ | ⟨name, address, rfl⟩⟩ | ⟨nonempty, -⟩
    · exact .settle rfl rfl (Or.inl rfl) behind
    · exact .settle rfl rfl (Or.inl rfl) behind
    · exact absurd rfl nonempty
  | computed plain direct nonempty =>
    exact direct.stacked .stored (fun none => absurd none nonempty) (fun _ => behind)
  | @combined arithmetic _ code source combining operand =>
    obtain ⟨taken, depth, names⟩ := operand.stacks
    rw [List.append_assoc]
    apply operand.stacked_operand
    rw [depth]
    refine .computed (Quad.producesValue_binary ..) ?_ rfl .stored behind
    rw [Quad.readTemporaries_binary, names]
    rfl

/-- The code of a task uses temporaries like a stack, and it leaves the stack empty. So tasks stand
one behind the other, and labels and jumps meet an empty stack. -/
theorem Lowers.stacked {task : Task} {labels after : Nat} {code : List Quad}
    (lowers : Lowers task labels code after) {later : List Quad} (behind : Stacked 0 later) :
    Stacked 0 (code ++ later) := by
  have label : ∀ (number : Nat) {later : List Quad}, Stacked 0 later →
      Stacked 0 (.label (.label number) :: later) :=
    fun _ _ rest => .settle rfl rfl (Or.inl rfl) rest
  have jump : ∀ (target : Operand) {later : List Quad}, Stacked 0 later →
      Stacked 0 (.jump target :: later) :=
    fun _ _ rest => .settle rfl rfl (Or.inl rfl) rest
  induction lowers generalizing later with
  | compound inner statements => exact statements behind
  | block inner statements => exact statements behind
  | empty => exact behind
  | declaration => exact behind
  | initialization addressed stored => exact stored.stacked behind
  | assignment addressed stored => exact stored.stacked behind
  | returned computed =>
    rw [List.append_assoc]
    exact computed.stacked_settled rfl (Or.inr rfl) behind
  | chain inner clauses =>
    rw [List.append_assoc]
    exact clauses (label _ behind)
  | chainElse inner otherwise clauses body =>
    rw [List.append_assoc, List.append_assoc]
    exact clauses (body (label _ behind))
  | whileLoop tested repeated body =>
    simp only [List.cons_append, List.append_assoc, List.nil_append]
    exact label _ (tested.stacked_test false _ (body (jump _ (label _ behind))))
  | doWhile repeated tested body =>
    simp only [List.cons_append, List.append_assoc, List.nil_append]
    exact label _ (body (tested.stacked_test true _ behind))
  | nil => exact behind
  | cons first second firstStacked secondStacked =>
    rw [List.append_assoc]
    exact firstStacked (secondStacked behind)
  | noClause => exact behind
  | clause tested guarded following body clauses =>
    simp only [List.cons_append, List.append_assoc, List.nil_append]
    exact tested.stacked_test false _ (body (jump _ (label _ (clauses behind))))

/-- **Temporaries are linear.** A program that parses and resolves is lowered, and the counter
of live temporaries is back at zero then. In its quadruples, every value that is written to a
temporary is read once before the next write to it or the end of the program, with no label,
jump or return on the way. A temporary is read only behind a write to it, and only by an
operator, or, if it is the first one, by a conditional jump or a return; so no copy reads
one, and every assignment of a computed value has found the quadruple that computed it. -/
theorem temporaries_are_linear (tokens : List Token) (parsed : Parsed)
    (accepted : Parsed.ofTokens tokens = .ok parsed)
    (resolved : parsed.root.resolve.fault = none) :
    ∃ lowered generator, Lowered.ofTree parsed.root.resolve.tree = .ok lowered ∧
      parsed.root.resolve.tree.generateStatement.run {} = .ok ((), generator) ∧
      generator.quads.toList = lowered.program.quads ∧ generator.temporaries = 0 ∧
      (∀ before writer later name, lowered.program.quads = before ++ writer :: later →
        writer.writtenTemporary? = some name → ReadOnce name (lifetime name later)) ∧
      ∀ before reader later name, lowered.program.quads = before ++ reader :: later →
        name ∈ reader.readTemporaries →
        (∃ writer ∈ before, writer.writtenTemporary? = some name) ∧
        (reader.producesValue = true ∨
          (reader.kind? = some .conditionalJump ∨ reader.kind? = some .ret) ∧ name = "t1") ∧
        reader.kind? ≠ some .copy := by
  obtain ⟨lowered, isLowered⟩ := Parsed.isLowered accepted resolved
  obtain ⟨generator, ran, isCode, balanced⟩ := Lowered.exists_generator isLowered
  obtain ⟨labels, lowers⟩ := Parsed.lowers accepted resolved isLowered
  have stacked : Stacked 0 lowered.program.quads := by
    rw [← List.append_nil lowered.program.quads]
    exact lowers.stacked .nil
  refine ⟨lowered, generator, isLowered, ran, isCode, balanced, ?_, ?_⟩
  · intro before writer later name split written
    exact (split ▸ stacked).written_readOnce written
  · intro before reader later name split read
    have listed : reader ∈ lowered.program.quads :=
      split ▸ List.mem_append_right before List.mem_cons_self
    have isReader := stacked.readers reader listed name read
    refine ⟨?_, isReader, ?_⟩
    · have known : ∀ number, 0 < number → number ≤ 0 → ∃ writer ∈ ([] : List Quad),
          writer.writtenTemporary? = some (Operand.temporary number).name := by
        intro number positive inStack
        omega
      exact (split ▸ stacked).read_written known read
    · intro copies
      rcases isReader with produces | ⟨tests | returns, -⟩
      · rw [Quad.producesValue, copies] at produces
        cases produces
      · cases copies.symm.trans tests
      · cases copies.symm.trans returns

/-- A program with values that wait for one another, also across a comparison and a logical
operator, in every kind of statement. -/
def waitingValues : String :=
  "int main() \x7b int a = 2; int b; b = a * 3 + (a - 1) * -4; " ++
  "while (a * 2 < b - 1 || (a + 1) * (b < 9)) \x7b b -= a * a; \x7d return (a + b) * (a - b); \x7d"

/-- The theorem on a program in which up to three temporaries hold values at once, and in which
values wait across comparisons and logical operators. The list is what its quadruples write,
in order. -/
theorem temporaries_are_linear_waitingValues :
    ∃ parsed lowered, Parsed.ofTokens (Lexed.ofText waitingValues).tokens = .ok parsed ∧
      parsed.root.resolve.fault = none ∧
      Lowered.ofTree parsed.root.resolve.tree = .ok lowered ∧
      lowered.program.quads.filterMap Quad.writtenTemporary? =
        ["t1", "t2", "t3", "t2", "t1", "t2", "t1", "t2", "t3", "t2", "t1", "t1", "t1", "t2", "t1"] ∧
      ∀ before writer later, lowered.program.quads = before ++ writer :: later →
        writer.writtenTemporary? = some "t2" → ReadOnce "t2" (lifetime "t2" later) := by
  have evaluated : (Parsed.ofTokens (Lexed.ofText waitingValues).tokens).toOption.any (fun parsed =>
      parsed.root.resolve.fault.isNone &&
      (Lowered.ofTree parsed.root.resolve.tree).toOption.any (fun lowered =>
        lowered.program.quads.filterMap Quad.writtenTemporary? ==
          ["t1", "t2", "t3", "t2", "t1", "t2", "t1", "t2", "t3", "t2", "t1", "t1", "t1", "t2",
            "t1"])) = true := by
    decide +kernel
  obtain ⟨parsed, accepted, checked⟩ := exists_ok_of_any evaluated
  obtain ⟨resolved, checked⟩ := (Bool.and_eq_true _ _).mp checked
  rw [Option.isNone_iff_eq_none] at resolved
  obtain ⟨other, otherLowered, checked⟩ := exists_ok_of_any checked
  obtain ⟨lowered, generator, isLowered, -, -, -, lifetimes, -⟩ :=
    temporaries_are_linear _ parsed accepted resolved
  obtain rfl : other = lowered := Except.ok.inj (otherLowered.symm.trans isLowered)
  refine ⟨parsed, other, accepted, resolved, isLowered, beq_iff_eq.mp checked, ?_⟩
  intro before writer later split written
  exact lifetimes before writer later "t2" split written

end IntMain
