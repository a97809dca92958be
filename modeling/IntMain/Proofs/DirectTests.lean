import IntMain.Proofs.LoweringRules
import IntMain.Proofs.NameChanges

/-!
# Programs whose comparisons are tests

The machine for assembly lines has no values of comparisons: a comparison is good for the
jump behind it only. A program is direct if it asks for no more than that, that is, if it
has no logical operator and each comparison is the whole condition of a clause or a loop.

The quadruples of a direct program are orderly. A temporary is read only while it holds a
value of the same statement, a comparison is followed by the jump that tests it, and
nothing is carried across a label or a jump. `Orderly` says this of quadruples alone, so
that what is proved about the lines of a program does not look at its tree again.
-/

namespace IntMain

namespace Node

mutual

/-- Whether a tree has no logical operator, and comparisons as whole conditions only.
`isTest` tells that the node is the whole condition of a clause or a loop. -/
def direct (isTest : Bool) : Node → Bool
  | .integer _ _ _ => true
  | .identifier _ _ => true
  | .unary _ _ operand => operand.direct false
  | .binary _ op left right =>
    (op.operatorClass == .arithmetic || isTest && op.operatorClass == .relational) &&
      left.direct false && right.direct false
  | .clause _ _ condition body => condition.direct true && body.direct false
  | .chain _ clauses none => directAll clauses
  | .chain _ clauses (some body) => directAll clauses && body.direct false
  | .whileLoop _ condition body => condition.direct true && body.direct false
  | .doWhile _ body condition => body.direct false && condition.direct true
  | .compound _ statements => directAll statements
  | .block _ statements => directAll statements
  | .declaration _ name => name.direct false
  | .initialization _ name value => name.direct false && value.direct false
  | .assignment _ target _ value => target.direct false && value.direct false
  | .returned _ value => value.direct false
  | .empty _ => true

/-- Whether several trees are direct. -/
def directAll : List Node → Bool
  | [] => true
  | node :: later => node.direct false && directAll later

end

end Node

/-!
## Resolution keeps a program direct
-/

mutual

/-- Whether a tree is direct does not depend on its names. It looks at the operators and at where
their results go, so any change of the identifiers is allowed. -/
theorem Node.direct_mapNames (change : Identifier → Identifier) (isTest : Bool) :
    (node : Node) → (node.mapNames change).direct isTest = node.direct isTest
  | .integer _ _ _ => by simp only [mapNames]
  | .identifier _ _ => by simp only [mapNames, direct]
  | .unary _ _ operand => by simp only [mapNames, direct, operand.direct_mapNames change]
  | .binary _ _ left right => by
    simp only [mapNames, direct, left.direct_mapNames change, right.direct_mapNames change]
  | .clause _ _ condition body => by
    simp only [mapNames, direct, condition.direct_mapNames change, body.direct_mapNames change]
  | .chain _ clauses none => by simp only [mapNames, direct, directAll_mapNames change clauses]
  | .chain _ clauses (some body) => by
    simp only [mapNames, direct, directAll_mapNames change clauses, body.direct_mapNames change]
  | .whileLoop _ condition body => by
    simp only [mapNames, direct, condition.direct_mapNames change, body.direct_mapNames change]
  | .doWhile _ body condition => by
    simp only [mapNames, direct, condition.direct_mapNames change, body.direct_mapNames change]
  | .compound _ statements => by simp only [mapNames, direct, directAll_mapNames change statements]
  | .block _ statements => by simp only [mapNames, direct, directAll_mapNames change statements]
  | .declaration _ name => by simp only [mapNames, direct, name.direct_mapNames change]
  | .initialization _ name value => by
    simp only [mapNames, direct, name.direct_mapNames change, value.direct_mapNames change]
  | .assignment _ target _ value => by
    simp only [mapNames, direct, target.direct_mapNames change, value.direct_mapNames change]
  | .returned _ value => by simp only [mapNames, direct, value.direct_mapNames change]
  | .empty _ => by simp only [mapNames]

/-- Whether several trees are direct does not depend on their names. -/
theorem Node.directAll_mapNames (change : Identifier → Identifier) :
    (nodes : List Node) → directAll (mapNamesAll change nodes) = directAll nodes
  | [] => by simp only [mapNamesAll]
  | node :: later => by
    simp only [mapNamesAll, directAll, node.direct_mapNames change,
      directAll_mapNames change later]

end

/-- A resolved tree is direct if the tree is, since resolution changes nothing but stamps. -/
theorem Node.resolveFrom_direct (isTest : Bool) (node : Node) (state : Resolution) :
    (node.resolveFrom state).1.direct isTest = node.direct isTest := by
  rw [← direct_mapNames .unstamped isTest node, ← node.resolveFrom_unstamped state,
    direct_mapNames]

/-!
## Orderly quadruples
-/

/-- An operand that has a value while the first `live` temporaries do. -/
inductive Operand.Readable (live : Nat) : Operand → Prop
  | literal {value : Int} : Readable live (.literal value)
  | stored {name : String} {address : Int} : Readable live (.stored name address)
  | temporary {number : Nat} (positive : 0 < number) (bound : number ≤ live) :
      Readable live (.temporary number)

/-- An operand that can be written while the first `live` temporaries hold values, and how
many of them matter then. A variable ends a statement, so none does. -/
inductive Operand.Writable (live : Nat) : Operand → Nat → Prop
  | stored {name : String} {address : Int} : Writable live (.stored name address) 0
  | temporary {number : Nat} (bound : number ≤ live + 1) :
      Writable live (.temporary number) number

/-- A jump on a condition, of either kind. -/
def Quad.branch (whenTrue : Bool) (condition label : Operand) : Quad :=
  match whenTrue with
  | true => .jumpIfTrue condition label
  | false => .jumpIfFalse condition label

/-- Quadruples in which temporaries are used in order, when the first `live` of them hold
values. -/
inductive Orderly : Nat → List Quad → Prop
  | nil {live : Nat} : Orderly live []
  | arithmetic {live next : Nat} {op : BinaryOp} {left right target : Operand}
      {later : List Quad} (isArithmetic : op.operatorClass = .arithmetic)
      (leftReadable : left.Readable live) (rightReadable : right.Readable live)
      (writable : target.Writable live next) (rest : Orderly next later) :
      Orderly live (.binary op left right target :: later)
  | unary {live next : Nat} {op : UnaryOp} {operand target : Operand} {later : List Quad}
      (readable : operand.Readable live) (writable : target.Writable live next)
      (rest : Orderly next later) : Orderly live (.unary op operand target :: later)
  | copy {live : Nat} {source : Operand} {name : String} {address : Int} {later : List Quad}
      (readable : source.Readable live) (rest : Orderly 0 later) :
      Orderly live (.copy source (.stored name address) :: later)
  | comparison {live number label : Nat} {op : BinaryOp} {left right : Operand}
      {whenTrue : Bool} {later : List Quad} (isRelational : op.operatorClass = .relational)
      (leftReadable : left.Readable live) (rightReadable : right.Readable live)
      (rest : Orderly 0 later) :
      Orderly live (.binary op left right (.temporary number) ::
        .branch whenTrue (.temporary number) (.label label) :: later)
  | branch {live label : Nat} {condition : Operand} {whenTrue : Bool} {later : List Quad}
      (readable : condition.Readable live) (rest : Orderly 0 later) :
      Orderly live (.branch whenTrue condition (.label label) :: later)
  | label {live number : Nat} {later : List Quad} (rest : Orderly 0 later) :
      Orderly live (.label (.label number) :: later)
  | jump {live label : Nat} {later : List Quad} (rest : Orderly 0 later) :
      Orderly live (.jump (.label label) :: later)
  | ret {live : Nat} {value : Operand} {later : List Quad} (readable : value.Readable live)
      (rest : Orderly 0 later) : Orderly live (.ret value :: later)

/-- What is readable stays so while more temporaries hold values. Only the bound on temporaries can
grow; literals and variables are readable at all times. -/
theorem Operand.Readable.mono {fewer more : Nat} {operand : Operand}
    (readable : operand.Readable fewer) (bound : fewer ≤ more) : operand.Readable more := by
  cases readable with
  | literal => exact .literal
  | stored => exact .stored
  | temporary positive small => exact .temporary positive (Nat.le_trans small bound)

/-- What is writable stays so while more temporaries hold values. -/
theorem Operand.Writable.mono {fewer more next : Nat} {operand : Operand}
    (writable : operand.Writable fewer next) (bound : fewer ≤ more) :
    operand.Writable more next := by
  cases writable with
  | stored => exact .stored
  | temporary small => exact .temporary (by omega)

/-- A value takes at most one temporary more and gives none back. What could be read before can be
read then. -/
theorem Operand.le_liveAfter (operand : Operand) (live : Nat) :
    live ≤ operand.liveAfter live := by
  unfold Operand.liveAfter
  split <;> omega

namespace Computes

variable {live : Nat} {node : Node} {target value : Operand} {code : List Quad}

/-- A value that took no code is no temporary, so it leaves as many temporaries alive as there
were. -/
theorem liveAfter_of_nil (computed : Computes live node target code value) (none : code = []) :
    value.liveAfter live = live := by
  rcases computed.value_cases with ⟨-, ⟨number, rfl⟩ | ⟨name, address, rfl⟩⟩ | ⟨nonempty, -⟩
  · rfl
  · rfl
  · exact absurd none nonempty

/-- A value that took code is the next temporary. The target has to be that temporary; a value that
was sent elsewhere would take none. -/
theorem liveAfter_of_ne_nil (computed : Computes live node (.temporary (live + 1)) code value)
    (nonempty : code ≠ []) : value.liveAfter live = live + 1 := by
  rcases computed.value_cases with ⟨none, -⟩ | ⟨-, rfl⟩
  · exact absurd none nonempty
  · rfl

/-- The value of an expression can be read behind its code, where it counts as alive itself if it is
a temporary. -/
theorem readable (computed : Computes live node (.temporary (live + 1)) code value) :
    value.Readable (value.liveAfter live) := by
  rcases computed.value_cases with ⟨-, ⟨number, rfl⟩ | ⟨name, address, rfl⟩⟩ | ⟨-, rfl⟩
  · exact .literal
  · exact .stored
  · exact .temporary (Nat.succ_pos live) (Nat.le_refl _)

/-- A value that took no code can be read at once, whatever the target would have been. -/
theorem readable_of_nil (simple : Computes live node target [] value) : value.Readable live := by
  rcases simple.value_cases with ⟨-, ⟨number, rfl⟩ | ⟨name, address, rfl⟩⟩ | ⟨nonempty, -⟩
  · exact .literal
  · exact .stored
  · exact absurd rfl nonempty

/-- Code behind an expression that reads its value, by whether the value took code. The two cases
are what the rules ask for, which know nothing of the value itself. -/
theorem behind_cases (computed : Computes live node (.temporary (live + 1)) code value)
    {later : List Quad} (behind : Orderly (value.liveAfter live) later) :
    (code = [] → Orderly live later) ∧ (code ≠ [] → Orderly (live + 1) later) := by
  constructor
  · intro none
    rwa [computed.liveAfter_of_nil none] at behind
  · intro nonempty
    rwa [computed.liveAfter_of_ne_nil nonempty] at behind

/-- The code of a direct expression is orderly, in front of code that is. What is then alive depends
on whether the expression took code, so the code behind it is asked for in both cases. That the
expression is direct rules out comparisons and logical operators inside of it. -/
theorem orderly (computed : Computes live node target code value)
    (direct : node.direct false = true) {next : Nat} (writable : target.Writable live next)
    {later : List Quad} (behindNone : code = [] → Orderly live later)
    (behindSome : code ≠ [] → Orderly next later) : Orderly live (code ++ later) := by
  induction computed generalizing next later with
  | integer => exact behindNone rfl
  | identifier addressed => exact behindNone rfl
  | @unary live mark op operand target value code inner operandOrderly =>
    rw [Node.direct] at direct
    have last : Orderly (value.liveAfter live) (.unary op value target :: later) :=
      .unary inner.readable (writable.mono (value.le_liveAfter live)) (behindSome (by simp))
    obtain ⟨behindNone, behindSome⟩ := inner.behind_cases last
    rw [List.append_assoc]
    exact operandOrderly direct (.temporary (Nat.le_refl _)) behindNone behindSome
  | @binary live mark op left right target leftValue rightValue leftCode rightCode first second
      leftOrderly rightOrderly =>
    simp only [Node.direct, Bool.false_and, Bool.or_false, Bool.and_eq_true, beq_iff_eq] at direct
    obtain ⟨⟨isArithmetic, leftDirect⟩, rightDirect⟩ := direct
    have grows := rightValue.le_liveAfter (leftValue.liveAfter live)
    have last : Orderly (rightValue.liveAfter (leftValue.liveAfter live))
        (.binary op leftValue rightValue target :: later) :=
      .arithmetic isArithmetic (first.readable.mono grows) second.readable
        (writable.mono (Nat.le_trans (leftValue.le_liveAfter live) grows)) (behindSome (by simp))
    obtain ⟨behindNone, behindSome⟩ := second.behind_cases last
    have behindLeft : Orderly (leftValue.liveAfter live)
        (rightCode ++ .binary op leftValue rightValue target :: later) :=
      rightOrderly rightDirect (.temporary (Nat.le_refl _)) behindNone behindSome
    obtain ⟨behindNone, behindSome⟩ := first.behind_cases behindLeft
    rw [List.append_assoc, List.append_assoc]
    exact leftOrderly leftDirect (.temporary (Nat.le_refl _)) behindNone behindSome

/-- The code of a direct operand is orderly in front of code that reads its value. The code behind
it may rely on the temporary of the value, if it has one. -/
theorem orderly_operand (computed : Computes live node (.temporary (live + 1)) code value)
    (direct : node.direct false = true) {later : List Quad}
    (behind : Orderly (value.liveAfter live) later) : Orderly live (code ++ later) := by
  obtain ⟨behindNone, behindSome⟩ := computed.behind_cases behind
  exact computed.orderly direct (.temporary (Nat.le_refl _)) behindNone behindSome

/-- The code of a direct test is orderly with the jump behind it. A comparison and its jump
make one step. -/
theorem orderly_test (tested : Computes 0 node (.temporary 1) code value)
    (direct : node.direct true = true) (whenTrue : Bool) (label : Nat) {later : List Quad}
    (behind : Orderly 0 later) :
    Orderly 0 (code ++ .branch whenTrue value (.label label) :: later) := by
  have jump : Orderly (value.liveAfter 0) (.branch whenTrue value (.label label) :: later) :=
    .branch tested.readable behind
  cases tested with
  | integer => exact jump
  | identifier addressed => exact jump
  | @unary _ mark op operand _ value code inner =>
    rw [Node.direct] at direct
    have whole : Computes 0 (.unary mark op operand) (.temporary 1) _ _ := .unary inner
    exact whole.orderly_operand (by rwa [Node.direct]) jump
  | @binary _ mark op left right _ leftValue rightValue leftCode rightCode first second =>
    simp only [Node.direct, Bool.true_and, Bool.or_eq_true, Bool.and_eq_true, beq_iff_eq] at direct
    obtain ⟨⟨kind, leftDirect⟩, rightDirect⟩ := direct
    rcases kind with isArithmetic | isRelational
    · have whole : Computes 0 (.binary mark op left right) (.temporary 1) _ _ :=
        .binary first second
      exact whole.orderly_operand
        (by simp [Node.direct, isArithmetic, leftDirect, rightDirect]) jump
    · have compare : Orderly (rightValue.liveAfter (leftValue.liveAfter 0))
          (.binary op leftValue rightValue (.temporary 1) ::
            .branch whenTrue (.temporary 1) (.label label) :: later) :=
        .comparison isRelational (first.readable.mono (rightValue.le_liveAfter _))
          second.readable behind
      rw [List.append_assoc, List.append_assoc]
      exact orderly_operand first leftDirect (orderly_operand second rightDirect compare)

end Computes

/-- The code of an assignment of a direct value is orderly, and nothing is alive behind it. The
target is a variable, so the result is not lost with the temporaries. -/
theorem Stores.orderly {name : String} {address : Int} {op : AssignOp} {value : Node}
    {code later : List Quad} (stores : Stores (.stored name address) op value code)
    (direct : value.direct false = true) (behind : Orderly 0 later) :
    Orderly 0 (code ++ later) := by
  cases stores with
  | copied plain simple => exact .copy simple.readable_of_nil behind
  | computed plain computes nonempty =>
    exact computes.orderly direct .stored (fun none => absurd none nonempty) (fun _ => behind)
  | @combined arithmetic _ code source combining operand =>
    have isArithmetic : arithmetic.operatorClass = .arithmetic := by
      cases op <;> cases combining <;> rfl
    rw [List.append_assoc]
    exact operand.orderly_operand direct
      (.arithmetic isArithmetic .stored operand.readable .stored behind)

/-- What is lowered is direct. Clauses leave for a numbered label. -/
def Task.Direct : Task → Prop
  | .statement node => node.direct false = true
  | .statements nodes => Node.directAll nodes = true
  | .clauses nodes done => Node.directAll nodes = true ∧ ∃ number, done = .label number

/-- The code of a direct task is orderly, and it carries nothing to the code behind it. Every
statement starts and ends with no temporary alive, which is what the induction along the rules
keeps. -/
theorem Lowers.orderly {task : Task} {labels after : Nat} {code : List Quad}
    (lowers : Lowers task labels code after) (direct : task.Direct) {later : List Quad}
    (behind : Orderly 0 later) : Orderly 0 (code ++ later) := by
  induction lowers generalizing later with
  | compound inner statements =>
    rw [Task.Direct, Node.direct] at direct
    exact statements direct behind
  | block inner statements =>
    rw [Task.Direct, Node.direct] at direct
    exact statements direct behind
  | empty => exact behind
  | declaration => exact behind
  | initialization addressed stored =>
    simp only [Task.Direct, Node.direct, Bool.and_eq_true] at direct
    exact stored.orderly direct.2 behind
  | assignment addressed stored =>
    simp only [Task.Direct, Node.direct, Bool.and_eq_true] at direct
    exact stored.orderly direct.2 behind
  | returned computed =>
    rw [Task.Direct, Node.direct] at direct
    rw [List.append_assoc]
    exact computed.orderly_operand direct (.ret computed.readable behind)
  | chain inner clauses =>
    rw [Task.Direct, Node.direct] at direct
    rw [List.append_assoc]
    exact clauses ⟨direct, _, rfl⟩ (.label behind)
  | chainElse inner otherwise clauses body =>
    simp only [Task.Direct, Node.direct, Bool.and_eq_true] at direct
    rw [List.append_assoc, List.append_assoc]
    exact clauses ⟨direct.1, _, rfl⟩ (body direct.2 (.label behind))
  | whileLoop tested repeated body =>
    simp only [Task.Direct, Node.direct, Bool.and_eq_true] at direct
    simp only [List.cons_append, List.append_assoc, List.nil_append]
    exact .label (tested.orderly_test direct.1 false _ (body direct.2 (.jump (.label behind))))
  | doWhile repeated tested body =>
    simp only [Task.Direct, Node.direct, Bool.and_eq_true] at direct
    simp only [List.cons_append, List.append_assoc, List.nil_append]
    exact .label (body direct.1 (tested.orderly_test direct.2 true _ behind))
  | nil => exact behind
  | cons first second firstOrderly secondOrderly =>
    simp only [Task.Direct, Node.directAll, Bool.and_eq_true] at direct
    rw [List.append_assoc]
    exact firstOrderly direct.1 (secondOrderly direct.2 behind)
  | noClause => exact behind
  | clause tested guarded following body clauses =>
    simp only [Task.Direct, Node.directAll, Node.direct, Bool.and_eq_true] at direct
    obtain ⟨⟨⟨testDirect, bodyDirect⟩, laterDirect⟩, number, rfl⟩ := direct
    simp only [List.cons_append, List.append_assoc, List.nil_append]
    exact tested.orderly_test testDirect false _
      (body bodyDirect (.jump (.label (clauses ⟨laterDirect, number, rfl⟩ behind))))

end IntMain
