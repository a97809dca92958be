import IntMain.Proofs.Rendering

/-!
# Reading a written expression

`Parser.Reads` says what holds behind some words, whatever tokens carry them, and is
composed along the words.

An expression is read from a place where the operators that wait are looser than the
layer of the place. Then none of them takes a part of the expression, and behind the
expression the stack acts as if the whole value had been read at once: that is
`Waiting.ActsAs`. It speaks of what the stack does when it collapses and not of the stack
itself, because the last operators of the expression may still wait on it.
-/

namespace IntMain

/-!
## Words and tokens
-/

/-- A token with a fixed word has its kind. Its lexeme does not count for the parser. -/
theorem Token.kind_of_fixed {token : Token} {kind : TokenKind}
    (carries : token.word = .fixed kind) : token.kind = kind := by
  unfold Token.word at carries
  split at carries
  · cases carries
  · cases carries
  · exact Word.fixed.inj carries

/-- A token with a name is an identifier, and the name is its lexeme. -/
theorem Token.of_name {token : Token} {text : String} (carries : token.word = .name text) :
    token.kind = .identifier ∧ token.lexeme = text := by
  unfold Token.word at carries
  split at carries
  · rename_i kind
    exact ⟨kind, Word.name.inj carries⟩
  · cases carries
  · cases carries

/-- A token with a literal is one, and is read by its lexeme. -/
theorem Token.of_literal {token : Token} {text : String}
    (carries : token.word = .literal text) :
    token.kind = .intLiteral ∧ token.lexeme = text := by
  unfold Token.word at carries
  split at carries
  · cases carries
  · rename_i kind
    exact ⟨kind, Word.literal.inj carries⟩
  · cases carries

/-- The kind of an operator stands for the operator, so an operator that is written is read back. -/
theorem BinaryOp.ofKind_kind (op : BinaryOp) : BinaryOp.ofKind? op.kind = some op := by
  cases op <;> rfl

/-- The kind of an assignment operator stands for the operator, so one that is written is read
back. -/
theorem AssignOp.ofKind_kind (op : AssignOp) : AssignOp.ofKind? op.kind = some op := by
  cases op <;> rfl

/-- The layers are what the parser compares. The grammar numbers them on its own, and the numbers
agree. -/
theorem BinaryOp.layer_eq (op : BinaryOp) : op.layer = op.tightness := by
  cases op <;> rfl

/-- The layer of a left operand is the bound down to which the parser collapses. So operators of one
layer associate to the left in both. -/
theorem BinaryOp.leftLayer_eq (op : BinaryOp) : op.leftLayer = op.leftBound := by
  cases op <;> rfl

/-- No operator is as tight as an operand, and none takes a left operand looser than itself. -/
theorem BinaryOp.leftBound_le (op : BinaryOp) :
    op.tightness ≤ op.leftBound ∧ op.leftBound ≤ 3 := by
  cases op <;> decide

namespace Parser

/-- Whatever tokens carry the words, they are read, and then the claim holds. The positions of the
tokens may be any, so nothing here depends on the layout of a text. -/
def Reads (parser : Parser) (words : List Word) (claim : Parser → Prop) : Prop :=
  ∀ tokens : List Token, tokens.map Token.word = words →
    ∃ next, tokens.foldlM step parser = .ok next ∧ claim next

/-- No words are read at once, and the parser stays as it is. -/
theorem Reads.nil {parser : Parser} {claim : Parser → Prop} (holds : claim parser) :
    parser.Reads [] claim := by
  intro tokens carried
  obtain rfl := List.map_eq_nil_iff.mp carried
  exact ⟨parser, rfl, holds⟩

/-- One word is read by one step, whichever token carries it. -/
theorem Reads.cons {parser : Parser} {word : Word} {words : List Word}
    {claim : Parser → Prop}
    (first : ∀ token : Token, token.word = word →
      ∃ next, parser.step token = .ok next ∧ next.Reads words claim) :
    parser.Reads (word :: words) claim := by
  intro tokens carried
  obtain ⟨token, later, rfl, carries, others⟩ := List.map_eq_cons_iff.mp carried
  obtain ⟨next, stepped, reads⟩ := first token carries
  obtain ⟨final, run, holds⟩ := reads later others
  refine ⟨final, ?_, holds⟩
  rw [List.foldlM_cons, stepped]
  exact run

/-- Words are read one part after the other. What is known in the middle is all that the second part
may use. -/
theorem Reads.append {parser : Parser} {front back : List Word} {middle claim : Parser → Prop}
    (first : parser.Reads front middle)
    (others : ∀ next, middle next → next.Reads back claim) :
    parser.Reads (front ++ back) claim := by
  intro tokens carried
  obtain ⟨ahead, behind, rfl, leading, following⟩ := List.map_eq_append_iff.mp carried
  obtain ⟨next, run, holds⟩ := first ahead leading
  obtain ⟨final, laterRun, reached⟩ := others next holds behind following
  refine ⟨final, ?_, reached⟩
  rw [List.foldlM_append, run]
  exact laterRun

/-- What follows from the claim holds of the same words, so a claim may be weakened. -/
theorem Reads.mono {parser : Parser} {words : List Word} {claim weaker : Parser → Prop}
    (reads : parser.Reads words claim) (implied : ∀ next, claim next → weaker next) :
    parser.Reads words weaker := by
  intro tokens carried
  obtain ⟨next, run, holds⟩ := reads tokens carried
  exact ⟨next, run, implied next holds⟩

end Parser

/-!
## Expressions
-/

namespace Waiting

/-- Nothing that waits takes an operand of a layer before the operand is complete. An open
parenthesis takes nothing, so any layer is settled behind it. -/
def Settled (place : Nat) : List Waiting → Prop
  | .sign _ _ :: _ => operandLayer ≤ place
  | .operator _ op _ :: _ => op.tightness < place
  | _ => True

/-- An operator of the layer finds what waits as it was. Nothing is collapsed, because all that
waits is looser than the operator's left operand. -/
theorem Settled.collapse {place bound : Nat} {waiting : List Waiting}
    (settled : Settled place waiting) (within : place ≤ bound) (loose : bound ≤ 3)
    (operand : Node) (nextId : Nat) :
    collapse bound waiting operand nextId = (waiting, operand, nextId) := by
  cases waiting with
  | nil => rfl
  | cons first outer =>
    cases first with
    | sign position op =>
      have tight : 4 ≤ place := settled
      omega
    | operator position op left =>
      have looser : op.tightness < place := settled
      rw [Waiting.collapse, if_neg (by omega)]
    | parenthesis => rfl

/-- What waits for a looser layer waits for a tighter one. -/
theorem Settled.mono {place tighter : Nat} {waiting : List Waiting}
    (settled : Settled place waiting) (within : place ≤ tighter) :
    Settled tighter waiting := by
  cases waiting with
  | nil => trivial
  | cons first outer =>
    cases first with
    | sign position op => exact Nat.le_trans settled within
    | operator position op left => exact Nat.lt_of_lt_of_le settled within
    | parenthesis => trivial

/-- No comparison waits where one may be written. The parser refuses a second comparison in a row,
so this has to be known before each of them. -/
theorem Settled.comparing {place : Nat} {waiting : List Waiting}
    (settled : Settled place waiting) (loose : place ≤ 1) : comparing waiting = false := by
  cases waiting with
  | nil => rfl
  | cons first outer =>
    cases first with
    | sign position op => rfl
    | operator position op left =>
      have looser : op.tightness < place := settled
      have logical : op.tightness = 0 := by omega
      cases op <;> first | rfl | cases logical
    | parenthesis => rfl

/-- A stack with an operand acts as if the whole of an expression had been read where
`waiting` waits, for every operator that is not tighter than the layer of the place. -/
def ActsAs (place : Nat) (waiting : List Waiting) (expression : Node) (stack : List Waiting)
    (operand : Node) (nextId : Nat) : Prop :=
  ∃ value laterId, value.unmarked = expression.unmarked ∧
    ∀ bound ≤ place, collapse bound stack operand nextId = collapse bound waiting value laterId

end Waiting

/-- An expression has been read in a place: the state is behind an operand, and the stack
acts as if the operand were the whole expression. -/
def ExpressionRead (body : OpenBody) (enclosing : List Enclosing) (purpose : Purpose)
    (place : Nat) (waiting : List Waiting) (expression : Node) (next : Parser) : Prop :=
  ∃ laterId stack operand,
    next = ⟨laterId, .inside body enclosing (.operator purpose stack operand)⟩ ∧
      Waiting.ActsAs place waiting expression stack operand laterId

/-- An expression that stands alone has been read with the token behind it. What the parser then
does depends on what the expression was read for. -/
def ValueRead (body : OpenBody) (enclosing : List Enclosing) (purpose : Purpose)
    (expression : Node) (next : Parser) : Prop :=
  ∃ laterId value token, value.unmarked = expression.unmarked ∧
    token.kind = purpose.closing ∧
    Parser.finishExpression laterId body enclosing purpose value token = .ok next

/-- Words are read as an expression in a place, in front of anything that waits there. The number of
the next node may be any. -/
def ReadsExpression (body : OpenBody) (enclosing : List Enclosing) (purpose : Purpose)
    (place : Nat) (waiting : List Waiting) (words : List Word) (expression : Node) : Prop :=
  ∀ nextId, Parser.Reads ⟨nextId, .inside body enclosing (.operand purpose waiting)⟩ words
    (ExpressionRead body enclosing purpose place waiting expression)

/-- A name that is used is known by its text. The parser knows nothing else of it. -/
theorem unmarked_used {name : Identifier} {text : String} (used : Naming.parsed.used name)
    (same : text = name.name) (mark other : Mark) :
    (Node.identifier mark { name := text }).unmarked =
      (Node.identifier other name).unmarked := by
  obtain ⟨own, address, type⟩ := name
  obtain ⟨rfl, rfl⟩ : address = none ∧ type = none := used
  rw [same]
  rfl

/-- A name that is declared is known by its text and its type. -/
theorem unmarked_declared {name : Identifier} {text : String}
    (declared : Naming.parsed.declared name) (same : text = name.name) (mark other : Mark) :
    (Node.identifier mark { name := text, type := some .int }).unmarked =
      (Node.identifier other name).unmarked := by
  obtain ⟨own, address, type⟩ := name
  obtain ⟨rfl, rfl⟩ : address = none ∧ type = some .int := declared
  rw [same]
  rfl

section Expression

variable {body : OpenBody} {enclosing : List Enclosing} {purpose : Purpose} {place : Nat}
  {waiting : List Waiting}

/-- An operand that is a single token stands for itself, in front of whatever comes next. -/
theorem ExpressionRead.operand {expression node : Node} {nextId : Nat}
    (same : node.unmarked = expression.unmarked) :
    ExpressionRead body enclosing purpose place waiting expression
      ⟨nextId, .inside body enclosing (.operator purpose waiting node)⟩ :=
  ⟨nextId, waiting, node, rfl, node, nextId, same, fun _ _ => rfl⟩

/-- A literal is read as its value, if it has one. Without a value it would be refused. -/
theorem reads_integer {mark : Mark} {value : Int} {lexeme : String}
    (valued : integerValue? lexeme = some value) :
    ReadsExpression body enclosing purpose place waiting [.literal lexeme]
      (.integer mark value lexeme) := by
  intro nextId
  refine Parser.Reads.cons ?_
  intro token carries
  obtain ⟨kind, rfl⟩ := Token.of_literal carries
  refine ⟨⟨nextId + 1, .inside body enclosing (.operator purpose waiting
    (.integer ⟨nextId, token.position⟩ value token.lexeme))⟩, ?_, ?_⟩
  · simp only [Parser.step, Parser.insideStep, Parser.startOperand, kind, valued]
  · exact .nil (.operand rfl)

/-- A name is read as an identifier of which nothing else is known, which is what a use of a name is
before resolution. -/
theorem reads_identifier {mark : Mark} {name : Identifier}
    (used : Naming.parsed.used name) :
    ReadsExpression body enclosing purpose place waiting [.name name.name]
      (.identifier mark name) := by
  intro nextId
  refine Parser.Reads.cons ?_
  intro token carries
  obtain ⟨kind, text⟩ := Token.of_name carries
  refine ⟨⟨nextId + 1, .inside body enclosing (.operator purpose waiting
    (.identifier ⟨nextId, token.position⟩ { name := token.lexeme }))⟩, ?_, ?_⟩
  · simp only [Parser.step, Parser.insideStep, Parser.startOperand, kind]
  · exact .nil (.operand (unmarked_used used text _ _))

/-- A sign waits for its operand and is taken by whatever comes next. It may stand wherever an
operand may, since it is as tight as one. -/
theorem reads_unary {mark : Mark} {op : UnaryOp} {operand : Node} {words : List Word}
    (tight : place ≤ operandLayer)
    (inner : ∀ position, ReadsExpression body enclosing purpose operandLayer
      (.sign position op :: waiting) words operand) :
    ReadsExpression body enclosing purpose place waiting (.fixed op.kind :: words)
      (.unary mark op operand) := by
  intro nextId
  refine Parser.Reads.cons ?_
  intro token carries
  have kind : token.kind = op.kind := Token.kind_of_fixed carries
  refine ⟨⟨nextId, .inside body enclosing
    (.operand purpose (.sign token.position op :: waiting))⟩, ?_, ?_⟩
  · cases op <;>
      simp only [Parser.step, Parser.insideStep, Parser.startOperand, kind, UnaryOp.kind]
  · refine (inner token.position nextId).mono ?_
    rintro next ⟨laterId, stack, last, rfl, value, valueId, same, collapses⟩
    refine ⟨laterId, stack, last, rfl, .unary ⟨valueId, token.position⟩ op value,
      valueId + 1, ?_, ?_⟩
    · simp only [Node.unmarked, same]
    · intro bound within
      exact collapses bound (Nat.le_trans within tight)

/-- What stands in parentheses is read for the loosest layer and is an operand for what
waits outside. -/
theorem reads_parenthesized {expression : Node} {words : List Word}
    (inner : ReadsExpression body enclosing purpose 0 (.parenthesis :: waiting) words
      expression) :
    ReadsExpression body enclosing purpose place waiting (parenthesizedWords words)
      expression := by
  intro nextId
  refine Parser.Reads.cons ?_
  intro opening carries
  have kind : opening.kind = .lParen := Token.kind_of_fixed carries
  refine ⟨⟨nextId, .inside body enclosing (.operand purpose (.parenthesis :: waiting))⟩, ?_,
    (inner nextId).append ?_⟩
  · simp only [Parser.step, Parser.insideStep, Parser.startOperand, kind]
  · rintro next ⟨laterId, stack, last, rfl, value, valueId, same, collapses⟩
    refine Parser.Reads.cons ?_
    intro closing carriesClosing
    have closes : closing.kind = .rParen := Token.kind_of_fixed carriesClosing
    refine ⟨⟨valueId, .inside body enclosing (.operator purpose waiting value)⟩, ?_,
      .nil (.operand same)⟩
    simp only [Parser.step, Parser.insideStep, Parser.continueExpression, closes,
      BinaryOp.ofKind?, Parser.closeExpression, collapses 0 (Nat.le_refl 0),
      Waiting.collapse, if_true]

/-- An operator of the layer is admitted. A comparison is, because none waits that is not
in parentheses. -/
theorem Purpose.admits_settled {op : BinaryOp} (allowed : op.Allowed purpose.isCondition)
    (fits : place ≤ op.tightness) (settled : Waiting.Settled place waiting) :
    purpose.admits waiting op = true := by
  unfold Purpose.admits
  rcases allowed with arithmetic | inCondition
  · rw [arithmetic]
  · cases family : op.operatorClass with
    | arithmetic => rfl
    | relational =>
      have comparison : op.tightness = 1 := by
        cases op <;> first | rfl | cases family
      have loose : place ≤ 1 := Nat.le_trans fits (Nat.le_of_eq comparison)
      simp [inCondition, settled.comparing loose]
    | logical => exact inCondition

/-- An operator takes the whole of its left operand, waits for its right operand, and
leaves everything looser to what comes next. -/
theorem reads_operation {mark : Mark} {op : BinaryOp} {left right : Node}
    {leftWords rightWords : List Word} (allowed : op.Allowed purpose.isCondition)
    (fits : place ≤ op.tightness) (settled : Waiting.Settled place waiting)
    (first : ReadsExpression body enclosing purpose op.leftLayer waiting leftWords left)
    (second : ∀ position value, ReadsExpression body enclosing purpose op.rightLayer
      (.operator position op value :: waiting) rightWords right) :
    ReadsExpression body enclosing purpose place waiting
      (leftWords ++ .fixed op.kind :: rightWords) (.binary mark op left right) := by
  intro nextId
  refine (first nextId).append ?_
  rintro next ⟨laterId, stack, last, rfl, value, valueId, same, collapses⟩
  refine Parser.Reads.cons ?_
  intro token carries
  have kind : token.kind = op.kind := Token.kind_of_fixed carries
  obtain ⟨above, below⟩ := op.leftBound_le
  have taken : Waiting.collapse op.leftBound stack last laterId =
      (waiting, value, valueId) := by
    rw [collapses _ (Nat.le_of_eq op.leftLayer_eq.symm)]
    exact settled.collapse (Nat.le_trans fits above) below value valueId
  have admitted : purpose.admits waiting op = true :=
    Purpose.admits_settled allowed fits settled
  refine ⟨⟨valueId, .inside body enclosing
    (.operand purpose (.operator token.position op value :: waiting))⟩, ?_, ?_⟩
  · simp only [Parser.step, Parser.insideStep, Parser.continueExpression, kind,
      op.ofKind_kind, taken, admitted, if_true]
  · refine (second token.position value valueId).mono ?_
    rintro final ⟨finalId, finalStack, rightmost, rfl, other, otherId, alike, finishes⟩
    refine ⟨finalId, finalStack, rightmost, rfl,
      .binary ⟨otherId, token.position⟩ op value other, otherId + 1, ?_, ?_⟩
    · simp only [Node.unmarked, same, alike]
    · intro bound within
      have binds : bound ≤ op.tightness := Nat.le_trans within fits
      rw [finishes bound (by rw [BinaryOp.rightLayer, op.layer_eq]; omega), Waiting.collapse,
        if_pos binds]

/-- Behind an expression that stands alone comes the token that its purpose asks for. All that waits
is then collapsed, and the expression is complete. -/
theorem reads_closed {expression : Node} {words : List Word} {nextId : Nat}
    (reads : ReadsExpression body enclosing purpose 0 [] words expression) :
    Parser.Reads ⟨nextId, .inside body enclosing (.operand purpose [])⟩
      (words ++ [.fixed purpose.closing])
      (ValueRead body enclosing purpose expression) := by
  refine (reads nextId).append ?_
  rintro next ⟨laterId, stack, last, rfl, value, valueId, same, collapses⟩
  refine Parser.Reads.cons ?_
  intro token carries
  have closes : token.kind = purpose.closing := Token.kind_of_fixed carries
  have noOperator : BinaryOp.ofKind? token.kind = none := by
    rw [closes, Purpose.closing]
    cases purpose.isCondition <;> rfl
  have finishes : ∃ final,
      Parser.finishExpression valueId body enclosing purpose value token = .ok final := by
    unfold Parser.finishExpression
    rw [if_pos closes]
    cases purpose <;> exact ⟨_, rfl⟩
  obtain ⟨final, finished⟩ := finishes
  refine ⟨final, ?_, .nil ⟨valueId, value, token, same, closes, finished⟩⟩
  simp only [Parser.step, Parser.insideStep, Parser.continueExpression, noOperator,
    Parser.closeExpression, collapses 0 (Nat.le_refl 0), Waiting.collapse, finished]

end Expression

end IntMain
