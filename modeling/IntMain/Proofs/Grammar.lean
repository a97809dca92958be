import IntMain.Token.Basic
import IntMain.Token.IntegerValue

/-!
# The grammar of programs

The grammar gives every category of phrases one rule, in the extended form with
repetitions and alternatives. `Grammar.Derives` says which token lists a form stands for.
The operators of an expression stand in four layers, products innermost, and a category of
expressions carries whether it belongs to a condition, because a parenthesis holds a whole
condition there and a plain expression elsewhere.

`Grammar.Spells` speaks of forms one after the other. Its lemmas take such a sequence
apart from the left: they say what the first form asks of the first token and which forms
are left for the others. No lemma looks further ahead than one token.
-/

namespace IntMain.Grammar

/-- The phrases of the language. -/
inductive Category
  | program
  | body
  | statement
  | ifChain
  | condition
  | bool
  | expression (inCondition : Bool)
  | term (inCondition : Bool)
  | factor (inCondition : Bool)
  deriving DecidableEq, Repr

/-- The right side of a rule. -/
inductive Form
  /-- One token of one of these kinds. -/
  | word (kinds : List TokenKind)
  /-- One integer literal that has a value. -/
  | integer
  | category (category : Category)
  | sequence (forms : List Form)
  | choice (forms : List Form)
  /-- Any number of phrases of one form. -/
  | many (form : Form)

namespace Form

/-- One token of a kind. -/
def one (kind : TokenKind) : Form := .word [kind]

/-- A phrase that may be missing. It is a choice between the phrase and nothing, so it needs no rule
of its own. -/
def optional (form : Form) : Form := .choice [form, .sequence []]

end Form

/-- The operators of a product. -/
def productKinds : List TokenKind := [.star, .slash]

/-- The operators of a sum, which are also the signs. -/
def sumKinds : List TokenKind := [.plus, .minus]

/-- The comparisons. -/
def relationalKinds : List TokenKind := [.lt, .le, .gt, .ge, .eqEq, .ne]

/-- The logical operators. -/
def logicalKinds : List TokenKind := [.andAnd, .orOr]

/-- The operators that write a variable. -/
def assignKinds : List TokenKind :=
  [.assign, .plusAssign, .minusAssign, .starAssign, .slashAssign]

/-- The condition of a control statement, in its parentheses. -/
def tested : List Form := [.one .lParen, .category .condition, .one .rParen]

/-- The clauses of an if statement behind its first. -/
def laterClauses : Form :=
  .many (.sequence ([.one .elseWord, .one .ifWord] ++ tested ++ [.category .body]))

/-- The last part of an if statement. -/
def finalElse : Form := .optional (.sequence [.one .elseWord, .category .body])

/-- The further factors of a term. -/
def products (inCondition : Bool) : Form :=
  .many (.sequence [.word productKinds, .category (.factor inCondition)])

/-- The further terms of an expression. -/
def sums (inCondition : Bool) : Form :=
  .many (.sequence [.word sumKinds, .category (.term inCondition)])

/-- The right side of a comparison, if there is one. -/
def comparison : Form :=
  .optional (.sequence [.word relationalKinds, .category (.expression true)])

/-- The further parts of a condition. -/
def logicals : Form := .many (.sequence [.word logicalKinds, .category .bool])

/-- What a parenthesis among the operands holds. -/
def parenthesized (inCondition : Bool) : Category :=
  if inCondition then .condition else .expression false

/-- The rule of a category. -/
def rule : Category → Form
  | .program =>
    .sequence [.one .intWord, .one .mainWord, .one .lParen, .one .rParen, .category .body]
  | .body => .sequence [.one .lBrace, .many (.category .statement), .one .rBrace]
  | .statement => .choice
    [.category .ifChain,
      .sequence ([.one .whileWord] ++ tested ++ [.category .body]),
      .sequence ([.one .doWord, .category .body, .one .whileWord] ++ tested ++
        [.optional (.one .semicolon)]),
      .sequence [.one .intWord, .one .identifier, .one .semicolon],
      .sequence [.one .intWord, .one .identifier, .one .assign, .category (.expression false),
        .one .semicolon],
      .sequence [.one .identifier, .word assignKinds, .category (.expression false),
        .one .semicolon],
      .sequence [.one .returnWord, .category (.expression false), .one .semicolon],
      .sequence [.one .lBrace, .many (.category .statement), .one .rBrace],
      .one .semicolon]
  | .ifChain =>
    .sequence ([.one .ifWord] ++ tested ++ [.category .body, laterClauses, finalElse])
  | .condition => .sequence [.category .bool, logicals]
  | .bool => .sequence [.category (.expression true), comparison]
  | .expression inCondition => .sequence [.category (.term inCondition), sums inCondition]
  | .term inCondition => .sequence [.category (.factor inCondition), products inCondition]
  | .factor inCondition => .choice
    [.sequence [.word sumKinds, .category (.factor inCondition)],
      .integer,
      .one .identifier,
      .sequence [.one .lParen, .category (parenthesized inCondition), .one .rParen]]

/-- The token lists that a form stands for. This is the usual derivation of a grammar with
repetition; nothing in it says how a token list is split, so an ambiguous form may stand for one in
two ways. -/
inductive Derives : Form → List Token → Prop
  | word {kinds : List TokenKind} {token : Token} (member : token.kind ∈ kinds) :
      Derives (.word kinds) [token]
  | integer {token : Token} (literal : token.kind = .intLiteral)
      (valued : (integerValue? token.lexeme).isSome = true) : Derives .integer [token]
  | category {category : Category} {tokens : List Token}
      (derives : Derives (rule category) tokens) : Derives (.category category) tokens
  | nothing : Derives (.sequence []) []
  | next {form : Form} {forms : List Form} {front back : List Token}
      (first : Derives form front) (others : Derives (.sequence forms) back) :
      Derives (.sequence (form :: forms)) (front ++ back)
  | choice {form : Form} {forms : List Form} {tokens : List Token} (member : form ∈ forms)
      (derives : Derives form tokens) : Derives (.choice forms) tokens
  | stop {form : Form} : Derives (.many form) []
  | more {form : Form} {front back : List Token} (first : Derives form front)
      (others : Derives (.many form) back) : Derives (.many form) (front ++ back)

/-!
## Forms one after the other
-/

/-- A token list splits into phrases of the forms, in their order. -/
def Spells (forms : List Form) (tokens : List Token) : Prop :=
  Derives (.sequence forms) tokens

/-- A phrase of the first form comes before the phrases of the others. Where the first ends is not
known, which is why the lemmas below look at the first token only. -/
theorem spells_cons {form : Form} {forms : List Form} {tokens : List Token} :
    Spells (form :: forms) tokens ↔
      ∃ front back, tokens = front ++ back ∧ Derives form front ∧ Spells forms back := by
  constructor
  · intro spells
    cases spells with
    | next first others => exact ⟨_, _, rfl, first, others⟩
  · rintro ⟨front, back, rfl, first, others⟩
    exact .next first others

/-- Without forms there are no tokens. -/
@[simp]
theorem spells_nil {tokens : List Token} : Spells [] tokens ↔ tokens = [] := by
  constructor
  · intro spells
    cases spells
    rfl
  · rintro rfl
    exact .nothing

/-- A single form stands for its own token lists. -/
theorem spells_singleton {form : Form} {tokens : List Token} :
    Spells [form] tokens ↔ Derives form tokens := by
  simp [spells_cons]

/-- What comes behind some forms may be replaced by what stands for the same token lists. With this
a rule can be opened behind other forms. -/
theorem spells_append_congr (front : List Form) {later other : List Form}
    (same : ∀ tokens, Spells later tokens ↔ Spells other tokens) (tokens : List Token) :
    Spells (front ++ later) tokens ↔ Spells (front ++ other) tokens := by
  induction front generalizing tokens with
  | nil => exact same tokens
  | cons form front inductionHypothesis =>
    simp only [List.cons_append, spells_cons, inductionHypothesis]

/-- A category may be replaced by its rule, and a rule by its category. -/
theorem spells_category {category : Category} {forms : List Form} {tokens : List Token} :
    Spells (.category category :: forms) tokens ↔ Spells (rule category :: forms) tokens := by
  have derives_iff {front : List Token} :
      Derives (.category category) front ↔ Derives (rule category) front := by
    constructor
    · intro derives
      cases derives with
      | category derives => exact derives
    · exact .category
  simp only [spells_cons, derives_iff]

/-- A word asks for the kind of the first token, and for nothing else of it. -/
@[simp]
theorem spells_word {kinds : List TokenKind} {forms : List Form} {token : Token}
    {rest : List Token} :
    Spells (.word kinds :: forms) (token :: rest) ↔
      token.kind ∈ kinds ∧ Spells forms rest := by
  constructor
  · intro spells
    obtain ⟨front, back, split, first, others⟩ := spells_cons.mp spells
    cases first with
    | word member =>
      obtain ⟨rfl, rfl⟩ := List.cons.inj split
      exact ⟨member, others⟩
  · rintro ⟨member, others⟩
    exact .next (.word member) others

/-- One kind asks for the kind of the first token. This is the case of a word that the rules use
most. -/
@[simp]
theorem spells_one {kind : TokenKind} {forms : List Form} {token : Token}
    {rest : List Token} :
    Spells (.one kind :: forms) (token :: rest) ↔
      token.kind = kind ∧ Spells forms rest := by
  rw [Form.one, spells_word, List.mem_singleton]

/-- An integer asks for a literal that has a value. That it has one is part of the grammar, so that
the parser and the grammar refuse the same literals. -/
@[simp]
theorem spells_integer {forms : List Form} {token : Token} {rest : List Token} :
    Spells (.integer :: forms) (token :: rest) ↔
      (token.kind = .intLiteral ∧ (integerValue? token.lexeme).isSome = true) ∧
        Spells forms rest := by
  constructor
  · intro spells
    obtain ⟨front, back, split, first, others⟩ := spells_cons.mp spells
    cases first with
    | integer literal valued =>
      obtain ⟨rfl, rfl⟩ := List.cons.inj split
      exact ⟨⟨literal, valued⟩, others⟩
  · rintro ⟨⟨literal, valued⟩, others⟩
    exact .next (.integer literal valued) others

/-- A sequence within a sequence needs no brackets, so a rule can be opened in its place. -/
@[simp]
theorem spells_sequence {inner forms : List Form} {tokens : List Token} :
    Spells (.sequence inner :: forms) tokens ↔ Spells (inner ++ forms) tokens := by
  induction inner generalizing tokens with
  | nil =>
    constructor
    · intro spells
      obtain ⟨front, back, rfl, first, others⟩ := spells_cons.mp spells
      cases first
      exact others
    · intro others
      have whole : Spells (.sequence [] :: forms) ([] ++ tokens) := .next .nothing others
      exact whole
  | cons form inner inductionHypothesis =>
    constructor
    · intro spells
      obtain ⟨front, back, rfl, first, others⟩ := spells_cons.mp spells
      obtain ⟨ahead, between, rfl, leading, following⟩ := spells_cons.mp first
      rw [List.append_assoc]
      exact .next leading (inductionHypothesis.mp (.next following others))
    · intro spells
      obtain ⟨front, back, rfl, first, others⟩ := spells_cons.mp spells
      obtain ⟨between, behind, rfl, following, last⟩ :=
        spells_cons.mp (inductionHypothesis.mpr others)
      rw [← List.append_assoc]
      exact .next (.next first following) last

/-- An empty choice stands for nothing, not even for no tokens. -/
@[simp]
theorem spells_choice_nil {forms : List Form} {tokens : List Token} :
    ¬ Spells (.choice [] :: forms) tokens := by
  intro spells
  obtain ⟨front, back, rfl, first, others⟩ := spells_cons.mp spells
  cases first with
  | choice member derives => cases member

/-- A choice is its first alternative or one of the others. A choice of many alternatives is taken
apart one by one with this. -/
@[simp]
theorem spells_choice_cons {form : Form} {alternatives forms : List Form}
    {tokens : List Token} :
    Spells (.choice (form :: alternatives) :: forms) tokens ↔
      Spells (form :: forms) tokens ∨ Spells (.choice alternatives :: forms) tokens := by
  constructor
  · intro spells
    obtain ⟨front, back, rfl, first, others⟩ := spells_cons.mp spells
    cases first with
    | choice member derives =>
      rcases List.mem_cons.mp member with rfl | later
      · exact .inl (.next derives others)
      · exact .inr (.next (.choice later derives) others)
  · rintro (spells | spells)
    · obtain ⟨front, back, rfl, first, others⟩ := spells_cons.mp spells
      exact .next (.choice List.mem_cons_self first) others
    · obtain ⟨front, back, rfl, first, others⟩ := spells_cons.mp spells
      cases first with
      | choice member derives =>
        exact .next (.choice (List.mem_cons_of_mem _ member) derives) others

/-- A phrase that may be missing is there or is not. -/
@[simp]
theorem spells_optional {form : Form} {forms : List Form} {tokens : List Token} :
    Spells (.optional form :: forms) tokens ↔
      Spells (form :: forms) tokens ∨ Spells forms tokens := by
  simp [Form.optional]

/-- A repetition goes on with one more phrase or is over. This is no rule for the
simplifier, which would unroll the repetition without end. -/
theorem spells_many {form : Form} {forms : List Form} {tokens : List Token} :
    Spells (.many form :: forms) tokens ↔
      Spells (form :: .many form :: forms) tokens ∨ Spells forms tokens := by
  constructor
  · intro spells
    obtain ⟨front, back, rfl, first, others⟩ := spells_cons.mp spells
    cases first with
    | stop => exact .inr others
    | more leading following =>
      rw [List.append_assoc]
      exact .inl (.next leading (.next following others))
  · rintro (spells | others)
    · obtain ⟨front, back, rfl, first, others⟩ := spells_cons.mp spells
      obtain ⟨between, behind, rfl, following, last⟩ := spells_cons.mp others
      rw [← List.append_assoc]
      exact .next (.more first following) last
    · have whole : Spells (.many form :: forms) ([] ++ tokens) := .next .stop others
      exact whole

/-- Whether a repetition goes on is decided by the word that each of its phrases starts
with. -/
theorem spells_many_word {kinds : List TokenKind} {inner forms : List Form} {token : Token}
    {rest : List Token} :
    Spells (.many (.sequence (.word kinds :: inner)) :: forms) (token :: rest) ↔
      (token.kind ∈ kinds ∧
        Spells (inner ++ .many (.sequence (.word kinds :: inner)) :: forms) rest) ∨
      Spells forms (token :: rest) := by
  rw [spells_many, spells_sequence, List.cons_append, spells_word]

/-- A product goes on at an operator of its layer, or is over at this token. The token decides
unless what follows may start with such an operator as well. -/
theorem spells_products {inCondition : Bool} {forms : List Form} {token : Token}
    {rest : List Token} :
    Spells (products inCondition :: forms) (token :: rest) ↔
      (token.kind ∈ productKinds ∧
        Spells (.category (.factor inCondition) :: products inCondition :: forms) rest) ∨
      Spells forms (token :: rest) := spells_many_word

/-- A sum goes on at an operator of its layer, or is over at this token. The token decides unless
what follows may start with such an operator as well. -/
theorem spells_sums {inCondition : Bool} {forms : List Form} {token : Token}
    {rest : List Token} :
    Spells (sums inCondition :: forms) (token :: rest) ↔
      (token.kind ∈ sumKinds ∧
        Spells (.category (.term inCondition) :: sums inCondition :: forms) rest) ∨
      Spells forms (token :: rest) := spells_many_word

/-- A comparison has a right side behind its operator, and only one: behind that right side no
further comparison is asked for. -/
theorem spells_comparison {forms : List Form} {token : Token} {rest : List Token} :
    Spells (comparison :: forms) (token :: rest) ↔
      (token.kind ∈ relationalKinds ∧
        Spells (.category (.expression true) :: forms) rest) ∨
      Spells forms (token :: rest) := by
  simp [comparison]

/-- A condition goes on at a logical operator, with another part that may compare again. -/
theorem spells_logicals {forms : List Form} {token : Token} {rest : List Token} :
    Spells (logicals :: forms) (token :: rest) ↔
      (token.kind ∈ logicalKinds ∧ Spells (.category .bool :: logicals :: forms) rest) ∨
      Spells forms (token :: rest) := spells_many_word

/-- An if statement goes on at an else that another if follows. An else without one belongs to the
last part, so here the token behind the else decides. -/
theorem spells_laterClauses {forms : List Form} {token : Token} {rest : List Token} :
    Spells (laterClauses :: forms) (token :: rest) ↔
      (token.kind = .elseWord ∧
        Spells (.one .ifWord :: tested ++ (.category .body :: laterClauses :: forms)) rest) ∨
      Spells forms (token :: rest) := by
  refine spells_many_word.trans ?_
  rw [List.mem_singleton]
  rfl

/-- A term starts with a factor, and more factors may follow. -/
@[simp]
theorem spells_term {inCondition : Bool} {forms : List Form} {tokens : List Token} :
    Spells (.category (.term inCondition) :: forms) tokens ↔
      Spells (.category (.factor inCondition) :: products inCondition :: forms) tokens := by
  rw [spells_category, rule, spells_sequence]
  rfl

/-- An expression starts with a term, and more terms may follow. -/
@[simp]
theorem spells_expression {inCondition : Bool} {forms : List Form} {tokens : List Token} :
    Spells (.category (.expression inCondition) :: forms) tokens ↔
      Spells (.category (.term inCondition) :: sums inCondition :: forms) tokens := by
  rw [spells_category, rule, spells_sequence]
  rfl

/-- A part of a condition starts with an expression, which may be compared with another one. -/
@[simp]
theorem spells_bool {forms : List Form} {tokens : List Token} :
    Spells (.category .bool :: forms) tokens ↔
      Spells (.category (.expression true) :: comparison :: forms) tokens := by
  rw [spells_category, rule, spells_sequence]
  rfl

/-- A condition starts with its first part, and logical operators may join others to it. -/
@[simp]
theorem spells_condition {forms : List Form} {tokens : List Token} :
    Spells (.category .condition :: forms) tokens ↔
      Spells (.category .bool :: logicals :: forms) tokens := by
  rw [spells_category, rule, spells_sequence]
  rfl

/-- A factor is a signed factor, a literal with a value, a name or a parenthesis. Its first token
tells which one it is, since the four start with different kinds. -/
theorem spells_factor {inCondition : Bool} {forms : List Form} {token : Token}
    {rest : List Token} :
    Spells (.category (.factor inCondition) :: forms) (token :: rest) ↔
      (token.kind ∈ sumKinds ∧ Spells (.category (.factor inCondition) :: forms) rest) ∨
      ((token.kind = .intLiteral ∧ (integerValue? token.lexeme).isSome = true) ∧
        Spells forms rest) ∨
      (token.kind = .identifier ∧ Spells forms rest) ∨
      (token.kind = .lParen ∧
        Spells (.category (parenthesized inCondition) :: .one .rParen :: forms) rest) := by
  rw [spells_category, rule]
  simp

/-- A body is a list of statements in braces, which may be empty. -/
@[simp]
theorem spells_body {forms : List Form} {tokens : List Token} :
    Spells (.category .body :: forms) tokens ↔
      Spells (.one .lBrace :: .many (.category .statement) :: .one .rBrace :: forms)
        tokens := by
  rw [spells_category, rule, spells_sequence]
  rfl

/-- An if statement starts with its first clause, behind which further clauses and a last part may
come. -/
@[simp]
theorem spells_ifChain {forms : List Form} {tokens : List Token} :
    Spells (.category .ifChain :: forms) tokens ↔
      Spells (.one .ifWord :: tested ++ (.category .body :: laterClauses :: finalElse :: forms))
        tokens := by
  rw [spells_category, rule, spells_sequence]
  rfl

/-- Where a word is still to come, the input cannot be over. It does not matter where the word
stands among the forms. -/
theorem not_spells_of_word {forms : List Form} {kinds : List TokenKind}
    (member : Form.word kinds ∈ forms) : ¬ Spells forms [] := by
  induction forms with
  | nil => cases member
  | cons form forms inductionHypothesis =>
    intro spells
    obtain ⟨front, back, split, first, others⟩ := spells_cons.mp spells
    obtain ⟨rfl, rfl⟩ := List.append_eq_nil_iff.mp split.symm
    rcases List.mem_cons.mp member with rfl | later
    · cases first
    · exact inductionHypothesis later others

end IntMain.Grammar
