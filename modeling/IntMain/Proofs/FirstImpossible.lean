import IntMain.Proofs.Acceptance
import IntMain.Token.Lexer

/-!
# The first impossible token

A token stream that is no program is refused at one of its tokens, and this is the first
one that cannot be right. What stands before it can be continued to a program, and nothing
that starts with it and the tokens before it is one.

The second half is what the grammar says: a token is refused where the grammar has no place
for it. For the first half it is enough to look at what a state of the parser owes. Every
form of the grammar stands for some token list, and so do all the forms that a state owes,
one after the other.
-/

namespace IntMain

open Grammar

/-!
## Everything that is owed can be given
-/

namespace Grammar

/-- A form stands for some token list without end tokens. End tokens are ruled out because the
parser stops at the first one and would not see what follows. -/
def Form.Fillable (form : Form) : Prop :=
  ∃ tokens : List Token, (∀ token ∈ tokens, token.isEnd = false) ∧ Derives form tokens

namespace Form.Fillable

/-- Forms one after the other stand for some token list if each of them does. They have no say in
what the others stand for, so the lists are put in a row. -/
theorem spells {forms : List Form} (all : ∀ form ∈ forms, form.Fillable) :
    ∃ tokens : List Token, (∀ token ∈ tokens, token.isEnd = false) ∧ Spells forms tokens := by
  induction forms with
  | nil => exact ⟨[], List.forall_mem_nil _, .nothing⟩
  | cons form forms inductionHypothesis =>
    obtain ⟨first, others⟩ := List.forall_mem_cons.mp all
    obtain ⟨front, frontOpen, derives⟩ := first
    obtain ⟨back, backOpen, spells⟩ := inductionHypothesis others
    exact ⟨front ++ back, List.forall_mem_append.mpr ⟨frontOpen, backOpen⟩, .next derives spells⟩

/-- A sequence is given by its parts, one after the other. -/
theorem sequence {forms : List Form} (all : ∀ form ∈ forms, form.Fillable) :
    (Form.sequence forms).Fillable := spells all

/-- A word is given by a token of one of its kinds, which must not be the kind of the end. Its
lexeme and its position are free. -/
theorem word {kinds : List TokenKind} {kind : TokenKind} (member : kind ∈ kinds)
    (noEnd : kind ≠ .endOfInput) : (Form.word kinds).Fillable := by
  refine ⟨[⟨"", Position.start, kind⟩], ?_, .word member⟩
  simpa [Token.isEnd] using noEnd

/-- One kind is given by a token of that kind. -/
theorem one {kind : TokenKind} (noEnd : kind ≠ .endOfInput) : (Form.one kind).Fillable :=
  word List.mem_cons_self noEnd

/-- A choice is given by one of its alternatives, and the others need not stand for anything. -/
theorem choice {forms : List Form} {form : Form} (member : form ∈ forms)
    (fillable : form.Fillable) : (Form.choice forms).Fillable := by
  obtain ⟨tokens, noEnds, derives⟩ := fillable
  exact ⟨tokens, noEnds, .choice member derives⟩

/-- A repetition may be empty, so it can always be given, whatever is repeated. -/
theorem many {form : Form} : (Form.many form).Fillable :=
  ⟨[], List.forall_mem_nil _, .stop⟩

/-- What may be left out can always be given, by leaving it out. -/
theorem optional {form : Form} : (Form.optional form).Fillable :=
  choice (List.mem_cons_of_mem _ List.mem_cons_self) (sequence (List.forall_mem_nil _))

/-- A category is given by its rule. The rules are recursive, so the categories have to be taken in
an order in which each rests on those before it. -/
theorem of_rule {category : Category} (fillable : (rule category).Fillable) :
    (Form.category category).Fillable := by
  obtain ⟨tokens, noEnds, derives⟩ := fillable
  exact ⟨tokens, noEnds, .category derives⟩

/-- Every category has a phrase. A factor may be a name, and with that all the others can be
given. -/
theorem category (category : Category) : (Form.category category).Fillable := by
  have factor (inCondition : Bool) : (Form.category (.factor inCondition)).Fillable := by
    have isName : Form.one .identifier ∈ [.sequence [.word sumKinds,
        .category (.factor inCondition)], .integer, .one .identifier,
        .sequence [.one .lParen, .category (parenthesized inCondition), .one .rParen]] := by simp
    exact of_rule (choice isName (one (by decide)))
  have term (inCondition : Bool) : (Form.category (.term inCondition)).Fillable :=
    of_rule (sequence (by simp [factor, products, many]))
  have expression (inCondition : Bool) : (Form.category (.expression inCondition)).Fillable :=
    of_rule (sequence (by simp [term, sums, many]))
  have bool : (Form.category .bool).Fillable :=
    of_rule (sequence (by simp [expression, comparison, optional]))
  have condition : (Form.category .condition).Fillable :=
    of_rule (sequence (by simp [bool, logicals, many]))
  have body : (Form.category .body).Fillable :=
    of_rule (sequence (by simp [one, many]))
  have ifChain : (Form.category .ifChain).Fillable :=
    of_rule (sequence (by simp [one, many, optional, tested, condition, body, laterClauses,
      finalElse]))
  cases category with
  | program => exact of_rule (sequence (by simp [one, body]))
  | body => exact body
  | statement => exact of_rule (choice List.mem_cons_self ifChain)
  | ifChain => exact ifChain
  | condition => exact condition
  | bool => exact bool
  | expression inCondition => exact expression inCondition
  | term inCondition => exact term inCondition
  | factor inCondition => exact factor inCondition

end Form.Fillable

end Grammar

/-- What may follow an operand can be given, since nothing has to follow it. -/
theorem Grammar.continuation_fillable (inCondition compared : Bool) :
    ∀ form ∈ continuation inCondition compared, form.Fillable := by
  cases inCondition <;> cases compared <;>
    simp [continuation, products, sums, comparison, logicals, Form.Fillable.many,
      Form.Fillable.optional]

/-- What follows the innermost parenthesis can be given: the parentheses that close it and those
around it, with nothing else between them. -/
theorem Waiting.outside_fillable (inCondition : Bool) (waiting : List Waiting) :
    ∀ form ∈ outside inCondition waiting, form.Fillable := by
  induction waiting with
  | nil => exact List.forall_mem_nil _
  | cons first outer inductionHypothesis =>
    cases first with
    | sign position op => exact inductionHypothesis
    | operator position op left => exact inductionHypothesis
    | parenthesis =>
      rw [outside, List.forall_mem_cons, List.forall_mem_append]
      exact ⟨.one (by decide), continuation_fillable _ _, inductionHypothesis⟩

/-- What follows an expression up to the end of its statement can be given, for every purpose. -/
theorem Purpose.owed_fillable (purpose : Purpose) : ∀ form ∈ purpose.owed, form.Fillable := by
  cases purpose <;>
    simp [Purpose.owed, Purpose.closing, Purpose.isCondition, laterClauses, finalElse,
      Form.Fillable.one, Form.Fillable.category, Form.Fillable.many, Form.Fillable.optional]

/-- What follows a body up to the end of its statement can be given, for every owner. -/
theorem BodyOwner.owed_fillable (owner : BodyOwner) : ∀ form ∈ owner.owed, form.Fillable := by
  cases owner <;>
    simp [tested, laterClauses, finalElse, Form.Fillable.one, Form.Fillable.category,
      Form.Fillable.many, Form.Fillable.optional]

/-- What a goal needs up to the end of its statement can be given. No goal is a dead end, whatever
has been read before it. -/
theorem Goal.owed_fillable (goal : Goal) : ∀ form ∈ goal.owed, form.Fillable := by
  cases goal with
  | declaredName position =>
    refine List.forall_mem_singleton.mpr (.choice List.mem_cons_self (.sequence ?_))
    simp [Form.Fillable.one]
  | declarationEnd position name =>
    exact List.forall_mem_singleton.mpr (.choice List.mem_cons_self (.one (by decide)))
  | assignOperator target =>
    have assigns : (Form.word assignKinds).Fillable := .word List.mem_cons_self (by decide)
    simp [assigns, Form.Fillable.one, Form.Fillable.category]
  | openParenthesis purpose =>
    simp only [Goal.owed, List.forall_mem_cons]
    exact ⟨.one (by decide), .category _, purpose.owed_fillable⟩
  | operand purpose waiting =>
    simp only [Goal.owed, Waiting.owed, List.forall_mem_cons, List.forall_mem_append]
    exact ⟨.category _, ⟨continuation_fillable _ _, Waiting.outside_fillable _ _⟩,
      purpose.owed_fillable⟩
  | operator purpose waiting left =>
    simp only [Goal.owed, Waiting.owed, List.forall_mem_append]
    exact ⟨⟨continuation_fillable _ _, Waiting.outside_fillable _ _⟩, purpose.owed_fillable⟩
  | openBrace owner => exact List.forall_mem_cons.mpr ⟨.category _, owner.owed_fillable⟩
  | ifOrBody chain =>
    exact List.forall_mem_singleton.mpr
      (.choice (List.mem_cons_of_mem _ List.mem_cons_self) (.category _))
  | _ =>
    simp [tested, laterClauses, finalElse, Form.Fillable.one, Form.Fillable.category,
      Form.Fillable.many, Form.Fillable.optional]

/-- The rest of the bodies can be given, at the least by their closing braces. -/
theorem owedInside_fillable (enclosing : List Enclosing) :
    ∀ form ∈ owedInside enclosing, form.Fillable := by
  have inside {behind : List Form} (fillable : ∀ form ∈ behind, form.Fillable) :
      ∀ form ∈ .many (.category .statement) :: .one .rBrace :: behind, form.Fillable := by
    simpa [Form.Fillable.many, Form.Fillable.one] using fillable
  induction enclosing with
  | nil => exact inside (List.forall_mem_nil _)
  | cons first outer inductionHypothesis =>
    exact inside (List.forall_mem_append.mpr ⟨first.owner.owed_fillable, inductionHypothesis⟩)

/-- A header asks for no end token. -/
def Parser.Open (parser : Parser) : Prop :=
  match parser.progress with
  | .header expected later => ∀ kind ∈ expected :: later, kind ≠ .endOfInput
  | _ => True

/-- What a state needs can be given, so a program can be completed from every state that is open.
The premise rules out headers that ask for an end token, of which the parser makes none. -/
theorem Parser.owed_fillable {parser : Parser} (isOpen : parser.Open) :
    ∀ form ∈ parser.owed, form.Fillable := by
  obtain ⟨nextId, progress⟩ := parser
  cases progress with
  | header expected later =>
    rw [Parser.owed, List.forall_mem_append, List.forall_mem_map]
    exact ⟨fun kind member => .one (isOpen kind member), owedInside_fillable []⟩
  | inside body enclosing goal =>
    exact List.forall_mem_append.mpr ⟨goal.owed_fillable, owedInside_fillable enclosing⟩
  | finished root => exact List.forall_mem_nil _

/-!
## A token is refused for itself
-/

/-- A fault of the parser tells of a token: it has the lexeme and the position of the token,
and its kind if the fault has one. -/
def Fault.IsAbout (token : Token) : Fault → Prop
  | .unexpectedToken _ found kind position =>
    found = token.lexeme ∧ kind = token.kind ∧ position = token.position
  | .invalidLiteral lexeme position => lexeme = token.lexeme ∧ position = token.position
  | _ => False

/-- What reading a token may give: a state that can be completed, or a fault about the
token. -/
def Settles (token : Token) : Except Fault Parser → Prop
  | .ok next => next.Open
  | .error fault => fault.IsAbout token

namespace Settles

/-- A token may lead into a body, with any goal. What the goal needs can be given, so nothing is
asked of it. -/
@[simp]
theorem inside {token : Token} {nextId : Nat} {body : OpenBody} {enclosing : List Enclosing}
    {goal : Goal} : Settles token (.ok ⟨nextId, .inside body enclosing goal⟩) := trivial

/-- A token that is not expected is refused for itself: the fault shows its lexeme, its kind and its
position. -/
@[simp]
theorem unexpected {token : Token} {expected : String} :
    Settles token (.error (.unexpected expected token)) := ⟨rfl, rfl, rfl⟩

/-- A literal without a value is refused for itself, with its lexeme and its position. -/
@[simp]
theorem invalidLiteral {token : Token} :
    Settles token (.error (.invalidLiteral token.lexeme token.position)) := ⟨rfl, rfl⟩

variable {nextId : Nat} {body : OpenBody} {enclosing : List Enclosing} {token : Token}

/-- A brace that closes a body settles: its owner goes on, or the program is over. -/
@[simp]
theorem closeBody : Settles token (.ok (Parser.closeBody nextId body enclosing)) := by
  cases enclosing with
  | nil => trivial
  | cons one outer =>
    obtain ⟨outerBody, owner⟩ := one
    cases owner <;> trivial

/-- The first token of a statement settles, for each statement that it may start and for none. -/
theorem startStatement : Settles token (Parser.startStatement nextId body enclosing token) := by
  unfold Parser.startStatement
  split <;> simp
  split <;> simp

/-- The token behind an expression settles, whatever the expression is for. -/
theorem finishExpression {purpose : Purpose} {value : Node} :
    Settles token (Parser.finishExpression nextId body enclosing purpose value token) := by
  unfold Parser.finishExpression
  split
  · cases purpose <;> simp
  · simp

/-- A token at the end of an expression or of a parenthesis settles, whatever waits inside of it. -/
theorem closeExpression {purpose : Purpose} {waiting : List Waiting} {operand : Node} :
    Settles token
      (Parser.closeExpression nextId body enclosing purpose waiting operand token) := by
  unfold Parser.closeExpression
  split
  · split <;> simp
  · exact finishExpression

/-- The token behind an operand settles, as an operator or as something that closes. -/
theorem continueExpression {purpose : Purpose} {waiting : List Waiting} {operand : Node} :
    Settles token
      (Parser.continueExpression nextId body enclosing purpose waiting operand token) := by
  unfold Parser.continueExpression
  split
  · simp only
    split
    · simp
    · exact closeExpression
  · exact closeExpression

/-- The first token of an operand settles. An integer that has no value is refused here. -/
theorem startOperand {purpose : Purpose} {waiting : List Waiting} :
    Settles token (Parser.startOperand nextId body enclosing purpose waiting token) := by
  unfold Parser.startOperand
  split <;> simp
  split <;> simp

/-- A token inside a body settles, for every goal. -/
theorem insideStep {goal : Goal} :
    Settles token (Parser.insideStep nextId body enclosing goal token) := by
  cases goal with
  | statement => exact startStatement
  | operand purpose waiting => exact startOperand
  | operator purpose waiting operand => exact continueExpression
  | elseOrStatement chain =>
    simp only [Parser.insideStep]
    split
    · simp
    · exact startStatement
  | semicolonOrStatement =>
    simp only [Parser.insideStep]
    split
    · simp
    · exact startStatement
  | _ =>
    simp only [Parser.insideStep]
    split <;> simp

/-- A token settles in every state that is open: the next state can be completed, or the fault is
about the token. The step need not be looked into any more from here on. -/
theorem step {parser : Parser} (isOpen : parser.Open) : Settles token (parser.step token) := by
  obtain ⟨nextId, progress⟩ := parser
  cases progress with
  | header expected later =>
    simp only [Parser.step]
    split
    · cases later with
      | nil => simp
      | cons kind kinds => exact fun other member => isOpen other (List.mem_cons_of_mem _ member)
    · simp
  | inside body enclosing goal => exact insideStep
  | finished root => exact unexpected

end Settles

/-- At the start nothing of the header has been read, and the header asks for no end token. -/
theorem Parser.open_start : Parser.start.Open := by
  simp [Parser.start, Parser.Open]

/-- A run of the parser leads to a state that can be completed, since each step does. What the
tokens are does not matter, as long as none is refused. -/
theorem Parser.open_run {tokens : List Token} {parser final : Parser} (isOpen : parser.Open)
    (run : tokens.foldlM Parser.step parser = .ok final) : final.Open := by
  induction tokens generalizing parser with
  | nil =>
    cases run
    exact isOpen
  | cons token rest inductionHypothesis =>
    have settled : Settles token (parser.step token) := .step isOpen
    rw [List.foldlM_cons] at run
    cases read : parser.step token with
    | error fault =>
      rw [read] at run
      cases run
    | ok next =>
      rw [read] at run settled
      exact inductionHypothesis settled run

/-- A run that fails does so at one of its tokens: the tokens before it are taken, and it is refused
in the state that they lead to. What comes behind it is not read. -/
theorem Parser.run_error {tokens : List Token} {parser : Parser} {fault : Fault}
    (run : tokens.foldlM Parser.step parser = .error fault) :
    ∃ before token after state, tokens = before ++ token :: after ∧
      before.foldlM Parser.step parser = .ok state ∧ state.step token = .error fault := by
  induction tokens generalizing parser with
  | nil => cases run
  | cons token rest inductionHypothesis =>
    rw [List.foldlM_cons] at run
    cases read : parser.step token with
    | error refusal =>
      rw [read] at run
      cases run
      exact ⟨[], token, rest, parser, rfl, rfl, read⟩
    | ok next =>
      rw [read] at run
      obtain ⟨before, refused, after, state, split, reached, refusal⟩ := inductionHypothesis run
      refine ⟨token :: before, refused, after, state, by rw [split, List.cons_append], ?_, refusal⟩
      rw [List.foldlM_cons, read]
      exact reached

/-!
## Refused token streams
-/

/-- Tokens without an end token in front of a stream are read before it, and the first end token is
looked for behind them. -/
theorem takeWhile_noEnds {before : List Token} (noEnds : ∀ token ∈ before, token.isEnd = false)
    (later : List Token) :
    (before ++ later).takeWhile (!·.isEnd) = before ++ later.takeWhile (!·.isEnd) := by
  apply List.takeWhile_append_of_pos
  intro token member
  rw [noEnds token member]
  rfl

/-- A stream is read up to its end token: the first that it has, or the one that completes
it. -/
theorem Token.completed_split (tokens : List Token) :
    ∃ after, Token.completed tokens = tokens.takeWhile (!·.isEnd) ++
      (tokens.find? Token.isEnd).getD (Token.missingEnd tokens) :: after := by
  cases found : tokens.find? Token.isEnd with
  | none =>
    have noEnds : ∀ token ∈ tokens, token.isEnd = false := by simpa using found
    have all := takeWhile_noEnds noEnds []
    have incomplete : ¬ tokens.getLast?.any Token.isEnd = true := by
      simp only [Option.any_eq_true, not_exists, not_and]
      intro last isLast
      simp [noEnds last (List.mem_of_getLast? isLast)]
    refine ⟨[], ?_⟩
    rw [List.append_nil, List.takeWhile_nil, List.append_nil] at all
    rw [Token.completed, if_neg incomplete, all]
    rfl
  | some endToken =>
    obtain ⟨isEnd, before, after, rfl, noEnds⟩ := List.find?_eq_some_iff_append.mp found
    have words : (before ++ endToken :: after).takeWhile (!·.isEnd) = before := by
      rw [takeWhile_noEnds (by simpa using noEnds)]
      simp [isEnd]
    rw [words, Token.completed]
    split
    · exact ⟨after, rfl⟩
    · exact ⟨after ++ [_], List.append_assoc _ _ _⟩

/-- The tokens in front of the first end token end nothing. -/
theorem takeWhile_isOpen (tokens : List Token) :
    ∀ token ∈ tokens.takeWhile (!·.isEnd), token.isEnd = false := by
  intro token member
  simpa using List.all_eq_true.mp List.all_takeWhile token member

/-- The token on which a stream is finished ends it, whether the stream has it or is completed by
it. -/
theorem Token.isEnd_found (tokens : List Token) :
    ((tokens.find? Token.isEnd).getD (Token.missingEnd tokens)).isEnd = true := by
  cases found : tokens.find? Token.isEnd with
  | none =>
    rw [Option.getD_none, Token.missingEnd]
    split <;> rfl
  | some endToken => exact List.find?_some found

/-- A stream that starts with tokens that have been read is a program if the rest of it, up
to the first end token, is what is then owed. -/
theorem Parsed.accepts_after {before later : List Token} {state : Parser}
    (noEnds : ∀ token ∈ before, token.isEnd = false)
    (reached : before.foldlM Parser.step Parser.start = .ok state) :
    (∃ parsed, Parsed.ofTokens (before ++ later) = .ok parsed) ↔
      Spells state.owed (later.takeWhile (!·.isEnd)) := by
  rw [← Parser.run_finishes_iff, Parsed.ofTokens, takeWhile_noEnds noEnds, List.foldlM_append,
    reached]
  change (∃ parsed, ((later.takeWhile (!·.isEnd)).foldlM Parser.step state >>= _) = _) ↔ _
  cases run : (later.takeWhile (!·.isEnd)).foldlM Parser.step state with
  | error fault => simp [bind, Except.bind]
  | ok final =>
    obtain ⟨nextId, progress⟩ := final
    cases progress <;> simp [bind, Except.bind, Parser.finish, pure, Except.pure]

/-- A refused stream is refused at a token that is read: at a word that has no place, or at
the end of the input. -/
theorem Parsed.refused {tokens : List Token} {fault : Fault}
    (refused : Parsed.ofTokens tokens = .error fault) :
    ∃ before token after state, Token.completed tokens = before ++ token :: after ∧
      (∀ token ∈ before, token.isEnd = false) ∧
      before.foldlM Parser.step Parser.start = .ok state ∧
      (token.isEnd = false ∧ state.step token = .error fault ∨
        token.isEnd = true ∧ state.finish token = .error fault) := by
  obtain ⟨after, completed⟩ := Token.completed_split tokens
  have noEnds := takeWhile_isOpen tokens
  rw [Parsed.ofTokens] at refused
  cases run : (tokens.takeWhile (!·.isEnd)).foldlM Parser.step Parser.start with
  | error refusal =>
    rw [run] at refused
    cases refused
    obtain ⟨before, token, between, state, split, reached, step⟩ := Parser.run_error run
    rw [split] at completed noEnds
    obtain ⟨beforeOpen, tokenOpen, betweenOpen⟩ := by
      simpa only [List.forall_mem_append, List.forall_mem_cons] using noEnds
    rw [List.append_assoc, List.cons_append] at completed
    exact ⟨before, token, _, state, completed, beforeOpen, reached, .inl ⟨tokenOpen, step⟩⟩
  | ok state =>
    refine ⟨_, _, after, state, completed, noEnds, run, .inr ⟨Token.isEnd_found tokens, ?_⟩⟩
    rw [run] at refused
    cases finish : state.finish ((tokens.find? Token.isEnd).getD (Token.missingEnd tokens)) with
    | error refusal =>
      simp only [bind, Except.bind, finish] at refused
      cases refused
      rfl
    | ok root =>
      simp only [bind, Except.bind, finish] at refused
      cases refused

/-- The end of the input is refused for itself, and only where the program is not over. What is
expected there is left open. -/
theorem Parser.finish_error {parser : Parser} {token : Token} {fault : Fault}
    (refused : parser.finish token = .error fault) :
    (∃ expected, fault = .unexpected expected token) ∧
      ∀ root, parser.progress ≠ .finished root := by
  obtain ⟨nextId, progress⟩ := parser
  cases progress with
  | header expected later =>
    cases refused
    exact ⟨⟨_, rfl⟩, by simp⟩
  | inside body enclosing goal =>
    cases refused
    exact ⟨⟨_, rfl⟩, by simp⟩
  | finished root => cases refused

/-- A token that a parser in use refuses is the one that the fault is about, whether it is refused
as a word or as the end of the input. -/
theorem Parser.refusal_isAbout {state : Parser} {token : Token} {fault : Fault}
    (isOpen : state.Open)
    (refusal : token.isEnd = false ∧ state.step token = .error fault ∨
      token.isEnd = true ∧ state.finish token = .error fault) : fault.IsAbout token := by
  rcases refusal with ⟨noEnd, step⟩ | ⟨isEnd, finish⟩
  · have settled : Settles token (state.step token) := .step isOpen
    rwa [step] at settled
  · obtain ⟨⟨expected, rfl⟩, -⟩ := Parser.finish_error finish
    exact ⟨rfl, rfl, rfl⟩

/-- A refused token stream is refused at its first impossible token. The fault is about one
of its tokens, what stands before that token can be continued to a program, and nothing that
starts with it and the tokens before it is a program. -/
theorem refused_at_first_impossible (tokens : List Token) (fault : Fault)
    (refused : Parsed.ofTokens tokens = .error fault) :
    ∃ index token, (Token.completed tokens)[index]? = some token ∧ fault.IsAbout token ∧
      (∃ later parsed,
        Parsed.ofTokens ((Token.completed tokens).take index ++ later) = .ok parsed) ∧
      ∀ later parsed,
        Parsed.ofTokens ((Token.completed tokens).take (index + 1) ++ later) ≠ .ok parsed := by
  obtain ⟨before, token, after, state, completed, noEnds, reached, refusal⟩ :=
    Parsed.refused refused
  have upTo : (before ++ token :: after).take before.length = before := List.take_left
  have through : (before ++ token :: after).take (before.length + 1) = before ++ [token] := by
    rw [List.take_append, List.take_of_length_le (Nat.le_succ _), Nat.add_sub_cancel_left]
    rfl
  have isOpen : state.Open := Parser.open_run Parser.open_start reached
  refine ⟨before.length, token, ?_, ?_, ?_, ?_⟩
  · rw [completed, List.getElem?_append_right (Nat.le_refl _), Nat.sub_self]
    rfl
  · exact Parser.refusal_isAbout isOpen refusal
  · obtain ⟨later, laterOpen, spells⟩ := Form.Fillable.spells (Parser.owed_fillable isOpen)
    have all : later.takeWhile (!·.isEnd) = later := by
      simpa using takeWhile_noEnds laterOpen []
    rw [completed, upTo]
    refine ⟨later, (Parsed.accepts_after noEnds reached).mpr ?_⟩
    rwa [all]
  · intro later parsed accepted
    rw [completed, through, List.append_assoc] at accepted
    have spells := (Parsed.accepts_after noEnds reached).mp ⟨parsed, accepted⟩
    rcases refusal with ⟨noEnd, step⟩ | ⟨isEnd, finish⟩
    · rw [List.singleton_append, List.takeWhile_cons_of_pos (by simp [noEnd]),
        ← completes_step, step] at spells
      exact completes_error spells
    · rw [List.singleton_append, List.takeWhile_cons_of_neg (by simp [isEnd]),
        spells_owed_nil] at spells
      obtain ⟨root, finished⟩ := spells
      exact (Parser.finish_error finish).2 root finished

/-- The fault of a computation without a result. -/
def fault? {Result : Type} : Except Fault Result → Option Fault
  | .error fault => some fault
  | .ok _ => none

/-- A computation with a fault has failed with it. The fault is compared instead of the whole
result, because trees are not compared by evaluation. -/
theorem eq_error_of_fault? {Result : Type} {result : Except Fault Result} {fault : Fault}
    (fails : fault? result = some fault) : result = .error fault := by
  cases result with
  | error refusal =>
    cases fails
    rfl
  | ok value => cases fails

/-- A program that compares twice in one condition. -/
def twiceCompared : String := "int main() \x7b while (a < b < c) \x7b \x7d \x7d"

/-- The program above is refused at its second comparison sign. A parenthesis is expected there, and
what stands before the sign can still be made into a program. -/
theorem refused_at_first_impossible_twiceCompared :
    Parsed.ofTokens (Lexed.ofText twiceCompared).tokens =
        .error (.unexpectedToken "RParen" "<" .lt ⟨1, 27⟩) ∧
      ∃ index token, (Token.completed (Lexed.ofText twiceCompared).tokens)[index]? = some token ∧
        Fault.IsAbout token (.unexpectedToken "RParen" "<" .lt ⟨1, 27⟩) ∧
        (∃ later parsed, Parsed.ofTokens
          ((Token.completed (Lexed.ofText twiceCompared).tokens).take index ++ later) =
            .ok parsed) ∧
        ∀ later parsed, Parsed.ofTokens
          ((Token.completed (Lexed.ofText twiceCompared).tokens).take (index + 1) ++ later) ≠
            .ok parsed := by
  have evaluated : fault? (Parsed.ofTokens (Lexed.ofText twiceCompared).tokens) =
      some (.unexpectedToken "RParen" "<" .lt ⟨1, 27⟩) := by decide +kernel
  have refused := eq_error_of_fault? evaluated
  exact ⟨refused, refused_at_first_impossible _ _ refused⟩

end IntMain
