import IntMain.Proofs.FirstImpossible
import IntMain.Proofs.LexicalScoping
import IntMain.Proofs.LoweringRules
import IntMain.Proofs.RunningAgain
import IntMain.Proofs.TextLines
import IntMain.Proofs.TreeGrowth

/-!
# Faults and the places they show

A fault that is tied to a place is about a lexeme of the source text. The parser refuses a
token for itself. Resolution stops at a name, and every name of a tree is the lexeme of a
token. The later stages fail without a place: lowering has a rule for every program that
resolves, and the assembler only says what it does not support.

So a diagnostic with a place shows the line on which the lexeme stands, and the lexeme stands
in that line at the column.
-/

namespace IntMain

/-- What a fault is about, and where that stands. The end of the input is no text, and some
faults are tied to no place. -/
def Fault.offending? : Fault → Option (String × Position)
  | .unexpectedToken _ found kind position =>
    if kind = .endOfInput then none else some (found, position)
  | .invalidLiteral lexeme position => some (lexeme, position)
  | .undeclared name position => some (name, position)
  | .redefinition name position => some (name, position)
  | .unsupported _ _ => none
  | .noInput _ => none

/-- The place of what a fault is about is that of the fault, so a diagnostic shows the line of the
right place. -/
theorem Fault.position?_of_offending? {fault : Fault} {found : String} {position : Position}
    (offending : fault.offending? = some (found, position)) : fault.position? = some position := by
  cases fault with
  | unexpectedToken expected found kind position =>
    simp only [offending?] at offending
    split at offending
    · cases offending
    · cases offending
      rfl
  | unsupported stage detail => cases offending
  | noInput stage => cases offending
  | _ =>
    cases offending
    rfl

/-!
## Refused tokens
-/

/-- A fault about a token shows the lexeme of the token and its position. Faults of the parser are
all about a token. -/
theorem Fault.IsAbout.offending? {token : Token} {fault : Fault} {found : String}
    {position : Position} (isAbout : fault.IsAbout token)
    (offending : fault.offending? = some (found, position)) :
    found = token.lexeme ∧ position = token.position := by
  cases fault with
  | unexpectedToken expected lexeme kind place =>
    obtain ⟨sameLexeme, -, samePosition⟩ := isAbout
    simp only [Fault.offending?] at offending
    split at offending
    · cases offending
    · cases offending
      exact ⟨sameLexeme, samePosition⟩
  | invalidLiteral lexeme place =>
    cases offending
    exact isAbout
  | _ => cases isAbout

/-- A stream that ends with an end token is complete, so the stream of a lexed text is parsed as it
is. -/
theorem Token.completed_ended {tokens : List Token} {last : Token} (isEnd : last.isEnd = true) :
    Token.completed (tokens ++ [last]) = tokens ++ [last] := by
  rw [Token.completed, if_pos]
  simp [isEnd]

/-- What the parser refuses is a token of the stream and not its end, if the fault shows a text. The
end of the input is refused without a text, since it has none to show. -/
theorem Parsed.offending_token {text : String} {fault : Fault} {found : String}
    {position : Position}
    (refused : Parsed.ofTokens (Session.tokensOf text) = .error fault)
    (offending : fault.offending? = some (found, position)) :
    ∃ token ∈ Session.tokensOf text, token.isEnd = false ∧ found = token.lexeme ∧
      position = token.position := by
  obtain ⟨before, token, after, state, completed, -, reached, refusal⟩ := Parsed.refused refused
  have complete : Token.completed (Session.tokensOf text) = Session.tokensOf text :=
    Token.completed_ended rfl
  rw [complete] at completed
  rcases refusal with ⟨noEnd, step⟩ | ⟨isEnd, finish⟩
  · have settled : Settles token (state.step token) :=
      .step (Parser.open_run Parser.open_start reached)
    rw [step] at settled
    have member : token ∈ Session.tokensOf text := by simp [completed]
    exact ⟨token, member, noEnd, Fault.IsAbout.offending? settled offending⟩
  · obtain ⟨⟨expected, rfl⟩, -⟩ := Parser.finish_error finish
    have kind : token.kind = .endOfInput := by simpa [Token.isEnd] using isEnd
    simp [Fault.unexpected, Fault.offending?, kind] at offending

/-!
## Names that do not resolve
-/

/-- The name that an event meets, and its position. -/
def Event.placedName? : Event → Option (String × Position)
  | .uses mark name => some (name.name, mark.position)
  | .declares mark name => some (name.name, mark.position)
  | _ => none

/-- A name that a tree meets is its own, that of a child, or one that it declares. A declared name
is told apart from the others because the walk does not go through it. -/
theorem Node.mem_events {node : Node} {event : Event} {named : String × Position}
    (member : event ∈ node.events) (isNamed : event.placedName? = some named) :
    (∃ mark name, node = .identifier mark name ∧ event = .uses mark name) ∨
      ∃ child ∈ node.children, event ∈ child.events ∨ event = child.declaredEvent := by
  cases node with
  | chain mark clauses otherwise =>
    cases otherwise <;>
      grind [Node.events, Node.scopedEvents, Node.children, Node.mem_eventsAll, Event.placedName?]
  | _ =>
    grind [Node.events, Node.scopedEvents, Node.children, Node.mem_eventsAll, Event.placedName?]

/-- Every name that a tree meets is an identifier of it, with the position of that identifier. The
induction goes through the children, which the walk meets in another order than they are listed. -/
theorem Node.identifier_of_event {node : Node} {event : Event} {named : String × Position}
    (member : event ∈ node.events) (isNamed : event.placedName? = some named) :
    ∃ mark name, .identifier mark name ∈ node.postorder ∧
      named = (name.name, mark.position) := by
  induction node using Node.induction_children with
  | step node inductionHypothesis =>
    rw [Node.postorder_eq]
    rcases Node.mem_events member isNamed with ⟨mark, name, rfl, rfl⟩ | ⟨child, isChild, inChild⟩
    · cases isNamed
      exact ⟨mark, name, List.mem_append_right _ List.mem_cons_self, rfl⟩
    · suffices ∃ mark name, .identifier mark name ∈ child.postorder ∧
          named = (name.name, mark.position) by
        obtain ⟨mark, name, inChild, isName⟩ := this
        refine ⟨mark, name, List.mem_append_left _ ?_, isName⟩
        exact List.mem_flatMap.mpr ⟨child, isChild, inChild⟩
      -- A name that is declared is not walked through: its event is that of its parent.
      rcases inChild with inChild | rfl
      · exact inductionHypothesis child isChild inChild
      · cases child with
        | identifier mark name =>
          cases isNamed
          refine ⟨mark, name, ?_, rfl⟩
          rw [Node.postorder_eq]
          exact List.mem_append_right _ List.mem_cons_self
        | _ => cases isNamed

/-- Every open scope knows the builtin type. A declaration that did not find it would be
refused for the name of the type, at a position where another name stands. -/
def ScopeTable.Seeded (table : ScopeTable) : Prop :=
  ∀ id ∈ table.current :: table.outer,
    table.symbol? id builtinType = some (.builtin builtinType)

namespace ScopeTable.Seeded

variable {table : ScopeTable}

/-- The global scope knows the builtin type. It is put there before anything of the program is
met. -/
theorem new : ScopeTable.new.Seeded := by
  intro id member
  rw [List.mem_singleton.mp member]
  rfl

/-- A new symbol takes no name that there is: a scope that knows the name stays as it is. So the
builtin type stays the one that is found. -/
theorem insert (seeded : table.Seeded) (symbol : Symbol) : (table.insert symbol).Seeded := by
  intro id member
  rw [symbol?_insert, seeded id member, Option.some_or]

/-- A scope that opens knows the builtin type, because each new scope starts with it. -/
theorem enter (seeded : table.Seeded) (scope : String) : (table.enter scope).Seeded := by
  intro id member
  rw [symbol?_enter]
  split
  · rfl
  · rename_i older
    rcases List.mem_cons.mp member with isNew | around
    · exact absurd isNew older
    · exact seeded.insert _ id around

/-- The scopes around a scope are open already and know the builtin type. The scope that closes does
not matter any more. -/
theorem exit (seeded : table.Seeded) : table.exit.Seeded := by
  unfold ScopeTable.exit
  split
  · exact seeded
  · rename_i parent outer isOuter
    intro id member
    apply seeded id
    rw [isOuter]
    exact List.mem_cons_of_mem _ member

/-- A symbol that is defined takes no name that there is. The builtin type cannot be hidden, since a
symbol of its name is refused. -/
theorem define (seeded : table.Seeded) {symbol : Symbol} {position : Position}
    {next : ScopeTable} (defined : table.define symbol position = .ok next) : next.Seeded := by
  unfold ScopeTable.define at defined
  split at defined
  · cases defined
  · cases defined
    exact seeded.insert symbol

/-- The builtin type is found from every scope, by looking at the current scope only. -/
theorem lookup? (seeded : table.Seeded) :
    table.lookup? builtinType = some (.builtin builtinType) := by
  have found := seeded table.current List.mem_cons_self
  simp only [symbol?] at found
  rw [ScopeTable.lookup?, List.findSome?_cons, found]

/-- Resolving an event leaves the builtin type in every open scope. Opening and closing scopes is
covered as well as declaring names. -/
theorem resolve (seeded : table.Seeded) {event resolved : Event} {next : ScopeTable}
    (resolves : event.resolve table = .ok (resolved, next)) : next.Seeded := by
  cases event with
  | opens scope =>
    cases resolves
    exact seeded.enter scope
  | closes =>
    cases resolves
    exact seeded.exit
  | uses mark name =>
    simp only [Event.resolve] at resolves
    split at resolves
    · cases resolves
      exact seeded
    · cases resolves
  | declares mark name =>
    have allocated : table.allocate.Seeded := seeded
    simp only [Event.resolve] at resolves
    split at resolves
    · split at resolves
      · rename_i defined
        cases resolves
        exact allocated.define defined
      · cases resolves
    · cases resolves
  | undeclarable tag => cases resolves

/-- The fault of an event is about the name that it meets, at the position of that name. Without the
builtin type a declaration could be refused for the name of the type instead. -/
theorem fault (seeded : table.Seeded) {event : Event} {fault : Fault}
    {named : String × Position} (refused : event.resolve table = .error fault)
    (offending : fault.offending? = some named) : event.placedName? = some named := by
  cases event with
  | opens scope => cases refused
  | closes => cases refused
  | uses mark name =>
    simp only [Event.resolve] at refused
    split at refused
    · cases refused
    · cases refused
      exact offending
  | declares mark name =>
    have found : table.lookup? TypeTag.int.name = some (.builtin builtinType) := seeded.lookup?
    simp only [Event.resolve, ScopeTable.define, found] at refused
    split at refused
    · cases refused
    · rename_i taken
      split at taken
      · cases taken
        cases refused
        exact offending
      · cases taken
  | undeclarable tag =>
    cases refused
    cases offending

end ScopeTable.Seeded

/-- A fault of resolution is about the name of an event. The run stops at the first event that is
refused, and the events before it leave the builtin type in every scope. -/
theorem resolveEvents_offending {table : ScopeTable} (seeded : table.Seeded) {events : List Event}
    {fault : Fault} {named : String × Position}
    (stopped : (resolveEvents table events).2.fault? = some fault)
    (offending : fault.offending? = some named) :
    ∃ event ∈ events, event.placedName? = some named := by
  induction events generalizing table with
  | nil => cases stopped
  | cons event later inductionHypothesis =>
    rw [resolveEvents] at stopped
    cases resolves : event.resolve table with
    | error refusal =>
      rw [resolves] at stopped
      cases stopped
      exact ⟨event, List.mem_cons_self, seeded.fault resolves offending⟩
    | ok result =>
      obtain ⟨resolved, next⟩ := result
      rw [resolves] at stopped
      obtain ⟨other, inLater, isNamed⟩ := inductionHypothesis (seeded.resolve resolves) stopped
      exact ⟨other, List.mem_cons_of_mem _ inLater, isNamed⟩

/-- A name that does not resolve is a token: the fault shows its lexeme and its position. It is used
that the parser takes names over from tokens as they are. -/
theorem Parsed.offending_name {tokens : List Token} {parsed : Parsed} {fault : Fault}
    {found : String} {position : Position} (accepted : Parsed.ofTokens tokens = .ok parsed)
    (stopped : parsed.root.resolve.fault = some fault)
    (offending : fault.offending? = some (found, position)) :
    ∃ token ∈ tokens, token.isEnd = false ∧ found = token.lexeme ∧
      position = token.position := by
  have sameFault : (resolveEvents ScopeTable.new parsed.root.events).2.fault? = some fault := by
    rw [← parsed.root.resolve_events, Resolution.outcome, stopped]
    rfl
  obtain ⟨event, member, isNamed⟩ :=
    resolveEvents_offending ScopeTable.Seeded.new sameFault offending
  obtain ⟨mark, name, inside, same⟩ := Node.identifier_of_event member isNamed
  obtain ⟨token, read, isIdentifier, sameName, samePosition⟩ :=
    Parsed.namedBy accepted mark name inside
  obtain ⟨rfl, rfl⟩ := Prod.mk.inj same
  have noEnd : token.isEnd = false := by rw [Token.isEnd, isIdentifier]; rfl
  exact ⟨token, (List.takeWhile_sublist _).subset read, noEnd, sameName, samePosition⟩

/-!
## What the assembler does not support
-/

/-- A computation has no faults but those of a kind. Whether it has a result is left open, and so is
what the result is. -/
def FailsOnly {Result : Type} (kind : Fault → Prop) (computation : Except Fault Result) : Prop :=
  ∀ fault, computation = .error fault → kind fault

namespace FailsOnly

variable {Result Next : Type} {kind : Fault → Prop}

/-- A computation with a result has no fault at all, so it is of every kind. -/
theorem ok {result : Result} : FailsOnly kind (.ok result) := by
  intro fault impossible
  cases impossible

/-- Computations one behind the other have faults of a kind if each of them has. The second may be
run on any result, since nothing is known about the one that it gets. -/
theorem bind {computation : Except Fault Result} {next : Result → Except Fault Next}
    (first : FailsOnly kind computation) (later : ∀ result, FailsOnly kind (next result)) :
    FailsOnly kind (computation >>= next) := by
  cases computation with
  | error fault =>
    rintro _ ⟨⟩
    exact first fault rfl
  | ok result => exact later result

/-- A computation whose result is changed on its way has the faults that it had. -/
theorem map {computation : Except Fault Result} {change : Result → Next}
    (first : FailsOnly kind computation) : FailsOnly kind (computation.map change) := by
  cases computation with
  | error fault =>
    rintro _ ⟨⟩
    exact first fault rfl
  | ok result => exact ok

end FailsOnly

/-- A computation has no faults but those that tell what the assembler does not support. -/
abbrev FailsInAssembly {Result : Type} (computation : Except Fault Result) : Prop :=
  FailsOnly (fun fault => ∃ detail, fault = Operand.assemblyFault detail) computation

namespace FailsInAssembly

open FailsOnly (ok)

/-- A fault of the assembler is of the kind, whatever it says. -/
theorem error {Result : Type} {detail : String} :
    FailsInAssembly (.error (Operand.assemblyFault detail) : Except Fault Result) := by
  rintro fault ⟨⟩
  exact ⟨detail, rfl⟩

/-- A temporary without a register is what the assembler does not support. Nothing is asked of the
operand, which need not even be a temporary. -/
theorem register (operand : Operand) : FailsInAssembly operand.register := by
  unfold Operand.register
  simp only
  split
  · exact ok
  · exact error

/-- The place of an operand is missing only where a temporary has no register. Operands of the other
kinds have their places in their texts. -/
theorem place (operand : Operand) : FailsInAssembly operand.place := by
  unfold Operand.place
  split
  · exact (register operand).map
  all_goals exact ok

/-- A result has a workplace unless its temporary has no register or it cannot be written at all,
as a literal and a label cannot. -/
theorem ofTarget (target : Operand) : FailsInAssembly (Workplace.ofTarget target) := by
  unfold Workplace.ofTarget
  split
  · exact (register target).map
  · exact ok
  · exact error

/-- An operand that is missing is a fault of the assembler, which quotes the quadruple. Quadruples
that lowering makes have what they need, but this is not used. -/
theorem required (quad : Quad) (operand : Option Operand) (what : String) :
    FailsInAssembly (quad.required operand what) := by
  cases operand with
  | none => exact error
  | some operand => exact ok

/-- The places of an operation are missing only for the reasons of its operands, which are looked
for in order. The first that is missing decides. -/
theorem operands (quad : Quad) : FailsInAssembly quad.operands := by
  unfold Quad.operands
  refine (required quad _ _).bind fun left => (place left).bind fun _ => ?_
  refine (required quad _ _).bind fun right => (place right).bind fun _ => ?_
  exact (required quad _ _).bind fun target => (ofTarget target).bind fun _ => ok

/-- A return fails in the assembler, over its value or over the place of that value. -/
theorem selectReturn (quad : Quad) : FailsInAssembly quad.selectReturn := by
  unfold Quad.selectReturn
  exact (required quad _ _).bind fun value => (place value).bind fun _ => ok

/-- A copy fails in the assembler. From variable to variable it asks for the place of its source
only, otherwise for both places. -/
theorem selectCopy (quad : Quad) : FailsInAssembly quad.selectCopy := by
  unfold Quad.selectCopy
  refine (required quad _ _).bind fun source => (required quad _ _).bind fun target => ?_
  refine (place source).bind fun _ => ?_
  split
  · exact ok
  · exact (place target).bind fun _ => ok

/-- A signed operand fails in the assembler. Any spelling of the sign is taken, so there is no fault
over the spelling. -/
theorem selectUnary (quad : Quad) (symbol : String) :
    FailsInAssembly (quad.selectUnary symbol) := by
  unfold Quad.selectUnary
  refine (required quad _ _).bind fun source => (place source).bind fun _ => ?_
  exact (required quad _ _).bind fun target => (ofTarget target).bind fun _ => ok

/-- An arithmetic operation fails in the assembler, over its operands or over a spelling that is no
arithmetic operator's. -/
theorem selectArithmetic (quad : Quad) (symbol : String) :
    FailsInAssembly (quad.selectArithmetic symbol) := by
  unfold Quad.selectArithmetic
  apply (operands quad).bind
  rintro ⟨left, right, workplace⟩
  dsimp only
  split
  · exact error
  · exact ok

/-- A comparison fails in the assembler, over its operands or over a spelling that is no relational
operator's. The branch that it feeds is never a reason. -/
theorem selectComparison (quad : Quad) (symbol : String) (branch : Branch) :
    FailsInAssembly (quad.selectComparison symbol branch) := by
  unfold Quad.selectComparison
  apply (operands quad).bind
  rintro ⟨left, right, workplace⟩
  dsimp only
  split
  · exact error
  · exact ok

/-- A conditional jump fails in the assembler. A jump on the result of a comparison or of a logical
operator does not look for the place of its condition, so it fails only if an operand is missing. -/
theorem selectBranch (quad : Quad) (command : Command) (producer : Option CommandKind) :
    FailsInAssembly (quad.selectBranch command producer) := by
  unfold Quad.selectBranch
  refine (required quad _ _).bind fun condition => (required quad _ _).bind fun label => ?_
  split
  · exact ok
  · exact ok
  · exact (place condition).bind fun _ => ok

/-- Selecting the lines of a command fails in the assembler, whatever the command is and whatever
selection knows. So the assembler has no fault that is tied to a place in the text. -/
theorem selectCommand (state : Selection) (feeds : Bool) (quad : Quad) (command : Command) :
    FailsInAssembly (state.selectCommand feeds quad command) := by
  unfold Selection.selectCommand
  cases command.kind with
  | label => exact (required quad _ _).bind fun _ => ok
  | unconditionalJump => exact (required quad _ _).bind fun _ => ok
  | ret => exact (selectReturn quad).bind fun _ => ok
  | copy => exact (selectCopy quad).bind fun _ => ok
  | unary => exact (selectUnary quad _).bind fun _ => ok
  | arithmetic => exact (selectArithmetic quad _).bind fun _ => ok
  | relational =>
    dsimp only
    split
    · exact (selectComparison quad _ _).bind fun _ => ok
    · exact ok
  | logical => exact ok
  | conditionalJump => exact (selectBranch quad _ _).bind fun _ => ok

end FailsInAssembly

/-- A fault of the assembler tells what is not supported, and has no place in the text. The
quadruples do not know where they come from. -/
theorem Selection.selectAll_fault {feeding : List Nat} {state : Selection} {index : Nat}
    {quads : List Quad} {fault : Fault}
    (stopped : (state.selectAll feeding index quads).fault = some fault) :
    ∃ detail, fault = Operand.assemblyFault detail := by
  induction quads generalizing state index with
  | nil => cases stopped
  | cons quad later inductionHypothesis =>
    rw [Selection.selectAll] at stopped
    split at stopped
    · exact inductionHypothesis stopped
    · split at stopped
      · rename_i refused
        cases stopped
        exact FailsInAssembly.selectCommand _ _ _ _ _ refused
      · exact inductionHypothesis stopped

/-!
## Diagnostics
-/

/-- What a text fails for is one of its tokens, if it is tied to a place. Each stage has its own
reason: the parser is about tokens, resolution about names that are tokens, and the later stages
about nothing in the text. -/
theorem Session.Fails.offending_token {text : String} {stage : Stage} {fault : Fault}
    {found : String} {position : Position} (fails : Session.Fails text stage fault)
    (offending : fault.offending? = some (found, position)) :
    ∃ token ∈ Session.tokensOf text, token.isEnd = false ∧ found = token.lexeme ∧
      position = token.position := by
  cases fails with
  | parse refused => exact Parsed.offending_token refused offending
  | analyze parses stopped => exact Parsed.offending_name parses stopped offending
  | lower parses resolves refused =>
    obtain ⟨lowered, isLowered⟩ := Parsed.isLowered parses resolves
    rw [isLowered] at refused
    cases refused
  | assemble parses resolves lowers refused =>
    obtain ⟨detail, rfl⟩ := Selection.selectAll_fault refused
    cases offending

/-- **Diagnostics point at the offending text.** If a text fails with a fault about a lexeme,
the diagnostic has a line of the text, and what stands in it from the column of the fault on
starts with the lexeme, cut at its first line feed. -/
theorem diagnostic_points_at_text (text : String) (diagnostic : Diagnostic) (found : String)
    (position : Position) (failed : (Session.ofText text).runAll.diagnostic = some diagnostic)
    (offending : diagnostic.fault.offending? = some (found, position)) :
    found ≠ "" ∧ 0 < position.column ∧ ∃ line, diagnostic.lineText = some line ∧
      found.toList.takeWhile (· != '\n') <+: line.toList.drop (position.column - 1) := by
  have reached := (Session.Current.ofText text).reached .assemble
  cases reached with
  | finished noDiagnostic made =>
    cases failed.symm.trans noDiagnostic
  | @stopped failing fault below fails isDiagnostic made absent stamped =>
    obtain rfl := Option.some.inj (failed.symm.trans isDiagnostic)
    obtain ⟨token, member, noEnd, rfl, rfl⟩ := fails.offending_token offending
    obtain ⟨nonempty, column, line, isLine, starts⟩ :=
      (Session.ofText text).shows_token member noEnd
    have place : fault.position? = some token.position := Fault.position?_of_offending? offending
    refine ⟨nonempty, column, line, ?_, starts⟩
    change fault.position?.bind _ = some line
    rw [place]
    exact isLine

/-- A program with carriage returns that uses a name behind the block which declares it. -/
def leftBlock : String :=
  "int main()\r\n\x7b\r\n  int a = 1;\r\n" ++
  "  \x7b int b = a; \x7d\r\n  a = b;\r\n\x7d"

/-- The diagnostic of the program above shows the line on which the name stands, without the
carriage return, and the name stands at its column in it. -/
theorem diagnostic_points_at_text_leftBlock :
    (Session.ofText leftBlock).runAll.diagnostic =
        some ⟨.analyze, .undeclared "b" ⟨5, 7⟩, some "  a = b;"⟩ ∧
      "b" ≠ "" ∧ 0 < 7 ∧ ∃ line, some "  a = b;" = some line ∧
        "b".toList.takeWhile (· != '\n') <+: line.toList.drop 6 := by
  have failed : (Session.ofText leftBlock).runAll.diagnostic =
      some ⟨.analyze, .undeclared "b" ⟨5, 7⟩, some "  a = b;"⟩ := by decide +kernel
  exact ⟨failed, diagnostic_points_at_text leftBlock _ "b" ⟨5, 7⟩ failed rfl⟩

end IntMain
