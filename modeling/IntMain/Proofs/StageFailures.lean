import IntMain.Proofs.RegisterDemand

/-!
# How each stage can fail

Every stage has its own way to fail. The parser refuses a token, and resolution a name; both
say where it stands. The assembler runs out of registers. Any text has tokens, and every
program that resolves is lowered, so the two other stages never fail; and no stage is run
before the one that it builds on.
-/

namespace IntMain

/-- A fault that is tied to a place and belongs to a part of the work. -/
def Fault.IsPlaced (category : FaultCategory) (fault : Fault) : Prop :=
  fault.category = category ∧ ∃ position, fault.position? = some position

/-- A fault about a token belongs to parsing and has the position of the token. -/
theorem Fault.IsAbout.isPlaced {token : Token} {fault : Fault} (isAbout : fault.IsAbout token) :
    fault.IsPlaced .parse := by
  cases fault with
  | unexpectedToken expected found kind position => exact ⟨rfl, position, rfl⟩
  | invalidLiteral lexeme position => exact ⟨rfl, position, rfl⟩
  | _ => cases isAbout

/-- The parser refuses a token for its place. The end of the input is a token too and has a
place. -/
theorem Parsed.refused_isPlaced {tokens : List Token} {fault : Fault}
    (refused : Parsed.ofTokens tokens = .error fault) : fault.IsPlaced .parse := by
  obtain ⟨before, token, after, state, -, -, reached, refusal⟩ := Parsed.refused refused
  have isOpen : state.Open := Parser.open_run Parser.open_start reached
  exact Fault.IsAbout.isPlaced (Parser.refusal_isAbout isOpen refusal)

/-- An event is refused for the place of its name, unless what it declares is no name. -/
theorem Event.resolve_isPlaced {event : Event} {table : ScopeTable} {fault : Fault}
    (declarable : ∀ tag, event ≠ .undeclarable tag) (refused : event.resolve table = .error fault) :
    fault.IsPlaced .semantic := by
  cases event with
  | opens scope => cases refused
  | closes => cases refused
  | uses mark name =>
    simp only [Event.resolve] at refused
    split at refused
    · cases refused
    · cases refused
      exact ⟨rfl, _, rfl⟩
  | declares mark name =>
    simp only [Event.resolve, ScopeTable.define] at refused
    split at refused
    · split at refused
      · cases refused
      · rename_i taken
        split at taken
        · cases taken
          cases refused
          exact ⟨rfl, _, rfl⟩
        · cases taken
    · cases refused
      exact ⟨rfl, _, rfl⟩
  | undeclarable tag => exact absurd rfl (declarable tag)

/-- Events are refused for the place of a name, since the fault is that of one of them. -/
theorem resolveEvents_isPlaced {table : ScopeTable} {events : List Event} {fault : Fault}
    (declarable : ∀ tag, .undeclarable tag ∉ events)
    (stopped : (resolveEvents table events).2.fault? = some fault) : fault.IsPlaced .semantic := by
  induction events generalizing table with
  | nil => cases stopped
  | cons event later inductionHypothesis =>
    rw [resolveEvents] at stopped
    cases resolves : event.resolve table with
    | error refusal =>
      rw [resolves] at stopped
      cases stopped
      refine Event.resolve_isPlaced ?_ resolves
      rintro tag rfl
      exact declarable tag List.mem_cons_self
    | ok result =>
      rw [resolves] at stopped
      apply inductionHypothesis _ stopped
      intro tag inLater
      exact declarable tag (List.mem_cons_of_mem _ inLater)

/-- Resolution of a parsed tree stops at the place of a name. The parser lets only names be
declared, so the fault without a place does not occur. -/
theorem Parsed.resolve_isPlaced {tokens : List Token} {parsed : Parsed} {fault : Fault}
    (accepted : Parsed.ofTokens tokens = .ok parsed)
    (stopped : parsed.root.resolve.fault = some fault) : fault.IsPlaced .semantic := by
  have sameFault : (resolveEvents ScopeTable.new parsed.root.events).2.fault? = some fault := by
    rw [← parsed.root.resolve_events, Resolution.outcome, stopped]
    rfl
  exact resolveEvents_isPlaced (Parsed.wellFormed accepted).declarable sameFault

/-- A tree needs a number of temporaries, because it has finitely many nodes. -/
theorem Node.exists_needsAtMost (root : Node) : ∃ bound, root.NeedsAtMost bound := by
  refine ⟨(root.postorder.map need).max?.getD 0, ?_⟩
  intro node inTree
  exact List.le_max?_getD_of_mem (List.mem_map_of_mem inTree)

/-- What a stage can fail with. Two of the stages never do. -/
inductive Stage.OwnFault : Stage → Fault → Prop
  | parse {fault : Fault} (isPlaced : fault.IsPlaced .parse) : OwnFault .parse fault
  | analyze {fault : Fault} (isPlaced : fault.IsPlaced .semantic) : OwnFault .analyze fault
  | assemble {number : Nat} (beyond : 4 < number) :
      OwnFault .assemble (.unsupported .assemble
        ("temporary " ++ (Operand.temporary number).name ++
          " does not fit the 4 available registers"))

/-- What a text fails for is of its stage's own kind. Lowering never fails, and assembling fails for
registers only. -/
theorem Session.Fails.ownFault {text : String} {stage : Stage} {fault : Fault}
    (fails : Session.Fails text stage fault) : stage.OwnFault fault := by
  cases fails with
  | parse refused => exact .parse (Parsed.refused_isPlaced refused)
  | analyze parses stopped => exact .analyze (Parsed.resolve_isPlaced parses stopped)
  | lower parses resolves refused =>
    obtain ⟨lowered, isLowered⟩ := Parsed.isLowered parses resolves
    rw [isLowered] at refused
    cases refused
  | @assemble parsed lowered _ parses resolves lowers refused =>
    -- Any bound on the needs of the tree will do: only the kind of the fault is asked for.
    obtain ⟨bound, fits⟩ := parsed.root.exists_needsAtMost
    have failed : (Assembled.ofProgram lowered.program).result = .error fault := by
      rw [Assembled.result, refused]
    obtain ⟨number, beyond, -, rfl⟩ :=
      Parsed.assembly_failsOnly parses resolves lowers fits fault failed
    exact .assemble beyond

/-- No stage is run before the one that it builds on, if it fails for a reason of its own. -/
theorem Stage.OwnFault.ne_noInput {stage : Stage} {fault : Fault} (own : stage.OwnFault fault)
    (other : Stage) : fault ≠ .noInput other := by
  rintro rfl
  cases own with
  | parse isPlaced => cases isPlaced.1
  | analyze isPlaced => cases isPlaced.1

/-- **Each stage fails only in its own way.** When all stages are run on a text, all have
their outputs, or one fails: parsing or resolution, with a fault of its category and at a
place, or the assembler, for a temporary beyond the four registers. It is never the lexer,
whatever the session, and never lowering: a parsed tree that resolves is lowered. Resolution
of a parsed tree meets nothing that it does not support, and no stage lacks its input. -/
theorem stages_fail_in_their_own_way (text : String) :
    ((Session.ofText text).runAll.diagnostic = none ∧
        (∀ stage, (Session.ofText text).runAll.session.needs stage = false) ∨
      ∃ diagnostic, (Session.ofText text).runAll.diagnostic = some diagnostic ∧
        diagnostic.stage.OwnFault diagnostic.fault ∧
        ∀ stage, diagnostic.fault ≠ .noInput stage) ∧
    (∀ session : Session, (session.run .lex).diagnostic = none) ∧
    ∀ tokens parsed, Parsed.ofTokens tokens = .ok parsed →
      (∀ fault, parsed.root.resolve.fault = some fault →
        fault.IsPlaced .semantic ∧ ∀ stage detail, fault ≠ .unsupported stage detail) ∧
      (parsed.root.resolve.fault = none →
        ∃ lowered, Lowered.ofTree parsed.root.resolve.tree = .ok lowered) := by
  refine ⟨?_, fun session => rfl, ?_⟩
  · have reached := (Session.Current.ofText text).reached .assemble
    cases reached with
    | finished noDiagnostic made =>
      refine .inl ⟨noDiagnostic, ?_⟩
      intro stage
      apply made
      cases stage <;> decide
    | stopped below fails diagnostic made absent stamped =>
      exact .inr ⟨_, diagnostic, fails.ownFault, fails.ownFault.ne_noInput⟩
  · intro tokens parsed accepted
    constructor
    · intro fault stopped
      have isPlaced := Parsed.resolve_isPlaced accepted stopped
      refine ⟨isPlaced, ?_⟩
      rintro stage detail rfl
      cases isPlaced.1
    · exact Parsed.isLowered accepted

end IntMain
