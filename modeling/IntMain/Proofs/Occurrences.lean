import IntMain.Proofs.ResolutionErrands

/-!
# The names of a program in the order of resolution

Resolution walks through a tree, but what it does depends on a list only: the scopes that
open and close, and the names that are used and declared between them. `Node.events` is
this list. Each event is what one errand of the walk does to the scopes, without what it
announces in the log. The list fixes the order of the walk: the value of an initialization
comes before the name, the condition of a while loop or of a clause stands in front of the
scope of the body, and that of a do-while loop behind it.

`resolveEvents` resolves such a list, one event at a time, up to the first fault. A tree
is resolved exactly as its events are, and the resolved tree has the resolved events. The
log is left out: nothing reads it.

`Node.occurrences` lists the names alone, each with the scopes around it. A scope is known
by its number in the order in which scopes open.
-/

namespace IntMain

/-- What resolution meets on its way through a tree. An event has all that resolution reads and
changes at this point, so a program can be resolved along its events alone. -/
inductive Event
  /-- A scope of this name opens in the current one. -/
  | opens (scope : String)
  /-- The current scope closes. -/
  | closes
  | uses (mark : Mark) (name : Identifier)
  | declares (mark : Mark) (name : Identifier)
  /-- A node with this tag stands where a name has to be declared. -/
  | undeclarable (tag : String)
  deriving DecidableEq, Repr

namespace Node

/-- What a declaration of a node declares. -/
def declaredEvent : Node → Event
  | .identifier mark name => .declares mark name
  | other => .undeclarable other.tag

/-- The events of a part that has a scope of its own. -/
def scopedEvents (scope : String) (inner : List Event) : List Event :=
  .opens scope :: (inner ++ [.closes])

mutual

/-- The events of a tree in the order of resolution. -/
def events : Node → List Event
  | .integer _ _ _ => []
  | .identifier mark name => [.uses mark name]
  | .unary _ _ operand => operand.events
  | .binary _ _ left right => left.events ++ right.events
  | .clause mark tag condition body =>
    condition.events ++ scopedEvents (scopeName tag.scopeKind mark) body.events
  | .chain _ clauses none => eventsAll clauses
  | .chain mark clauses (some body) =>
    eventsAll clauses ++ scopedEvents (scopeName "else" mark) body.events
  | .whileLoop mark condition body =>
    condition.events ++ scopedEvents (scopeName "while" mark) body.events
  | .doWhile mark body condition =>
    scopedEvents (scopeName "dowhile" mark) body.events ++ condition.events
  | .compound _ statements => eventsAll statements
  | .block mark statements => scopedEvents (scopeName "block" mark) (eventsAll statements)
  | .declaration _ name => [name.declaredEvent]
  | .initialization _ name value => value.events ++ [name.declaredEvent]
  | .assignment _ target _ value => target.events ++ value.events
  | .returned _ value => value.events
  | .empty _ => []

/-- The events of several trees in order. -/
def eventsAll : List Node → List Event
  | [] => []
  | node :: later => node.events ++ eventsAll later

end

end Node

/-!
## Resolving a list of events
-/

/-- Resolve one event: the event with its stamp, and the scopes behind it. This is one step of
resolution, without the tree around it. -/
def Event.resolve (table : ScopeTable) : Event → Except Fault (Event × ScopeTable)
  | .opens scope => .ok (.opens scope, table.enter scope)
  | .closes => .ok (.closes, table.exit)
  | .uses mark name =>
    match table.lookup? name.name with
    | some (.slot _ offset type) =>
      .ok (.uses mark { name with address := some offset, type := TypeTag.ofName? type }, table)
    | _ => .error (.undeclared name.name mark.position)
  | .declares mark name =>
    match table.lookup? TypeTag.int.name with
    | some (.builtin type) =>
      let allocated := table.allocate
      match allocated.define (.slot name.name allocated.offset type) mark.position with
      | .ok defined =>
        .ok (.declares mark { name with address := some allocated.offset, type := some .int },
          defined)
      | .error fault => .error fault
    | _ => .error (.undeclared TypeTag.int.name mark.position)
  | .undeclarable tag => .error (.unsupported .analyze ("declaration of a " ++ tag ++ " node"))

/-- What resolution ends with: the scopes with their state, or the fault that stopped it
and the scopes that there were. -/
abbrev Resolution.Outcome := Except (Fault × List Scope) ScopeTable

/-- Resolve events in order. What comes behind a fault keeps its stamps. -/
def resolveEvents (table : ScopeTable) : List Event → List Event × Resolution.Outcome
  | [] => ([], .ok table)
  | event :: later =>
    match event.resolve table with
    | .error fault => (event :: later, .error (fault, table.scopes))
    | .ok (resolved, next) =>
      (resolved :: (resolveEvents next later).1, (resolveEvents next later).2)

/-!
## A tree is resolved as its events are
-/

/-- What a resolution has come to. -/
def Resolution.outcome (state : Resolution) : Resolution.Outcome :=
  match state.fault with
  | none => .ok state.table
  | some fault => .error (fault, state.table.scopes)

/-- Leaving a scope forgets none. The scopes of a program stay in the table to be reported. -/
theorem ScopeTable.exit_scopes (table : ScopeTable) : table.exit.scopes = table.scopes := by
  unfold ScopeTable.exit
  split <;> rfl

/-- What is left of an errand when the log and the names of a node that cannot be declared do not
matter. -/
def Errand.event : Errand → Event
  | .opens _ scope => .opens scope
  | .closes => .closes
  | .uses mark name => .uses mark name
  | .declares node => node.declaredEvent

/-- Around a scope, errands and events are the same. Whether the scope is announced makes no
difference to its events. -/
theorem Node.scopedErrands_event (announced : Bool) (scope : String) (inner : List Errand) :
    (scopedErrands announced scope inner).map Errand.event =
      scopedEvents scope (inner.map Errand.event) := by
  simp only [scopedErrands, scopedEvents, List.map_cons, List.map_append, List.map_nil,
    Errand.event]

mutual

/-- The events of a tree are those of its errands. The recursion follows the constructors of the
tree, since both are defined along them. -/
theorem Node.errands_event : (node : Node) → node.errands.map Errand.event = node.events
  | .integer _ _ _ => by simp only [errands, events, List.map_nil]
  | .identifier _ _ => by simp only [errands, events, List.map_cons, List.map_nil, Errand.event]
  | .unary _ _ operand => by simp only [errands, events, operand.errands_event]
  | .binary _ _ left right => by
    simp only [errands, events, List.map_append, left.errands_event, right.errands_event]
  | .clause _ _ condition body => by
    simp only [errands, events, List.map_append, scopedErrands_event, condition.errands_event,
      body.errands_event]
  | .chain _ clauses none => by simp only [errands, events, errandsAll_event clauses]
  | .chain _ clauses (some body) => by
    simp only [errands, events, List.map_append, scopedErrands_event, errandsAll_event clauses,
      body.errands_event]
  | .whileLoop _ condition body => by
    simp only [errands, events, List.map_append, scopedErrands_event, condition.errands_event,
      body.errands_event]
  | .doWhile _ body condition => by
    simp only [errands, events, List.map_append, scopedErrands_event, condition.errands_event,
      body.errands_event]
  | .compound _ statements => by simp only [errands, events, errandsAll_event statements]
  | .block _ statements => by
    simp only [errands, events, scopedErrands_event, errandsAll_event statements]
  | .declaration _ _ => by simp only [errands, events, List.map_cons, List.map_nil, Errand.event]
  | .initialization _ _ value => by
    simp only [errands, events, List.map_append, List.map_cons, List.map_nil, Errand.event,
      value.errands_event]
  | .assignment _ target _ value => by
    simp only [errands, events, List.map_append, target.errands_event, value.errands_event]
  | .returned _ value => by simp only [errands, events, value.errands_event]
  | .empty _ => by simp only [errands, events, List.map_nil]

/-- The events of several trees are those of their errands. It is proved together with the lemma on
one tree. -/
theorem Node.errandsAll_event : (nodes : List Node) →
    (errandsAll nodes).map Errand.event = eventsAll nodes
  | [] => by simp only [errandsAll, eventsAll, List.map_nil]
  | node :: later => by
    simp only [errandsAll, eventsAll, List.map_append, node.errands_event, errandsAll_event later]

end

/-- What is no name cannot be declared. Its event keeps the tag that the fault mentions. -/
theorem Node.declaredEvent_other (node : Node)
    (noName : ¬ ∃ mark name, node = .identifier mark name) :
    node.declaredEvent = .undeclarable node.tag := by
  cases node with
  | identifier mark name => exact absurd ⟨mark, name, rfl⟩ noName
  | _ => rfl

/-- An attempt to declare what is no name is a fault and leaves everything else as it is. A
resolution that has stopped before makes no such attempt. -/
theorem Resolution.declare_other {state : Resolution} (notStopped : ¬ state.fault.isSome = true)
    {node : Node} (noName : ¬ ∃ mark name, node = .identifier mark name) :
    state.declare node =
      (node, state.fail (.unsupported .analyze ("declaration of a " ++ node.tag ++ " node"))) := by
  unfold Resolution.declare
  rw [if_neg notStopped]
  split
  · exact absurd ⟨_, _, rfl⟩ noName
  · rfl

/-- Without a fault before it, an errand whose event can be resolved has the resolved event
afterwards, and the walker is in the scopes that the event leaves. The log may have grown. -/
theorem Errand.run_ok {state : Resolution} (going : state.fault = none) {errand : Errand}
    {resolved : Event} {next : ScopeTable}
    (resolves : errand.event.resolve state.table = .ok (resolved, next)) :
    (errand.run (.at state)).1.event = resolved ∧
      ∃ after, (errand.run (.at state)).2 = .at after ∧ after.fault = none ∧
        after.table = next := by
  have notStopped : ¬ state.fault.isSome = true := by rw [going]; decide
  cases errand with
  | opens announced scope =>
    cases resolves
    have opened : (Errand.opens announced scope).run (.at state) =
        (.opens announced scope, .at ((state.announce announced scope).enter scope)) :=
      if_neg notStopped
    rw [opened]
    refine ⟨rfl, _, rfl, ?_⟩
    unfold Resolution.announce
    split <;> exact ⟨going, rfl⟩
  | closes =>
    cases resolves
    exact ⟨rfl, _, rfl, going, rfl⟩
  | uses mark name =>
    simp only [event, Event.resolve] at resolves
    split at resolves
    · rename_i found
      cases resolves
      simp only [run, Walker.at, Resolution.use, if_neg notStopped, found]
      exact ⟨rfl, _, rfl, going, rfl⟩
    · cases resolves
  | declares node =>
    cases node with
    | identifier mark name =>
      simp only [event, Node.declaredEvent, Event.resolve] at resolves
      split at resolves
      · rename_i found
        split at resolves
        · rename_i defined
          cases resolves
          simp only [run, Walker.at, Resolution.declare, if_neg notStopped,
            Resolution.declareName, found, defined]
          exact ⟨rfl, _, rfl, going, rfl⟩
        · cases resolves
      · cases resolves
    | _ => cases resolves

/-- Without a fault before it, an errand whose event has a fault stays as it is. The walker has the
fault, and all scopes are as they were, though a declaration that is refused has taken a slot. -/
theorem Errand.run_error {state : Resolution} (going : state.fault = none) {errand : Errand}
    {fault : Fault} (fails : errand.event.resolve state.table = .error fault) :
    (errand.run (.at state)).1 = errand ∧
      ∃ after, (errand.run (.at state)).2 = .at after ∧ after.fault = some fault ∧
        after.table.scopes = state.table.scopes := by
  have notStopped : ¬ state.fault.isSome = true := by rw [going]; decide
  cases errand with
  | opens announced scope => cases fails
  | closes => cases fails
  | uses mark name =>
    simp only [event, Event.resolve] at fails
    split at fails
    · cases fails
    · cases fails
      have missing : state.use mark.position name =
          (name, state.fail (.undeclared name.name mark.position)) := by
        simp only [Resolution.use, if_neg notStopped]
      simp only [run, Walker.at, missing]
      exact ⟨trivial, _, rfl, rfl, rfl⟩
  | declares node =>
    by_cases isName : ∃ mark name, node = .identifier mark name
    · obtain ⟨mark, name, rfl⟩ := isName
      simp only [event, Node.declaredEvent, Event.resolve] at fails
      split at fails
      · rename_i found
        split at fails
        · cases fails
        · rename_i refused
          cases fails
          simp only [run, Walker.at, Resolution.declare, if_neg notStopped,
            Resolution.declareName, found, refused]
          exact ⟨trivial, _, rfl, rfl, rfl⟩
      · cases fails
        simp only [run, Walker.at, Resolution.declare, if_neg notStopped,
          Resolution.declareName]
        exact ⟨trivial, _, rfl, rfl, rfl⟩
    · simp only [event, node.declaredEvent_other isName] at fails
      cases fails
      simp only [run, Walker.at, Resolution.declare_other notStopped isName]
      exact ⟨trivial, _, rfl, rfl, rfl⟩

/-- Behind a fault, errands stay as they are, and so do the fault and the scopes. Scopes may be
left, which is not seen in the list of all scopes. -/
theorem runErrands_stopped (errands : List Errand) {walker : Walker}
    (stopped : walker.state.fault.isSome = true) :
    (runErrands errands walker).1 = errands ∧
      (runErrands errands walker).2.state.fault = walker.state.fault ∧
      (runErrands errands walker).2.state.table.scopes = walker.state.table.scopes := by
  induction errands generalizing walker with
  | nil => exact ⟨rfl, rfl, rfl⟩
  | cons errand later inductionHypothesis =>
    have first : (errand.run walker).1 = errand ∧
        (errand.run walker).2.state.fault = walker.state.fault ∧
        (errand.run walker).2.state.table.scopes = walker.state.table.scopes := by
      cases errand with
      | opens announced scope =>
        simp only [Errand.run, if_pos stopped, and_self]
      | closes =>
        rw [Errand.run]
        split
        · exact ⟨rfl, rfl, walker.state.table.exit_scopes⟩
        · exact ⟨rfl, rfl, rfl⟩
      | uses mark name => simp only [Errand.run, Resolution.use, if_pos stopped, and_self]
      | declares node => simp only [Errand.run, Resolution.declare, if_pos stopped, and_self]
    obtain ⟨sameErrand, sameFault, sameScopes⟩ := first
    have stillStopped : (errand.run walker).2.state.fault.isSome = true := by
      rw [sameFault]
      exact stopped
    obtain ⟨sameLater, laterFault, laterScopes⟩ := inductionHypothesis stillStopped
    simp only [runErrands]
    exact ⟨by rw [sameErrand, sameLater], laterFault.trans sameFault, laterScopes.trans sameScopes⟩

/-- Errands are run as their events are resolved, with the same outcome. The resolution must not
have stopped before, for then errands are run without effect. -/
theorem runErrands_event (errands : List Errand) {state : Resolution} (going : state.fault = none) :
    ((runErrands errands (.at state)).1.map Errand.event,
        (runErrands errands (.at state)).2.state.outcome) =
      resolveEvents state.table (errands.map Errand.event) := by
  induction errands generalizing state with
  | nil => simp only [runErrands, Walker.at, Resolution.outcome, going, List.map_nil, resolveEvents]
  | cons errand later inductionHypothesis =>
    simp only [runErrands, List.map_cons, resolveEvents]
    cases resolves : errand.event.resolve state.table with
    | error fault =>
      obtain ⟨sameErrand, after, isAfter, isFault, sameScopes⟩ := Errand.run_error going resolves
      have stopped : (Walker.at after).state.fault.isSome = true := by
        rw [Walker.at, isFault]
        rfl
      obtain ⟨sameLater, laterFault, laterScopes⟩ := runErrands_stopped later stopped
      rw [isAfter, sameErrand, sameLater]
      simp only [Resolution.outcome, laterFault.trans isFault, laterScopes.trans sameScopes]
    | ok result =>
      obtain ⟨resolved, next⟩ := result
      obtain ⟨resolvedErrand, after, isAfter, stillGoing, rfl⟩ := Errand.run_ok going resolves
      have rest := inductionHypothesis stillGoing
      rw [isAfter, resolvedErrand]
      simp only [← rest]

/-- A program is resolved as its events are. The log of a resolution is left out, as it has no part
in what events do. -/
theorem Node.resolve_events (root : Node) :
    (root.resolve.tree.events,
        (⟨root.resolve.table, #[], root.resolve.fault⟩ : Resolution).outcome) =
      resolveEvents ScopeTable.new root.events := by
  obtain ⟨fill, forms⟩ := root.exists_forms
  have notStopped : Resolution.start.fault = none := rfl
  have run := runErrands_event root.errands notStopped
  rw [root.errands_event, ← forms.errands_resolve, Node.errands_event] at run
  have ended : (root.resolveFrom Resolution.start).2 =
      (runErrands root.errands (.at Resolution.start)).2.state := by
    rw [forms.resolve_eq]
  rw [← ended] at run
  exact run

/-!
## Occurrences
-/

/-- The scopes that are open at some point of a walk, and the number of those that have opened
before it, the global one among them. -/
structure Nesting where
  opened : Nat
  current : Nat
  /-- The scopes around the current one, innermost first. -/
  outer : List Nat
  deriving DecidableEq, Repr

namespace Nesting

/-- The global scope is open. -/
def start : Nesting := ⟨1, 0, []⟩

/-- The open scopes behind an event. -/
def after (nesting : Nesting) : Event → Nesting
  | .opens _ => ⟨nesting.opened + 1, nesting.opened, nesting.current :: nesting.outer⟩
  | .closes =>
    match nesting.outer with
    | [] => nesting
    | parent :: outer => ⟨nesting.opened, parent, outer⟩
  | _ => nesting

end Nesting

/-- What a name stands in a program for. -/
inductive Occurrence.Role
  | use
  | declaration
  deriving DecidableEq, Repr

/-- A name where it stands in a program, with the scopes around it. Nothing here depends on the
table: scopes are numbered in the order in which they open. -/
structure Occurrence where
  role : Occurrence.Role
  name : String
  position : Position
  /-- The address that is stamped on the name. -/
  address : Option Int
  /-- The innermost scope around the name. -/
  scope : Nat
  /-- The other scopes around the name, innermost first. -/
  outer : List Nat
  deriving DecidableEq, Repr

/-- The occurrence that an event is, in the scopes that are open. -/
def Event.occurrence? (nesting : Nesting) : Event → Option Occurrence
  | .uses mark name =>
    some ⟨.use, name.name, mark.position, name.address, nesting.current, nesting.outer⟩
  | .declares mark name =>
    some ⟨.declaration, name.name, mark.position, name.address, nesting.current, nesting.outer⟩
  | _ => none

/-- The occurrences among events, when some scopes are open before them. -/
def occurrencesFrom (nesting : Nesting) : List Event → List Occurrence
  | [] => []
  | event :: later =>
    (event.occurrence? nesting).toList ++ occurrencesFrom (nesting.after event) later

/-- The names of a program in the order of resolution. -/
def Node.occurrences (root : Node) : List Occurrence := occurrencesFrom .start root.events

end IntMain
