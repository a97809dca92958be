import IntMain.Scope.Resolution
import IntMain.Tree.Walk
import Mathlib.Data.List.Forall2

/-!
# Resolution errand by errand

Resolution walks through a tree, but all that it does happens in a few places: where a scope
opens or closes, and where a name is used or declared. `Node.errands` lists these places in the
order of the walk. A walker runs one errand after the other and needs no tree for it: besides
the state of the resolution, it counts the scopes that it has passed over since a fault, so
that it leaves the scopes that were entered and no others.

What is around the errands of a tree never changes. `Forms` says so: there is a form into which
lists of errands can be filled, the tree is its own errands filled into the form, and resolving a
filled form is the same as running the errands and filling in what comes out. This is the only
induction over trees that resolution needs. Whatever holds of every single errand then holds of
the resolution of every tree, by induction on a list.
-/

namespace IntMain

/-!
## Changing names
-/

namespace Node

mutual

/-- The tree with every identifier changed. -/
def mapNames (change : Identifier → Identifier) : Node → Node
  | .integer mark value lexeme => .integer mark value lexeme
  | .identifier mark name => .identifier mark (change name)
  | .unary mark op operand => .unary mark op (operand.mapNames change)
  | .binary mark op left right => .binary mark op (left.mapNames change) (right.mapNames change)
  | .clause mark tag condition body =>
    .clause mark tag (condition.mapNames change) (body.mapNames change)
  | .chain mark clauses none => .chain mark (mapNamesAll change clauses) none
  | .chain mark clauses (some body) =>
    .chain mark (mapNamesAll change clauses) (some (body.mapNames change))
  | .whileLoop mark condition body =>
    .whileLoop mark (condition.mapNames change) (body.mapNames change)
  | .doWhile mark body condition =>
    .doWhile mark (body.mapNames change) (condition.mapNames change)
  | .compound mark statements => .compound mark (mapNamesAll change statements)
  | .block mark statements => .block mark (mapNamesAll change statements)
  | .declaration mark name => .declaration mark (name.mapNames change)
  | .initialization mark name value =>
    .initialization mark (name.mapNames change) (value.mapNames change)
  | .assignment mark target op value =>
    .assignment mark (target.mapNames change) op (value.mapNames change)
  | .returned mark value => .returned mark (value.mapNames change)
  | .empty mark => .empty mark

/-- Several trees with every identifier changed. -/
def mapNamesAll (change : Identifier → Identifier) : List Node → List Node
  | [] => []
  | node :: later => node.mapNames change :: mapNamesAll change later

end

end Node

/-!
## The errands of a tree
-/

/-- A place where resolution does something. Between two of them resolution only moves through the
tree. -/
inductive Errand
  /-- A scope of this name opens in the current one. That of a body is announced in the log,
  that of a block is not. -/
  | opens (announced : Bool) (scope : String)
  /-- The current scope closes. -/
  | closes
  | uses (mark : Mark) (name : Identifier)
  /-- A node stands where a name has to be declared. It need not be a name. -/
  | declares (node : Node)

namespace Errand

/-- The errand with every identifier in it changed. -/
def mapNames (change : Identifier → Identifier) : Errand → Errand
  | .opens announced scope => .opens announced scope
  | .closes => .closes
  | .uses mark name => .uses mark (change name)
  | .declares node => .declares (node.mapNames change)

/-- Errands that differ at most in a name or in the node that is declared. Only these may change
when a tree is resolved or renamed, so one such errand may stand in the other's place in a tree.
The mark of a name belongs to the tree and stays. -/
inductive Fits : Errand → Errand → Prop
  | opens {announced : Bool} {scope : String} :
      Fits (.opens announced scope) (.opens announced scope)
  | closes : Fits .closes .closes
  | uses {mark : Mark} {name other : Identifier} : Fits (.uses mark name) (.uses mark other)
  | declares {node other : Node} : Fits (.declares node) (.declares other)

/-- If one errand may stand in the place of another, the other may stand in its place. -/
theorem Fits.symm {errand other : Errand} (fits : Fits errand other) : Fits other errand := by
  cases fits <;> constructor

/-- Errands may be put in each other's place one after the other. Together with `Fits.symm`, two
errands that fit a third fit each other. -/
theorem Fits.trans {first second third : Errand} (front : Fits first second)
    (back : Fits second third) : Fits first third := by
  cases front <;> cases back <;> constructor

end Errand

namespace Node

/-- The errands of a part that has a scope of its own. -/
def scopedErrands (announced : Bool) (scope : String) (inner : List Errand) : List Errand :=
  .opens announced scope :: (inner ++ [.closes])

mutual

/-- The errands of a tree in the order of resolution. It is the order of the text, but that a value
comes before the name that it initializes. -/
def errands : Node → List Errand
  | .integer _ _ _ => []
  | .identifier mark name => [.uses mark name]
  | .unary _ _ operand => operand.errands
  | .binary _ _ left right => left.errands ++ right.errands
  | .clause mark tag condition body =>
    condition.errands ++ scopedErrands true (scopeName tag.scopeKind mark) body.errands
  | .chain _ clauses none => errandsAll clauses
  | .chain mark clauses (some body) =>
    errandsAll clauses ++ scopedErrands true (scopeName "else" mark) body.errands
  | .whileLoop mark condition body =>
    condition.errands ++ scopedErrands true (scopeName "while" mark) body.errands
  | .doWhile mark body condition =>
    scopedErrands true (scopeName "dowhile" mark) body.errands ++ condition.errands
  | .compound _ statements => errandsAll statements
  | .block mark statements => scopedErrands false (scopeName "block" mark) (errandsAll statements)
  | .declaration _ name => [.declares name]
  | .initialization _ name value => value.errands ++ [.declares name]
  | .assignment _ target _ value => target.errands ++ value.errands
  | .returned _ value => value.errands
  | .empty _ => []

/-- The errands of several trees in order. -/
def errandsAll : List Node → List Errand
  | [] => []
  | node :: later => node.errands ++ errandsAll later

end

end Node

/-!
## Running errands
-/

/-- A resolution under way. Behind a fault no scope is entered any more, so the walker has to know
which of the scopes that close it is in: it counts those that it has passed over since the
fault and that have not closed yet. -/
structure Walker where
  state : Resolution
  skipped : Nat

/-- The walker that has passed over no scope. Every walk begins with such a walker, and without a
fault it stays one. -/
def Walker.at (state : Resolution) : Walker := ⟨state, 0⟩

/-- A walker that has passed over no scope is known by its state. This puts the walker behind one
part of a tree into the form in which the walk through the next part begins. -/
theorem Walker.eq_at {walker : Walker} (noneSkipped : walker.skipped = 0) :
    walker = .at walker.state := by
  obtain ⟨state, skipped⟩ := walker
  obtain rfl : skipped = 0 := noneSkipped
  rfl

/-- The resolution that is about to enter a scope. The scope of a body is announced in the log,
which is all that distinguishes it from the scope of a block. -/
def Resolution.announce (state : Resolution) (announced : Bool) (scope : String) : Resolution :=
  if announced then { state with log := state.log.push (.debug ("entering scope " ++ scope)) }
  else state

/-- Run one errand: what becomes of it, and the walker behind it. Behind a fault no scope is
entered, and of those that close, only the ones that had been entered are left. -/
def Errand.run (walker : Walker) : Errand → Errand × Walker
  | .opens announced scope =>
    if walker.state.fault.isSome then
      (.opens announced scope, { walker with skipped := walker.skipped + 1 })
    else
      (.opens announced scope,
        { walker with state := (walker.state.announce announced scope).enter scope })
  | .closes =>
    match walker.skipped with
    | 0 => (.closes, { walker with state := walker.state.exit })
    | skipped + 1 => (.closes, { walker with skipped })
  | .uses mark name =>
    (.uses mark (walker.state.use mark.position name).1,
      { walker with state := (walker.state.use mark.position name).2 })
  | .declares node =>
    (.declares (walker.state.declare node).1,
      { walker with state := (walker.state.declare node).2 })

/-- Run errands in order. Nothing but the walker is handed from one errand to the next. -/
def runErrands : List Errand → Walker → List Errand × Walker
  | [], walker => ([], walker)
  | errand :: later, walker =>
    ((errand.run walker).1 :: (runErrands later (errand.run walker).2).1,
      (runErrands later (errand.run walker).2).2)

/-- Errands behind others are run by the walker that those leave. No premise on the first list is
needed: it may open scopes that only the second one closes. -/
theorem runErrands_append (first second : List Errand) (walker : Walker) :
    runErrands (first ++ second) walker =
      ((runErrands first walker).1 ++ (runErrands second (runErrands first walker).2).1,
        (runErrands second (runErrands first walker).2).2) := by
  induction first generalizing walker with
  | nil => rfl
  | cons errand later inductionHypothesis =>
    rw [List.cons_append, runErrands, inductionHypothesis]
    rfl

/-- What becomes of an errand may stand in the errand's place, whether it has a fault or not and
wherever the walker is. -/
theorem Errand.run_fits (errand : Errand) (walker : Walker) :
    Errand.Fits (errand.run walker).1 errand := by
  cases errand with
  | opens announced scope =>
    rw [Errand.run]
    split <;> exact .opens
  | closes =>
    rw [Errand.run]
    split <;> exact .closes
  | uses mark name => exact .uses
  | declares node => exact .declares

/-- What becomes of a list of errands fits the list, errand by errand. In particular it has the
same length, so it can be filled into the tree that the list was taken from. -/
theorem runErrands_fits (errands : List Errand) (walker : Walker) :
    List.Forall₂ Errand.Fits (runErrands errands walker).1 errands := by
  induction errands generalizing walker with
  | nil => exact .nil
  | cons errand later inductionHypothesis =>
    exact .cons (errand.run_fits walker) (inductionHypothesis _)

/-- What fits two lists in a row can be parted where the first of them ends. The length is given as
well, since a form for two parts finds the place by counting. -/
theorem Errand.fits_append {given first second : List Errand}
    (fits : List.Forall₂ Errand.Fits given (first ++ second)) :
    ∃ front back, given = front ++ back ∧ front.length = first.length ∧
      List.Forall₂ Errand.Fits front first ∧ List.Forall₂ Errand.Fits back second := by
  have front := List.forall₂_take_append given first second fits
  have back := List.forall₂_drop_append given first second fits
  exact ⟨_, _, (List.take_append_drop first.length given).symm, front.length_eq, front, back⟩

namespace Node

/-- What fits the errands of a part in its scope is the same scope around something that fits the
part. The scope has to be the same one, since no errand but itself fits the opening of a
scope. -/
theorem fits_scopedErrands {given model : List Errand} {announced : Bool} {scope : String}
    (fits : List.Forall₂ Errand.Fits given (scopedErrands announced scope model)) :
    ∃ between, given = scopedErrands announced scope between ∧
      List.Forall₂ Errand.Fits between model := by
  obtain ⟨first, rest, isOpening, restFits, rfl⟩ := List.forall₂_cons_right_iff.mp fits
  obtain ⟨between, back, rfl, -, betweenFits, backFits⟩ := Errand.fits_append restFits
  obtain ⟨last, others, isClosing, othersFit, rfl⟩ := List.forall₂_cons_right_iff.mp backFits
  obtain rfl := List.forall₂_nil_right_iff.mp othersFit
  cases isOpening
  cases isClosing
  exact ⟨between, rfl, betweenFits⟩

/-- The errands of a part are what is left of those of the part in its scope, without the first one
and the last one. -/
theorem scopedErrands_inner (announced : Bool) (scope : String) (inner : List Errand) :
    (scopedErrands announced scope inner).tail.dropLast = inner := by
  rw [scopedErrands, List.tail_cons, List.dropLast_concat]

/-- To change the names of a part in its scope is to change those of the part: there are none in the
opening and the closing of the scope. -/
theorem scopedErrands_mapNames (change : Identifier → Identifier) (announced : Bool)
    (scope : String) (inner : List Errand) :
    (scopedErrands announced scope inner).map (Errand.mapNames change) =
      scopedErrands announced scope (inner.map (Errand.mapNames change)) := by
  simp only [scopedErrands, List.map_cons, List.map_append, List.map_nil, Errand.mapNames]

end Node

/-!
## Resolving is running
-/

/-- The scopes that are open, innermost first. -/
def Resolution.openScopes (state : Resolution) : List Nat :=
  state.table.current :: state.table.outer

/-- To leave a scope undoes entering it, as far as open scopes go. What happened in between may have
been anything, as long as it ended with the same scopes open. -/
theorem Resolution.exit_openScopes {state after : Resolution} {announced : Bool} {scope : String}
    (same : after.openScopes = ((state.announce announced scope).enter scope).openScopes) :
    after.exit.openScopes = state.openScopes := by
  obtain ⟨-, around⟩ := List.cons.inj same
  have sameTable : (state.announce announced scope).table = state.table := by
    unfold Resolution.announce
    split <;> rfl
  simp only [Resolution.enter, ScopeTable.enter, sameTable] at around
  simp only [Resolution.openScopes, Resolution.exit, ScopeTable.exit, around]

/-- The form of a part of a program. Its own errands, filled into the form, give the part back.
Other errands may be filled in as well, as long as they fit those of the part. Then they are the
errands of what comes out; to change its names is to change them in the errands; and to resolve it
is to run the errands. The run ends with the scopes open that were open before it, and behind a
fault it does nothing at all, however many scopes the walker has passed over. -/
structure Forms {Part : Type} (errands : Part → List Errand)
    (change : (Identifier → Identifier) → Part → Part)
    (resolve : Part → Resolution → Part × Resolution) (fill : List Errand → Part)
    (part : Part) : Prop where
  fill_errands : fill (errands part) = part
  errands_fill : ∀ {given}, List.Forall₂ Errand.Fits given (errands part) →
    errands (fill given) = given
  change_fill : ∀ {given}, List.Forall₂ Errand.Fits given (errands part) → ∀ rename,
    change rename (fill given) = fill (given.map (Errand.mapNames rename))
  resolve_fill : ∀ {given}, List.Forall₂ Errand.Fits given (errands part) → ∀ state,
    resolve (fill given) state =
      (fill (runErrands given (.at state)).1, (runErrands given (.at state)).2.state)
  ends : ∀ {given}, List.Forall₂ Errand.Fits given (errands part) → ∀ state,
    (runErrands given (.at state)).2.skipped = 0 ∧
      (runErrands given (.at state)).2.state.openScopes = state.openScopes
  stopped : ∀ {given}, List.Forall₂ Errand.Fits given (errands part) → ∀ walker : Walker,
    walker.state.fault.isSome = true → runErrands given walker = (given, walker)

namespace Forms

variable {Part Other Whole : Type} {errands : Part → List Errand}
  {change : (Identifier → Identifier) → Part → Part}
  {resolve : Part → Resolution → Part × Resolution} {fill : List Errand → Part}
  {part : Part}

/-- Two parts that are resolved one after the other have their errands in that order. The errands
that are given to both are parted where those of the first part end, which is a matter of their
number only; the second part starts with the walker that the first one leaves. -/
theorem inOrder {otherErrands : Other → List Errand}
    {otherChange : (Identifier → Identifier) → Other → Other}
    {otherResolve : Other → Resolution → Other × Resolution} {otherFill : List Errand → Other}
    {other : Other} (first : Forms errands change resolve fill part)
    (second : Forms otherErrands otherChange otherResolve otherFill other) :
    Forms (fun both : Part × Other => errands both.1 ++ otherErrands both.2)
      (fun rename both => (change rename both.1, otherChange rename both.2))
      (fun both state =>
        (((resolve both.1 state).1, (otherResolve both.2 (resolve both.1 state).2).1),
          (otherResolve both.2 (resolve both.1 state).2).2))
      (fun given =>
        (fill (given.take (errands part).length), otherFill (given.drop (errands part).length)))
      (part, other) := by
  have ran {front back : List Errand} (frontFits : List.Forall₂ Errand.Fits front (errands part))
      (state : Resolution) : runErrands (front ++ back) (.at state) =
        ((runErrands front (.at state)).1 ++
            (runErrands back (.at (runErrands front (.at state)).2.state)).1,
          (runErrands back (.at (runErrands front (.at state)).2.state)).2) := by
    rw [runErrands_append, ← Walker.eq_at (first.ends frontFits state).1]
  constructor
  case fill_errands =>
    simp only [List.take_left, List.drop_left, first.fill_errands, second.fill_errands]
  case errands_fill =>
    intro given fits
    obtain ⟨front, back, rfl, sameLength, frontFits, backFits⟩ := Errand.fits_append fits
    simp only [← sameLength, List.take_left, List.drop_left, first.errands_fill frontFits,
      second.errands_fill backFits]
  case change_fill =>
    intro given fits rename
    obtain ⟨front, back, rfl, sameLength, frontFits, backFits⟩ := Errand.fits_append fits
    have renamedLength : (front.map (Errand.mapNames rename)).length = (errands part).length := by
      rw [List.length_map, sameLength]
    rw [List.map_append]
    simp only [← sameLength, List.take_left, List.drop_left, first.change_fill frontFits,
      second.change_fill backFits]
    simp only [sameLength, ← renamedLength, List.take_left, List.drop_left]
  case resolve_fill =>
    intro given fits state
    obtain ⟨front, back, rfl, sameLength, frontFits, backFits⟩ := Errand.fits_append fits
    have ranLength : (runErrands front (.at state)).1.length = (errands part).length := by
      rw [(runErrands_fits front _).length_eq, sameLength]
    rw [ran frontFits]
    simp only [← sameLength, List.take_left, List.drop_left, first.resolve_fill frontFits,
      second.resolve_fill backFits]
    simp only [sameLength, ← ranLength, List.take_left, List.drop_left]
  case ends =>
    intro given fits state
    obtain ⟨front, back, rfl, -, frontFits, backFits⟩ := Errand.fits_append fits
    rw [ran frontFits]
    obtain ⟨noneSkipped, sameOpen⟩ := second.ends backFits (runErrands front (.at state)).2.state
    exact ⟨noneSkipped, sameOpen.trans (first.ends frontFits state).2⟩
  case stopped =>
    intro given fits walker isStopped
    obtain ⟨front, back, rfl, -, frontFits, backFits⟩ := Errand.fits_append fits
    rw [runErrands_append, first.stopped frontFits walker isStopped,
      second.stopped backFits walker isStopped]

/-- What is built around a part has the form of the part, with the same built around what is filled
in. The three premises say that nothing in the building is an errand, a name or a step of
resolution; for a constructor of trees they are its equations. -/
theorem built {wholeErrands : Whole → List Errand}
    {wholeChange : (Identifier → Identifier) → Whole → Whole}
    {wholeResolve : Whole → Resolution → Whole × Resolution}
    (inner : Forms errands change resolve fill part) (build : Part → Whole)
    (sameErrands : ∀ part, wholeErrands (build part) = errands part)
    (sameChange : ∀ rename part, wholeChange rename (build part) = build (change rename part))
    (sameSteps : ∀ part state,
      wholeResolve (build part) state = (build (resolve part state).1, (resolve part state).2)) :
    Forms wholeErrands wholeChange wholeResolve (fun given => build (fill given)) (build part) := by
  constructor
  case fill_errands => rw [sameErrands, inner.fill_errands]
  case errands_fill =>
    intro given fits
    rw [sameErrands] at fits ⊢
    exact inner.errands_fill fits
  case change_fill =>
    intro given fits rename
    rw [sameErrands] at fits
    rw [sameChange, inner.change_fill fits]
  case resolve_fill =>
    intro given fits state
    rw [sameErrands] at fits
    rw [sameSteps, inner.resolve_fill fits]
  case ends =>
    rw [sameErrands]
    exact inner.ends
  case stopped =>
    rw [sameErrands]
    exact inner.stopped

/-- The errands of a part that has a scope of its own, as long as there is no fault before it: the
scope is entered, the part has its errands, and the scope is left. A fault of the part makes no
difference to this. -/
theorem run_scoped (inner : Forms errands change resolve fill part) (announced : Bool)
    (scope : String) {given : List Errand} (fits : List.Forall₂ Errand.Fits given (errands part))
    {state : Resolution} (going : ¬ state.fault.isSome = true) :
    let entered := (state.announce announced scope).enter scope
    runErrands (Node.scopedErrands announced scope given) (.at state) =
      (Node.scopedErrands announced scope (runErrands given (.at entered)).1,
        .at (runErrands given (.at entered)).2.state.exit) := by
  intro entered
  have opened : (Errand.opens announced scope).run (.at state) =
      (.opens announced scope, .at entered) := if_neg going
  simp only [Node.scopedErrands, runErrands, opened, runErrands_append]
  rw [Walker.eq_at (inner.ends fits entered).1]
  rfl

/-- Behind a fault the scope is passed over, and so is what is inside it. The walker counts the
scope on the way in and forgets it on the way out, so that in the end it is where it was. -/
theorem skip_scoped (inner : Forms errands change resolve fill part) (announced : Bool)
    (scope : String) {given : List Errand} (fits : List.Forall₂ Errand.Fits given (errands part))
    {walker : Walker} (isStopped : walker.state.fault.isSome = true) :
    runErrands (Node.scopedErrands announced scope given) walker =
      (Node.scopedErrands announced scope given, walker) := by
  have opened : (Errand.opens announced scope).run walker =
      (.opens announced scope, ⟨walker.state, walker.skipped + 1⟩) := if_pos isStopped
  have unchanged := inner.stopped fits ⟨walker.state, walker.skipped + 1⟩ isStopped
  simp only [Node.scopedErrands, runErrands, opened, runErrands_append, unchanged]
  rfl

/-- A part that is resolved in a scope of its own has the errands of the scope around it. Whether
the scope is announced makes no difference to the part, so blocks and bodies are covered
alike: `sameStopped` and `sameGoing` are what `within` and `withinBody` have in common. -/
theorem inScope {scopedResolve : Part → Resolution → Part × Resolution}
    (inner : Forms errands change resolve fill part) (announced : Bool) (scope : String)
    (sameStopped : ∀ part state, state.fault.isSome = true →
      scopedResolve part state = resolve part state)
    (sameGoing : ∀ part state, ¬ state.fault.isSome = true →
      scopedResolve part state =
        ((resolve part ((state.announce announced scope).enter scope)).1,
          (resolve part ((state.announce announced scope).enter scope)).2.exit)) :
    Forms (fun part => Node.scopedErrands announced scope (errands part)) change scopedResolve
      (fun given => fill given.tail.dropLast) part := by
  constructor
  case fill_errands => rw [Node.scopedErrands_inner, inner.fill_errands]
  case errands_fill =>
    intro given fits
    obtain ⟨between, rfl, betweenFits⟩ := Node.fits_scopedErrands fits
    rw [Node.scopedErrands_inner, inner.errands_fill betweenFits]
  case change_fill =>
    intro given fits rename
    obtain ⟨between, rfl, betweenFits⟩ := Node.fits_scopedErrands fits
    rw [Node.scopedErrands_mapNames, Node.scopedErrands_inner, Node.scopedErrands_inner,
      inner.change_fill betweenFits]
  case resolve_fill =>
    intro given fits state
    obtain ⟨between, rfl, betweenFits⟩ := Node.fits_scopedErrands fits
    rw [Node.scopedErrands_inner]
    by_cases isStopped : state.fault.isSome = true
    · rw [sameStopped _ _ isStopped, inner.resolve_fill betweenFits,
        inner.stopped betweenFits _ isStopped,
        inner.skip_scoped announced scope betweenFits isStopped, Node.scopedErrands_inner]
    · rw [sameGoing _ _ isStopped, inner.resolve_fill betweenFits,
        inner.run_scoped announced scope betweenFits isStopped, Node.scopedErrands_inner]
      rfl
  case ends =>
    intro given fits state
    obtain ⟨between, rfl, betweenFits⟩ := Node.fits_scopedErrands fits
    by_cases isStopped : state.fault.isSome = true
    · rw [inner.skip_scoped announced scope betweenFits isStopped]
      exact ⟨rfl, rfl⟩
    · rw [inner.run_scoped announced scope betweenFits isStopped]
      have around := (inner.ends betweenFits ((state.announce announced scope).enter scope)).2
      exact ⟨rfl, Resolution.exit_openScopes around⟩
  case stopped =>
    intro given fits walker isStopped
    obtain ⟨between, rfl, betweenFits⟩ := Node.fits_scopedErrands fits
    exact inner.skip_scoped announced scope betweenFits isStopped

/-- A part without errands has one form only, itself. There is nothing to fill in, so the form
ignores what it is given. -/
theorem constant (part : Part) (noErrands : errands part = [])
    (noNames : ∀ rename, change rename part = part)
    (noSteps : ∀ state, resolve part state = (part, state)) :
    Forms errands change resolve (fun _ => part) part := by
  constructor
  case fill_errands => rfl
  case errands_fill =>
    intro given fits
    rw [noErrands] at fits ⊢
    exact (List.forall₂_nil_right_iff.mp fits).symm
  case change_fill =>
    intro given fits rename
    exact noNames rename
  case resolve_fill =>
    intro given fits state
    rw [noErrands] at fits
    obtain rfl := List.forall₂_nil_right_iff.mp fits
    exact noSteps state
  case ends =>
    intro given fits state
    rw [noErrands] at fits
    obtain rfl := List.forall₂_nil_right_iff.mp fits
    exact ⟨rfl, rfl⟩
  case stopped =>
    intro given fits walker _
    rw [noErrands] at fits
    obtain rfl := List.forall₂_nil_right_iff.mp fits
    rfl

/-- A part that is one errand. The errand wraps the part up, and only errands that wrap parts up fit
it; to resolve the part is to run the errand, which opens and closes no scope. The use of a
name and a declaration are of this kind. -/
theorem single {wrap : Part → Errand} {unwrap : Errand → Part}
    (unwrap_wrap : ∀ part, unwrap (wrap part) = part)
    (wraps : ∀ {errand part}, Errand.Fits errand (wrap part) → ∃ other, errand = wrap other)
    (sameChange : ∀ rename part, (wrap part).mapNames rename = wrap (change rename part))
    (sameErrand : ∀ part walker, (wrap part).run walker =
      (wrap (resolve part walker.state).1, { walker with state := (resolve part walker.state).2 }))
    (sameOpen : ∀ part state, (resolve part state).2.openScopes = state.openScopes)
    (unchanged : ∀ part state, state.fault.isSome = true → resolve part state = (part, state))
    (part : Part) :
    Forms (fun part => [wrap part]) change resolve (fun given => unwrap (given.headD .closes))
      part := by
  have wrapped {given : List Errand} (fits : List.Forall₂ Errand.Fits given [wrap part]) :
      ∃ other, given = [wrap other] := by
    obtain ⟨errand, others, errandFits, othersFit, rfl⟩ := List.forall₂_cons_right_iff.mp fits
    obtain rfl := List.forall₂_nil_right_iff.mp othersFit
    obtain ⟨other, rfl⟩ := wraps errandFits
    exact ⟨other, rfl⟩
  constructor
  case fill_errands => exact unwrap_wrap part
  case errands_fill =>
    intro given fits
    obtain ⟨other, rfl⟩ := wrapped fits
    rw [List.headD_cons, unwrap_wrap]
  case change_fill =>
    intro given fits rename
    obtain ⟨other, rfl⟩ := wrapped fits
    rw [List.map_singleton, sameChange, List.headD_cons, List.headD_cons, unwrap_wrap, unwrap_wrap]
  case resolve_fill =>
    intro given fits state
    obtain ⟨other, rfl⟩ := wrapped fits
    simp only [List.headD_cons, unwrap_wrap, runErrands, sameErrand]
    rfl
  case ends =>
    intro given fits state
    obtain ⟨other, rfl⟩ := wrapped fits
    simp only [runErrands, sameErrand]
    exact ⟨rfl, sameOpen other state⟩
  case stopped =>
    intro given fits walker isStopped
    obtain ⟨other, rfl⟩ := wrapped fits
    simp only [runErrands, sameErrand, unchanged other walker.state isStopped]

end Forms

/-- The name that an errand uses, and some name if it uses none. -/
def Errand.usedName : Errand → Identifier
  | .uses _ name => name
  | _ => { name := "" }

/-- The node that an errand declares, and some node if it declares none. -/
def Errand.declaredNode : Errand → Node
  | .declares node => node
  | _ => .empty ⟨0, ⟨0, 0⟩⟩

namespace Resolution

/-- The use of a name opens and closes no scope. It only reads the table, also if the name is not
found. -/
theorem use_openScopes (state : Resolution) (position : Position) (name : Identifier) :
    (state.use position name).2.openScopes = state.openScopes := by
  unfold Resolution.use
  split
  · rfl
  · split <;> rfl

/-- A declaration opens and closes no scope, whatever node it declares: it may take a slot and enter
a symbol into the current scope, and both leave the chain of scopes alone. -/
theorem declare_openScopes (state : Resolution) (node : Node) :
    (state.declare node).2.openScopes = state.openScopes := by
  unfold Resolution.declare
  split
  · rfl
  · split
    · simp only [declareName, ScopeTable.define]
      split
      · split
        · rename_i defined isDefined
          split at isDefined
          · cases isDefined
          · cases isDefined
            rfl
        · rfl
      · rfl
    · rfl

/-- The use of a name is one errand. Its mark is part of the form, since the position for a fault is
read from it. -/
theorem use_forms (mark : Mark) (name : Identifier) :
    Forms (fun name => [.uses mark name]) (fun rename name => rename name)
      (fun name state => state.use mark.position name)
      (fun given => (given.headD .closes).usedName) name := by
  refine Forms.single ?_ ?_ ?_ ?_ ?_ ?_ name
  · exact fun _ => rfl
  · intro errand part fits
    cases fits
    exact ⟨_, rfl⟩
  · exact fun _ _ => rfl
  · exact fun _ _ => rfl
  · exact fun name state => state.use_openScopes mark.position name
  · exact fun name state isStopped => if_pos isStopped

/-- A declaration is one errand, whatever node it declares. The node is kept as a whole, so the
names in a node that cannot be declared are not lost. -/
theorem declare_forms (node : Node) :
    Forms (fun node => [.declares node]) Node.mapNames (fun node state => state.declare node)
      (fun given => (given.headD .closes).declaredNode) node := by
  refine Forms.single ?_ ?_ ?_ ?_ ?_ ?_ node
  · exact fun _ => rfl
  · intro errand part fits
    cases fits
    exact ⟨_, rfl⟩
  · exact fun _ _ => rfl
  · exact fun _ _ => rfl
  · exact fun node state => state.declare_openScopes node
  · exact fun node state isStopped => if_pos isStopped

end Resolution

namespace Forms

variable {Part : Type} {errands : Part → List Errand}
  {change : (Identifier → Identifier) → Part → Part}
  {resolve : Part → Resolution → Part × Resolution} {fill : List Errand → Part} {part : Part}

/-- The statements of a block are a part in a scope that is not announced. What is filled in lies
between the opening and the closing, so these two are taken off first. -/
theorem within (inner : Forms errands change resolve fill part) (scope : String) :
    Forms (fun part => Node.scopedErrands false scope (errands part)) change
      (fun part state => state.within scope (resolve part))
      (fun given => fill given.tail.dropLast) part := by
  refine inner.inScope false scope ?_ ?_
  · intro part state isStopped
    exact if_pos isStopped
  · intro part state going
    exact if_neg going

/-- The body of a control statement is a part in a scope that is announced. Behind a fault there is
no announcement either, which is why the two cases of `inScope` suffice. -/
theorem withinBody (inner : Forms errands change resolve fill part) (scope : String) :
    Forms (fun part => Node.scopedErrands true scope (errands part)) change
      (fun part state => state.withinBody scope (resolve part))
      (fun given => fill given.tail.dropLast) part := by
  refine inner.inScope true scope ?_ ?_
  · intro part state isStopped
    simp only [Resolution.withinBody, Resolution.within, if_pos isStopped]
  · intro part state going
    simp only [Resolution.withinBody, Resolution.within, if_neg going]
    rfl

end Forms

mutual

/-- Every tree has a form. There is one case for each kind of node: its children have forms by
induction, they are put in the order in which resolution comes to them, some of them in scopes
of their own, and the node is built around them. All that is said about resolution in terms of
errands rests on this induction. -/
theorem Node.exists_forms : (node : Node) →
    ∃ fill, Forms errands mapNames resolveFrom fill node
  | .integer mark value lexeme => by
    refine ⟨_, Forms.constant _ ?_ ?_ ?_⟩ <;> intros <;> simp only [errands, mapNames, resolveFrom]
  | .identifier mark name => by
    have part := Resolution.use_forms mark name
    refine ⟨_, part.built (Node.identifier mark) ?_ ?_ ?_⟩ <;> intros <;>
      simp only [errands, mapNames, resolveFrom]
  | .unary mark op operand => by
    obtain ⟨_, part⟩ := operand.exists_forms
    refine ⟨_, part.built (Node.unary mark op) ?_ ?_ ?_⟩ <;> intros <;>
      simp only [errands, mapNames, resolveFrom]
  | .binary mark op left right => by
    obtain ⟨_, leftForm⟩ := left.exists_forms
    obtain ⟨_, rightForm⟩ := right.exists_forms
    refine ⟨_, (leftForm.inOrder rightForm).built
      (fun both => Node.binary mark op both.1 both.2) ?_ ?_ ?_⟩ <;> intros <;>
      simp only [errands, mapNames, resolveFrom]
  | .clause mark tag condition body => by
    obtain ⟨_, conditionForm⟩ := condition.exists_forms
    obtain ⟨_, bodyForm⟩ := body.exists_forms
    have inner := bodyForm.withinBody (scopeName tag.scopeKind mark)
    refine ⟨_, (conditionForm.inOrder inner).built
      (fun both => Node.clause mark tag both.1 both.2) ?_ ?_ ?_⟩ <;> intros <;>
      simp only [errands, mapNames, resolveFrom]
  | .chain mark clauses none => by
    obtain ⟨_, part⟩ := Node.exists_forms_all clauses
    refine ⟨_, part.built (fun clauses => Node.chain mark clauses none) ?_ ?_ ?_⟩ <;> intros <;>
      simp only [errands, mapNames, resolveFrom]
  | .chain mark clauses (some body) => by
    obtain ⟨_, clausesForm⟩ := Node.exists_forms_all clauses
    obtain ⟨_, bodyForm⟩ := body.exists_forms
    have inner := bodyForm.withinBody (scopeName "else" mark)
    refine ⟨_, (clausesForm.inOrder inner).built
      (fun both => Node.chain mark both.1 (some both.2)) ?_ ?_ ?_⟩ <;> intros <;>
      simp only [errands, mapNames, resolveFrom]
  | .whileLoop mark condition body => by
    obtain ⟨_, conditionForm⟩ := condition.exists_forms
    obtain ⟨_, bodyForm⟩ := body.exists_forms
    have inner := bodyForm.withinBody (scopeName "while" mark)
    refine ⟨_, (conditionForm.inOrder inner).built
      (fun both => Node.whileLoop mark both.1 both.2) ?_ ?_ ?_⟩ <;> intros <;>
      simp only [errands, mapNames, resolveFrom]
  | .doWhile mark body condition => by
    obtain ⟨_, bodyForm⟩ := body.exists_forms
    obtain ⟨_, conditionForm⟩ := condition.exists_forms
    have inner := bodyForm.withinBody (scopeName "dowhile" mark)
    refine ⟨_, (inner.inOrder conditionForm).built
      (fun both => Node.doWhile mark both.1 both.2) ?_ ?_ ?_⟩ <;> intros <;>
      simp only [errands, mapNames, resolveFrom]
  | .compound mark statements => by
    obtain ⟨_, part⟩ := Node.exists_forms_all statements
    refine ⟨_, part.built (Node.compound mark) ?_ ?_ ?_⟩ <;> intros <;>
      simp only [errands, mapNames, resolveFrom]
  | .block mark statements => by
    obtain ⟨_, part⟩ := Node.exists_forms_all statements
    have inner := part.within (scopeName "block" mark)
    refine ⟨_, inner.built (Node.block mark) ?_ ?_ ?_⟩ <;> intros <;>
      simp only [errands, mapNames, resolveFrom]
  | .declaration mark name => by
    have part := Resolution.declare_forms name
    refine ⟨_, part.built (Node.declaration mark) ?_ ?_ ?_⟩ <;> intros <;>
      simp only [errands, mapNames, resolveFrom]
  | .initialization mark name value => by
    obtain ⟨_, valueForm⟩ := value.exists_forms
    refine ⟨_, (valueForm.inOrder (Resolution.declare_forms name)).built
      (fun both => Node.initialization mark both.2 both.1) ?_ ?_ ?_⟩ <;> intros <;>
      simp only [errands, mapNames, resolveFrom]
  | .assignment mark target op value => by
    obtain ⟨_, targetForm⟩ := target.exists_forms
    obtain ⟨_, valueForm⟩ := value.exists_forms
    refine ⟨_, (targetForm.inOrder valueForm).built
      (fun both => Node.assignment mark both.1 op both.2) ?_ ?_ ?_⟩ <;> intros <;>
      simp only [errands, mapNames, resolveFrom]
  | .returned mark value => by
    obtain ⟨_, part⟩ := value.exists_forms
    refine ⟨_, part.built (Node.returned mark) ?_ ?_ ?_⟩ <;> intros <;>
      simp only [errands, mapNames, resolveFrom]
  | .empty mark => by
    refine ⟨_, Forms.constant _ ?_ ?_ ?_⟩ <;> intros <;> simp only [errands, mapNames, resolveFrom]

/-- Several trees that are resolved in order have a form together. It is proved together with the
lemma on one tree. -/
theorem Node.exists_forms_all : (nodes : List Node) →
    ∃ fill, Forms errandsAll mapNamesAll resolveAll fill nodes
  | [] => by
    refine ⟨_, Forms.constant _ ?_ ?_ ?_⟩ <;> intros <;>
      simp only [errandsAll, mapNamesAll, resolveAll]
  | node :: later => by
    obtain ⟨_, nodeForm⟩ := node.exists_forms
    obtain ⟨_, laterForm⟩ := Node.exists_forms_all later
    refine ⟨_, (nodeForm.inOrder laterForm).built (fun both => both.1 :: both.2) ?_ ?_ ?_⟩ <;>
      intros <;> simp only [errandsAll, mapNamesAll, resolveAll]

end

/-!
## What errands tell about a tree
-/

/-- An errand with other names may stand in the place of the errand, whatever the names are: a
change of names keeps the marks and the scopes. -/
theorem Errand.mapNames_fits (change : Identifier → Identifier) (errand : Errand) :
    Errand.Fits (errand.mapNames change) errand := by
  cases errand with
  | opens announced scope => exact .opens
  | closes => exact .closes
  | uses mark name => exact .uses
  | declares node => exact .declares

/-- A list of errands with other names fits the list, so it can be filled into the tree that the
list was taken from. -/
theorem Errand.map_mapNames_fits (change : Identifier → Identifier) (errands : List Errand) :
    List.Forall₂ Errand.Fits (errands.map (Errand.mapNames change)) errands := by
  rw [List.forall₂_map_left_iff, List.forall₂_same]
  exact fun errand _ => errand.mapNames_fits change

/-- A list of errands fits itself, so what is said of everything that can be filled into a form is
said of the part that the form belongs to. -/
theorem Errand.fits_self (errands : List Errand) : List.Forall₂ Errand.Fits errands errands := by
  rw [List.forall₂_same]
  rintro (_ | _ | _ | _) _
  · exact .opens
  · exact .closes
  · exact .uses
  · exact .declares

namespace Forms

variable {Part : Type} {errands : Part → List Errand}
  {change : (Identifier → Identifier) → Part → Part}
  {resolve : Part → Resolution → Part × Resolution} {fill : List Errand → Part} {part : Part}

/-- A part with other names is its form, filled with its errands with the other names. In this and
the following statements all parts are written with one `fill`, so that two of them are the
same as soon as their errands are. -/
theorem change_eq (forms : Forms errands change resolve fill part)
    (rename : Identifier → Identifier) :
    change rename part = fill ((errands part).map (Errand.mapNames rename)) := by
  have changed := forms.change_fill (Errand.fits_self _) rename
  rwa [forms.fill_errands] at changed

/-- A resolved part is its form, filled with what its errands have become, and resolution ends in
the state in which the run of the errands ends. -/
theorem resolve_eq (forms : Forms errands change resolve fill part) (state : Resolution) :
    resolve part state = (fill (runErrands (errands part) (.at state)).1,
      (runErrands (errands part) (.at state)).2.state) := by
  have resolved := forms.resolve_fill (Errand.fits_self _) state
  rwa [forms.fill_errands] at resolved

/-- The errands of a resolved part are what its errands have become. Unlike `resolve_eq` this
does not mention the form, so it is of use where the part is only looked at. -/
theorem errands_resolve (forms : Forms errands change resolve fill part) (state : Resolution) :
    errands (resolve part state).1 = (runErrands (errands part) (.at state)).1 := by
  rw [forms.resolve_eq, forms.errands_fill (runErrands_fits _ _)]

/-- A part whose names are changed and which is then resolved: it is resolved as the changed errands
are run, in the form of the part. -/
theorem resolve_change_eq (forms : Forms errands change resolve fill part)
    (rename : Identifier → Identifier) (state : Resolution) :
    resolve (change rename part) state =
      (fill (runErrands ((errands part).map (Errand.mapNames rename)) (.at state)).1,
        (runErrands ((errands part).map (Errand.mapNames rename)) (.at state)).2.state) := by
  rw [forms.change_eq, forms.resolve_fill (Errand.map_mapNames_fits rename _)]

/-- A part that is resolved and whose names are then changed: the change applies to what the errands
have become, in the form of the part. -/
theorem change_resolve_eq (forms : Forms errands change resolve fill part)
    (rename : Identifier → Identifier) (state : Resolution) :
    change rename (resolve part state).1 =
      fill ((runErrands (errands part) (.at state)).1.map (Errand.mapNames rename)) := by
  rw [forms.resolve_eq, forms.change_fill (runErrands_fits _ _)]

/-- A part that is resolved and then resolved again: the second run is that of what the errands have
become in the first, in the form of the part. The two may start in different states. -/
theorem resolve_resolve_eq (forms : Forms errands change resolve fill part)
    (first second : Resolution) :
    resolve (resolve part first).1 second =
      (fill (runErrands (runErrands (errands part) (.at first)).1 (.at second)).1,
        (runErrands (runErrands (errands part) (.at first)).1 (.at second)).2.state) := by
  rw [forms.resolve_eq, forms.resolve_fill (runErrands_fits _ _)]

end Forms

end IntMain
