import IntMain.Proofs.Occurrences

/-!
# Trees that differ in their names

`Node.mapNames` changes every identifier of a tree and nothing else. When two trees differ
by such a change, their resolutions go side by side, errand by errand: they meet the same
events, one with the changed names. What one event does to the two tables is then enough to
compare the two resolutions as a whole, and it is the only thing that depends on the change.

The first use is the change that takes all stamps away. Resolution neither reads stamps nor
changes anything else, so it may be run again on a tree that it has stamped, wholly or in
part, and comes to the same result.
-/

namespace IntMain

/-!
## Results side by side
-/

/-- Both computations fail, or both succeed with related results. The faults need not be related,
since a name in a fault may be a changed one. -/
def Alike {Cause OtherCause Result OtherResult : Type}
    (related : Result → OtherResult → Prop) :
    Except Cause Result → Except OtherCause OtherResult → Prop
  | .ok result, .ok other => related result other
  | .error _, .error _ => True
  | _, _ => False

namespace Alike

variable {Cause OtherCause Result OtherResult Next OtherNext : Type}
  {related : Result → OtherResult → Prop} {relatedNext : Next → OtherNext → Prop}

/-- Computations that are alike go on alike, if related results lead to computations that are
alike. -/
theorem bind {first : Except Cause Result} {second : Except OtherCause OtherResult}
    (alike : Alike related first second) {next : Result → Except Cause Next}
    {otherNext : OtherResult → Except OtherCause OtherNext}
    (goOn : ∀ result other, related result other →
      Alike relatedNext (next result) (otherNext other)) :
    Alike relatedNext (first >>= next) (second >>= otherNext) := by
  cases first with
  | error cause =>
    cases second with
    | error otherCause => trivial
    | ok other => exact alike.elim
  | ok result =>
    cases second with
    | error otherCause => exact alike.elim
    | ok other => exact goOn result other alike

/-- Related results may be related in a weaker way. Which of the computations fail does not
change. -/
theorem mono {weaker : Result → OtherResult → Prop} {first : Except Cause Result}
    {second : Except OtherCause OtherResult} (alike : Alike related first second)
    (weakens : ∀ result other, related result other → weaker result other) :
    Alike weaker first second := by
  cases first <;> cases second <;> first | exact weakens _ _ alike | exact alike

/-- A computation that is like a successful one succeeds, with a result that is related. -/
theorem of_ok {result : Result} {second : Except OtherCause OtherResult}
    (alike : Alike related (.ok result : Except Cause Result) second) :
    ∃ other, second = .ok other ∧ related result other := by
  cases second with
  | error cause => exact alike.elim
  | ok other => exact ⟨other, rfl, alike⟩

/-- A computation is like itself, with equal results. -/
theorem refl {computation : Except Cause Result} : Alike Eq computation computation := by
  cases computation <;> trivial

end Alike

/-!
## Changing names
-/

namespace Node

/-- What holds of a node whenever it holds of its children holds of every node. With this a proof
need not name the forms of nodes. -/
theorem induction_children {motive : Node → Prop}
    (step : ∀ node, (∀ child ∈ node.children, motive child) → motive node) (node : Node) :
    motive node :=
  step node (fun child _ => induction_children step child)
termination_by sizeOf node
decreasing_by exact sizeOf_lt_of_mem_children (by assumption)

/-- The trees are changed one by one, so lemmas about lists apply. -/
theorem mapNamesAll_eq (change : Identifier → Identifier) (nodes : List Node) :
    mapNamesAll change nodes = nodes.map (mapNames change) := by
  induction nodes with
  | nil => rw [mapNamesAll, List.map_nil]
  | cons node later inductionHypothesis => rw [mapNamesAll, List.map_cons, inductionHypothesis]

/-- A changed node has the changed children, whatever the node is. An identifier has none, before
and after. -/
theorem children_mapNames (change : Identifier → Identifier) (node : Node) :
    (node.mapNames change).children = node.children.map (mapNames change) := by
  cases node with
  | chain mark clauses otherwise =>
    cases otherwise <;> simp [mapNames, children, mapNamesAll_eq]
  | _ => simp [mapNames, children, mapNamesAll_eq]

mutual

/-- Without a change, a tree stays what it is. The recursion follows the constructors of the
tree. -/
theorem mapNames_same : (node : Node) → node.mapNames (fun name => name) = node
  | .integer _ _ _ => by simp only [mapNames]
  | .identifier _ _ => by simp only [mapNames]
  | .unary _ _ operand => by simp only [mapNames, operand.mapNames_same]
  | .binary _ _ left right => by simp only [mapNames, left.mapNames_same, right.mapNames_same]
  | .clause _ _ condition body => by
    simp only [mapNames, condition.mapNames_same, body.mapNames_same]
  | .chain _ clauses none => by simp only [mapNames, mapNamesAll_same clauses]
  | .chain _ clauses (some body) => by
    simp only [mapNames, mapNamesAll_same clauses, body.mapNames_same]
  | .whileLoop _ condition body => by
    simp only [mapNames, condition.mapNames_same, body.mapNames_same]
  | .doWhile _ body condition => by
    simp only [mapNames, body.mapNames_same, condition.mapNames_same]
  | .compound _ statements => by simp only [mapNames, mapNamesAll_same statements]
  | .block _ statements => by simp only [mapNames, mapNamesAll_same statements]
  | .declaration _ name => by simp only [mapNames, name.mapNames_same]
  | .initialization _ name value => by
    simp only [mapNames, name.mapNames_same, value.mapNames_same]
  | .assignment _ target _ value => by
    simp only [mapNames, target.mapNames_same, value.mapNames_same]
  | .returned _ value => by simp only [mapNames, value.mapNames_same]
  | .empty _ => by simp only [mapNames]

/-- Without a change, several trees stay what they are. It is proved together with the lemma on one
tree. -/
theorem mapNamesAll_same : (nodes : List Node) → mapNamesAll (fun name => name) nodes = nodes
  | [] => by simp only [mapNamesAll]
  | node :: later => by simp only [mapNamesAll, node.mapNames_same, mapNamesAll_same later]

end

end Node

/-- An event with its identifier changed. -/
def Event.mapName (change : Identifier → Identifier) : Event → Event
  | .opens scope => .opens scope
  | .closes => .closes
  | .uses mark name => .uses mark (change name)
  | .declares mark name => .declares mark (change name)
  | .undeclarable tag => .undeclarable tag

/-!
## Resolutions side by side
-/

/-- One event changes two tables alike, and what it stamps on the changed identifier is
what it stamps on the other one, changed. -/
def Event.Corresponds (before after : Identifier → Identifier)
    (tables : ScopeTable → ScopeTable → Prop) (event : Event) : Prop :=
  ∀ table other, tables table other →
    Alike (fun result otherResult => otherResult.1 = result.1.mapName after ∧
        tables result.2 otherResult.2)
      (event.resolve table) ((event.mapName before).resolve other)

/-- Outcomes are alike if there are faults on both sides, or on none and the tables are
related. -/
theorem Resolution.alike_outcome_iff {tables : ScopeTable → ScopeTable → Prop}
    {state other : Resolution} :
    Alike tables state.outcome other.outcome ↔
      state.fault.isSome = other.fault.isSome ∧
        (state.fault = none → tables state.table other.table) := by
  unfold outcome
  cases state.fault <;> cases other.fault <;> simp [Alike]

section Trees

variable {before after : Identifier → Identifier} {tables : ScopeTable → ScopeTable → Prop}

/-- An errand with changed names has the event with the changed name. Openings and closings have no
name and stay as they are. -/
theorem Errand.mapNames_event (change : Identifier → Identifier) (errand : Errand) :
    (errand.mapNames change).event = errand.event.mapName change := by
  cases errand with
  | opens announced scope => rfl
  | closes => rfl
  | uses mark name => rfl
  | declares node =>
    cases node with
    | chain mark clauses otherwise =>
      cases otherwise <;>
        simp only [Errand.mapNames, Errand.event, Node.mapNames, Node.declaredEvent, Event.mapName,
          Node.tag]
    | _ =>
      simp only [Errand.mapNames, Errand.event, Node.mapNames, Node.declaredEvent, Event.mapName,
        Node.tag]

/-- Among errands that fit each other, one whose event is the other's, changed, is the other one
with changed names, unless a node stands there that cannot be declared: its names are not in
the event. -/
theorem Errand.eq_mapNames {errand other : Errand} (fits : Errand.Fits other errand)
    (declarable : ∀ tag, errand.event ≠ .undeclarable tag)
    (same : other.event = errand.event.mapName after) : other = errand.mapNames after := by
  cases fits with
  | opens => rfl
  | closes => rfl
  | uses => rw [Errand.mapNames, (Event.uses.inj same).2]
  | @declares other node =>
    cases node with
    | identifier mark name =>
      cases other with
      | identifier otherMark otherName =>
        obtain ⟨rfl, rfl⟩ := Event.declares.inj same
        rw [Errand.mapNames, Node.mapNames]
      | _ => cases same
    | _ => exact absurd rfl (declarable _)

/-- What is resolved is not a node that cannot be declared, because that would be a fault. -/
theorem Event.resolve_declarable {event resolved : Event} {table next : ScopeTable}
    (resolves : event.resolve table = .ok (resolved, next)) (tag : String) :
    resolved ≠ .undeclarable tag := by
  rintro rfl
  cases event with
  | opens scope => cases resolves
  | closes => cases resolves
  | undeclarable tag => cases resolves
  | uses mark name =>
    simp only [Event.resolve] at resolves
    split at resolves <;> cases resolves
  | declares mark name =>
    simp only [Event.resolve] at resolves
    split at resolves
    · split at resolves <;> cases resolves
    · cases resolves

/-- An errand and the errand with changed names, taken in related tables without a fault: both
have a fault, or neither has, the tables are related behind them, and what becomes of the second
is what becomes of the first, with its names changed. -/
theorem Errand.run_mapNames {errand : Errand}
    (corresponds : errand.event.Corresponds before after tables) {state other : Resolution}
    (going : state.fault = none) (otherGoing : other.fault = none)
    (related : tables state.table other.table) :
    ∃ next otherNext, (errand.run (.at state)).2 = .at next ∧
      ((errand.mapNames before).run (.at other)).2 = .at otherNext ∧
      ((next.fault.isSome = true ∧ otherNext.fault.isSome = true) ∨
        (next.fault = none ∧ otherNext.fault = none ∧ tables next.table otherNext.table ∧
          ((errand.mapNames before).run (.at other)).1 =
            (errand.run (.at state)).1.mapNames after)) := by
  have steps := corresponds state.table other.table related
  rw [← Errand.mapNames_event] at steps
  cases resolves : errand.event.resolve state.table with
  | error fault =>
    cases otherResolves : (errand.mapNames before).event.resolve other.table with
    | ok result => exact absurd steps (by rw [resolves, otherResolves]; exact id)
    | error otherFault =>
      obtain ⟨-, next, isNext, isFault, -⟩ := Errand.run_error going resolves
      obtain ⟨-, otherNext, isOtherNext, isOtherFault, -⟩ :=
        Errand.run_error otherGoing otherResolves
      refine ⟨next, otherNext, isNext, isOtherNext, .inl ?_⟩
      rw [isFault, isOtherFault]
      exact ⟨rfl, rfl⟩
  | ok result =>
    cases otherResolves : (errand.mapNames before).event.resolve other.table with
    | error fault => exact absurd steps (by rw [resolves, otherResolves]; exact id)
    | ok otherResult =>
      obtain ⟨resolved, table⟩ := result
      obtain ⟨otherResolved, otherTable⟩ := otherResult
      rw [resolves, otherResolves] at steps
      obtain ⟨sameEvent, nextRelated⟩ := steps
      obtain ⟨isResolved, next, isNext, nextGoing, rfl⟩ := Errand.run_ok going resolves
      obtain ⟨isOtherResolved, otherNext, isOtherNext, otherNextGoing, rfl⟩ :=
        Errand.run_ok otherGoing otherResolves
      refine ⟨next, otherNext, isNext, isOtherNext, .inr
        ⟨nextGoing, otherNextGoing, nextRelated, Errand.eq_mapNames ?_ ?_ ?_⟩⟩
      · have otherFits := ((errand.mapNames before).run_fits (.at other)).trans
          (errand.mapNames_fits before)
        exact otherFits.trans (errand.run_fits (.at state)).symm
      · intro tag
        rw [isResolved]
        exact Event.resolve_declarable resolves tag
      · rw [isResolved, isOtherResolved]
        exact sameEvent

/-- Errands and the errands with changed names are run side by side, if their events correspond. The
changed errands have a fault if and only if the others have. -/
theorem runErrands_mapNames {errands : List Errand}
    (all : ∀ errand ∈ errands, errand.event.Corresponds before after tables)
    {state other : Resolution} (going : state.fault = none) (otherGoing : other.fault = none)
    (related : tables state.table other.table) :
    Alike tables (runErrands errands (.at state)).2.state.outcome
        (runErrands (errands.map (Errand.mapNames before)) (.at other)).2.state.outcome ∧
      ((runErrands errands (.at state)).2.state.fault = none →
        (runErrands (errands.map (Errand.mapNames before)) (.at other)).1 =
          (runErrands errands (.at state)).1.map (Errand.mapNames after)) := by
  induction errands generalizing state other with
  | nil =>
    refine ⟨Resolution.alike_outcome_iff.mpr ⟨?_, fun _ => related⟩, fun _ => rfl⟩
    simp only [List.map_nil, runErrands, Walker.at, going, otherGoing]
  | cons errand later inductionHypothesis =>
    obtain ⟨first, rest⟩ := List.forall_mem_cons.mp all
    obtain ⟨next, otherNext, isNext, isOtherNext, both⟩ :=
      Errand.run_mapNames first going otherGoing related
    simp only [List.map_cons, runErrands, isNext, isOtherNext]
    rcases both with ⟨stopped, otherStopped⟩ | ⟨nextGoing, otherNextGoing, nextRelated, sameErrand⟩
    · -- Behind the two faults nothing happens on either side.
      have isStopped : (Walker.at next).state.fault.isSome = true := stopped
      have isOtherStopped : (Walker.at otherNext).state.fault.isSome = true := otherStopped
      obtain ⟨-, sameFault, -⟩ := runErrands_stopped later isStopped
      obtain ⟨-, otherSameFault, -⟩ :=
        runErrands_stopped (later.map (Errand.mapNames before)) isOtherStopped
      have impossible : (runErrands later (.at next)).2.state.fault ≠ none := by
        rw [sameFault]
        exact Option.isSome_iff_ne_none.mp isStopped
      refine ⟨Resolution.alike_outcome_iff.mpr ⟨?_, fun noFault => absurd noFault impossible⟩,
        fun noFault => absurd noFault impossible⟩
      rw [sameFault, otherSameFault, isStopped, isOtherStopped]
    · obtain ⟨alike, sameLater⟩ := inductionHypothesis rest nextGoing otherNextGoing nextRelated
      refine ⟨alike, ?_⟩
      intro noFault
      rw [sameErrand, sameLater noFault]

/-- The two programs are resolved side by side from the start. They have faults together, and
without one the tables at the end are related and the trees differ by the change of names. -/
theorem Node.resolve_mapNames {root : Node}
    (all : ∀ event ∈ root.events, event.Corresponds before after tables)
    (start : tables ScopeTable.new ScopeTable.new) :
    root.resolve.fault.isSome = (root.mapNames before).resolve.fault.isSome ∧
      (root.resolve.fault = none →
        tables root.resolve.table (root.mapNames before).resolve.table ∧
        (root.mapNames before).resolve.tree = root.resolve.tree.mapNames after) := by
  have allErrands : ∀ errand ∈ root.errands, errand.event.Corresponds before after tables := by
    rw [← root.errands_event] at all
    exact List.forall_mem_map.mp all
  have going : Resolution.start.fault = none := rfl
  have startRelated : tables Resolution.start.table Resolution.start.table := start
  obtain ⟨alike, same⟩ := runErrands_mapNames allErrands going going startRelated
  obtain ⟨sameFault, related⟩ := Resolution.alike_outcome_iff.mp alike
  obtain ⟨fill, forms⟩ := root.exists_forms
  have changed := forms.change_resolve_eq after Resolution.start
  rw [forms.resolve_eq] at changed
  simp only [Node.resolve, forms.resolve_eq, forms.resolve_change_eq]
  refine ⟨sameFault, ?_⟩
  intro noFault
  refine ⟨related noFault, ?_⟩
  rw [same noFault]
  exact changed.symm

end Trees

/-!
## Stamps
-/

/-- An identifier without what resolution finds out about it. -/
def Identifier.unstamped (name : Identifier) : Identifier := { name := name.name }

/-- A tree without stamps. -/
def Node.unstamped (node : Node) : Node := node.mapNames Identifier.unstamped

/-- The use of a name changes its stamp only, whether the name is found or not. -/
theorem Resolution.use_unstamped (state : Resolution) (position : Position) (name : Identifier) :
    (state.use position name).1.unstamped = name.unstamped := by
  unfold Resolution.use
  split
  · rfl
  · split <;> rfl

/-- A declaration changes the stamp of its name only, and nothing at all if it is refused. -/
theorem Resolution.declare_unstamped (state : Resolution) (node : Node) :
    (state.declare node).1.mapNames .unstamped = node.mapNames .unstamped := by
  unfold Resolution.declare
  split
  · rfl
  · split
    case h_1 mark name =>
      simp only [Node.mapNames, Resolution.declareName]
      split
      · split <;> rfl
      · rfl
    case h_2 => rfl

/-- Whatever is the same of an errand before and after it is taken is the same of errands that are
run. -/
theorem runErrands_observe {Seen : Type} (observe : Errand → Seen)
    (step : ∀ errand walker, observe (errand.run walker).1 = observe errand) (errands : List Errand)
    (walker : Walker) : (runErrands errands walker).1.map observe = errands.map observe := by
  induction errands generalizing walker with
  | nil => rfl
  | cons errand later inductionHypothesis =>
    rw [runErrands, List.map_cons, List.map_cons, step, inductionHypothesis]

/-- An errand changes the stamp of its name only, in every state of the walker. -/
theorem Errand.run_unstamped (errand : Errand) (walker : Walker) :
    (errand.run walker).1.mapNames .unstamped = errand.mapNames .unstamped := by
  cases errand with
  | opens announced scope =>
    rw [Errand.run]
    split <;> rfl
  | closes =>
    rw [Errand.run]
    split <;> rfl
  | uses mark name => simp only [Errand.run, Errand.mapNames, Resolution.use_unstamped]
  | declares node => simp only [Errand.run, Errand.mapNames, Resolution.declare_unstamped]

/-- Resolution changes nothing but stamps, also if it meets a fault. So the names and the shape of a
tree are those of the program as it was written. -/
theorem Node.resolveFrom_unstamped (node : Node) (state : Resolution) :
    (node.resolveFrom state).1.mapNames .unstamped = node.mapNames .unstamped := by
  obtain ⟨fill, forms⟩ := node.exists_forms
  rw [forms.change_resolve_eq, forms.change_eq,
    runErrands_observe (Errand.mapNames .unstamped) Errand.run_unstamped]

/-- Resolution reads no stamps: an event is resolved as it is without them, with the same result. -/
theorem Event.corresponds_unstamped (event : Event) :
    event.Corresponds Identifier.unstamped (fun name => name) Eq := by
  rintro table _ rfl
  cases event with
  | opens scope => exact ⟨rfl, rfl⟩
  | closes => exact ⟨rfl, rfl⟩
  | uses mark name =>
    simp only [Event.mapName, Event.resolve, Identifier.unstamped]
    split
    · exact ⟨rfl, rfl⟩
    · trivial
  | declares mark name =>
    simp only [Event.mapName, Event.resolve, Identifier.unstamped]
    split
    · split
      · exact ⟨rfl, rfl⟩
      · trivial
    · trivial
  | undeclarable tag => trivial

/-- A tree is resolved as it is without stamps, so stamps from an earlier resolution are of no
consequence. -/
theorem Node.resolve_unstamped (root : Node) :
    root.resolve.fault.isSome = root.unstamped.resolve.fault.isSome ∧
      (root.resolve.fault = none → root.unstamped.resolve.table = root.resolve.table ∧
        root.unstamped.resolve.tree = root.resolve.tree) := by
  obtain ⟨sameFault, same⟩ := Node.resolve_mapNames
    (fun event (_ : event ∈ root.events) => event.corresponds_unstamped) rfl
  refine ⟨sameFault, ?_⟩
  intro noFault
  obtain ⟨sameTable, sameTree⟩ := same noFault
  rw [mapNames_same] at sameTree
  exact ⟨sameTable.symm, sameTree⟩

/-- Trees that differ in stamps only are resolved to the same tree and scopes, if one of them is
resolved at all. -/
theorem Node.resolve_congr {root other : Node} (same : other.unstamped = root.unstamped)
    (resolved : root.resolve.fault = none) :
    other.resolve.fault = none ∧ other.resolve.table = root.resolve.table ∧
      other.resolve.tree = root.resolve.tree := by
  obtain ⟨sameFault, sameResult⟩ := root.resolve_unstamped
  obtain ⟨otherSameFault, otherSameResult⟩ := other.resolve_unstamped
  have otherResolved : other.resolve.fault = none := by
    rw [same, ← sameFault, resolved] at otherSameFault
    exact Option.isNone_iff_eq_none.mp (by simpa using otherSameFault)
  obtain ⟨table, tree⟩ := sameResult resolved
  obtain ⟨otherTable, otherTree⟩ := otherSameResult otherResolved
  rw [same] at otherTable otherTree
  exact ⟨otherResolved, otherTable.symm.trans table, otherTree.symm.trans tree⟩

end IntMain
