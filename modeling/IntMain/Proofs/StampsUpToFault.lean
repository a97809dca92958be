import IntMain.Proofs.Restamping
import IntMain.Proofs.ScopeChains
import IntMain.Tree.Walk
import Mathlib.Data.List.Perm.Basic

/-!
# Resolution stamps up to its fault

Resolution may be given a tree of any shape, and it may stop anywhere in it, inside any
number of scopes. The tree that it leaves behind has the stamps of all that was resolved
before the fault and is otherwise what it was, and the table is back in the global scope.

`Node.visits` lists what resolution comes to, in its order, one visit for each errand. It says
more than the events do: where a name has to be declared it has the whole node, with all the
names in it, so every name of the tree is in one visit. What a visit does when it goes well, and
why one fails, is stated by rules over the table (`Visit.Goes`, `Visit.Fails`).
-/

namespace IntMain

/-!
## Visits
-/

/-- What resolution comes to on its way through a tree. A visit differs from an event in that it
keeps a node that cannot be declared, so that the names inside of it are not lost. -/
inductive Visit
  /-- A scope of this name opens in the current one. -/
  | opens (scope : String)
  /-- The current scope closes. -/
  | closes
  | uses (mark : Mark) (name : Identifier)
  | declares (mark : Mark) (name : Identifier)
  /-- A node that is no name stands where a name has to be declared. -/
  | undeclarable (node : Node)
  deriving Repr

namespace Node

/-- The visit of a node that is to be declared. -/
def declaredVisit : Node → Visit
  | .identifier mark name => .declares mark name
  | other => .undeclarable other

/-- The visits of a part that has a scope of its own. -/
def scopedVisits (scope : String) (inner : List Visit) : List Visit :=
  .opens scope :: (inner ++ [.closes])

mutual

/-- The visits of a tree in the order of resolution. -/
def visits : Node → List Visit
  | .integer _ _ _ => []
  | .identifier mark name => [.uses mark name]
  | .unary _ _ operand => operand.visits
  | .binary _ _ left right => left.visits ++ right.visits
  | .clause mark tag condition body =>
    condition.visits ++ scopedVisits (scopeName tag.scopeKind mark) body.visits
  | .chain _ clauses none => visitsAll clauses
  | .chain mark clauses (some body) =>
    visitsAll clauses ++ scopedVisits (scopeName "else" mark) body.visits
  | .whileLoop mark condition body =>
    condition.visits ++ scopedVisits (scopeName "while" mark) body.visits
  | .doWhile mark body condition =>
    scopedVisits (scopeName "dowhile" mark) body.visits ++ condition.visits
  | .compound _ statements => visitsAll statements
  | .block mark statements => scopedVisits (scopeName "block" mark) (visitsAll statements)
  | .declaration _ name => [name.declaredVisit]
  | .initialization _ name value => value.visits ++ [name.declaredVisit]
  | .assignment _ target _ value => target.visits ++ value.visits
  | .returned _ value => value.visits
  | .empty _ => []

/-- The visits of several trees in order. -/
def visitsAll : List Node → List Visit
  | [] => []
  | node :: later => node.visits ++ visitsAll later

end

end Node

/-- The event of a visit. -/
def Visit.event : Visit → Event
  | .opens scope => .opens scope
  | .closes => .closes
  | .uses mark name => .uses mark name
  | .declares mark name => .declares mark name
  | .undeclarable node => .undeclarable node.tag

/-- The visit that an errand is. -/
def Errand.visit : Errand → Visit
  | .opens _ scope => .opens scope
  | .closes => .closes
  | .uses mark name => .uses mark name
  | .declares node => node.declaredVisit

/-- An errand and its visit have the same event. -/
theorem Errand.visit_event (errand : Errand) : errand.visit.event = errand.event := by
  cases errand with
  | declares node => cases node <;> rfl
  | _ => rfl

/-- Around a scope, errands and visits are the same. Whether the scope is announced cannot be seen
in a visit. -/
theorem Node.scopedErrands_visit (announced : Bool) (scope : String) (inner : List Errand) :
    (scopedErrands announced scope inner).map Errand.visit =
      scopedVisits scope (inner.map Errand.visit) := by
  simp only [scopedErrands, scopedVisits, List.map_cons, List.map_append, List.map_nil,
    Errand.visit]

mutual

/-- The visits of a tree are those of its errands. The recursion follows the constructors of the
tree, since both are defined along them. -/
theorem Node.errands_visit : (node : Node) → node.errands.map Errand.visit = node.visits
  | .integer _ _ _ => by simp only [errands, visits, List.map_nil]
  | .identifier _ _ => by simp only [errands, visits, List.map_cons, List.map_nil, Errand.visit]
  | .unary _ _ operand => by simp only [errands, visits, operand.errands_visit]
  | .binary _ _ left right => by
    simp only [errands, visits, List.map_append, left.errands_visit, right.errands_visit]
  | .clause _ _ condition body => by
    simp only [errands, visits, List.map_append, scopedErrands_visit, condition.errands_visit,
      body.errands_visit]
  | .chain _ clauses none => by simp only [errands, visits, errandsAll_visit clauses]
  | .chain _ clauses (some body) => by
    simp only [errands, visits, List.map_append, scopedErrands_visit, errandsAll_visit clauses,
      body.errands_visit]
  | .whileLoop _ condition body => by
    simp only [errands, visits, List.map_append, scopedErrands_visit, condition.errands_visit,
      body.errands_visit]
  | .doWhile _ body condition => by
    simp only [errands, visits, List.map_append, scopedErrands_visit, condition.errands_visit,
      body.errands_visit]
  | .compound _ statements => by simp only [errands, visits, errandsAll_visit statements]
  | .block _ statements => by
    simp only [errands, visits, scopedErrands_visit, errandsAll_visit statements]
  | .declaration _ _ => by simp only [errands, visits, List.map_cons, List.map_nil, Errand.visit]
  | .initialization _ _ value => by
    simp only [errands, visits, List.map_append, List.map_cons, List.map_nil, Errand.visit,
      value.errands_visit]
  | .assignment _ target _ value => by
    simp only [errands, visits, List.map_append, target.errands_visit, value.errands_visit]
  | .returned _ value => by simp only [errands, visits, value.errands_visit]
  | .empty _ => by simp only [errands, visits, List.map_nil]

/-- The visits of several trees are those of their errands. It is proved together with the lemma on
one tree. -/
theorem Node.errandsAll_visit : (nodes : List Node) →
    (errandsAll nodes).map Errand.visit = visitsAll nodes
  | [] => by simp only [errandsAll, visitsAll, List.map_nil]
  | node :: later => by
    simp only [errandsAll, visitsAll, List.map_append, node.errands_visit, errandsAll_visit later]

end

/-- The events of a tree are those of its visits, since both are those of its errands. -/
theorem Node.visits_event (node : Node) : node.visits.map Visit.event = node.events := by
  rw [← node.errands_visit, ← node.errands_event, List.map_map]
  exact List.map_congr_left (fun errand _ => errand.visit_event)

/-!
## What resolution keeps
-/

/-- The visit without the stamp of its name. The names in a node that cannot be declared keep
theirs. -/
def Visit.unstamped : Visit → Visit
  | .uses mark name => .uses mark name.unstamped
  | .declares mark name => .declares mark name.unstamped
  | other => other

/-- A visit is known by its event and by what it is without a stamp. The event has the stamp, and
the rest has the node that cannot be declared. -/
theorem Visit.eq_of_event {visit other : Visit} (sameEvent : visit.event = other.event)
    (same : visit.unstamped = other.unstamped) : visit = other := by
  cases visit with
  | undeclarable node =>
    cases other with
    | undeclarable otherNode => exact same
    | _ => cases same
  | opens scope => cases other <;> first | cases sameEvent; rfl | cases sameEvent
  | closes => cases other <;> first | rfl | cases sameEvent
  | uses mark name => cases other <;> first | cases sameEvent; rfl | cases sameEvent
  | declares mark name => cases other <;> first | cases sameEvent; rfl | cases sameEvent

/-- Lists of visits are known by their events and by what they are without stamps. -/
theorem Visit.eq_of_events {visits others : List Visit}
    (sameEvents : visits.map event = others.map event)
    (same : visits.map unstamped = others.map unstamped) : visits = others := by
  induction visits generalizing others with
  | nil =>
    cases others with
    | nil => rfl
    | cons other later => cases same
  | cons visit later inductionHypothesis =>
    cases others with
    | nil => cases same
    | cons other otherLater =>
      obtain ⟨sameFirst, sameLater⟩ := List.cons.inj same
      obtain ⟨sameFirstEvent, sameLaterEvents⟩ := List.cons.inj sameEvents
      rw [eq_of_event sameFirstEvent sameFirst, inductionHypothesis sameLaterEvents sameLater]

/-- A declaration changes no more of its visit than the stamp. What is no name is not changed at
all. -/
theorem Resolution.declare_visit (state : Resolution) (node : Node) :
    (state.declare node).1.declaredVisit.unstamped = node.declaredVisit.unstamped := by
  unfold Resolution.declare
  split
  · rfl
  · cases node with
    | identifier mark name =>
      simp only [declareName]
      split
      · split <;> rfl
      · rfl
    | _ => rfl

/-- An errand changes no more of its visit than the stamp, in every state of the walker. -/
theorem Errand.run_visit (errand : Errand) (walker : Walker) :
    (errand.run walker).1.visit.unstamped = errand.visit.unstamped := by
  cases errand with
  | opens announced scope =>
    rw [Errand.run]
    split <;> rfl
  | closes =>
    rw [Errand.run]
    split <;> rfl
  | uses mark name =>
    simp only [Errand.run, Errand.visit, Visit.unstamped, Resolution.use_unstamped]
  | declares node => simp only [Errand.run, Errand.visit, Resolution.declare_visit]

/-- Resolution changes the visits of a tree in their stamps only, with or without a fault. -/
theorem Node.resolveFrom_visits (node : Node) (state : Resolution) :
    (node.resolveFrom state).1.visits.map Visit.unstamped = node.visits.map Visit.unstamped := by
  obtain ⟨fill, forms⟩ := node.exists_forms
  have kept := runErrands_observe (fun errand => errand.visit.unstamped) Errand.run_visit
    node.errands (.at state)
  rw [← forms.errands_resolve] at kept
  rw [← node.errands_visit, ← Node.errands_visit, List.map_map, List.map_map]
  exact kept

/-- Behind a tree, with or without a fault, the scopes are open that were open before it. A scope is
left even if a fault occurs inside of it. -/
theorem Node.resolveFrom_openScopes (node : Node) (state : Resolution) :
    (node.resolveFrom state).2.openScopes = state.openScopes := by
  obtain ⟨fill, forms⟩ := node.exists_forms
  rw [forms.resolve_eq]
  exact (forms.ends (Errand.fits_self _) state).2

/-!
## What a visit does
-/

/-- What becomes of a visit that goes well, and the table behind it. A name that is used gets
the offset of the variable that it is found to be, and a name that is declared gets the offset
of the next slot, with which it is entered into the current scope. -/
inductive Visit.Goes (table : ScopeTable) : Visit → Visit → ScopeTable → Prop
  | opens {scope : String} : Goes table (.opens scope) (.opens scope) (table.enter scope)
  | closes : Goes table .closes .closes table.exit
  | uses {mark : Mark} {name : Identifier} {owner type : String} {offset : Int}
      (found : table.lookup? name.name = some (.slot owner offset type)) :
      Goes table (.uses mark name)
        (.uses mark { name with address := some offset, type := TypeTag.ofName? type }) table
  | declares {mark : Mark} {name : Identifier} (free : table.lookupLocal? name.name = none) :
      Goes table (.declares mark name)
        (.declares mark { name with address := some table.allocate.offset, type := some .int })
        (table.allocate.insert (.slot name.name table.allocate.offset builtinType))

/-- Why a visit fails. Opening and closing a scope never does. -/
inductive Visit.Fails (table : ScopeTable) : Visit → Fault → Prop
  | undeclared {mark : Mark} {name : Identifier}
      (missing : ∀ owner offset type, table.lookup? name.name ≠ some (.slot owner offset type)) :
      Fails table (.uses mark name) (.undeclared name.name mark.position)
  | redefined {mark : Mark} {name : Identifier}
      (taken : (table.lookupLocal? name.name).isSome = true) :
      Fails table (.declares mark name) (.redefinition name.name mark.position)
  | undeclarable {node : Node} :
      Fails table (.undeclarable node)
        (.unsupported .analyze ("declaration of a " ++ node.tag ++ " node"))

/-- Visits that go well one after the other. -/
inductive Visit.GoAll : ScopeTable → List Visit → List Visit → ScopeTable → Prop
  | nil {table : ScopeTable} : GoAll table [] [] table
  | cons {table next final : ScopeTable} {visit stamped : Visit} {later laterStamped : List Visit}
      (first : visit.Goes table stamped next) (rest : GoAll next later laterStamped final) :
      GoAll table (visit :: later) (stamped :: laterStamped) final

/-- The builtin type is found in every scope of a sound table, because every scope lists it
first. -/
theorem ScopeTable.Sound.lookup?_builtin {table : ScopeTable} (sound : table.Sound) :
    table.lookup? builtinType = some (.builtin builtinType) := by
  obtain ⟨current, isCurrent⟩ := sound.chain.found
  have scopeSound := sound.scopes current (List.mem_of_getElem? isCurrent)
  have found : current.get? builtinType = some (.builtin builtinType) :=
    (Scope.get?_eq_some_iff scopeSound.distinct).mpr
      ⟨List.mem_of_mem_head? scopeSound.builtinFirst, rfl⟩
  rw [ScopeTable.lookup?, List.findSome?_cons, ScopeTable.scope?, isCurrent, Option.bind_some,
    found]

/-- A visit goes well or fails, as the rules say. If it goes well the table stays sound, so the next
visit can be looked at. -/
theorem Visit.step {table : ScopeTable} (sound : table.Sound) (visit : Visit) :
    (∃ stamped next, visit.event.resolve table = .ok (stamped.event, next) ∧
      visit.Goes table stamped next ∧ next.Sound) ∨
    ∃ fault, visit.event.resolve table = .error fault ∧ visit.Fails table fault := by
  cases visit with
  | opens scope => exact .inl ⟨.opens scope, _, rfl, .opens, sound.enter scope⟩
  | closes => exact .inl ⟨.closes, _, rfl, .closes, sound.exit⟩
  | uses mark name =>
    simp only [event, Event.resolve]
    split
    · rename_i owner offset type found
      exact .inl ⟨.uses mark _, table, rfl, .uses found, sound⟩
    · rename_i missing
      exact .inr ⟨_, rfl, .undeclared missing⟩
  | declares mark name =>
    have builtin : table.lookup? TypeTag.int.name = some (.builtin builtinType) :=
      sound.lookup?_builtin
    have sameLocal : table.allocate.lookupLocal? name.name = table.lookupLocal? name.name := rfl
    simp only [event, Event.resolve, builtin, ScopeTable.define, Symbol.name, sameLocal]
    cases taken : table.lookupLocal? name.name with
    | none => exact .inl ⟨.declares mark _, _, rfl, .declares taken, sound.allocate.insert _⟩
    | some symbol => exact .inr ⟨_, rfl, .redefined (by rw [taken]; rfl)⟩
  | undeclarable node => exact .inr ⟨_, rfl, .undeclarable⟩

/-- Visits go well up to the first that fails. The rest is not resolved, and what comes behind the
fault keeps its stamps. -/
theorem Visit.run {table : ScopeTable} (sound : table.Sound) (visits : List Visit) :
    (∃ stamped final, resolveEvents table (visits.map event) = (stamped.map event, .ok final) ∧
      GoAll table visits stamped final) ∨
    ∃ before failing after stamped reached fault, visits = before ++ failing :: after ∧
      resolveEvents table (visits.map event) =
        ((stamped ++ failing :: after).map event, .error (fault, reached.scopes)) ∧
      GoAll table before stamped reached ∧ failing.Fails reached fault := by
  induction visits generalizing table with
  | nil => exact .inl ⟨[], table, rfl, .nil⟩
  | cons visit later inductionHypothesis =>
    rcases visit.step sound with ⟨stamped, next, resolves, goes, nextSound⟩ |
      ⟨fault, refused, fails⟩
    · rw [List.map_cons, resolveEvents, resolves]
      rcases inductionHypothesis nextSound with ⟨laterStamped, final, run, rest⟩ |
        ⟨before, failing, after, laterStamped, reached, fault, split, run, rest, fails⟩
      · refine .inl ⟨stamped :: laterStamped, final, ?_, .cons goes rest⟩
        simp only [run, List.map_cons]
      · refine .inr ⟨visit :: before, failing, after, stamped :: laterStamped, reached, fault, ?_,
          ?_, .cons goes rest, fails⟩
        · rw [split, List.cons_append]
        · simp only [run, List.map_cons, List.cons_append]
    · refine .inr ⟨[], visit, later, [], table, fault, rfl, ?_, .nil, fails⟩
      rw [List.map_cons, resolveEvents, refused]
      rfl

/-- A visit that goes well changes in its stamp only. -/
theorem Visit.Goes.unstamped {table next : ScopeTable} {visit stamped : Visit}
    (goes : visit.Goes table stamped next) : stamped.unstamped = visit.unstamped := by
  cases goes <;> rfl

/-- Visits that go well change in their stamps only, one by one. -/
theorem Visit.GoAll.unstamped {table final : ScopeTable} {visits stamped : List Visit}
    (goes : GoAll table visits stamped final) :
    stamped.map Visit.unstamped = visits.map Visit.unstamped := by
  induction goes with
  | nil => rfl
  | cons first rest inductionHypothesis =>
    rw [List.map_cons, List.map_cons, first.unstamped, inductionHypothesis]

/-!
## Visits and nodes
-/

/-- The name of the scope that belongs to a node. -/
def Node.ownScope? : Node → Option String
  | .clause mark tag _ _ => some (scopeName tag.scopeKind mark)
  | .chain mark _ (some _) => some (scopeName "else" mark)
  | .whileLoop mark _ _ => some (scopeName "while" mark)
  | .doWhile mark _ _ => some (scopeName "dowhile" mark)
  | .block mark _ => some (scopeName "block" mark)
  | _ => none

/-- What the nodes of a tree hold is what its visits come to: a name is met where it is used or
declared, and a node that has a scope where the scope opens. Other nodes hold nothing. -/
structure Meets {Found : Type} (held : Node → List Found) (met : Visit → List Found) : Prop where
  used : ∀ mark name, met (.uses mark name) = held (.identifier mark name)
  declared : ∀ mark name, met (.declares mark name) = held (.identifier mark name)
  undeclarable : ∀ node, met (.undeclarable node) = node.postorder.flatMap held
  opened : ∀ node scope, node.ownScope? = some scope → met (.opens scope) = held node
  closed : met .closes = []
  nowhereElse : ∀ node, node.ownScope? = none → (∀ mark name, node ≠ .identifier mark name) →
    held node = []

namespace Node

/-- The visits of several trees are those of each, in order. -/
theorem visitsAll_eq (nodes : List Node) : visitsAll nodes = nodes.flatMap visits := by
  induction nodes with
  | nil => rw [visitsAll, List.flatMap_nil]
  | cons node later inductionHypothesis => rw [visitsAll, List.flatMap_cons, inductionHypothesis]

end Node

namespace Meets

variable {Found : Type} {held : Node → List Found} {met : Visit → List Found}

/-- A tree holds what its children hold and its root, in the order of a walk that comes to a node
behind its children. -/
theorem held_eq (held : Node → List Found) (node : Node) :
    node.postorder.flatMap held =
      node.children.flatMap (fun child => child.postorder.flatMap held) ++ held node := by
  rw [Node.postorder_eq, List.flatMap_append, List.flatMap_assoc, List.flatMap_singleton]

/-- A node that is to be declared holds what its visit comes to, whether it is a name or not. -/
theorem met_declared (meets : Meets held met) (node : Node) :
    met node.declaredVisit = node.postorder.flatMap held := by
  cases node with
  | identifier mark name =>
    rw [held_eq]
    exact meets.declared mark name
  | _ => exact meets.undeclarable _

/-- A part in its scope is met behind the node that has the scope. Closing the scope meets
nothing. -/
theorem met_scoped (meets : Meets held met) (scope : String) (inner : List Visit) :
    (Node.scopedVisits scope inner).flatMap met = met (.opens scope) ++ inner.flatMap met := by
  rw [Node.scopedVisits, List.flatMap_cons, List.flatMap_append, List.flatMap_singleton,
    meets.closed, List.append_nil]

/-- The nodes of a tree and its visits agree, up to their order. A node that has a scope is met when
the scope opens, before what lies in it. -/
theorem perm (meets : Meets held met) (node : Node) :
    (node.postorder.flatMap held).Perm (node.visits.flatMap met) := by
  induction node using Node.induction_children with
  | step node inductionHypothesis =>
    have below := List.Perm.flatMap_left node.children inductionHypothesis
    -- A node without a scope holds nothing itself.
    have plain (noScope : node.ownScope? = none)
        (noName : ∀ mark name, node ≠ .identifier mark name)
        (sameVisits : node.visits.flatMap met =
          node.children.flatMap (fun child => child.visits.flatMap met)) :
        (node.postorder.flatMap held).Perm (node.visits.flatMap met) := by
      rw [held_eq, meets.nowhereElse node noScope noName, List.append_nil, sameVisits]
      exact below
    -- A node with a scope is met as the scope opens, between what stands around it.
    have withScope {front inner back : List Visit} {scope : String}
        (isOwn : node.ownScope? = some scope)
        (isVisits : node.visits = front ++ (Node.scopedVisits scope inner ++ back))
        (sameVisits : (front ++ (inner ++ back)).flatMap met =
          node.children.flatMap (fun child => child.visits.flatMap met)) :
        (node.postorder.flatMap held).Perm (node.visits.flatMap met) := by
      rw [held_eq, isVisits, List.flatMap_append, List.flatMap_append, meets.met_scoped,
        meets.opened node scope isOwn]
      rw [← sameVisits, List.flatMap_append, List.flatMap_append] at below
      refine (below.append_right _).trans ?_
      rw [List.append_assoc, List.append_assoc (held node)]
      exact List.perm_append_comm.append_left _
    cases node with
    | identifier mark name =>
      rw [held_eq, Node.visits, List.flatMap_singleton, meets.used]
      exact .refl _
    | declaration mark name =>
      rw [held_eq, meets.nowhereElse _ rfl (by simp), List.append_nil, Node.visits,
        List.flatMap_singleton, meets.met_declared, Node.children, List.flatMap_singleton]
    | initialization mark name value =>
      -- The name stands before the value and is declared behind it.
      have ofValue := inductionHypothesis value (by simp [Node.children])
      rw [held_eq, meets.nowhereElse _ rfl (by simp), List.append_nil, Node.visits,
        List.flatMap_append, List.flatMap_singleton, meets.met_declared]
      simp only [Node.children, List.flatMap_cons, List.flatMap_nil, List.append_nil]
      exact List.perm_append_comm.trans (ofValue.append_right _)
    | clause mark tag condition body =>
      exact withScope rfl (by rw [Node.visits, List.append_nil]) (by simp [Node.children])
    | whileLoop mark condition body =>
      exact withScope rfl (by rw [Node.visits, List.append_nil]) (by simp [Node.children])
    | doWhile mark body condition =>
      exact withScope rfl (by rw [Node.visits, List.nil_append]) (by simp [Node.children])
    | block mark statements =>
      exact withScope rfl (by rw [Node.visits, List.nil_append, List.append_nil])
        (by simp [Node.children, Node.visitsAll_eq, List.flatMap_assoc])
    | chain mark clauses otherwise =>
      cases otherwise with
      | none =>
        exact plain rfl (by simp)
          (by simp [Node.visits, Node.children, Node.visitsAll_eq, List.flatMap_assoc])
      | some body =>
        exact withScope rfl (by rw [Node.visits, List.append_nil])
          (by simp [Node.children, Node.visitsAll_eq, List.flatMap_assoc])
    | _ =>
      exact plain rfl (by simp)
        (by simp [Node.visits, Node.children, Node.visitsAll_eq, List.flatMap_assoc])

end Meets

/-- The names on a node. -/
def Node.ownNames : Node → List (Mark × Identifier)
  | .identifier mark name => [(mark, name)]
  | _ => []

/-- The names of a tree, each with the mark of its node. -/
def Node.markedNames (root : Node) : List (Mark × Identifier) := root.postorder.flatMap ownNames

/-- The names that a visit comes to. -/
def Visit.markedNames : Visit → List (Mark × Identifier)
  | .uses mark name => [(mark, name)]
  | .declares mark name => [(mark, name)]
  | .undeclarable node => node.markedNames
  | _ => []

/-- Every name of a tree is in one visit. The marks are kept, so two occurrences of a name count as
two. -/
theorem Node.markedNames_visited (node : Node) :
    node.markedNames.Perm (node.visits.flatMap Visit.markedNames) := by
  have meets : Meets ownNames Visit.markedNames := by
    refine ⟨fun _ _ => rfl, fun _ _ => rfl, fun _ => rfl, ?_, rfl, ?_⟩
    · intro node scope isOwn
      cases node with
      | identifier mark name => cases isOwn
      | _ => rfl
    · intro node _ noName
      cases node with
      | identifier mark name => exact absurd rfl (noName mark name)
      | _ => rfl
  exact meets.perm node

namespace Node

/-- What resolution makes of the visits of a tree: all of them go well, or one fails, and what
comes behind it stays as it is. -/
theorem resolve_visits (root : Node) :
    (root.resolve.fault = none ∧
      Visit.GoAll ScopeTable.new root.visits root.resolve.tree.visits root.resolve.table) ∨
    ∃ before failing after stamped reached fault, root.resolve.fault = some fault ∧
      root.visits = before ++ failing :: after ∧
      root.resolve.tree.visits = stamped ++ failing :: after ∧
      Visit.GoAll ScopeTable.new before stamped reached ∧ failing.Fails reached fault ∧
      root.resolve.table.scopes = reached.scopes := by
  have sameRun := root.resolve_events
  have kept := root.resolveFrom_visits Resolution.start
  change root.resolve.tree.visits.map Visit.unstamped = _ at kept
  rw [← root.visits_event, ← root.resolve.tree.visits_event, Resolution.outcome] at sameRun
  rcases Visit.run ScopeTable.Sound.new root.visits with ⟨stamped, final, run, goes⟩ |
    ⟨before, failing, after, stamped, reached, fault, split, run, goes, fails⟩
  · rw [run] at sameRun
    obtain ⟨sameEvents, ended⟩ := Prod.mk.inj sameRun
    have sameVisits := Visit.eq_of_events sameEvents (kept.trans goes.unstamped.symm)
    cases found : root.resolve.fault with
    | some fault =>
      rw [found] at ended
      cases ended
    | none =>
      rw [found] at ended
      cases ended
      rw [sameVisits]
      exact .inl ⟨rfl, goes⟩
  · rw [run] at sameRun
    obtain ⟨sameEvents, ended⟩ := Prod.mk.inj sameRun
    have sameUnstamped : root.visits.map Visit.unstamped =
        (stamped ++ failing :: after).map Visit.unstamped := by
      rw [split, List.map_append, List.map_append, goes.unstamped]
    have sameVisits := Visit.eq_of_events sameEvents (kept.trans sameUnstamped)
    cases found : root.resolve.fault with
    | none =>
      rw [found] at ended
      cases ended
    | some other =>
      rw [found] at ended
      obtain ⟨rfl, sameScopes⟩ := Prod.mk.inj (Except.error.inj ended)
      exact .inr ⟨before, failing, after, stamped, reached, other, rfl, split, sameVisits, goes,
        fails, sameScopes⟩

/-- Without a fault all visits go well, and the resolved tree has the stamped ones. -/
theorem resolve_goAll {root : Node} (resolved : root.resolve.fault = none) :
    Visit.GoAll ScopeTable.new root.visits root.resolve.tree.visits root.resolve.table := by
  rcases root.resolve_visits with ⟨-, goes⟩ | ⟨_, _, _, _, _, fault, found, _⟩
  · exact goes
  · rw [resolved] at found
    cases found

end Node

/-- **Resolution changes stamps only, and only up to its fault.**

For every tree, whatever its shape: the tree that resolution leaves, with or without a fault, is
the one it was given but for stamps, and the global scope is the current one again. Every name
of a tree is in exactly one of its visits. Without a fault all visits go well. With a fault one
visit fails, for the reason that the fault tells: the names of the visits before it are stamped
with the offset of the variable they were found to be or were declared as, and the names in it
and behind it have the stamps that they had. -/
theorem resolution_stamps_up_to_fault (root : Node) :
    root.resolve.tree.unstamped = root.unstamped ∧
    root.resolve.table.current = 0 ∧
    (∀ tree : Node, tree.markedNames.Perm (tree.visits.flatMap Visit.markedNames)) ∧
    (root.resolve.fault = none →
      Visit.GoAll ScopeTable.new root.visits root.resolve.tree.visits root.resolve.table) ∧
    ∀ fault, root.resolve.fault = some fault →
      ∃ before failing after stamped reached,
        root.visits = before ++ failing :: after ∧
        root.resolve.tree.visits = stamped ++ failing :: after ∧
        Visit.GoAll ScopeTable.new before stamped reached ∧ failing.Fails reached fault ∧
        root.resolve.table.scopes = reached.scopes := by
  refine ⟨root.resolveFrom_unstamped Resolution.start, ?_, Node.markedNames_visited,
    Node.resolve_goAll, ?_⟩
  · have openScopes := root.resolveFrom_openScopes Resolution.start
    exact (List.cons.inj openScopes).1
  · intro fault found
    rcases root.resolve_visits with ⟨noFault, -⟩ |
      ⟨before, failing, after, stamped, reached, other, isFault, rest⟩
    · rw [noFault] at found
      cases found
    · obtain rfl : other = fault := Option.some.inj (isFault.symm.trans found)
      exact ⟨before, failing, after, stamped, reached, rest⟩

end IntMain
