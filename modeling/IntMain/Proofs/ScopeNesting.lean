import IntMain.Proofs.LexicalScoping
import IntMain.Proofs.Numeral
import IntMain.Proofs.StampsUpToFault
import IntMain.Proofs.TreeGrowth

/-!
# Scopes mirror the nesting of a program

A table has its scopes in the order in which they were entered, and each knows the scope around
it by its number. In the program the bodies and blocks lie in each other. `Node.interior`
reads this nesting off a tree, without a table, and `Region.outlines` numbers it: a region
comes before the regions inside of it, and these one after the other. The scopes that
resolution leaves are those.

A walk through a part of the tree changes a table in two ways. The current scope gets the names
that are declared directly in the part, and behind all scopes come those of the regions in it.
`Visit.Adds` says this of a list of visits, whatever table they start from, so that what a
tree adds is put together from what its children add.
-/

namespace IntMain

/-!
## Regions
-/

/-- A part of a program that has a scope of its own: the names that are declared directly in it,
and the regions that lie directly in it, in order. -/
inductive Region
  | scope (name : String) (declared : List Identifier) (inner : List Region)

/-- What lies directly in a part of a program. -/
structure Interior where
  declared : List Identifier
  inner : List Region

namespace Interior

/-- Nothing is declared and there is no region. -/
def empty : Interior := ⟨[], []⟩

/-- One part behind the other. -/
def append (first second : Interior) : Interior :=
  ⟨first.declared ++ second.declared, first.inner ++ second.inner⟩

/-- The region of a part that has a scope. -/
def region (interior : Interior) (scope : String) : Region :=
  .scope scope interior.declared interior.inner

/-- What lies directly around a part that has a scope: nothing but the region. -/
def enclosed (interior : Interior) (scope : String) : Interior := ⟨[], [interior.region scope]⟩

end Interior

namespace Node

/-- What a node that is to be declared declares. -/
def declaredInterior : Node → Interior
  | .identifier _ name => ⟨[name], []⟩
  | _ => .empty

mutual

/-- What lies directly in a tree. The bodies of clauses, chains and loops and the free-standing
blocks are regions. Conditions lie outside of the regions of their bodies, and a name is
declared behind its value. -/
def interior : Node → Interior
  | .integer _ _ _ => .empty
  | .identifier _ _ => .empty
  | .unary _ _ operand => operand.interior
  | .binary _ _ left right => left.interior.append right.interior
  | .clause mark tag condition body =>
    condition.interior.append (body.interior.enclosed (scopeName tag.scopeKind mark))
  | .chain _ clauses none => interiorAll clauses
  | .chain mark clauses (some body) =>
    (interiorAll clauses).append (body.interior.enclosed (scopeName "else" mark))
  | .whileLoop mark condition body =>
    condition.interior.append (body.interior.enclosed (scopeName "while" mark))
  | .doWhile mark body condition =>
    (body.interior.enclosed (scopeName "dowhile" mark)).append condition.interior
  | .compound _ statements => interiorAll statements
  | .block mark statements => (interiorAll statements).enclosed (scopeName "block" mark)
  | .declaration _ name => name.declaredInterior
  | .initialization _ name value => value.interior.append name.declaredInterior
  | .assignment _ target _ value => target.interior.append value.interior
  | .returned _ value => value.interior
  | .empty _ => .empty

/-- What lies directly in several trees. -/
def interiorAll : List Node → Interior
  | [] => .empty
  | node :: later => node.interior.append (interiorAll later)

end

end Node

/-- What there is to say about a scope but for the type that every scope knows and the scopes
that it lists: its variables are given as the stamped names of their declarations. -/
structure Outline where
  name : String
  level : Nat
  parent : Option Nat
  declared : List Identifier
  deriving DecidableEq, Repr

mutual

/-- The outlines of a region and of those inside of it, when the region has a given number and
lies so deep in a scope. The level of a scope is one more than its depth. -/
def Region.outlines (parent : Option Nat) (depth number : Nat) : Region → List Outline
  | .scope name declared inner =>
    ⟨name, depth + 1, parent, declared⟩ ::
      Region.outlinesAll (some number) (depth + 1) (number + 1) inner

/-- The outlines of regions that lie side by side, the first of which has a given number. -/
def Region.outlinesAll (parent : Option Nat) (depth number : Nat) : List Region → List Outline
  | [] => []
  | region :: later =>
    region.outlines parent depth number ++
      Region.outlinesAll parent depth (number + (region.outlines parent depth number).length) later

end

/-- Regions go on with the numbers of those before them, so a region's number depends on all that
opens before it. -/
theorem Region.outlinesAll_append (parent : Option Nat) (depth number : Nat)
    (first second : List Region) :
    outlinesAll parent depth number (first ++ second) =
      outlinesAll parent depth number first ++
        outlinesAll parent depth (number + (outlinesAll parent depth number first).length)
          second := by
  induction first generalizing number with
  | nil => simp [outlinesAll]
  | cons region later inductionHypothesis =>
    simp [outlinesAll, inductionHypothesis, Nat.add_assoc]

/-- The stamped name of a variable. -/
def Symbol.declared? : Symbol → Option Identifier
  | .slot name offset type => some ⟨name, some offset, TypeTag.ofName? type⟩
  | _ => none

/-- The outline of a scope. -/
def Scope.outline (scope : Scope) : Outline :=
  ⟨scope.name, scope.level, scope.parent, scope.symbols.filterMap Symbol.declared?⟩

/-- The outlines of all scopes. -/
def ScopeTable.outlines (table : ScopeTable) : List Outline := table.scopes.map Scope.outline

/-!
## What visits add to a table
-/

/-- The outline with more names declared. -/
def Outline.declare (outline : Outline) (names : List Identifier) : Outline :=
  { outline with declared := outline.declared ++ names }

/-- The symbol of a nested scope is no variable, so it cannot be seen in the outline. -/
theorem Scope.outline_insert_nested (scope : Scope) (name : String) (id : Nat) :
    (scope.insert (.nested name id)).outline = scope.outline := by
  unfold Scope.insert
  split
  · rfl
  · simp [Scope.outline, Symbol.declared?]

/-- A variable with a free name comes behind the others. If its name were taken, nothing would be
inserted. -/
theorem Scope.outline_insert_slot {scope : Scope} {name : String} (offset : Int)
    (free : scope.get? name = none) :
    (scope.insert (.slot name offset builtinType)).outline =
      scope.outline.declare [⟨name, some offset, some .int⟩] := by
  rw [Scope.insert_of_free free]
  simp only [Scope.outline, Outline.declare, List.filterMap_append]
  rfl

/-- The current scope of a table, those before it, those behind it, and the numbers of those
around it. -/
structure ScopeTable.Splits (table : ScopeTable) (outer : List Nat) (front : List Outline)
    (around : Outline) (back : List Outline) : Prop where
  outlines : table.outlines = front ++ around :: back
  current : table.current = front.length
  outer : table.outer = outer

namespace ScopeTable.Splits

variable {table : ScopeTable} {outer : List Nat} {front back : List Outline} {around : Outline}

/-- The current scope is the one between the two parts, and the table finds it there. -/
theorem scope (splits : table.Splits outer front around back) :
    ∃ before scope behind, table.scopes = before ++ scope :: behind ∧
      before.map Scope.outline = front ∧ scope.outline = around ∧
      behind.map Scope.outline = back ∧ table.current = before.length ∧
      table.scope? table.current = some scope := by
  obtain ⟨before, others, scopes, isFront, isOthers⟩ := List.map_eq_append_iff.mp splits.outlines
  obtain ⟨scope, behind, rfl, isAround, isBack⟩ := List.map_eq_cons_iff.mp isOthers
  have current : table.current = before.length := by
    rw [splits.current, ← isFront, List.length_map]
  refine ⟨before, scope, behind, scopes, isFront, isAround, isBack, current, ?_⟩
  simp [ScopeTable.scope?, scopes, current]

/-- A symbol that is inserted goes to the current scope. How the scope's outline changes is left to
the premise, as it depends on the symbol. -/
theorem insert (splits : table.Splits outer front around back) {symbol : Symbol}
    {changed : Outline} (changes : ∀ scope, table.scope? table.current = some scope →
      scope.outline = around → (scope.insert symbol).outline = changed) :
    (table.insert symbol).Splits outer front changed back := by
  obtain ⟨before, scope, behind, scopes, rfl, isAround, rfl, current, found⟩ := splits.scope
  refine ⟨?_, splits.current, splits.outer⟩
  simp [ScopeTable.outlines, ScopeTable.insert, scopes, current, changes scope found isAround,
    List.modify_eq_take_cons_drop]

/-- A name that is declared goes to the current scope, with its stamp. It has to be free there,
which resolution has checked. -/
theorem declare (splits : table.Splits outer front around back) {name : String}
    (free : table.lookupLocal? name = none) :
    (table.allocate.insert (.slot name table.allocate.offset builtinType)).Splits outer front
      (around.declare [⟨name, some table.allocate.offset, some .int⟩]) back := by
  have allocated : table.allocate.Splits outer front around back :=
    ⟨splits.outlines, splits.current, splits.outer⟩
  apply allocated.insert
  rintro scope isCurrent rfl
  apply Scope.outline_insert_slot
  rw [ScopeTable.lookupLocal?] at free
  change table.scope? table.current = some scope at isCurrent
  rwa [isCurrent] at free

/-- A scope that is entered comes behind all others and lies in the current one. The scopes before
it, the current one among them, are all in front of it. -/
theorem enter (splits : table.Splits outer front around back) (name : String) :
    (table.enter name).Splits (front.length :: outer) (front ++ around :: back)
      ⟨name, around.level + 1, some front.length, []⟩ [] := by
  obtain ⟨-, scope, -, -, -, isAround, -, -, found⟩ := splits.scope
  have marked : (table.insert (.nested name table.scopes.length)).Splits outer front around back :=
    splits.insert (fun scope _ same => (scope.outline_insert_nested _ _).trans same)
  have length : table.scopes.length = (front ++ around :: back).length := by
    rw [← splits.outlines, ScopeTable.outlines, List.length_map]
  have entered : (Scope.seeded name (scope.level + 1) (some table.current)).outline =
      ⟨name, around.level + 1, some front.length, []⟩ := by
    rw [← splits.current, ← isAround]
    rfl
  refine ⟨?_, length, ?_⟩
  · rw [ScopeTable.outlines, ScopeTable.enter, found, ← marked.outlines, ← entered]
    simp [ScopeTable.outlines]
  · rw [ScopeTable.enter, splits.current, splits.outer]

/-- When a scope is left, the one around it is current again. All scopes that have been entered
since are then behind it. -/
theorem exit {inside behind : List Outline} {innermost : Outline}
    (splits : table.Splits (front.length :: outer) inside innermost behind)
    (same : inside ++ innermost :: behind = front ++ around :: back) :
    table.exit.Splits outer front around back := by
  rw [ScopeTable.exit, splits.outer]
  exact ⟨splits.outlines.trans same, rfl, rfl⟩

end ScopeTable.Splits

namespace Visit

/-- Visits that go well go well in two turns, with a table in between. -/
theorem GoAll.split {table final : ScopeTable} {visits first second : List Visit}
    (goes : GoAll table visits (first ++ second) final) :
    ∃ visits middle later, GoAll table visits first middle ∧ GoAll middle later second final := by
  induction first generalizing table visits with
  | nil => exact ⟨[], table, visits, .nil, goes⟩
  | cons visit rest inductionHypothesis =>
    cases goes with
    | cons firstGoes restGoes =>
      obtain ⟨visits, middle, later, front, back⟩ := inductionHypothesis restGoes
      exact ⟨_, middle, later, .cons firstGoes front, back⟩

/-- What visits add to any table: the current scope gets the names that are declared, and behind
all scopes come those of the regions. -/
def Adds (stamped : List Visit) (interior : Interior) : Prop :=
  ∀ ⦃table final : ScopeTable⦄ ⦃visits : List Visit⦄ ⦃outer : List Nat⦄ ⦃front back : List Outline⦄
    ⦃around : Outline⦄, GoAll table visits stamped final → table.Splits outer front around back →
      final.Splits outer front (around.declare interior.declared)
        (back ++ Region.outlinesAll (some front.length) around.level
          (front.length + 1 + back.length) interior.inner)

namespace Adds

/-- Nothing is added when nothing is visited. -/
theorem nil : Adds [] .empty := by
  intro table final visits outer front back around goes splits
  cases goes
  simpa [Interior.empty, Outline.declare, Region.outlinesAll] using splits

/-- The use of a name adds nothing, although it is resolved. -/
theorem used (mark : Mark) (name : Identifier) : Adds [.uses mark name] .empty := by
  intro table final visits outer front back around goes splits
  cases goes with
  | cons first rest =>
    cases first
    exact nil rest splits

/-- A declaration adds the name to the current scope. What is no name is not declared, and such a
visit does not go well. -/
theorem declared (node : Node) : Adds [node.declaredVisit] node.declaredInterior := by
  intro table final visits outer front back around goes splits
  cases node with
  | identifier mark name =>
    cases goes with
    | cons first rest =>
      cases first with
      | declares free =>
        cases rest
        simpa [Node.declaredInterior, Region.outlinesAll] using splits.declare free
  | _ =>
    cases goes with
    | cons first rest => cases first

/-- Visits one behind the other add one interior behind the other. The names come behind those that
were declared before, and the regions get the next numbers. -/
theorem append {first second : List Visit} {before behind : Interior}
    (addsFirst : Adds first before) (addsSecond : Adds second behind) :
    Adds (first ++ second) (before.append behind) := by
  intro table final visits outer front back around goes splits
  obtain ⟨visits, middle, later, goesFirst, goesSecond⟩ := goes.split
  have added := addsSecond goesSecond (addsFirst goesFirst splits)
  simpa [Interior.append, Outline.declare, Region.outlinesAll_append, Nat.add_assoc] using added

/-- A part that has a scope adds one region, and nothing to the names of the scope around it. -/
theorem enclosed {inner : List Visit} {interior : Interior} (adds : Adds inner interior)
    (scope : String) : Adds (Node.scopedVisits scope inner) (interior.enclosed scope) := by
  intro table final visits outer front back around goes splits
  rw [Node.scopedVisits] at goes
  cases goes with
  | cons opens rest =>
    cases opens
    obtain ⟨visits, middle, later, goesInner, goesLast⟩ := rest.split
    -- Inside, the new scope is current and the last one, so its regions go on behind it.
    have added := adds goesInner (splits.enter scope)
    cases goesLast with
    | cons last done =>
      cases last
      cases done
      apply added.exit
      simp [Interior.enclosed, Interior.region, Outline.declare, Region.outlinesAll,
        Region.outlines, Nat.add_assoc, Nat.add_comm 1]

end Adds

end Visit

mutual

/-- Resolution adds to the table what lies in the tree. The recursion follows the constructors, and
each case is one of the lemmas above. -/
theorem Node.visits_adds : (node : Node) → Visit.Adds node.visits node.interior
  | .integer _ _ _ => by
    rw [visits, interior]
    exact .nil
  | .identifier mark name => by
    rw [visits, interior]
    exact .used mark name
  | .unary _ _ operand => by
    rw [visits, interior]
    exact operand.visits_adds
  | .binary _ _ left right => by
    rw [visits, interior]
    exact left.visits_adds.append right.visits_adds
  | .clause _ _ condition body => by
    rw [visits, interior]
    exact condition.visits_adds.append (body.visits_adds.enclosed _)
  | .chain _ clauses none => by
    rw [visits, interior]
    exact visitsAll_adds clauses
  | .chain _ clauses (some body) => by
    rw [visits, interior]
    exact (visitsAll_adds clauses).append (body.visits_adds.enclosed _)
  | .whileLoop _ condition body => by
    rw [visits, interior]
    exact condition.visits_adds.append (body.visits_adds.enclosed _)
  | .doWhile _ body condition => by
    rw [visits, interior]
    exact (body.visits_adds.enclosed _).append condition.visits_adds
  | .compound _ statements => by
    rw [visits, interior]
    exact visitsAll_adds statements
  | .block _ statements => by
    rw [visits, interior]
    exact (visitsAll_adds statements).enclosed _
  | .declaration _ name => by
    rw [visits, interior]
    exact .declared name
  | .initialization _ name value => by
    rw [visits, interior]
    exact value.visits_adds.append (.declared name)
  | .assignment _ target _ value => by
    rw [visits, interior]
    exact target.visits_adds.append value.visits_adds
  | .returned _ value => by
    rw [visits, interior]
    exact value.visits_adds
  | .empty _ => by
    rw [visits, interior]
    exact .nil

/-- Resolution adds to the table what lies in several trees, in their order. It is proved together
with the lemma on one tree. -/
theorem Node.visitsAll_adds : (nodes : List Node) → Visit.Adds (visitsAll nodes) (interiorAll nodes)
  | [] => by
    rw [visitsAll, interiorAll]
    exact .nil
  | node :: later => by
    rw [visitsAll, interiorAll]
    exact node.visits_adds.append (visitsAll_adds later)

end

/-- The scopes of a resolved tree are those of its regions, number by number, with their levels,
parents and variables. -/
theorem Node.resolve_outlines {root : Node} (resolved : root.resolve.fault = none) :
    root.resolve.table.outlines =
      (root.resolve.tree.interior.region "global").outlines none 0 0 := by
  have new : ScopeTable.new.Splits [] [] ⟨"global", 1, none, []⟩ [] := ⟨rfl, rfl, rfl⟩
  have added := (root.resolve.tree.visits_adds (resolve_goAll resolved) new).outlines
  simpa [Interior.region, Region.outlines, Outline.declare] using added

/-!
## Names of scopes
-/

/-- The digits at the end of a text, last digit first. -/
def lastDigits (text : String) : List Char := text.toList.reverse.takeWhile Char.isDigit

/-- A scope's name ends with the number of its node, and what stands before it is no digit. -/
theorem lastDigits_scopeName (kind : String) (mark : Mark) :
    lastDigits (scopeName kind mark) = (Text.decimal mark.id).toList.reverse := by
  have digits : ∀ digit ∈ (Text.decimal mark.id).toList.reverse, digit.isDigit = true := by
    intro digit member
    rw [List.mem_reverse, Text.decimal_toList] at member
    exact Nat.isDigit_of_mem_toDigits (by decide) (by decide) member
  have behind : (scopeName kind mark).toList.reverse =
      (Text.decimal mark.id).toList.reverse ++ '_' :: kind.toList.reverse := by
    simp [scopeName]
  rw [lastDigits, behind, List.takeWhile_append_of_pos digits]
  simp

/-- The name of a node's scope ends with the number of the node, whatever kind of scope it is. -/
theorem Node.lastDigits_ownScope {node : Node} {scope : String}
    (own : node.ownScope? = some scope) :
    lastDigits scope = (Text.decimal node.id).toList.reverse := by
  cases node with
  | chain mark clauses otherwise =>
    cases otherwise with
    | none => cases own
    | some body =>
      cases own
      exact lastDigits_scopeName _ _
  | clause mark tag condition body =>
    cases own
    exact lastDigits_scopeName _ _
  | whileLoop mark condition body =>
    cases own
    exact lastDigits_scopeName _ _
  | doWhile mark body condition =>
    cases own
    exact lastDigits_scopeName _ _
  | block mark statements =>
    cases own
    exact lastDigits_scopeName _ _
  | _ => cases own

/-- The names of the scopes that belong to the nodes of a tree. -/
def Node.ownScopes (root : Node) : List String := root.postorder.flatMap (·.ownScope?.toList)

/-- Nodes with different numbers have scopes with different names, because the number can be read
off the name. -/
theorem Node.ownScopes_nodup {root : Node} (numbered : (root.postorder.map Node.id).Nodup) :
    root.ownScopes.Nodup := by
  rw [ownScopes, ← List.filterMap_eq_flatMap_toList]
  refine (List.pairwise_map.mp numbered).filterMap _ ?_
  intro node other different scope isOwn otherScope isOther same
  apply different
  apply Text.decimal_injective
  have digits := (lastDigits_ownScope isOwn).symm.trans
    ((congrArg lastDigits same).trans (lastDigits_ownScope isOther))
  exact String.toList_injective (List.reverse_injective digits)

/-- No scope of a node is called like the global one, whose name has no number at its end. -/
theorem Node.global_not_mem_ownScopes (root : Node) : "global" ∉ root.ownScopes := by
  intro member
  obtain ⟨node, -, isOwn⟩ := List.mem_flatMap.mp member
  have digits := lastDigits_ownScope (Option.mem_toList.mp isOwn)
  obtain ⟨first, later, decimal, -⟩ := Text.decimal_head node.id
  rw [decimal] at digits
  have none : lastDigits "global" = [] := by decide
  rw [none, List.reverse_cons] at digits
  exact List.append_ne_nil_of_right_ne_nil _ (List.cons_ne_nil _ _) digits.symm

/-- The names of the scopes that belong to what a visit comes to. -/
def Visit.ownScopes : Visit → List String
  | .opens scope => [scope]
  | .undeclarable node => node.ownScopes
  | _ => []

/-- Every scope of a tree is opened by one visit. The order of the visits is another one than that
of the nodes. -/
theorem Node.ownScopes_visited (node : Node) :
    node.ownScopes.Perm (node.visits.flatMap Visit.ownScopes) := by
  have meets : Meets (fun node : Node => node.ownScope?.toList) Visit.ownScopes := by
    refine ⟨fun _ _ => rfl, fun _ _ => rfl, fun _ => rfl, ?_, rfl, ?_⟩
    · intro node scope isOwn
      rw [isOwn]
      rfl
    · intro node noScope _
      rw [noScope]
      rfl
  exact meets.perm node

/-- Visits that go well add the scopes that they open, and no scope is lost when it closes. -/
theorem Visit.GoAll.scopeNames {table final : ScopeTable} {visits stamped : List Visit}
    (goes : GoAll table visits stamped final) :
    final.scopes.map Scope.name = table.scopes.map Scope.name ++ visits.flatMap ownScopes := by
  induction goes with
  | nil => simp
  | cons first rest inductionHypothesis =>
    rw [inductionHypothesis, List.flatMap_cons, ← List.append_assoc]
    congr 1
    cases first with
    | opens => exact ScopeTable.enter_names _ _
    | closes =>
      rw [ScopeTable.exit_scopes]
      exact (List.append_nil _).symm
    | uses found => exact (List.append_nil _).symm
    | declares free => exact (ScopeTable.insert_names _ _).trans (List.append_nil _).symm

/-- The scopes behind the global one have the names of the scopes of the tree, each once. -/
theorem Node.resolve_scopeNames {root : Node} (resolved : root.resolve.fault = none) :
    ∃ names, root.resolve.table.scopes.map Scope.name = "global" :: names ∧
      names.Perm root.ownScopes :=
  ⟨_, (resolve_goAll resolved).scopeNames, root.ownScopes_visited.symm⟩

/-- **The scopes of a program mirror its nesting.**

For every program that parses and resolves, the scopes of the table are the regions of its tree,
in pre-order below the global one: each has the name of its node's kind and number, the scope of
the region around it as its parent, a level one above its depth, and as its variables the names
that are declared directly in it, in their order and with their stamps. Every node that has a
scope has one of them, no two scopes have the same name, and the tree is the one that was parsed
but for its stamps. -/
theorem scopes_mirror_nesting (tokens : List Token) (parsed : Parsed)
    (accepted : Parsed.ofTokens tokens = .ok parsed)
    (resolved : parsed.root.resolve.fault = none) :
    parsed.root.resolve.tree.unstamped = parsed.root.unstamped ∧
    parsed.root.resolve.table.outlines =
      (parsed.root.resolve.tree.interior.region "global").outlines none 0 0 ∧
    (∃ names, parsed.root.resolve.table.scopes.map Scope.name = "global" :: names ∧
      names.Perm parsed.root.ownScopes) ∧
    (parsed.root.resolve.table.scopes.map Scope.name).Nodup := by
  have named := Node.resolve_scopeNames resolved
  refine ⟨parsed.root.resolveFrom_unstamped Resolution.start, Node.resolve_outlines resolved,
    named, ?_⟩
  obtain ⟨names, isNames, same⟩ := named
  have numbered : (parsed.root.postorder.map Node.id).Nodup := by
    rw [Parsed.postorder_ids accepted]
    exact List.nodup_range
  rw [isNames, List.nodup_cons, same.mem_iff, same.nodup_iff]
  exact ⟨parsed.root.global_not_mem_ownScopes, Node.ownScopes_nodup numbered⟩

/-- A program with all kinds of scopes, some in each other and some side by side, and with names
that are declared behind an inner scope. -/
def nestedBodies : String :=
  "int main() \x7b int a = 1; if (a > 0) \x7b int b = a; while (b < 2) \x7b b += 1; \x7d " ++
  "int c; \x7d else if (a < 0) \x7b \x7d else \x7b \x7b int a; do \x7b int c; \x7d " ++
  "while (a > 1); \x7d \x7d int d; \x7d"

/-- The scopes of `nestedBodies`. -/
def nestedOutlines : List Outline :=
  [⟨"global", 1, none, [⟨"a", some (-4), some .int⟩, ⟨"d", some (-24), some .int⟩]⟩,
    ⟨"if_20", 2, some 0, [⟨"b", some (-8), some .int⟩, ⟨"c", some (-12), some .int⟩]⟩,
    ⟨"while_16", 3, some 1, []⟩,
    ⟨"elseif_26", 2, some 0, []⟩,
    ⟨"else_38", 2, some 0, []⟩,
    ⟨"block_36", 3, some 4, [⟨"a", some (-16), some .int⟩]⟩,
    ⟨"dowhile_35", 4, some 5, [⟨"c", some (-20), some .int⟩]⟩]

/-- The program above has the seven scopes that are listed, by its table and by its regions, and no
two of them have the same name. -/
theorem scopes_mirror_nesting_nestedBodies :
    ∃ parsed, Parsed.ofTokens (Lexed.ofText nestedBodies).tokens = .ok parsed ∧
      parsed.root.resolve.fault = none ∧
      parsed.root.resolve.table.outlines = nestedOutlines ∧
      (parsed.root.resolve.tree.interior.region "global").outlines none 0 0 = nestedOutlines ∧
      (parsed.root.resolve.table.scopes.map Scope.name).Nodup := by
  have evaluated : (Parsed.ofTokens (Lexed.ofText nestedBodies).tokens).toOption.any
      (fun parsed => parsed.root.resolve.fault.isNone &&
        parsed.root.resolve.table.outlines == nestedOutlines) = true := by
    decide +kernel
  obtain ⟨parsed, accepted, checked⟩ := exists_ok_of_any evaluated
  obtain ⟨resolved, outlined⟩ := (Bool.and_eq_true _ _).mp checked
  rw [Option.isNone_iff_eq_none] at resolved
  rw [beq_iff_eq] at outlined
  obtain ⟨-, mirrored, -, distinct⟩ := scopes_mirror_nesting _ parsed accepted resolved
  exact ⟨parsed, accepted, resolved, outlined, mirrored.symm.trans outlined, distinct⟩

end IntMain
