import IntMain.Proofs.NameChanges
import IntMain.Proofs.SelectionRules
import IntMain.Token.Lexer

/-!
# Variables may have other names

A program in which every variable gets another name is resolved, lowered and assembled
like the program itself, and only the comments in the assembly tell the two apart. The new
names have to differ where the old ones do, and there is one more condition. A scope keeps
a symbol for each scope inside it, beside the symbols of its variables, so neither an old
nor a new name may be that of a scope of the program. Without this condition the statement
fails: the name of a scope is taken in the scope around it, and a variable cannot be
declared there under that name.

The two tables are the same but for the names of variables. Lowering reads addresses, and a
name is only listed beside its address. Selection takes the place of a variable from its
address, and labels and temporaries keep their names.
-/

namespace IntMain

/-!
## Names of variables and names of scopes
-/

/-- The identifier under another name. -/
def Identifier.renamed (rename : String → String) (name : Identifier) : Identifier :=
  { name with name := rename name.name }

/-- The tree in which every identifier has another name. -/
def Node.renamed (rename : String → String) (node : Node) : Node :=
  node.mapNames (Identifier.renamed rename)

/-- The name that is used or declared. -/
def Event.name? : Event → Option String
  | .uses _ name => some name.name
  | .declares _ name => some name.name
  | _ => none

/-- The name of the scope that opens. -/
def Event.scope? : Event → Option String
  | .opens scope => some scope
  | _ => none

namespace Node

/-- The names that a program uses and declares. -/
def names (root : Node) : List String := root.events.filterMap Event.name?

/-- The names that the scopes of a program can hold besides those of its variables: that of
the builtin type and those of its scopes. -/
def reserved (root : Node) : List String :=
  builtinType :: root.events.filterMap Event.scope?

end Node

/-- Variables keep their identity under new names, and no old or new name is reserved. Names that
the program does not have are not asked for. -/
structure Faithful (rename : String → String) (names reserved : List String) : Prop where
  injective : ∀ first ∈ names, ∀ second ∈ names, rename first = rename second → first = second
  apart : ∀ name ∈ names, name ∉ reserved
  renamedApart : ∀ name ∈ names, rename name ∉ reserved

/-!
## Resolution under new names
-/

/-- The symbol of a variable under another name. -/
def Symbol.renamed (rename : String → String) : Symbol → Symbol
  | .slot name offset type => .slot (rename name) offset type
  | other => other

/-- The scope with its variables under other names. -/
def Scope.renamed (rename : String → String) (scope : Scope) : Scope :=
  { scope with symbols := scope.symbols.map (Symbol.renamed rename) }

/-- The scopes with their variables under other names. -/
def ScopeTable.renamed (rename : String → String) (table : ScopeTable) : ScopeTable :=
  { table with scopes := table.scopes.map (Scope.renamed rename) }

/-- A symbol has a name of its kind. -/
def Symbol.Named (names reserved : List String) : Symbol → Prop
  | .slot name _ _ => name ∈ names
  | other => other.name ∈ reserved

section Tables

variable {rename : String → String} {names reserved : List String}

/-- All symbols of a table have names of their kinds. -/
def ScopeTable.Named (names reserved : List String) (table : ScopeTable) : Prop :=
  ∀ scope ∈ table.scopes, ∀ symbol ∈ scope.symbols, symbol.Named names reserved

/-- A name is looked for under another one: that of a variable under its new name, and a
reserved one under itself. -/
inductive Sought (rename : String → String) (names reserved : List String) :
    String → String → Prop
  | changed {name : String} (isName : name ∈ names) :
      Sought rename names reserved name (rename name)
  | kept {name : String} (isReserved : name ∈ reserved) : Sought rename names reserved name name

/-- A symbol has the name that is looked for exactly if it has it under the new names. For variables
this is injectivity, and for all other symbols that their names are reserved. -/
theorem Sought.name_iff (faithful : Faithful rename names reserved) {name other : String}
    (sought : Sought rename names reserved name other) {symbol : Symbol}
    (named : symbol.Named names reserved) :
    (symbol.renamed rename).name = other ↔ symbol.name = name := by
  cases sought with
  | changed isName =>
    cases symbol with
    | slot slotName offset type =>
      constructor
      · exact faithful.injective slotName named name isName
      · exact congrArg rename
    | builtin type =>
      refine iff_of_false ?_ ?_
      · rintro rfl
        exact faithful.renamedApart name isName named
      · rintro rfl
        exact faithful.apart _ isName named
    | nested scope id =>
      refine iff_of_false ?_ ?_
      · rintro rfl
        exact faithful.renamedApart name isName named
      · rintro rfl
        exact faithful.apart _ isName named
  | kept isReserved =>
    cases symbol with
    | slot slotName offset type =>
      refine iff_of_false ?_ ?_
      · rintro rfl
        exact faithful.renamedApart slotName named isReserved
      · rintro rfl
        exact faithful.apart _ named isReserved
    | builtin type => exact Iff.rfl
    | nested scope id => exact Iff.rfl

/-- A name is found in a scope under the new names where it was found before. -/
theorem Scope.get?_renamed (faithful : Faithful rename names reserved) {scope : Scope}
    (named : ∀ symbol ∈ scope.symbols, symbol.Named names reserved) {name other : String}
    (sought : Sought rename names reserved name other) :
    (scope.renamed rename).get? other = (scope.get? name).map (Symbol.renamed rename) := by
  have sameSymbols : scope.symbols.filter (fun symbol => (symbol.renamed rename).name == other) =
      scope.symbols.filter (fun symbol => symbol.name == name) := by
    apply List.filter_congr
    intro symbol member
    rw [Bool.eq_iff_iff, beq_iff_eq, beq_iff_eq]
    exact sought.name_iff faithful (named symbol member)
  rw [Scope.get?, Scope.get?, Scope.renamed, List.find?_map, ← List.head?_filter,
    ← List.head?_filter]
  exact congrArg (fun symbols => Option.map (Symbol.renamed rename) (List.head? symbols))
    sameSymbols

/-- A new symbol is inserted into a scope under the new names as it is before. In particular its
name is taken in both or in neither. -/
theorem Scope.insert_renamed (faithful : Faithful rename names reserved) {scope : Scope}
    (named : ∀ symbol ∈ scope.symbols, symbol.Named names reserved) {symbol : Symbol}
    (sought : Sought rename names reserved symbol.name (symbol.renamed rename).name) :
    (scope.insert symbol).renamed rename =
      (scope.renamed rename).insert (symbol.renamed rename) := by
  have found := Scope.get?_renamed faithful named sought
  by_cases taken : (scope.get? symbol.name).isSome = true
  · have stillTaken : ((scope.renamed rename).get? (symbol.renamed rename).name).isSome = true := by
      rw [found, Option.isSome_map]
      exact taken
    rw [Scope.insert, if_pos taken, Scope.insert, if_pos stillTaken]
  · have stillFree :
        ¬ ((scope.renamed rename).get? (symbol.renamed rename).name).isSome = true := by
      rw [found, Option.isSome_map]
      exact taken
    rw [Scope.insert, if_neg taken, Scope.insert, if_neg stillFree]
    simp [Scope.renamed]

/-- An inserted symbol has a name of its kind if the others have. -/
theorem Scope.insert_named {scope : Scope} {symbol : Symbol}
    (named : ∀ other ∈ scope.symbols, other.Named names reserved)
    (symbolNamed : symbol.Named names reserved) :
    ∀ other ∈ (scope.insert symbol).symbols, other.Named names reserved := by
  unfold Scope.insert
  split
  · exact named
  · exact List.forall_mem_append.mpr ⟨named, List.forall_mem_singleton.mpr symbolNamed⟩

namespace ScopeTable

variable {table : ScopeTable}

/-- A name is found in a scope of a table under the new names where it was found before, if there is
such a scope. -/
theorem scope?_renamed (faithful : Faithful rename names reserved)
    (named : table.Named names reserved) {name other : String}
    (sought : Sought rename names reserved name other) (id : Nat) :
    ((table.renamed rename).scope? id).bind (·.get? other) =
      ((table.scope? id).bind (·.get? name)).map (Symbol.renamed rename) := by
  rw [scope?, renamed, List.getElem?_map, scope?]
  cases found : table.scopes[id]? with
  | none => rfl
  | some scope =>
    exact Scope.get?_renamed faithful (named scope (List.mem_of_getElem? found)) sought

/-- A name means the same variable under the new names, in whichever of the open scopes it is
found. -/
theorem lookup?_renamed (faithful : Faithful rename names reserved)
    (named : table.Named names reserved) {name other : String}
    (sought : Sought rename names reserved name other) :
    (table.renamed rename).lookup? other =
      (table.lookup? name).map (Symbol.renamed rename) := by
  rw [lookup?, lookup?, List.map_findSome?]
  exact congrArg (fun look => List.findSome? look (table.current :: table.outer))
    (funext (scope?_renamed faithful named sought))

/-- A name is taken in the current scope under the new names if it was before. -/
theorem lookupLocal?_renamed (faithful : Faithful rename names reserved)
    (named : table.Named names reserved) {name other : String}
    (sought : Sought rename names reserved name other) :
    (table.renamed rename).lookupLocal? other =
      (table.lookupLocal? name).map (Symbol.renamed rename) :=
  scope?_renamed faithful named sought table.current

/-- A symbol is inserted into a table under the new names as it is before, in the same scope. -/
theorem insert_renamed (faithful : Faithful rename names reserved)
    (named : table.Named names reserved) {symbol : Symbol}
    (sought : Sought rename names reserved symbol.name (symbol.renamed rename).name) :
    (table.insert symbol).renamed rename =
      (table.renamed rename).insert (symbol.renamed rename) := by
  have sameScopes : (table.scopes.modify table.current (·.insert symbol)).map
        (Scope.renamed rename) =
      (table.scopes.map (Scope.renamed rename)).modify table.current
        (·.insert (symbol.renamed rename)) := by
    apply List.ext_getElem?
    intro id
    simp only [List.getElem?_map, List.getElem?_modify]
    cases found : table.scopes[id]? with
    | none => rfl
    | some scope =>
      have inserted := Scope.insert_renamed faithful
        (named scope (List.mem_of_getElem? found)) sought
      by_cases current : table.current = id <;> simp [current, inserted]
  simp only [insert, renamed, sameScopes]

/-- An inserted symbol has a name of its kind if the others have, so all symbols of the table do. -/
theorem Named.insert (named : table.Named names reserved) {symbol : Symbol}
    (symbolNamed : symbol.Named names reserved) :
    (table.insert symbol).Named names reserved := by
  intro scope member
  obtain ⟨id, found⟩ := List.mem_iff_getElem?.mp member
  simp only [ScopeTable.insert, List.getElem?_modify] at found
  obtain ⟨older, isOlder, rfl⟩ := Option.map_eq_some_iff.mp found
  have olderNamed := named older (List.mem_of_getElem? isOlder)
  split
  · exact Scope.insert_named olderNamed symbolNamed
  · exact olderNamed

/-- A scope is entered under the new names as it is before. Its marker keeps its name, which is why
the name has to be reserved. -/
theorem enter_renamed (faithful : Faithful rename names reserved)
    (named : table.Named names reserved) {scope : String} (isReserved : scope ∈ reserved) :
    (table.enter scope).renamed rename = (table.renamed rename).enter scope := by
  have sought : Sought rename names reserved (Symbol.nested scope table.scopes.length).name
      ((Symbol.nested scope table.scopes.length).renamed rename).name := .kept isReserved
  have marked : (table.insert (.nested scope table.scopes.length)).scopes.map
        (Scope.renamed rename) =
      ((table.renamed rename).insert (.nested scope table.scopes.length)).scopes :=
    congrArg ScopeTable.scopes (insert_renamed faithful named sought)
  have sameLevel : ((table.renamed rename).scope? table.current).map Scope.level =
      (table.scope? table.current).map Scope.level := by
    rw [scope?, renamed, List.getElem?_map, Option.map_map]
    rfl
  have sameLength : (table.renamed rename).scopes.length = table.scopes.length :=
    List.length_map _
  simp only [enter, sameLength, show (table.renamed rename).current = table.current from rfl,
    show (table.renamed rename).outer = table.outer from rfl, sameLevel]
  rw [← marked]
  simp only [renamed, List.map_append]
  rfl

/-- The scopes of a table that is entered have symbols with names of their kinds. The new scope
begins with the builtin type, so its name has to be reserved. -/
theorem Named.enter (named : table.Named names reserved) {scope : String}
    (isReserved : scope ∈ reserved) (builtinReserved : builtinType ∈ reserved) :
    (table.enter scope).Named names reserved := by
  have marked : (table.insert (.nested scope table.scopes.length)).Named names reserved :=
    named.insert isReserved
  refine List.forall_mem_append.mpr ⟨marked, List.forall_mem_singleton.mpr ?_⟩
  exact List.forall_mem_singleton.mpr builtinReserved

end ScopeTable

/-- One table is the other one under new names, and has no other symbols than it may. -/
def Renames (rename : String → String) (names reserved : List String)
    (table other : ScopeTable) : Prop :=
  other = table.renamed rename ∧ table.Named names reserved

/-- A scope is left under the new names as it is before. -/
theorem Renames.exit {table other : ScopeTable}
    (renames : Renames rename names reserved table other) :
    Renames rename names reserved table.exit other.exit := by
  obtain ⟨rfl, named⟩ := renames
  constructor
  · obtain ⟨scopes, current, outer, slots⟩ := table
    cases outer <;> rfl
  · intro scope member
    exact named scope (table.exit_scopes ▸ member)

/-- A variable is defined under its new name if it is under the old one, and the tables are related
again. If it is refused, it is refused in both. -/
theorem Renames.define (faithful : Faithful rename names reserved) {table other : ScopeTable}
    (renames : Renames rename names reserved table other) {name : String}
    (isName : name ∈ names) (offset : Int) (type : String) (position : Position) :
    Alike (Renames rename names reserved) (table.define (.slot name offset type) position)
      (other.define (.slot (rename name) offset type) position) := by
  obtain ⟨rfl, named⟩ := renames
  have sought : Sought rename names reserved name (rename name) := .changed isName
  have isLocal := ScopeTable.lookupLocal?_renamed faithful named sought
  have sameTaken : ((table.renamed rename).lookupLocal? (rename name)).isSome =
      (table.lookupLocal? name).isSome := by
    rw [isLocal, Option.isSome_map]
  by_cases taken : (table.lookupLocal? (Symbol.slot name offset type).name).isSome = true
  · have otherTaken : ((table.renamed rename).lookupLocal?
        (Symbol.slot (rename name) offset type).name).isSome = true := sameTaken.trans taken
    rw [ScopeTable.define, if_pos taken, ScopeTable.define, if_pos otherTaken]
    trivial
  · have otherFree : ¬ ((table.renamed rename).lookupLocal?
        (Symbol.slot (rename name) offset type).name).isSome = true :=
      fun otherTaken => taken (sameTaken.symm.trans otherTaken)
    have inserted : (table.insert (.slot name offset type)).renamed rename =
        (table.renamed rename).insert (.slot (rename name) offset type) :=
      ScopeTable.insert_renamed faithful named sought
    rw [ScopeTable.define, if_neg taken, ScopeTable.define, if_neg otherFree]
    exact ⟨inserted.symm, named.insert isName⟩

/-- An event does the same to two tables of which one has the new names. The names of variables and
those of scopes have to be known beforehand, because later events may meet either. -/
theorem Event.corresponds_renamed (faithful : Faithful rename names reserved)
    (builtinReserved : builtinType ∈ reserved) {event : Event}
    (isName : ∀ name, event.name? = some name → name ∈ names)
    (isReserved : ∀ scope, event.scope? = some scope → scope ∈ reserved) :
    event.Corresponds (Identifier.renamed rename) (Identifier.renamed rename)
      (Renames rename names reserved) := by
  rintro table _ ⟨rfl, named⟩
  cases event with
  | opens scope =>
    have scopeReserved := isReserved scope rfl
    exact ⟨rfl, (ScopeTable.enter_renamed faithful named scopeReserved).symm,
      named.enter scopeReserved builtinReserved⟩
  | closes => exact ⟨rfl, Renames.exit ⟨rfl, named⟩⟩
  | uses mark name =>
    have found := ScopeTable.lookup?_renamed faithful named
      (Sought.changed (isName name.name rfl))
    simp only [Event.mapName, Event.resolve, Identifier.renamed, found]
    cases table.lookup? name.name with
    | none => trivial
    | some symbol =>
      cases symbol with
      | slot slotName offset type => exact ⟨rfl, rfl, named⟩
      | builtin type => trivial
      | nested scope id => trivial
  | declares mark name =>
    have builtin : (table.renamed rename).lookup? TypeTag.int.name =
        (table.lookup? TypeTag.int.name).map (Symbol.renamed rename) :=
      ScopeTable.lookup?_renamed faithful named (.kept builtinReserved)
    have allocated : Renames rename names reserved table.allocate
        (table.renamed rename).allocate := ⟨rfl, named⟩
    simp only [Event.mapName, Event.resolve, Identifier.renamed, builtin]
    cases table.lookup? TypeTag.int.name with
    | none => trivial
    | some symbol =>
      cases symbol with
      | slot slotName offset type => trivial
      | nested scope id => trivial
      | builtin type =>
        have defined : Alike (Renames rename names reserved)
            (table.allocate.define (.slot name.name table.allocate.offset type) mark.position)
            ((table.renamed rename).allocate.define
              (.slot (rename name.name) (table.renamed rename).allocate.offset type)
              mark.position) :=
          allocated.define faithful (isName name.name rfl) table.allocate.offset type mark.position
        dsimp only [Option.map_some, Symbol.renamed]
        generalize table.allocate.define _ _ = first at defined ⊢
        generalize (table.renamed rename).allocate.define _ _ = second at defined ⊢
        cases first with
        | error fault =>
          cases second with
          | error otherFault => trivial
          | ok after => exact defined.elim
        | ok after =>
          cases second with
          | error otherFault => exact defined.elim
          | ok otherAfter => exact ⟨rfl, defined⟩
  | undeclarable tag => trivial

end Tables

/-- A program is resolved under faithful new names exactly if it is resolved at all, and the
stamps are the same. -/
theorem Node.resolve_renamed {rename : String → String} {root : Node}
    (faithful : Faithful rename root.names root.reserved) :
    root.resolve.fault.isSome = (root.renamed rename).resolve.fault.isSome ∧
      (root.resolve.fault = none →
        (root.renamed rename).resolve.tree = root.resolve.tree.renamed rename) := by
  have all : ∀ event ∈ root.events, event.Corresponds (Identifier.renamed rename)
      (Identifier.renamed rename) (Renames rename root.names root.reserved) := by
    intro event member
    apply Event.corresponds_renamed faithful List.mem_cons_self
    · intro name isName
      exact List.mem_filterMap.mpr ⟨event, member, isName⟩
    · intro scope isScope
      exact List.mem_cons_of_mem _ (List.mem_filterMap.mpr ⟨event, member, isScope⟩)
  have start : Renames rename root.names root.reserved ScopeTable.new ScopeTable.new := by
    refine ⟨rfl, ?_⟩
    exact List.forall_mem_singleton.mpr (List.forall_mem_singleton.mpr List.mem_cons_self)
  obtain ⟨sameFault, same⟩ := Node.resolve_mapNames all start
  exact ⟨sameFault, fun noFault => (same noFault).2⟩

/-!
## Lowering under new names
-/

/-- An operand under another name, if it is a variable. -/
def Operand.renamed (rename : String → String) (operand : Operand) : Operand :=
  if operand.kind = .variable then { operand with name := rename operand.name } else operand

/-- A quadruple with its variables under other names. -/
def Quad.renamed (rename : String → String) (quad : Quad) : Quad :=
  ⟨quad.command, quad.left.map (Operand.renamed rename), quad.right.map (Operand.renamed rename),
    quad.target.map (Operand.renamed rename)⟩

/-- A computation with its variables under other names. -/
def Computation.renamed (rename : String → String) (computation : Computation) : Computation :=
  ⟨computation.code.map (Quad.renamed rename), computation.value.renamed rename⟩

section Lowering

variable (rename : String → String)

namespace Operand

/-- A variable is listed under its new name, with its address. -/
theorem stored_renamed (name : String) (address : Int) :
    (Operand.stored name address).renamed rename = .stored (rename name) address := rfl

/-- An operand keeps its kind, because only its name is changed. -/
theorem kind_renamed (operand : Operand) : (operand.renamed rename).kind = operand.kind := by
  unfold renamed
  split <;> rfl

/-- An operand is a temporary under new names if it was one before. -/
theorem isTemporary_renamed (operand : Operand) :
    (operand.renamed rename).isTemporary = operand.isTemporary := by
  rw [isTemporary, kind_renamed, isTemporary]

/-- An operand takes a temporary under new names if it took one before, so temporaries are numbered
alike. -/
theorem liveAfter_renamed (operand : Operand) (live : Nat) :
    (operand.renamed rename).liveAfter live = operand.liveAfter live := by
  rw [liveAfter, isTemporary_renamed, liveAfter]

end Operand

/-- The last instruction is sent elsewhere under new names as it is before, to the renamed
target. -/
theorem retarget_renamed (target : Operand) (code : List Quad) :
    (retarget target code).map (Quad.renamed rename) =
      retarget (target.renamed rename) (code.map (Quad.renamed rename)) := by
  induction code with
  | nil => rfl
  | cons quad later inductionHypothesis =>
    cases later with
    | nil => rfl
    | cons next later =>
      simp only [retarget, List.map_cons] at inductionHypothesis ⊢
      rw [inductionHypothesis]

/-- A computed value is stored under new names as it is before. Whether it is copied depends on
there being code, which stays the same. -/
theorem Computation.storedIn_renamed (computation : Computation) (target : Operand) :
    (computation.storedIn target).map (Quad.renamed rename) =
      (computation.renamed rename).storedIn (target.renamed rename) := by
  simp only [storedIn, renamed, Operand.isTemporary_renamed]
  split
  · exact retarget_renamed rename target computation.code
  · rw [List.map_append]
    rfl

namespace Node

/-- A variable is found under its new name. What is no variable, or has no address, is a fault in
both trees. -/
theorem variableOperand_renamed (node : Node) :
    Alike (fun operand other => other = operand.renamed rename) node.variableOperand
      (node.mapNames (.renamed rename)).variableOperand := by
  cases node with
  | identifier mark name =>
    simp only [mapNames, variableOperand, Identifier.renamed]
    cases name.address with
    | none => trivial
    | some address => exact Operand.stored_renamed rename name.name address
  | chain mark clauses otherwise => cases otherwise <;> trivial
  | _ => trivial

/-- An expression is computed under new names as it is before, with the same temporaries. The
recursion follows the constructors of the tree. -/
theorem lowerExpression_renamed : (node : Node) → (live : Nat) →
    Alike (fun computation other => other = computation.renamed rename)
      (node.lowerExpression live) ((node.mapNames (.renamed rename)).lowerExpression live)
  | .integer mark value lexeme, live => by
    simp only [mapNames, lowerExpression]
    rfl
  | .identifier mark name, live => by
    have operand := variableOperand_renamed rename (.identifier mark name)
    simp only [mapNames] at operand
    simp only [mapNames, lowerExpression]
    refine operand.bind ?_
    rintro value _ rfl
    rfl
  | .unary mark op operand, live => by
    simp only [mapNames, lowerExpression]
    refine (operand.lowerExpression_renamed live).bind ?_
    rintro computation _ rfl
    refine congrArg (Computation.mk · _) ?_
    simp only [Computation.renamed, List.map_append]
    rfl
  | .binary mark op left right, live => by
    simp only [mapNames, lowerExpression]
    refine (left.lowerExpression_renamed live).bind ?_
    rintro leftComputation _ rfl
    simp only [Computation.renamed, Operand.liveAfter_renamed]
    refine (right.lowerExpression_renamed _).bind ?_
    rintro rightComputation _ rfl
    refine congrArg (Computation.mk · _) ?_
    simp only [List.map_append]
    rfl
  | .clause .., _ | .chain _ _ none, _ | .chain _ _ (some _), _ | .whileLoop .., _
  | .doWhile .., _ | .compound .., _ | .block .., _ | .declaration .., _
  | .initialization .., _ | .assignment .., _ | .returned .., _ | .empty .., _ => by
    simp only [mapNames, lowerExpression]
    trivial

/-- An assignment is lowered under new names as it is before, also if it combines the value with its
target. -/
theorem lowerAssignment_renamed (target : Node) (op : AssignOp) (value : Node) :
    Alike (fun code other => other = code.map (Quad.renamed rename))
      (lowerAssignment target op value)
      (lowerAssignment (target.mapNames (.renamed rename)) op
        (value.mapNames (.renamed rename))) := by
  refine (variableOperand_renamed rename target).bind ?_
  rintro operand _ rfl
  refine (lowerExpression_renamed rename value 0).bind ?_
  rintro computation _ rfl
  cases op.arithmetic? with
  | none => exact (Computation.storedIn_renamed rename computation operand).symm
  | some arithmetic =>
    refine Eq.trans ?_ (Computation.storedIn_renamed rename _ operand).symm
    simp only [Computation.renamed, List.map_append]
    rfl

/-- The code of a statement under new names, and the labels that are taken then. -/
def CodeRenamed (lowered other : List Quad × Nat) : Prop :=
  other = (lowered.1.map (Quad.renamed rename), lowered.2)

mutual

/-- A statement is lowered under new names as it is before, with the same labels. No condition on
the new names is needed, because lowering goes by addresses. -/
theorem lowerStatement_renamed : (node : Node) → (labels : Nat) →
    Alike (CodeRenamed rename) (node.lowerStatement labels)
      ((node.mapNames (.renamed rename)).lowerStatement labels)
  | .compound mark statements, labels => by
    simp only [mapNames, lowerStatement]
    exact lowerStatements_renamed statements labels
  | .block mark statements, labels => by
    simp only [mapNames, lowerStatement]
    exact lowerStatements_renamed statements labels
  | .empty mark, labels => by
    simp only [mapNames, lowerStatement]
    rfl
  | .declaration mark name, labels => by
    simp only [mapNames, lowerStatement]
    rfl
  | .initialization mark name value, labels => by
    simp only [mapNames, lowerStatement]
    refine (lowerAssignment_renamed rename name .assign value).bind ?_
    rintro code _ rfl
    rfl
  | .assignment mark target op value, labels => by
    simp only [mapNames, lowerStatement]
    refine (lowerAssignment_renamed rename target op value).bind ?_
    rintro code _ rfl
    rfl
  | .returned mark value, labels => by
    simp only [mapNames, lowerStatement]
    refine (value.lowerExpression_renamed rename 0).bind ?_
    rintro computation _ rfl
    refine congrArg (Prod.mk · _) ?_
    simp only [Computation.renamed, List.map_append]
    rfl
  | .chain mark clauses none, labels => by
    simp only [mapNames, lowerStatement]
    refine (lowerClauses_renamed clauses (labels + 1) (labels + 1)).bind ?_
    rintro ⟨code, after⟩ _ rfl
    refine congrArg (Prod.mk · _) ?_
    simp only [List.map_append]
    rfl
  | .chain mark clauses (some body), labels => by
    simp only [mapNames, lowerStatement]
    refine (lowerClauses_renamed clauses (labels + 1) (labels + 1)).bind ?_
    rintro ⟨code, between⟩ _ rfl
    refine (body.lowerStatement_renamed between).bind ?_
    rintro ⟨bodyCode, after⟩ _ rfl
    refine congrArg (Prod.mk · _) ?_
    simp only [List.map_append]
    rfl
  | .whileLoop mark condition body, labels => by
    simp only [mapNames, lowerStatement]
    refine (condition.lowerExpression_renamed rename 0).bind ?_
    rintro test _ rfl
    refine (body.lowerStatement_renamed (labels + 2)).bind ?_
    rintro ⟨bodyCode, after⟩ _ rfl
    refine congrArg (Prod.mk · _) ?_
    simp only [Computation.renamed, List.map_append, List.map_cons]
    rfl
  | .doWhile mark body condition, labels => by
    simp only [mapNames, lowerStatement]
    refine (body.lowerStatement_renamed (labels + 1)).bind ?_
    rintro ⟨bodyCode, after⟩ _ rfl
    refine (condition.lowerExpression_renamed rename 0).bind ?_
    rintro test _ rfl
    refine congrArg (Prod.mk · _) ?_
    simp only [Computation.renamed, List.map_append, List.map_cons]
    rfl
  | .clause .., _ | .integer .., _ | .identifier .., _ | .unary .., _ | .binary .., _ => by
    simp only [mapNames, lowerStatement]
    trivial

/-- Statements are lowered under new names as they are before. It is proved together with the lemma
on one statement. -/
theorem lowerStatements_renamed : (nodes : List Node) → (labels : Nat) →
    Alike (CodeRenamed rename) (lowerStatements nodes labels)
      (lowerStatements (mapNamesAll (.renamed rename) nodes) labels)
  | [], labels => by
    simp only [mapNamesAll, lowerStatements]
    rfl
  | node :: later, labels => by
    simp only [mapNamesAll, lowerStatements]
    refine (node.lowerStatement_renamed labels).bind ?_
    rintro ⟨code, between⟩ _ rfl
    refine (lowerStatements_renamed later between).bind ?_
    rintro ⟨rest, after⟩ _ rfl
    refine congrArg (Prod.mk · _) ?_
    exact (List.map_append ..).symm

/-- Clauses are lowered under new names as they are before. The label for which they leave is a
numbered one, so it keeps its name. -/
theorem lowerClauses_renamed : (nodes : List Node) → (done labels : Nat) →
    Alike (CodeRenamed rename) (lowerClauses nodes (.label done) labels)
      (lowerClauses (mapNamesAll (.renamed rename) nodes) (.label done) labels)
  | [], done, labels => by
    simp only [mapNamesAll, lowerClauses]
    rfl
  | .clause mark tag condition body :: later, done, labels => by
    simp only [mapNamesAll, mapNames, lowerClauses]
    refine (condition.lowerExpression_renamed rename 0).bind ?_
    rintro test _ rfl
    refine (body.lowerStatement_renamed (labels + 1)).bind ?_
    rintro ⟨bodyCode, between⟩ _ rfl
    refine (lowerClauses_renamed later done between).bind ?_
    rintro ⟨rest, after⟩ _ rfl
    refine congrArg (Prod.mk · _) ?_
    simp only [Computation.renamed, List.map_append]
    rfl
  | .integer .. :: _, _, _ | .identifier .. :: _, _, _ | .unary .. :: _, _, _
  | .binary .. :: _, _, _ | .chain _ _ none :: _, _, _ | .chain _ _ (some _) :: _, _, _
  | .whileLoop .. :: _, _, _ | .doWhile .. :: _, _, _ | .compound .. :: _, _, _
  | .block .. :: _, _, _ | .declaration .. :: _, _, _ | .initialization .. :: _, _, _
  | .assignment .. :: _, _, _ | .returned .. :: _, _, _ | .empty .. :: _, _, _ => by
    simp only [mapNamesAll, mapNames, lowerClauses]
    trivial

end

/-- A walk through a changed tree meets the changed nodes at the same depths. -/
theorem preorderAt_mapNames (change : Identifier → Identifier) (node : Node) (depth : Nat) :
    (node.mapNames change).preorderAt depth =
      (node.preorderAt depth).map (fun visit => (visit.1.mapNames change, visit.2)) := by
  induction node using induction_children generalizing depth with
  | step node each =>
    rw [preorderAt_eq, preorderAt_eq, children_mapNames, List.map_cons, List.flatMap_map,
      List.map_flatMap]
    refine congrArg (List.cons _) ?_
    exact List.flatMap_congr (fun child member => each child member (depth + 1))

/-- A program has the same frame under new names, because addresses stay. -/
theorem frameSize_renamed (root : Node) :
    (root.mapNames (.renamed rename)).frameSize = root.frameSize := by
  have sameAddress : ∀ visit : Node × Nat,
      (visit.1.mapNames (.renamed rename)).address? = visit.1.address? := by
    rintro ⟨node, depth⟩
    cases node with
    | chain mark clauses otherwise => cases otherwise <;> simp only [mapNames, address?]
    | _ => simp only [mapNames, address?, Identifier.renamed]
  simp only [frameSize, preorder, preorderAt_mapNames, List.filterMap_map]
  congr 3
  funext visit
  exact sameAddress visit

end Node

/-- A program with its variables under other names. -/
def Program.renamed (program : Program) : Program :=
  ⟨program.quads.map (Quad.renamed rename), program.frameSize⟩

/-- A tree is lowered under new names as it is before. This is so for any tree and any renaming;
what the names have to satisfy is needed by resolution only. -/
theorem Lowered.ofTree_renamed (root : Node) :
    Alike (fun lowered other => other.program = lowered.program.renamed rename)
      (Lowered.ofTree root) (Lowered.ofTree (root.mapNames (.renamed rename))) := by
  rw [Lowered.ofTree_eq, Lowered.ofTree_eq]
  refine (root.lowerStatement_renamed rename 0).bind ?_
  rintro ⟨code, labels⟩ _ rfl
  exact congrArg (Program.mk _) (root.frameSize_renamed rename)

end Lowering

end IntMain
