import IntMain.Proofs.Occurrences
import IntMain.Proofs.Stamping
import IntMain.Token.Lexer

/-!
# Resolution implements lexical scoping

The rules of scoping are stated over the occurrences of names alone, without a table. A
name that is used means the innermost declaration before it whose scope is still open;
without one it is undeclared. A scope declares a name once, and the name of the builtin type
never. Declarations take their slots in the order in which they come.

The names of the scopes share the table with the variables: each scope leaves a symbol in
the one around it. So the rules are stated for programs in which no variable has the name
of a scope that resolution opens; what happens otherwise is another matter.

`Reflects` relates the table to the occurrences before a point. One event preserves it
and treats its own occurrence as the rules say, and so does a whole program.
-/

namespace IntMain

/-!
## The rules
-/

namespace Occurrence

/-- The occurrence without its stamp. -/
def unstamped (occurrence : Occurrence) : Occurrence := { occurrence with address := none }

/-- The scopes around a name, innermost first. -/
def scopes (occurrence : Occurrence) : List Nat := occurrence.scope :: occurrence.outer

/-- Another occurrence declares the name in a scope around this one. Whether it stands before this
occurrence is not said here. -/
def Sees (occurrence other : Occurrence) : Prop :=
  other.role = .declaration ∧ other.name = occurrence.name ∧ other.scope ∈ occurrence.scopes

/-- An occurrence breaks the rules in one of three ways: it uses a name that no declaration before
it makes visible, it declares a name that its scope has already declared, or it declares the
name of the builtin type. In the third case one declaration is enough, since every scope comes
with the symbol of that type; in the second, the earlier one has to be among those `before`. -/
def Offends (before : List Occurrence) (occurrence : Occurrence) : Prop :=
  match occurrence.role with
  | .use => ∀ earlier ∈ before, ¬ occurrence.Sees earlier
  | .declaration => occurrence.name = builtinType ∨
      ∃ earlier ∈ before, occurrence.Sees earlier ∧ earlier.scope = occurrence.scope

/-- The fault of an occurrence that breaks the rules. -/
def fault (occurrence : Occurrence) : Fault :=
  match occurrence.role with
  | .use => .undeclared occurrence.name occurrence.position
  | .declaration => .redefinition occurrence.name occurrence.position

/-- An occurrence means a declaration if it sees it and sees none in a scope further
inside. -/
def Means (before : List Occurrence) (occurrence declaration : Occurrence) : Prop :=
  occurrence.Sees declaration ∧
    ∃ inner around, occurrence.scopes = inner ++ declaration.scope :: around ∧
      ∀ other ∈ before, occurrence.Sees other → other.scope ∉ inner

/-- An occurrence has the right stamp: a use has that of the declaration it means, and the
declarations take the slots of four bytes below the frame base in order. -/
def Bound (before : List Occurrence) (occurrence : Occurrence) : Prop :=
  match occurrence.role with
  | .use => ∃ declaration ∈ before,
      occurrence.Means before declaration ∧ occurrence.address = declaration.address
  | .declaration => occurrence.address =
      some (-4 * ((before.countP (fun earlier => earlier.role = .declaration) : Nat) + 1 : Int))

end Occurrence

/-- Every occurrence has a property together with those before it. The property may depend on the
order of those, but not on what follows. -/
def Throughout (property : List Occurrence → Occurrence → Prop)
    (occurrences : List Occurrence) : Prop :=
  ∀ before occurrence after, occurrences = before ++ occurrence :: after →
    property before occurrence

/-- The names of the scopes apart from the global one. -/
def markerNames (scopes : List Scope) : List String := (scopes.map Scope.name).tail

/-!
## What a table holds
-/

/-- The symbol that a name stands for in one scope. -/
def ScopeTable.symbol? (table : ScopeTable) (id : Nat) (name : String) : Option Symbol :=
  (table.scope? id).bind (·.get? name)

/-- A new symbol counts for its own name, and only where there was none. A name that is known keeps
its meaning. -/
theorem Scope.get?_insert (scope : Scope) (symbol : Symbol) (name : String) :
    (scope.insert symbol).get? name =
      (scope.get? name).or (if symbol.name = name then some symbol else none) := by
  by_cases taken : (scope.get? symbol.name).isSome = true
  · rw [Scope.insert, if_pos taken]
    by_cases same : symbol.name = name
    · subst same
      obtain ⟨older, found⟩ := Option.isSome_iff_exists.mp taken
      rw [found, Option.some_or]
    · rw [if_neg same, Option.or_none]
  · rw [Scope.insert, if_neg taken]
    by_cases same : symbol.name = name <;> simp [Scope.get?, List.find?_append, same]

namespace ScopeTable

/-- A symbol is inserted into the current scope and no other. The bound says that there is a current
scope, which is always so but not part of the table's type. -/
theorem symbol?_insert (table : ScopeTable) (symbol : Symbol) (id : Nat) (name : String) :
    (table.insert symbol).symbol? id name = (table.symbol? id name).or
      (if table.current = id ∧ id < table.scopes.length ∧ symbol.name = name then some symbol
        else none) := by
  simp only [symbol?, scope?, insert, List.getElem?_modify]
  by_cases inside : id < table.scopes.length
  · by_cases current : table.current = id
    · simp [inside, current, Scope.get?_insert]
    · simp [current]
  · simp [inside]

/-- A scope that opens knows the builtin type only. In the scope around it a marker with the new
scope's name is left, which is an insertion like any other. -/
theorem symbol?_enter (table : ScopeTable) (scope : String) (id : Nat) (name : String) :
    (table.enter scope).symbol? id name =
      if id = table.scopes.length then
        if name = builtinType then some (.builtin builtinType) else none
      else (table.insert (.nested scope table.scopes.length)).symbol? id name := by
  simp only [symbol?, scope?, enter, insert, List.getElem?_append, List.length_modify]
  by_cases new : id = table.scopes.length
  · by_cases builtin : name = builtinType
    · simp [new, builtin, Scope.seeded, Scope.get?, Symbol.name]
    · have other : ¬ builtinType = name := fun same => builtin same.symm
      simp [new, builtin, other, Scope.seeded, Scope.get?, Symbol.name]
  · by_cases older : id < table.scopes.length
    · simp [new, older]
    · have beyond : id - table.scopes.length ≠ 0 := by omega
      simp [new, older, beyond]

/-- A new symbol leaves the scopes their names. -/
theorem insert_names (table : ScopeTable) (symbol : Symbol) :
    (table.insert symbol).scopes.map Scope.name = table.scopes.map Scope.name := by
  have kept : ∀ scope : Scope, (scope.insert symbol).name = scope.name := by
    intro scope
    unfold Scope.insert
    split <;> rfl
  apply List.ext_getElem?
  intro id
  simp only [insert, List.getElem?_map, List.getElem?_modify]
  cases table.scopes[id]? with
  | none => rfl
  | some scope => by_cases current : table.current = id <;> simp [current, kept]

/-- A scope that opens adds its name, and the other scopes keep theirs. -/
theorem enter_names (table : ScopeTable) (scope : String) :
    (table.enter scope).scopes.map Scope.name = table.scopes.map Scope.name ++ [scope] := by
  simp only [enter, List.map_append, insert_names]
  rfl

end ScopeTable

/-!
## The table behind some occurrences
-/

/-- The declaration of a name in a scope. -/
def declaration? (before : List Occurrence) (scope : Nat) (name : String) :
    Option Occurrence :=
  before.find? (fun earlier =>
    earlier.role = .declaration ∧ earlier.name = name ∧ earlier.scope = scope)

/-- The declaration that is found is one of the name in the scope, and stands before. -/
theorem mem_of_declaration? {before : List Occurrence} {scope : Nat} {name : String}
    {found : Occurrence} (isFound : declaration? before scope name = some found) :
    found ∈ before ∧ found.role = .declaration ∧ found.name = name ∧ found.scope = scope := by
  have fits := List.find?_some isFound
  exact ⟨List.mem_of_find?_eq_some isFound, of_decide_eq_true fits⟩

/-- A later occurrence counts if it declares a name, and only where there is no earlier
declaration. -/
theorem declaration?_append (before : List Occurrence) (last : Occurrence) (scope : Nat)
    (name : String) :
    declaration? (before ++ [last]) scope name = (declaration? before scope name).or
      (if last.role = .declaration ∧ last.name = name ∧ last.scope = scope then some last
        else none) := by
  rw [declaration?, List.find?_append, ← declaration?]
  congr 1
  by_cases declares : last.role = .declaration ∧ last.name = name ∧ last.scope = scope
  · rw [if_pos declares]
    exact List.find?_cons_of_pos (decide_eq_true declares)
  · rw [if_neg declares]
    exact List.find?_cons_of_neg (by simpa using declares)

/-- The symbol that a declaration leaves. -/
def Occurrence.symbol (declaration : Occurrence) : Symbol :=
  .slot declaration.name (declaration.address.getD 0) builtinType

/-- A table is what the occurrences before some point make it. A name that a scope has
taken is left out: its symbols may be those of scopes. -/
structure Reflects (nesting : Nesting) (before : List Occurrence) (table : ScopeTable) :
    Prop where
  current : table.current = nesting.current
  outer : table.outer = nesting.outer
  opened : table.scopes.length = nesting.opened
  known : ∀ id ∈ nesting.current :: nesting.outer, id < nesting.opened
  slots : table.slots = before.countP (fun earlier => earlier.role = .declaration)
  builtin : ∀ id < nesting.opened,
    table.symbol? id builtinType = some (.builtin builtinType)
  symbols : ∀ id name, name ≠ builtinType → name ∉ markerNames table.scopes →
    table.symbol? id name = (declaration? before id name).map Occurrence.symbol
  declared : ∀ earlier ∈ before, earlier.role = .declaration →
    earlier.address.isSome = true ∧ earlier.name ≠ builtinType ∧
      earlier.scope < nesting.opened

/-- A new table reflects no occurrences: it has no variables, and its only scope is the global
one. -/
theorem Reflects.start : Reflects .start [] ScopeTable.new := by
  constructor
  case current => rfl
  case outer => rfl
  case opened => rfl
  case known => decide
  case slots => rfl
  case builtin =>
    intro id first
    rw [Nat.lt_one_iff.mp first]
    rfl
  case symbols =>
    intro id name notBuiltin _
    cases id with
    | zero =>
      have other : ¬ builtinType = name := fun same => notBuiltin same.symm
      simp [declaration?, ScopeTable.symbol?, ScopeTable.scope?, ScopeTable.new, Scope.seeded,
        Scope.get?, Symbol.name, other]
    | succ id => rfl
  case declared => exact List.forall_mem_nil _

namespace Reflects

variable {nesting : Nesting} {before : List Occurrence} {table : ScopeTable}

/-- A scope opens, in the table and among the occurrences at once. No occurrence is added, so no
name changes its meaning but by the marker. -/
theorem enter (reflects : Reflects nesting before table) (scope : String) :
    Reflects (nesting.after (.opens scope)) before (table.enter scope) := by
  have opened := reflects.opened
  constructor
  case current => exact opened
  case outer => simp only [ScopeTable.enter, reflects.current, reflects.outer, Nesting.after]
  case opened => simp [ScopeTable.enter, ScopeTable.insert, opened, Nesting.after]
  case known =>
    intro id member
    rcases List.mem_cons.mp member with new | older
    · rw [new]
      exact Nat.lt_succ_self _
    · exact Nat.lt_succ_of_lt (reflects.known id older)
  case slots => exact reflects.slots
  case builtin =>
    intro id inside
    rw [ScopeTable.symbol?_enter, ScopeTable.symbol?_insert]
    by_cases new : id = table.scopes.length
    · rw [if_pos new, if_pos rfl]
    · have older : id < nesting.opened := by
        have bound : id < nesting.opened + 1 := inside
        omega
      rw [if_neg new, reflects.builtin id older, Option.some_or]
  case symbols =>
    intro id name notBuiltin free
    have names : name ∉ markerNames table.scopes ∧ scope ≠ name := by
      rw [markerNames, ScopeTable.enter_names] at free
      have nonempty : table.scopes.map Scope.name ≠ [] := by
        intro none
        have length := congrArg List.length none
        have inside := reflects.known nesting.current List.mem_cons_self
        simp only [List.length_map, opened, List.length_nil] at length
        omega
      rw [List.tail_append_of_ne_nil nonempty, List.mem_append, not_or] at free
      exact ⟨free.1, fun same => free.2 (List.mem_singleton.mpr same.symm)⟩
    rw [ScopeTable.symbol?_enter, ScopeTable.symbol?_insert]
    by_cases new : id = table.scopes.length
    · rw [if_pos new, if_neg notBuiltin]
      have absent : declaration? before id name = none := by
        apply List.find?_eq_none.mpr
        intro earlier member found
        obtain ⟨role, _, inThis⟩ := of_decide_eq_true found
        have older := (reflects.declared earlier member role).2.2
        omega
      rw [absent, Option.map_none]
    · rw [if_neg new, if_neg (fun marked => names.2 marked.2.2), Option.or_none]
      exact reflects.symbols id name notBuiltin names.1
  case declared =>
    intro earlier member role
    obtain ⟨stamped, named, older⟩ := reflects.declared earlier member role
    exact ⟨stamped, named, Nat.lt_succ_of_lt older⟩

/-- A scope closes, and the one around it is the current one again. -/
theorem exit (reflects : Reflects nesting before table) :
    Reflects (nesting.after .closes) before table.exit := by
  cases outer : nesting.outer with
  | nil =>
    have stays : table.exit = table := by rw [ScopeTable.exit, reflects.outer, outer]
    simp only [Nesting.after, outer, stays]
    exact reflects
  | cons parent around =>
    have leaves : table.exit = { table with current := parent, outer := around } := by
      rw [ScopeTable.exit, reflects.outer, outer]
    simp only [Nesting.after, outer, leaves]
    refine ⟨rfl, rfl, reflects.opened, ?_, reflects.slots, reflects.builtin,
      reflects.symbols, reflects.declared⟩
    intro id member
    refine reflects.known id (List.mem_cons_of_mem _ ?_)
    rw [outer]
    exact member

/-- What a name means, by the table and by the occurrences. The table also knows the builtin type
and the markers of scopes, which no occurrence declares; the two premises keep the name apart from
them. -/
theorem lookup? (reflects : Reflects nesting before table) {name : String}
    (notBuiltin : name ≠ builtinType) (free : name ∉ markerNames table.scopes) :
    table.lookup? name = ((nesting.current :: nesting.outer).findSome?
      (declaration? before · name)).map Occurrence.symbol := by
  have pointwise : (table.symbol? · name) =
      fun id => (declaration? before id name).map Occurrence.symbol := by
    funext id
    exact reflects.symbols id name notBuiltin free
  rw [List.map_findSome?, ScopeTable.lookup?, reflects.current, reflects.outer]
  exact congrArg (fun look => List.findSome? look _) pointwise

/-- The builtin type is found everywhere, since every scope begins with it. -/
theorem lookup?_builtin (reflects : Reflects nesting before table) :
    table.lookup? builtinType = some (.builtin builtinType) := by
  have found := reflects.builtin nesting.current (reflects.known _ List.mem_cons_self)
  rw [ScopeTable.lookup?, List.findSome?_cons, reflects.current]
  simp only [ScopeTable.symbol?] at found
  rw [found]

/-- The use of a name leaves the table as it is, so the occurrences may grow by one. -/
theorem used (reflects : Reflects nesting before table) {occurrence : Occurrence}
    (isUse : occurrence.role = .use) : Reflects nesting (before ++ [occurrence]) table := by
  refine ⟨reflects.current, reflects.outer, reflects.opened, reflects.known, ?_,
    reflects.builtin, ?_, ?_⟩
  · rw [List.countP_append, reflects.slots]
    simp [isUse]
  · intro id name notBuiltin free
    have notDeclared : ¬ (occurrence.role = .declaration ∧ occurrence.name = name ∧
        occurrence.scope = id) := by
      rw [isUse]
      rintro ⟨declares, _⟩
      cases declares
    rw [reflects.symbols id name notBuiltin free, declaration?_append, if_neg notDeclared,
      Option.or_none]
  · intro earlier member role
    rcases List.mem_append.mp member with older | last
    · exact reflects.declared earlier older role
    · rw [List.mem_singleton.mp last, isUse] at role
      cases role

/-- The slot of the next declaration is found by counting the declarations so far, in all scopes. -/
theorem offset (reflects : Reflects nesting before table) :
    table.allocate.offset =
      -4 * ((before.countP (fun earlier => earlier.role = .declaration) : Nat) + 1 : Int) := by
  simp only [ScopeTable.offset, ScopeTable.allocate, ScopeTable.slotWidth, reflects.slots]
  omega

/-- A declaration takes the next slot, and its symbol is added to the current scope. The name of the
builtin type is taken in every scope, so it has to be another one. -/
theorem declare (reflects : Reflects nesting before table) {name : String}
    (notBuiltin : name ≠ builtinType) (position : Position) :
    Reflects nesting
      (before ++ [⟨.declaration, name, position, some table.allocate.offset, nesting.current,
        nesting.outer⟩])
      (table.allocate.insert (.slot name table.allocate.offset builtinType)) := by
  have inside : nesting.current < nesting.opened := reflects.known _ List.mem_cons_self
  constructor
  case current => exact reflects.current
  case outer => exact reflects.outer
  case opened =>
    simp only [ScopeTable.insert, ScopeTable.allocate, List.length_modify, reflects.opened]
  case known => exact reflects.known
  case slots =>
    rw [List.countP_append, ← reflects.slots]
    rfl
  case builtin =>
    intro id older
    have found : table.allocate.symbol? id builtinType = some (.builtin builtinType) :=
      reflects.builtin id older
    rw [ScopeTable.symbol?_insert, found, Option.some_or]
  case symbols =>
    intro id other otherNotBuiltin free
    have unmarked : other ∉ markerNames table.scopes := by
      rw [markerNames, ScopeTable.insert_names] at free
      exact free
    have found : table.allocate.symbol? id other =
        (declaration? before id other).map Occurrence.symbol :=
      reflects.symbols id other otherNotBuiltin unmarked
    rw [ScopeTable.symbol?_insert, found, declaration?_append, Option.map_or]
    congr 1
    by_cases here : name = other ∧ nesting.current = id
    · obtain ⟨rfl, rfl⟩ := here
      have known : nesting.current < table.allocate.scopes.length :=
        reflects.opened.symm ▸ inside
      rw [if_pos ⟨reflects.current, known, rfl⟩, if_pos ⟨rfl, rfl, rfl⟩]
      rfl
    · rw [if_neg (fun found => here ⟨found.2.2, reflects.current.symm.trans found.1⟩),
        if_neg (fun found => here found.2), Option.map_none]
  case declared =>
    intro earlier member role
    rcases List.mem_append.mp member with older | last
    · exact reflects.declared earlier older role
    · rw [List.mem_singleton.mp last]
      exact ⟨rfl, notBuiltin, inside⟩

/-- A use that finds a variable keeps the rules and gets the right stamp: that of the declaration in
the innermost scope around it that has one. -/
theorem use_bound (reflects : Reflects nesting before table) {name : String} {offset : Int}
    {label type : String} (position : Position) (free : name ∉ markerNames table.scopes)
    (found : table.lookup? name = some (.slot label offset type)) :
    let occurrence : Occurrence :=
      ⟨.use, name, position, some offset, nesting.current, nesting.outer⟩
    ¬ occurrence.Offends before ∧ occurrence.Bound before := by
  intro occurrence
  have notBuiltin : name ≠ builtinType := by
    rintro rfl
    rw [reflects.lookup?_builtin] at found
    cases found
  rw [reflects.lookup? notBuiltin free] at found
  obtain ⟨declaration, isFound, sameSymbol⟩ := Option.map_eq_some_iff.mp found
  obtain ⟨inner, scope, around, split, here, noneInside⟩ :=
    List.findSome?_eq_some_iff.mp isFound
  obtain ⟨member, role, named, placed⟩ := mem_of_declaration? here
  have sees : occurrence.Sees declaration := by
    refine ⟨role, named, ?_⟩
    rw [show occurrence.scopes = inner ++ scope :: around from split, placed]
    exact List.mem_append_right inner List.mem_cons_self
  refine ⟨fun offends => offends declaration member sees, declaration, member, ⟨sees, ?_⟩, ?_⟩
  · refine ⟨inner, around, by rw [placed]; exact split, ?_⟩
    intro other otherMember otherSeen isInner
    have absent := List.find?_eq_none.mp (noneInside _ isInner) other otherMember
    exact absent (decide_eq_true ⟨otherSeen.1, otherSeen.2.1, rfl⟩)
  · obtain ⟨address, stamped⟩ :=
      Option.isSome_iff_exists.mp (reflects.declared declaration member role).1
    simp only [Occurrence.symbol, stamped, Option.getD_some, Symbol.slot.injEq] at sameSymbol
    rw [stamped, sameSymbol.2.1]

/-- A use that finds no variable breaks the rules. It may have found nothing, or a symbol that is no
variable. -/
theorem use_offends (reflects : Reflects nesting before table) {name : String}
    (position : Position) (address : Option Int) (free : name ∉ markerNames table.scopes)
    (missing : ∀ label offset type, table.lookup? name ≠ some (.slot label offset type)) :
    (⟨.use, name, position, address, nesting.current, nesting.outer⟩ : Occurrence).Offends
      before := by
  intro earlier member sees
  obtain ⟨role, named, visible⟩ := sees
  have sameName : earlier.name = name := named
  have notBuiltin : name ≠ builtinType :=
    sameName ▸ (reflects.declared earlier member role).2.1
  have nothing : (nesting.current :: nesting.outer).findSome? (declaration? before · name) =
      none := by
    cases found : (nesting.current :: nesting.outer).findSome? (declaration? before · name) with
    | none => rfl
    | some declaration =>
      have known := reflects.lookup? notBuiltin free
      rw [found] at known
      exact absurd known (missing _ _ _)
  have absent := List.findSome?_eq_none_iff.mp nothing earlier.scope visible
  exact List.find?_eq_none.mp absent earlier member (decide_eq_true ⟨role, named, rfl⟩)

/-- A name is taken in the current scope exactly if it is declared there for a second
time. -/
theorem taken_iff (reflects : Reflects nesting before table) {name : String}
    (position : Position) (address : Option Int) (free : name ∉ markerNames table.scopes) :
    (table.lookupLocal? name).isSome = true ↔
      (⟨.declaration, name, position, address, nesting.current, nesting.outer⟩ :
        Occurrence).Offends before := by
  have isLocal : table.lookupLocal? name = table.symbol? nesting.current name := by
    rw [← reflects.current]
    rfl
  by_cases builtin : name = builtinType
  · rw [isLocal, builtin, reflects.builtin _ (reflects.known _ List.mem_cons_self)]
    exact iff_of_true rfl (Or.inl rfl)
  · rw [isLocal, reflects.symbols _ name builtin free, Option.isSome_map, declaration?,
      List.find?_isSome]
    constructor
    · rintro ⟨earlier, member, found⟩
      obtain ⟨role, named, placed⟩ := of_decide_eq_true found
      refine Or.inr ⟨earlier, member, ⟨role, named, ?_⟩, placed⟩
      rw [placed]
      exact List.mem_cons_self
    · rintro (isBuiltin | ⟨earlier, member, sees, placed⟩)
      · exact absurd isBuiltin builtin
      · exact ⟨earlier, member, decide_eq_true ⟨sees.1, sees.2.1, placed⟩⟩

/-- Where the builtin type is known, a declaration depends on its own name only. The lookup of the
type never fails, so the declaration is refused only if its name is known in the current scope. -/
theorem resolve_declares (reflects : Reflects nesting before table) (mark : Mark)
    (name : Identifier) :
    (Event.declares mark name).resolve table =
      if (table.lookupLocal? name.name).isSome then
        .error (.redefinition name.name mark.position)
      else .ok
        (.declares mark { name with address := some table.allocate.offset, type := some .int },
          table.allocate.insert (.slot name.name table.allocate.offset builtinType)) := by
  have builtin : table.lookup? TypeTag.int.name = some (.builtin builtinType) :=
    reflects.lookup?_builtin
  have sameLocal : table.allocate.lookupLocal? name.name = table.lookupLocal? name.name := rfl
  simp only [Event.resolve, builtin, ScopeTable.define, Symbol.name, sameLocal]
  cases table.lookupLocal? name.name <;> rfl

/-- An event without a fault is resolved by the rules, and the table reflects one occurrence more,
if the event has one. The name must not be the marker of a scope, because the table would find the
marker. -/
theorem step (reflects : Reflects nesting before table) {event resolved : Event}
    {next : ScopeTable}
    (free : ∀ occurrence ∈ event.occurrence? nesting,
      occurrence.name ∉ markerNames table.scopes)
    (resolves : event.resolve table = .ok (resolved, next)) :
    Reflects (nesting.after resolved) (before ++ (resolved.occurrence? nesting).toList) next ∧
      ∀ occurrence ∈ resolved.occurrence? nesting,
        ¬ occurrence.Offends before ∧ occurrence.Bound before := by
  cases event with
  | opens scope =>
    cases resolves
    rw [show (Event.opens scope).occurrence? nesting = none from rfl, Option.toList_none,
      List.append_nil]
    exact ⟨reflects.enter scope, fun _ impossible => by cases impossible⟩
  | closes =>
    cases resolves
    rw [show Event.closes.occurrence? nesting = none from rfl, Option.toList_none,
      List.append_nil]
    exact ⟨reflects.exit, fun _ impossible => by cases impossible⟩
  | uses mark name =>
    have unmarked := free _ rfl
    simp only [Event.resolve] at resolves
    split at resolves
    case h_1 label offset type found =>
      cases resolves
      refine ⟨reflects.used rfl, ?_⟩
      rintro occurrence ⟨⟩
      exact reflects.use_bound mark.position unmarked found
    case h_2 => cases resolves
  | declares mark name =>
    have unmarked := free _ rfl
    have taken := reflects.taken_iff mark.position (some table.allocate.offset) unmarked
    rw [reflects.resolve_declares] at resolves
    by_cases isTaken : (table.lookupLocal? name.name).isSome = true
    · rw [if_pos isTaken] at resolves
      cases resolves
    · rw [if_neg isTaken] at resolves
      cases resolves
      have keepsRules := fun offends => isTaken (taken.mpr offends)
      have notBuiltin : name.name ≠ builtinType := fun same => keepsRules (Or.inl same)
      refine ⟨reflects.declare notBuiltin mark.position, ?_⟩
      rintro occurrence ⟨⟩
      exact ⟨keepsRules, congrArg some reflects.offset⟩
  | undeclarable tag => cases resolves

/-- An event has a fault because its occurrence breaks the rules, and the fault is the one for it.
Events that the parser never makes are left out by a premise. -/
theorem stop (reflects : Reflects nesting before table) {event : Event} {fault : Fault}
    (free : ∀ occurrence ∈ event.occurrence? nesting,
      occurrence.name ∉ markerNames table.scopes)
    (declarable : ∀ tag, event ≠ .undeclarable tag)
    (fails : event.resolve table = .error fault) :
    ∃ occurrence ∈ event.occurrence? nesting,
      occurrence.Offends before ∧ fault = occurrence.fault := by
  cases event with
  | opens scope => cases fails
  | closes => cases fails
  | uses mark name =>
    have unmarked := free _ rfl
    simp only [Event.resolve] at fails
    split at fails
    case h_1 => cases fails
    case h_2 missing =>
      cases fails
      exact ⟨_, rfl, reflects.use_offends mark.position name.address unmarked missing, rfl⟩
  | declares mark name =>
    have unmarked := free _ rfl
    have taken := reflects.taken_iff mark.position name.address unmarked
    rw [reflects.resolve_declares] at fails
    by_cases isTaken : (table.lookupLocal? name.name).isSome = true
    · rw [if_pos isTaken] at fails
      cases fails
      exact ⟨_, rfl, taken.mp isTaken, rfl⟩
    · rw [if_neg isTaken] at fails
      cases fails
  | undeclarable tag => exact absurd rfl (declarable tag)

end Reflects

/-!
## Whole programs
-/

/-- The scopes that there are when resolution ends. -/
def Resolution.Outcome.scopes : Resolution.Outcome → List Scope
  | .ok table => table.scopes
  | .error (_, scopes) => scopes

/-- The fault that resolution ends with. -/
def Resolution.Outcome.fault? : Resolution.Outcome → Option Fault
  | .ok _ => none
  | .error (fault, _) => some fault

/-- No event takes the name of a scope away, also not the one that closes it. -/
theorem Event.resolve_markerNames {event resolved : Event} {table next : ScopeTable}
    (resolves : event.resolve table = .ok (resolved, next)) :
    markerNames table.scopes ⊆ markerNames next.scopes := by
  cases event with
  | opens scope =>
    cases resolves
    rw [markerNames, markerNames, ScopeTable.enter_names]
    cases table.scopes.map Scope.name with
    | nil => exact List.nil_subset _
    | cons first later => exact List.subset_append_left _ _
  | closes =>
    cases resolves
    rw [ScopeTable.exit_scopes]
    exact fun _ member => member
  | uses mark name =>
    simp only [Event.resolve] at resolves
    split at resolves <;> cases resolves
    exact fun _ member => member
  | declares mark name =>
    simp only [Event.resolve, ScopeTable.define] at resolves
    split at resolves
    case h_1 =>
      split at resolves
      case h_1 defined isDefined =>
        cases resolves
        split at isDefined <;> cases isDefined
        rw [markerNames, markerNames, ScopeTable.insert_names]
        exact fun _ member => member
      case h_2 => cases resolves
    case h_2 => cases resolves
  | undeclarable tag => cases resolves

/-- No list of events takes the name of a scope away. So a name that is none of the final markers
was none at any time before. -/
theorem resolveEvents_markerNames (table : ScopeTable) (events : List Event) :
    markerNames table.scopes ⊆ markerNames (resolveEvents table events).2.scopes := by
  induction events generalizing table with
  | nil => exact fun _ member => member
  | cons event later inductionHypothesis =>
    rw [resolveEvents]
    cases resolves : event.resolve table with
    | error fault => exact fun _ member => member
    | ok result =>
      intro name member
      exact inductionHypothesis result.2 (Event.resolve_markerNames resolves member)

/-- Resolution changes the stamp of an occurrence only, and no scope. So the nesting is the same for
the tree and for the resolved tree. -/
theorem Event.resolve_occurrence? {event resolved : Event} {table next : ScopeTable}
    (resolves : event.resolve table = .ok (resolved, next)) (nesting : Nesting) :
    (resolved.occurrence? nesting).map Occurrence.unstamped =
        (event.occurrence? nesting).map Occurrence.unstamped ∧
      nesting.after resolved = nesting.after event := by
  cases event with
  | opens scope => cases resolves; exact ⟨rfl, rfl⟩
  | closes => cases resolves; exact ⟨rfl, rfl⟩
  | uses mark name =>
    simp only [Event.resolve] at resolves
    split at resolves <;> cases resolves
    exact ⟨rfl, rfl⟩
  | declares mark name =>
    simp only [Event.resolve] at resolves
    split at resolves
    case h_1 =>
      split at resolves <;> cases resolves
      exact ⟨rfl, rfl⟩
    case h_2 => cases resolves
  | undeclarable tag => cases resolves

/-- Resolution changes the stamps of occurrences only. This includes events with a fault and those
behind it, which are left as they are. -/
theorem resolveEvents_occurrences (table : ScopeTable) (nesting : Nesting)
    (events : List Event) :
    (occurrencesFrom nesting (resolveEvents table events).1).map Occurrence.unstamped =
      (occurrencesFrom nesting events).map Occurrence.unstamped := by
  induction events generalizing table nesting with
  | nil => rfl
  | cons event later inductionHypothesis =>
    rw [resolveEvents]
    cases resolves : event.resolve table with
    | error fault => rfl
    | ok result =>
      obtain ⟨sameName, sameScopes⟩ := Event.resolve_occurrence? resolves nesting
      simp only [occurrencesFrom, List.map_append, sameScopes, inductionHypothesis]
      rw [← Option.toList_map, ← Option.toList_map, sameName]

/-- What the rules say about occurrences behind others: if there is no fault, all keep
them and have the right stamps, and otherwise the fault is that of the first one that
breaks them. -/
def Ruled (before occurrences : List Occurrence) : Option Fault → Prop
  | none => Throughout (fun earlier occurrence =>
      ¬ occurrence.Offends (before ++ earlier) ∧ occurrence.Bound (before ++ earlier)) occurrences
  | some fault => ∃ earlier occurrence later, occurrences = earlier ++ occurrence :: later ∧
      Throughout (fun first occurrence => ¬ occurrence.Offends (before ++ first)) earlier ∧
      occurrence.Offends (before ++ earlier) ∧ fault = occurrence.fault

/-- A property holds throughout a list if it holds at its head and throughout its tail, where the
head is among those before. -/
theorem Throughout.cons {property : List Occurrence → Occurrence → Prop} {first : Occurrence}
    {later : List Occurrence} (head : property [] first)
    (tail : Throughout (fun before => property (first :: before)) later) :
    Throughout property (first :: later) := by
  intro before occurrence after split
  cases before with
  | nil =>
    rw [List.nil_append] at split
    obtain ⟨rfl, _⟩ := List.cons.inj split
    exact head
  | cons earliest before =>
    rw [List.cons_append] at split
    obtain ⟨rfl, rest⟩ := List.cons.inj split
    exact tail before occurrence after rest

/-- One more occurrence in front that keeps the rules. It is bound by what stands before, so it can
be moved there. -/
theorem Ruled.cons {before later : List Occurrence} {first : Occurrence} {fault : Option Fault}
    (keeps : ¬ first.Offends before) (bound : first.Bound before)
    (ruled : Ruled (before ++ [first]) later fault) : Ruled before (first :: later) fault := by
  cases fault with
  | none =>
    refine Throughout.cons ?_ ?_
    · rw [List.append_nil]
      exact ⟨keeps, bound⟩
    · simpa only [Ruled, List.append_assoc, List.singleton_append] using ruled
  | some fault =>
    obtain ⟨earlier, occurrence, rest, split, noneBefore, offends, isFault⟩ := ruled
    refine ⟨first :: earlier, occurrence, rest, by rw [split, List.cons_append], ?_, ?_, isFault⟩
    · refine Throughout.cons ?_ ?_
      · rw [List.append_nil]
        exact keeps
      · simpa only [List.append_assoc, List.singleton_append] using noneBefore
    · simpa only [List.append_assoc, List.singleton_append] using offends

/-- Events are resolved by the rules.

The induction is on the events; the occurrences before them move into the invariant. The
names of scopes are those at the end, so the hypothesis about them never changes. -/
theorem Reflects.run {nesting : Nesting} {before : List Occurrence} {table : ScopeTable}
    (reflects : Reflects nesting before table) (events : List Event)
    (declarable : ∀ tag, .undeclarable tag ∉ events)
    (free : ∀ occurrence ∈ occurrencesFrom nesting events,
      occurrence.name ∉ markerNames (resolveEvents table events).2.scopes) :
    Ruled before (occurrencesFrom nesting (resolveEvents table events).1)
      (resolveEvents table events).2.fault? := by
  induction events generalizing nesting before table with
  | nil =>
    intro earlier occurrence later split
    cases earlier <;> cases split
  | cons event later inductionHypothesis =>
    have headFree : ∀ occurrence ∈ event.occurrence? nesting,
        occurrence.name ∉ markerNames table.scopes := by
      intro occurrence member marked
      have listed : occurrence ∈ occurrencesFrom nesting (event :: later) :=
        List.mem_append_left _ (Option.mem_toList.mpr member)
      exact free occurrence listed (resolveEvents_markerNames table _ marked)
    have headDeclarable : ∀ tag, event ≠ .undeclarable tag := by
      rintro tag rfl
      exact declarable tag List.mem_cons_self
    cases resolves : event.resolve table with
    | error fault =>
      obtain ⟨occurrence, found, offends, isFault⟩ :=
        reflects.stop headFree headDeclarable resolves
      have stops : resolveEvents table (event :: later) =
          (event :: later, .error (fault, table.scopes)) := by rw [resolveEvents, resolves]
      rw [stops, occurrencesFrom, Option.mem_def.mp found]
      refine ⟨[], occurrence, _, rfl, ?_, by rwa [List.append_nil], isFault⟩
      intro earlier other rest split
      cases earlier <;> cases split
    | ok result =>
      obtain ⟨resolved, next⟩ := result
      obtain ⟨sameName, sameScopes⟩ := Event.resolve_occurrence? resolves nesting
      obtain ⟨nextReflects, ruled⟩ := reflects.step headFree resolves
      have goesOn : resolveEvents table (event :: later) =
          (resolved :: (resolveEvents next later).1, (resolveEvents next later).2) := by
        rw [resolveEvents, resolves]
      rw [goesOn] at free ⊢
      have laterRuled := inductionHypothesis nextReflects
        (fun tag member => declarable tag (List.mem_cons_of_mem _ member))
        (fun occurrence member => free occurrence
          (List.mem_append_right _ (sameScopes ▸ member)))
      rw [occurrencesFrom]
      cases found : resolved.occurrence? nesting with
      | none =>
        rw [found, Option.toList_none, List.append_nil] at laterRuled
        exact laterRuled
      | some occurrence =>
        rw [found] at laterRuled ruled
        exact laterRuled.cons (ruled occurrence rfl).1 (ruled occurrence rfl).2

/-- An event of several trees is one of a tree among them. -/
theorem Node.mem_eventsAll {event : Event} {nodes : List Node} :
    event ∈ eventsAll nodes ↔ ∃ node ∈ nodes, event ∈ node.events := by
  induction nodes with
  | nil => simp [eventsAll]
  | cons node later inductionHypothesis => simp [eventsAll, inductionHypothesis]

/-- If a node that cannot be declared stands nowhere in several trees, it is no event of them. -/
theorem Node.undeclarable_all {tag : String} {nodes : List Node}
    (each : ∀ node ∈ nodes, .undeclarable tag ∉ node.events) :
    .undeclarable tag ∉ eventsAll nodes := by
  intro member
  obtain ⟨node, listed, inside⟩ := mem_eventsAll.mp member
  exact each node listed inside

/-- A scope around a part adds no node that cannot be declared, only its own opening and closing. -/
theorem Node.undeclarable_scoped {tag scope : String} {inner : List Event}
    (absent : .undeclarable tag ∉ inner) : .undeclarable tag ∉ scopedEvents scope inner := by
  simp [scopedEvents, absent]

/-- The parser lets identifiers alone be declared. So the fault for anything else does not occur
after parsing, although resolution knows it. -/
theorem Part.WellFormed.declarable {naming : Naming} {part : Part}
    (formed : part.WellFormed naming) (tag : String) :
    .undeclarable tag ∉ part.node.events := by
  induction formed with
  | integer => simp [Part.node, Node.events]
  | identifier => simp [Part.node, Node.events]
  | unary inner operand =>
    rw [Part.node, Node.events]
    exact operand
  | binary allowed first second left right =>
    rw [Part.node, Node.events]
    exact List.not_mem_append left right
  | clause tested guarded condition body =>
    rw [Part.node, Node.events]
    exact List.not_mem_append condition (Node.undeclarable_scoped body)
  | chain leading following first later =>
    rw [Part.node, Node.events, Node.eventsAll]
    exact List.not_mem_append first (Node.undeclarable_all later)
  | chainElse leading following otherwise first later body =>
    rw [Part.node, Node.events, Node.eventsAll]
    exact List.not_mem_append (List.not_mem_append first (Node.undeclarable_all later))
      (Node.undeclarable_scoped body)
  | whileLoop tested repeated condition body =>
    rw [Part.node, Node.events]
    exact List.not_mem_append condition (Node.undeclarable_scoped body)
  | doWhile repeated tested body condition =>
    rw [Part.node, Node.events]
    exact List.not_mem_append (Node.undeclarable_scoped body) condition
  | compound nonempty all statements =>
    rw [Part.node, Node.events]
    exact Node.undeclarable_all statements
  | block nonempty all statements =>
    rw [Part.node, Node.events]
    exact Node.undeclarable_scoped (Node.undeclarable_all statements)
  | declaration => simp [Part.node, Node.events, Node.declaredEvent]
  | initialization declared computed value =>
    rw [Part.node, Node.events]
    exact List.not_mem_append value (by simp [Node.declaredEvent])
  | assignment used computed value =>
    rw [Part.node, Node.events]
    exact List.not_mem_append (by simp [Node.events]) value
  | returned computed value =>
    rw [Part.node, Node.events]
    exact value
  | empty => simp [Part.node, Node.events]

/-- Whether an occurrence breaks the rules does not depend on stamps, neither on its own nor on
those before. -/
theorem Occurrence.offends_unstamped (before : List Occurrence) (occurrence : Occurrence) :
    occurrence.unstamped.Offends (before.map unstamped) ↔ occurrence.Offends before := by
  obtain ⟨role, name, position, address, scope, outer⟩ := occurrence
  cases role with
  | use => exact List.forall_mem_map
  | declaration =>
    refine or_congr_right ⟨?_, ?_⟩
    · rintro ⟨_, member, sees⟩
      obtain ⟨earlier, listed, rfl⟩ := List.mem_map.mp member
      exact ⟨earlier, listed, sees⟩
    · rintro ⟨earlier, listed, sees⟩
      exact ⟨earlier.unstamped, List.mem_map_of_mem listed, sees⟩

/-- Occurrences that are alike but for their stamps break the rules together, behind occurrences
that are alike in this way. -/
theorem Occurrence.Offends.congr {before others : List Occurrence} {occurrence other : Occurrence}
    (sameBefore : others.map unstamped = before.map unstamped)
    (same : other.unstamped = occurrence.unstamped) (offends : occurrence.Offends before) :
    other.Offends others := by
  rw [← offends_unstamped, sameBefore, same, offends_unstamped]
  exact offends

/-- Lists that are alike but for their stamps split in the same way, so an occurrence of one can be
found in the other. -/
theorem Occurrence.split_congr {occurrences before after : List Occurrence}
    {occurrence : Occurrence}
    (same : occurrences.map unstamped = (before ++ occurrence :: after).map unstamped) :
    ∃ before' occurrence' after', occurrences = before' ++ occurrence' :: after' ∧
      before'.map unstamped = before.map unstamped ∧
      occurrence'.unstamped = occurrence.unstamped := by
  rw [List.map_append, List.map_cons] at same
  obtain ⟨before', rest, rfl, sameBefore, sameRest⟩ := List.map_eq_append_iff.mp same
  obtain ⟨occurrence', after', rfl, sameOccurrence, -⟩ := List.map_eq_cons_iff.mp sameRest
  exact ⟨before', occurrence', after', rfl, sameBefore, sameOccurrence⟩

/-- Occurrences that are alike but for their stamps keep the rules together. With this the rules can
be stated for the tree before it is resolved. -/
theorem Throughout.keeps_congr {occurrences others : List Occurrence}
    (same : occurrences.map Occurrence.unstamped = others.map Occurrence.unstamped)
    (keeps : Throughout (fun before occurrence => ¬ occurrence.Offends before) occurrences) :
    Throughout (fun before occurrence => ¬ occurrence.Offends before) others := by
  rintro before occurrence after rfl offends
  obtain ⟨before', occurrence', after', split, sameBefore, sameOccurrence⟩ :=
    Occurrence.split_congr same
  exact keeps before' occurrence' after' split (offends.congr sameBefore sameOccurrence)

/-- A fault is that of the first occurrence that breaks the rules, also if the stamps are
others. -/
theorem Ruled.first {occurrences others : List Occurrence} {fault : Fault}
    (ruled : Ruled [] others (some fault))
    (same : occurrences.map Occurrence.unstamped = others.map Occurrence.unstamped) :
    ∃ before occurrence after, occurrences = before ++ occurrence :: after ∧
      Throughout (fun earlier other => ¬ other.Offends earlier) before ∧
      occurrence.Offends before ∧ fault = occurrence.fault := by
  obtain ⟨earlier, offender, later, rfl, noneEarlier, offends, isFault⟩ := ruled
  obtain ⟨before, occurrence, after, split, sameBefore, sameOccurrence⟩ :=
    Occurrence.split_congr same
  have sameFault : occurrence.unstamped.fault = offender.unstamped.fault := by
    rw [sameOccurrence]
  exact ⟨before, occurrence, after, split, noneEarlier.keeps_congr sameBefore.symm,
    offends.congr sameBefore sameOccurrence, isFault.trans sameFault.symm⟩

/-- **Name resolution implements lexical scoping.**

Take a program that parses and in which no name is that of a scope which resolution opens.
There is no fault exactly if every name that is used has a declaration before it in a
scope around it, no scope declares a name twice, and none declares the name of the builtin type,
not even once. Without a fault, the names are those of the program with their stamps: a use has
the address of the innermost visible declaration, and the declarations have the addresses -4, -8
and so on in order. A fault names the first occurrence that breaks the rules, and its place. -/
theorem resolution_is_lexical (tokens : List Token) (parsed : Parsed)
    (accepted : Parsed.ofTokens tokens = .ok parsed)
    (unmarked : ∀ occurrence ∈ parsed.root.occurrences,
      occurrence.name ∉ markerNames parsed.root.resolve.table.scopes) :
    (parsed.root.resolve.fault = none ↔
      Throughout (fun before occurrence => ¬ occurrence.Offends before)
        parsed.root.occurrences) ∧
    (parsed.root.resolve.fault = none →
      parsed.root.resolve.tree.occurrences.map Occurrence.unstamped =
          parsed.root.occurrences.map Occurrence.unstamped ∧
        Throughout (fun before occurrence => occurrence.Bound before)
          parsed.root.resolve.tree.occurrences) ∧
    ∀ fault, parsed.root.resolve.fault = some fault →
      ∃ before occurrence after,
        parsed.root.occurrences = before ++ occurrence :: after ∧
        Throughout (fun earlier other => ¬ other.Offends earlier) before ∧
        occurrence.Offends before ∧ fault = occurrence.fault := by
  have declarable := (Parsed.wellFormed accepted).declarable
  have steps := parsed.root.resolve_events
  have sameScopes : (resolveEvents ScopeTable.new parsed.root.events).2.scopes =
      parsed.root.resolve.table.scopes := by
    rw [← steps, Resolution.outcome]
    cases parsed.root.resolve.fault <;> rfl
  have sameFault : (resolveEvents ScopeTable.new parsed.root.events).2.fault? =
      parsed.root.resolve.fault := by
    rw [← steps, Resolution.outcome]
    cases parsed.root.resolve.fault <;> rfl
  have ruled := Reflects.start.run parsed.root.events declarable (sameScopes ▸ unmarked)
  have same := resolveEvents_occurrences ScopeTable.new .start parsed.root.events
  rw [← steps] at same
  rw [sameFault, ← steps] at ruled
  change Ruled [] parsed.root.resolve.tree.occurrences _ at ruled
  change parsed.root.resolve.tree.occurrences.map _ = parsed.root.occurrences.map _ at same
  cases fault : parsed.root.resolve.fault with
  | none =>
    rw [fault] at ruled
    have keeps : Throughout (fun before occurrence => ¬ occurrence.Offends before)
        parsed.root.resolve.tree.occurrences :=
      fun before occurrence after split => (ruled before occurrence after split).1
    have bound : Throughout (fun before occurrence => occurrence.Bound before)
        parsed.root.resolve.tree.occurrences :=
      fun before occurrence after split => (ruled before occurrence after split).2
    exact ⟨iff_of_true rfl (keeps.keeps_congr same), fun _ => ⟨same, bound⟩,
      fun _ impossible => by cases impossible⟩
  | some fault =>
    rw [fault] at ruled
    have first := ruled.first same.symm
    have breaks : ¬ Throughout (fun before occurrence => ¬ occurrence.Offends before)
        parsed.root.occurrences := by
      obtain ⟨before, occurrence, after, split, -, offends, -⟩ := first
      exact fun keeps => keeps before occurrence after split offends
    refine ⟨iff_of_false (fun impossible => by cases impossible) breaks,
      (fun impossible => by cases impossible), ?_⟩
    rintro _ ⟨⟩
    exact first

/-- A block shadows a variable and reads it, the value of a declaration reads the outer
variable of its own name, and a loop has its condition outside its body. -/
def shadowedNames : String :=
  "int main() \x7b int a; int b; \x7b int b = b; a = b; \x7d " ++
  "do \x7b int a; \x7d while (a); \x7d"

/-- The program above resolves, and its eight occurrences get the addresses that are listed. The
block uses its own `b`, whose value is the `b` around it, and the loop's condition uses the outer
`a`. -/
theorem resolution_is_lexical_shadowing :
    ∃ parsed, Parsed.ofTokens (Lexed.ofText shadowedNames).tokens = .ok parsed ∧
      (∀ occurrence ∈ parsed.root.occurrences,
        occurrence.name ∉ markerNames parsed.root.resolve.table.scopes) ∧
      parsed.root.resolve.fault = none ∧
      parsed.root.resolve.tree.occurrences.map Occurrence.address =
        [-4, -8, -8, -12, -4, -12, -16, -4].map some ∧
      Throughout (fun before occurrence => occurrence.Bound before)
        parsed.root.resolve.tree.occurrences := by
  have evaluated : (Parsed.ofTokens (Lexed.ofText shadowedNames).tokens).toOption.any
      (fun parsed => decide (
        (∀ occurrence ∈ parsed.root.occurrences,
          occurrence.name ∉ markerNames parsed.root.resolve.table.scopes) ∧
        parsed.root.resolve.fault = none ∧
        parsed.root.resolve.tree.occurrences.map Occurrence.address =
          [-4, -8, -8, -12, -4, -12, -16, -4].map some)) = true := by
    decide +kernel
  obtain ⟨parsed, accepted, checked⟩ := exists_ok_of_any evaluated
  obtain ⟨unmarked, resolved, addresses⟩ := of_decide_eq_true checked
  obtain ⟨-, stamps, -⟩ := resolution_is_lexical _ parsed accepted unmarked
  exact ⟨parsed, accepted, unmarked, resolved, addresses, (stamps resolved).2⟩

end IntMain
