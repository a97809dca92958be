import IntMain.Proofs.LexicalScoping
import Mathlib.Data.List.Nodup

/-!
# The scope table along any run

Scopes are entered and left, slots are given out and symbols are defined, in any order.
Whatever is done, the scopes form a tree whose root is the global scope, each scope lists
the builtin type first and no name twice, and looking a name up goes through the scopes
from the current one to the root, by their parents.

The table keeps the scopes around the current one in a list of its own. `Chain` says what
that list has to be by the parents alone. Symbols do not count for it, so it is enough to
follow the bare scopes: one operation adds one of them or none.

Here a scope is its list of symbols. How the same scopes are kept with an index beside the
symbols, and without the list of open scopes, is the subject of `ScopeArena`.
-/

namespace IntMain

namespace Scope

/-- The scope without its symbols. -/
def bare (scope : Scope) : Scope := { scope with symbols := [] }

/-- A scope lists the builtin type first, and no name twice. -/
structure Sound (scope : Scope) : Prop where
  builtinFirst : scope.symbols.head? = some (.builtin builtinType)
  distinct : (scope.symbols.map Symbol.name).Nodup

/-- A name is free if no symbol that is listed has it. -/
theorem get?_eq_none_iff {scope : Scope} {name : String} :
    scope.get? name = none ↔ ∀ symbol ∈ scope.symbols, symbol.name ≠ name := by
  simp [get?]

/-- Where no name is listed twice, a name stands for the symbol that is listed with it. Otherwise it
would stand for the first one only. -/
theorem get?_eq_some_iff {scope : Scope} (distinct : (scope.symbols.map Symbol.name).Nodup)
    {name : String} {symbol : Symbol} :
    scope.get? name = some symbol ↔ symbol ∈ scope.symbols ∧ symbol.name = name := by
  constructor
  · intro found
    exact ⟨List.mem_of_find?_eq_some found, by simpa using List.find?_some found⟩
  · rintro ⟨listed, rfl⟩
    cases found : scope.get? symbol.name with
    | none => exact absurd rfl (get?_eq_none_iff.mp found symbol listed)
    | some other =>
      have otherListed : other ∈ scope.symbols := List.mem_of_find?_eq_some found
      have sameName : other.name = symbol.name := by simpa using List.find?_some found
      rw [List.inj_on_of_nodup_map distinct otherListed listed sameName]

/-- A symbol does not change what a scope is besides its symbols. -/
@[simp]
theorem bare_insert (scope : Scope) (symbol : Symbol) :
    (scope.insert symbol).bare = scope.bare := by
  unfold insert
  split <;> rfl

/-- A symbol with a free name goes to the end, so the order of the symbols is that of their
definitions. -/
theorem insert_of_free {scope : Scope} {symbol : Symbol}
    (free : scope.get? symbol.name = none) :
    scope.insert symbol = { scope with symbols := scope.symbols ++ [symbol] } := by
  rw [insert, free]
  rfl

namespace Sound

/-- A scope that was just entered is sound: it lists the builtin type and nothing else. -/
theorem seeded (name : String) (level : Nat) (parent : Option Nat) :
    (Scope.seeded name level parent).Sound :=
  ⟨rfl, List.nodup_singleton _⟩

/-- A new symbol is listed last, under a name of its own, so the scope stays sound. If its name is
taken nothing changes. -/
theorem insert {scope : Scope} (sound : scope.Sound) (symbol : Symbol) :
    (scope.insert symbol).Sound := by
  by_cases free : scope.get? symbol.name = none
  · rw [insert_of_free free]
    constructor
    · simp only [List.head?_append, sound.builtinFirst, Option.some_or]
    · have fresh : symbol.name ∉ scope.symbols.map Symbol.name := by
        intro taken
        obtain ⟨other, listed, sameName⟩ := List.mem_map.mp taken
        exact get?_eq_none_iff.mp free other listed sameName
      rw [List.map_append]
      apply List.nodup_append.mpr
      refine ⟨sound.distinct, List.nodup_singleton _, ?_⟩
      intro name inScope last isLast same
      rw [List.map_singleton, List.mem_singleton] at isLast
      rw [same, isLast] at inScope
      exact fresh inScope
  · have taken : (scope.get? symbol.name).isSome = true := Option.isSome_iff_ne_none.mpr free
    rw [Scope.insert, if_pos taken]
    exact sound

end Sound

end Scope

namespace ScopeTable

/-- What can be done with a table. Looking a name up changes nothing and is left out. -/
inductive Operation
  | enter (name : String)
  | exit
  | allocate
  | define (symbol : Symbol) (position : Position)
  deriving DecidableEq, Repr

/-- The table behind an operation. A definition that is refused gives no other table. -/
def perform (table : ScopeTable) : Operation → ScopeTable
  | .enter name => table.enter name
  | .exit => table.exit
  | .allocate => table.allocate
  | .define symbol position =>
    match table.define symbol position with
    | .ok defined => defined
    | .error _ => table

/-- A scope lists a symbol. -/
def Lists (table : ScopeTable) (id : Nat) (symbol : Symbol) : Prop :=
  ∃ scope, table.scope? id = some scope ∧ symbol ∈ scope.symbols

/-- The scopes from a scope to the outermost one around it, each followed by its parent. -/
inductive Chain (scopes : List Scope) : Nat → List Nat → Prop
  | outermost {id : Nat} {scope : Scope} (found : scopes[id]? = some scope)
      (noParent : scope.parent = none) : Chain scopes id [id]
  | inside {id parent : Nat} {scope : Scope} {around : List Nat}
      (found : scopes[id]? = some scope) (isParent : scope.parent = some parent)
      (outer : Chain scopes parent around) : Chain scopes id (id :: around)

/-!
## The tree of scopes
-/

/-- The scopes of a table without their symbols. -/
def bareScopes (table : ScopeTable) : List Scope := table.scopes.map Scope.bare

/-- Bare scopes are entered one by one, each in one that is there. -/
inductive Nested : List Scope → Prop
  | root : Nested [Scope.bare (Scope.seeded "global" 1 none)]
  | inner {scopes : List Scope} {name : String} {parent : Nat} {around : Scope}
      (outer : Nested scopes) (found : scopes[parent]? = some around) :
      Nested (scopes ++ [⟨name, around.level + 1, some parent, []⟩])

/-- The root comes first and stays there. -/
theorem Nested.first {scopes : List Scope} (nested : Nested scopes) :
    scopes[0]? = some (Scope.bare (Scope.seeded "global" 1 none)) := by
  induction nested with
  | root => rfl
  | inner outer found inductionHypothesis =>
    have nonempty := (List.getElem?_eq_some_iff.mp inductionHypothesis).1
    rw [List.getElem?_append_left nonempty, inductionHypothesis]

/-- Every scope but the root lies in an earlier one, a level deeper. So a walk along the parents
goes down in the numbers and ends. -/
theorem Nested.placed {scopes : List Scope} (nested : Nested scopes) {id : Nat} {scope : Scope}
    (positive : 0 < id) (found : scopes[id]? = some scope) :
    ∃ parent around, scope.parent = some parent ∧ parent < id ∧
      scopes[parent]? = some around ∧ scope.level = around.level + 1 := by
  induction nested with
  | root =>
    rw [List.getElem?_singleton, if_neg (Nat.ne_of_gt positive)] at found
    cases found
  | @inner scopes name parent around outer isAround inductionHypothesis =>
    have keeps : ∀ {other : Nat} {enclosing : Scope}, scopes[other]? = some enclosing →
        (scopes ++ [⟨name, around.level + 1, some parent, []⟩])[other]? = some enclosing := by
      intro other enclosing earlier
      rw [List.getElem?_append_left (List.getElem?_eq_some_iff.mp earlier).1, earlier]
    -- Only the last scope is new, and it lies in one that was there before.
    by_cases older : id < scopes.length
    · rw [List.getElem?_append_left older] at found
      obtain ⟨other, enclosing, isParent, before, there, level⟩ := inductionHypothesis found
      exact ⟨other, enclosing, isParent, before, keeps there, level⟩
    · have parentInside : parent < scopes.length := (List.getElem?_eq_some_iff.mp isAround).1
      rw [List.getElem?_append_right (Nat.le_of_not_lt older), List.getElem?_singleton] at found
      split at found
      · cases found
        exact ⟨parent, around, rfl, by omega, keeps isAround, rfl⟩
      · cases found

/-- A scope of the table is found among the bare ones under its number. -/
theorem bareScopes_getElem? (table : ScopeTable) (id : Nat) :
    table.bareScopes[id]? = (table.scope? id).map Scope.bare :=
  List.getElem?_map

/-- A bare scope comes from a scope, which differs from it in its symbols only. -/
theorem scope?_of_bare {table : ScopeTable} {id : Nat} {scope : Scope}
    (found : table.bareScopes[id]? = some scope) :
    ∃ whole, table.scope? id = some whole ∧ whole.bare = scope := by
  rw [bareScopes_getElem?] at found
  exact Option.map_eq_some_iff.mp found

/-- A symbol adds no scope and changes none besides its symbols. -/
@[simp]
theorem bareScopes_insert (table : ScopeTable) (symbol : Symbol) :
    (table.insert symbol).bareScopes = table.bareScopes := by
  apply List.ext_getElem?
  intro id
  simp only [bareScopes, insert, List.getElem?_map, List.getElem?_modify]
  cases table.scopes[id]? with
  | none => rfl
  | some scope => by_cases current : table.current = id <;> simp [current]

/-- The scope that is entered comes last, in the current one. The marker that is left there is a
symbol, so it cannot be seen here. -/
theorem bareScopes_enter {table : ScopeTable} {around : Scope}
    (found : table.bareScopes[table.current]? = some around) (name : String) :
    (table.enter name).bareScopes =
      table.bareScopes ++ [⟨name, around.level + 1, some table.current, []⟩] := by
  obtain ⟨whole, isWhole, rfl⟩ := scope?_of_bare found
  rw [← bareScopes_insert table (.nested name table.scopes.length)]
  simp only [bareScopes, enter, isWhole, List.map_append]
  rfl

/-- A chain starts at a scope of the table. -/
theorem Chain.found {scopes : List Scope} {id : Nat} {chain : List Nat}
    (isChain : Chain scopes id chain) : ∃ scope, scopes[id]? = some scope := by
  cases isChain with
  | outermost found noParent => exact ⟨_, found⟩
  | inside found isParent outer => exact ⟨_, found⟩

/-- The scope that follows in a chain is the parent, and the last one has none. -/
theorem Chain.parent {scopes : List Scope} {id first : Nat} {outer : List Nat} {scope : Scope}
    (isChain : Chain scopes id (first :: outer)) (isScope : scopes[id]? = some scope) :
    scope.parent = outer.head? := by
  cases isChain with
  | outermost found noParent =>
    obtain rfl := Option.some.inj (found.symm.trans isScope)
    exact noParent
  | inside found isParent around =>
    obtain rfl := Option.some.inj (found.symm.trans isScope)
    cases around with
    | outermost found noParent => exact isParent
    | inside found isNext around => exact isParent

/-- A chain goes on from the parent, so leaving a scope leaves the rest of its chain. -/
theorem Chain.outer {scopes : List Scope} {id first parent : Nat} {around : List Nat}
    (isChain : Chain scopes id (first :: parent :: around)) :
    Chain scopes parent (parent :: around) := by
  cases isChain with
  | inside _ _ outer =>
    cases outer with
    | outermost found noParent => exact .outermost found noParent
    | inside found isParent outer => exact .inside found isParent outer

/-- A chain is still one when there are more scopes. Symbols may have been added to the old ones,
since only their parents count. -/
theorem Chain.extend {table later : ScopeTable} {more : List Scope}
    (longer : later.bareScopes = table.bareScopes ++ more) {id : Nat} {chain : List Nat}
    (isChain : Chain table.scopes id chain) : Chain later.scopes id chain := by
  have kept : ∀ {id : Nat} {scope : Scope}, table.scope? id = some scope →
      ∃ whole, later.scope? id = some whole ∧ whole.parent = scope.parent := by
    intro id scope found
    have isBare : table.bareScopes[id]? = some scope.bare := by
      rw [bareScopes_getElem?, found, Option.map_some]
    have inLater : later.bareScopes[id]? = some scope.bare := by
      rw [longer, List.getElem?_append_left (List.getElem?_eq_some_iff.mp isBare).1, isBare]
    obtain ⟨whole, isWhole, same⟩ := scope?_of_bare inLater
    have sameParent : whole.bare.parent = scope.bare.parent := congrArg Scope.parent same
    exact ⟨whole, isWhole, sameParent⟩
  induction isChain with
  | outermost found noParent =>
    obtain ⟨whole, isWhole, sameParent⟩ := kept found
    exact .outermost isWhole (sameParent.trans noParent)
  | inside found isParent outer inductionHypothesis =>
    obtain ⟨whole, isWhole, sameParent⟩ := kept found
    exact .inside isWhole (sameParent.trans isParent) inductionHypothesis

/-!
## One operation
-/

/-- The scopes are nested, each lists its symbols soundly, and the open scopes are those
from the current one to the root. -/
structure Sound (table : ScopeTable) : Prop where
  nested : Nested table.bareScopes
  scopes : ∀ scope ∈ table.scopes, scope.Sound
  chain : Chain table.scopes table.current (table.current :: table.outer)

namespace Sound

/-- A new table is sound. It has the global scope, which is the current one. -/
theorem new : ScopeTable.new.Sound := by
  refine ⟨.root, ?_, .outermost rfl rfl⟩
  intro scope member
  rw [List.mem_singleton.mp member]
  exact Scope.Sound.seeded "global" 1 none

variable {table : ScopeTable}

/-- A table stays sound when a symbol is inserted. No scope is added, and the open ones stay
open. -/
theorem insert (sound : table.Sound) (symbol : Symbol) : (table.insert symbol).Sound := by
  constructor
  · rw [bareScopes_insert]
    exact sound.nested
  · intro scope member
    obtain ⟨id, found⟩ := List.mem_iff_getElem?.mp member
    simp only [ScopeTable.insert, List.getElem?_modify] at found
    obtain ⟨older, isOlder, rfl⟩ := Option.map_eq_some_iff.mp found
    have olderSound := sound.scopes older (List.mem_of_getElem? isOlder)
    split
    · exact olderSound.insert symbol
    · exact olderSound
  · have noMore : (table.insert symbol).bareScopes = table.bareScopes ++ [] := by
      rw [bareScopes_insert, List.append_nil]
    exact sound.chain.extend noMore

/-- A table stays sound when a scope is entered. The chain of the new scope is the chain of the one
around it with the new one in front. -/
theorem enter (sound : table.Sound) (name : String) : (table.enter name).Sound := by
  obtain ⟨current, isCurrent⟩ := sound.chain.found
  have found : table.bareScopes[table.current]? = some current.bare := by
    rw [bareScopes_getElem?, scope?, isCurrent, Option.map_some]
  have longer := bareScopes_enter found name
  have last : (table.enter name).bareScopes[table.scopes.length]? =
      some ⟨name, current.level + 1, some table.current, []⟩ := by
    rw [longer, List.getElem?_append_right (by simp [bareScopes])]
    simp [bareScopes, Scope.bare]
  constructor
  · rw [longer]
    exact sound.nested.inner found
  · intro scope member
    rcases List.mem_append.mp member with older | isNew
    · exact (sound.insert _).scopes scope older
    · rw [List.mem_singleton.mp isNew]
      exact Scope.Sound.seeded ..
  · obtain ⟨entered, isEntered, isBare⟩ := scope?_of_bare last
    have isParent : entered.bare.parent = some table.current := congrArg Scope.parent isBare
    exact .inside isEntered isParent (sound.chain.extend longer)

/-- A table stays sound when a scope is left for its parent. The global scope is not left, so there
is always a current one. -/
theorem exit (sound : table.Sound) : table.exit.Sound := by
  have isChain := sound.chain
  unfold ScopeTable.exit
  split
  · exact sound
  · rename_i parent outer isOuter
    refine ⟨sound.nested, sound.scopes, ?_⟩
    rw [isOuter] at isChain
    exact isChain.outer

/-- A table stays sound when a slot is given out, because the scopes do not change. -/
theorem allocate (sound : table.Sound) : table.allocate.Sound :=
  ⟨sound.nested, sound.scopes, sound.chain⟩

/-- One operation keeps a table sound, whether it is refused or not. -/
theorem perform (sound : table.Sound) (operation : Operation) :
    (table.perform operation).Sound := by
  cases operation with
  | enter name => exact sound.enter name
  | exit => exact sound.exit
  | allocate => exact sound.allocate
  | define symbol position =>
    simp only [ScopeTable.perform, ScopeTable.define]
    split
    · rename_i defined isDefined
      split at isDefined
      · cases isDefined
      · cases isDefined
        exact sound.insert symbol
    · exact sound

/-- A run keeps a table sound, by induction on its operations. -/
theorem run (sound : table.Sound) (operations : List Operation) :
    (operations.foldl ScopeTable.perform table).Sound := by
  induction operations generalizing table with
  | nil => exact sound
  | cons operation later inductionHypothesis => exact inductionHypothesis (sound.perform operation)

/-!
## What a sound table tells
-/

/-- The global scope is the first one, and no operation changes its name, its level or that it has
no parent. -/
theorem global (sound : table.Sound) : ∃ scope, table.scope? 0 = some scope ∧
    scope.name = "global" ∧ scope.level = 1 ∧ scope.parent = none := by
  obtain ⟨scope, found, isBare⟩ := scope?_of_bare sound.nested.first
  exact ⟨scope, found, congrArg Scope.name isBare, congrArg Scope.level isBare,
    congrArg Scope.parent isBare⟩

/-- Every other scope lies in an earlier one, a level deeper. -/
theorem inner (sound : table.Sound) {id : Nat} {scope : Scope} (positive : 0 < id)
    (found : table.scope? id = some scope) :
    ∃ parent around, scope.parent = some parent ∧ parent < id ∧
      table.scope? parent = some around ∧ scope.level = around.level + 1 := by
  have isBare : table.bareScopes[id]? = some scope.bare := by
    rw [bareScopes_getElem?, found, Option.map_some]
  obtain ⟨parent, around, isParent, earlier, isAround, level⟩ :=
    sound.nested.placed positive isBare
  obtain ⟨whole, isWhole, rfl⟩ := scope?_of_bare isAround
  exact ⟨parent, whole, isParent, earlier, isWhole, level⟩

/-- A chain leads to the global scope, from any scope of the table. -/
theorem chain_last (sound : table.Sound) {id : Nat} {chain : List Nat}
    (isChain : Chain table.scopes id chain) : chain.getLast? = some 0 := by
  induction isChain with
  | @outermost id scope found noParent =>
    by_cases positive : 0 < id
    · obtain ⟨parent, around, isParent, _⟩ := sound.inner positive found
      rw [noParent] at isParent
      cases isParent
    · rw [Nat.eq_zero_of_not_pos positive]
      rfl
  | inside found isParent outer inductionHypothesis =>
    rw [List.getLast?_cons, inductionHypothesis]
    rfl

/-- A name stands in a scope for the symbol that the scope lists with it. There is at most one,
because the scope is sound. -/
theorem symbol?_eq_some_iff (sound : table.Sound) {id : Nat} {name : String} {symbol : Symbol} :
    table.symbol? id name = some symbol ↔ table.Lists id symbol ∧ symbol.name = name := by
  simp only [symbol?, Option.bind_eq_some_iff, Lists]
  constructor
  · rintro ⟨scope, found, isSymbol⟩
    have scopeSound := sound.scopes scope (List.mem_of_getElem? found)
    obtain ⟨listed, isName⟩ := (Scope.get?_eq_some_iff scopeSound.distinct).mp isSymbol
    exact ⟨⟨scope, found, listed⟩, isName⟩
  · rintro ⟨⟨scope, found, listed⟩, isName⟩
    have scopeSound := sound.scopes scope (List.mem_of_getElem? found)
    exact ⟨scope, found, (Scope.get?_eq_some_iff scopeSound.distinct).mpr ⟨listed, isName⟩⟩

/-- A name stands for nothing in a scope that lists no symbol with it. -/
theorem symbol?_eq_none_iff (sound : table.Sound) {id : Nat} {name : String} :
    table.symbol? id name = none ↔ ∀ symbol, table.Lists id symbol → symbol.name ≠ name := by
  simp only [Option.eq_none_iff_forall_ne_some, ne_eq, sound.symbol?_eq_some_iff, not_and]

/-- A name means the symbol of the first open scope that lists it. The scopes inside of that one
may list anything but this name. -/
theorem lookup?_eq_some_iff (sound : table.Sound) {name : String} {symbol : Symbol} :
    table.lookup? name = some symbol ↔
      ∃ inner id outer, table.current :: table.outer = inner ++ id :: outer ∧
        table.Lists id symbol ∧ symbol.name = name ∧
        ∀ other ∈ inner, ∀ hidden, table.Lists other hidden → hidden.name ≠ name := by
  change (table.current :: table.outer).findSome? (table.symbol? · name) = some symbol ↔ _
  rw [List.findSome?_eq_some_iff]
  simp only [sound.symbol?_eq_some_iff, sound.symbol?_eq_none_iff, and_assoc]

/-- A name means nothing only if no open scope lists it. Scopes that have been left do not count. -/
theorem lookup?_eq_none_iff (sound : table.Sound) {name : String} :
    table.lookup? name = none ↔
      ∀ id ∈ table.current :: table.outer, ∀ symbol, table.Lists id symbol →
        symbol.name ≠ name := by
  change (table.current :: table.outer).findSome? (table.symbol? · name) = none ↔ _
  rw [List.findSome?_eq_none_iff]
  simp only [sound.symbol?_eq_none_iff]

/-- A definition is refused if the current scope lists its name, whatever kind of symbol has it
there. Scopes around it do not count. -/
theorem define_refused (sound : table.Sound) {symbol taken : Symbol} (position : Position)
    (listed : table.Lists table.current taken) (sameName : taken.name = symbol.name) :
    table.define symbol position = .error (.redefinition symbol.name position) := by
  have found : table.lookupLocal? symbol.name = some taken :=
    sound.symbol?_eq_some_iff.mpr ⟨listed, sameName⟩
  rw [ScopeTable.define, found]
  rfl

/-- A symbol with a free name is added to the current scope, and nothing else changes. Names in
other scopes may be the same. -/
theorem define_added (sound : table.Sound) {symbol : Symbol} (position : Position)
    (free : ∀ taken, table.Lists table.current taken → taken.name ≠ symbol.name) :
    table.define symbol position = .ok (table.insert symbol) ∧
      ∀ id other, (table.insert symbol).Lists id other ↔
        table.Lists id other ∨ id = table.current ∧ other = symbol := by
  have notFound : table.symbol? table.current symbol.name = none :=
    sound.symbol?_eq_none_iff.mpr free
  obtain ⟨current, isCurrent⟩ := sound.chain.found
  constructor
  · have isLocal : table.lookupLocal? symbol.name = none := notFound
    rw [ScopeTable.define, isLocal]
    rfl
  · have scopeFree : current.get? symbol.name = none := by
      rwa [symbol?, scope?, isCurrent, Option.bind_some] at notFound
    intro id other
    simp only [Lists, scope?, ScopeTable.insert, List.getElem?_modify]
    by_cases inCurrent : table.current = id
    · subst inCurrent
      simp [isCurrent, Scope.insert_of_free scopeFree]
    · have elsewhere : ¬ id = table.current := fun same => inCurrent same.symm
      simp [inCurrent, elsewhere]

end Sound

/-- An allocation gives out one slot, and nothing else does. -/
theorem slots_perform (table : ScopeTable) (operation : Operation) :
    (table.perform operation).slots = table.slots + if operation = .allocate then 1 else 0 := by
  cases operation with
  | enter name => rfl
  | exit =>
    simp only [perform, exit]
    split <;> rfl
  | allocate => rfl
  | define symbol position =>
    simp only [perform, define]
    split
    · rename_i defined isDefined
      split at isDefined <;> cases isDefined
      rfl
    · rfl

/-- A run gives out a slot for each allocation. None is given back when its scope is left. -/
theorem slots_run (table : ScopeTable) (operations : List Operation) :
    (operations.foldl perform table).slots = table.slots + operations.count .allocate := by
  induction operations generalizing table with
  | nil => rfl
  | cons operation later inductionHypothesis =>
    rw [List.foldl_cons, inductionHypothesis, List.count_cons, slots_perform]
    simp only [beq_iff_eq]
    omega

end ScopeTable

end IntMain
