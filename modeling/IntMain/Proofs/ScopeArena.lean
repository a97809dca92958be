import IntMain.Proofs.ScopeChains
import Mathlib.Data.PFun

/-!
# Scopes in an arena

A scope keeps its symbols in the order of their insertion, and beside them an index that
gives the place of each name. Scopes lie in an arena and know their parents by number. A
name is looked up by a walk along the parents.

All of this can go wrong. The index can give a place at which there is no symbol, or that
of another name; a parent can be missing, and the walk along the parents need not end. A
function below has no result if a place is out of range or its walk does not end. That
neither happens after any run of operations, and that every result is that of `ScopeTable`,
where a scope is a list of symbols and the open scopes are a list, is the content of this
module. `IndexedScope.Indexed` ties index and symbols, and `ScopeArena.Represents` ties the
arena to a `ScopeTable`. Each operation keeps both.
-/

namespace IntMain

/-- A scope as it is stored. Its symbols stand in an array, and a map finds a name's place there
without a search; nothing but the operations keeps the two in step. -/
structure IndexedScope where
  name : String
  /-- One for the global scope, and one more for each level of nesting. -/
  level : Nat
  /-- The number of the scope around this one. -/
  parent : Option Nat
  /-- The symbols in the order of their insertion. -/
  symbols : Array Symbol
  /-- The place of each name among the symbols. -/
  index : Std.HashMap String Nat

namespace IndexedScope

/-- Insert a symbol, unless its name is taken. Also whether the symbol was inserted. A refused
symbol leaves the scope as it was. -/
def insert (scope : IndexedScope) (symbol : Symbol) : IndexedScope × Bool :=
  if scope.index.contains symbol.name then (scope, false)
  else
    ({ scope with
        symbols := scope.symbols.push symbol
        index := scope.index.insert symbol.name scope.symbols.size }, true)

/-- A scope that knows the builtin type only. -/
def seeded (name : String) (level : Nat) (parent : Option Nat) : IndexedScope :=
  (insert ⟨name, level, parent, #[], ∅⟩ (.builtin builtinType)).1

/-- The symbol with a given name, by the index. There is no result if the index gives a place
behind the last symbol. -/
def get (scope : IndexedScope) (name : String) : Option (Option Symbol) :=
  match scope.index[name]? with
  | none => some none
  | some place => scope.symbols[place]?.map some

end IndexedScope

/-- The scopes of a program as they are stored. -/
structure ScopeArena where
  /-- All scopes in the order in which they were entered, the global one first. -/
  scopes : Array IndexedScope
  /-- The number of the scope in which names are declared now. -/
  current : Nat
  /-- The offset of the latest slot from the frame base. -/
  lowest : Int32

namespace ScopeArena

/-- An arena with the global scope only. -/
def new : ScopeArena := ⟨#[IndexedScope.seeded "global" 1 none], 0, 0⟩

/-- Enter a new scope in the current one, which gets a marker for it if the name is free
there. Also the number of the new scope, and what there is to say. -/
def enter (arena : ScopeArena) (name : String) : Option (ScopeArena × Nat × List LogRecord) := do
  let id := arena.scopes.size
  let around ← arena.scopes[arena.current]?
  let (marked, inserted) := around.insert (.nested name id)
  let log :=
    if inserted then []
    else [.debug ("scope marker '" ++ name ++ "' hidden by an existing symbol")]
  let entered := IndexedScope.seeded name (around.level + 1) (some arena.current)
  let scopes := (arena.scopes.setIfInBounds arena.current marked).push entered
  return ({ arena with scopes, current := id }, id, log)

/-- Leave the current scope for its parent; the global scope has none and is not left. Nothing is
given where the current scope is missing. -/
def exit (arena : ScopeArena) : Option ScopeArena := do
  let scope ← arena.scopes[arena.current]?
  match scope.parent with
  | none => return arena
  | some parent => return { arena with current := parent }

/-- Give out the next slot. Also its offset from the frame base. -/
def allocate (arena : ScopeArena) : ScopeArena × Int32 :=
  let offset := arena.lowest - Int32.ofNat ScopeTable.slotWidth
  ({ arena with lowest := offset }, offset)

/-- The bytes that all slots take. -/
def frameSize (arena : ScopeArena) : Nat := arena.lowest.toInt.natAbs

/-- Define a symbol in the current scope. The arena is changed in place, whatever the answer
is. -/
def define (arena : ScopeArena) (symbol : Symbol) (position : Position) :
    Option (ScopeArena × Except Fault Unit) := do
  let scope ← arena.scopes[arena.current]?
  let (defined, inserted) := scope.insert symbol
  let answer := if inserted then .ok () else .error (.redefinition symbol.name position)
  return ({ arena with scopes := arena.scopes.setIfInBounds arena.current defined }, answer)

/-- One turn of looking a name up, in the scope with a given number: it ends with what the name
stands for, or goes on in the parent. -/
def lookupTurn (arena : ScopeArena) (name : String) (id : Nat) :
    Option (Option Symbol ⊕ Nat) := do
  let scope ← arena.scopes[id]?
  match ← scope.get name with
  | some symbol => return .inl (some symbol)
  | none =>
    match scope.parent with
    | none => return .inl none
    | some parent => return .inr parent

/-- Look a name up in a scope and then in those around it, turn by turn. There is a result only
if the turns come to an end. -/
def lookupFrom (arena : ScopeArena) (name : String) : Nat →. Option Symbol :=
  PFun.fix (fun id => Part.ofOption (arena.lookupTurn name id))

/-- The symbol that a name stands for: that of the innermost scope that has one. -/
def lookup (arena : ScopeArena) : String →. Option Symbol :=
  fun name => arena.lookupFrom name arena.current

/-- The arena behind an operation. -/
def perform (arena : ScopeArena) : ScopeTable.Operation → Option ScopeArena
  | .enter name => (arena.enter name).map Prod.fst
  | .exit => arena.exit
  | .allocate => some arena.allocate.1
  | .define symbol position => (arena.define symbol position).map Prod.fst

end ScopeArena

/-!
## Symbols and their index
-/

namespace IndexedScope

/-- The scope without its index. -/
def view (scope : IndexedScope) : Scope :=
  ⟨scope.name, scope.level, scope.parent, scope.symbols.toList⟩

/-- The index gives a place for a name exactly if the symbol at that place has it. So the index
misses no symbol, and has no place beyond them. -/
def Indexed (scope : IndexedScope) : Prop :=
  ∀ name place, scope.index[name]? = some place ↔
    scope.symbols[place]?.map Symbol.name = some name

variable {scope : IndexedScope}

/-- The symbols of a scope are those of its view, place by place. -/
theorem symbols_view (scope : IndexedScope) (place : Nat) :
    scope.view.symbols[place]? = scope.symbols[place]? :=
  Array.getElem?_toList

/-- A symbol that is listed is found in the index by its name. The place that is found may at this
point still be that of another symbol of the name. -/
theorem Indexed.of_mem (indexed : scope.Indexed) {symbol : Symbol}
    (listed : symbol ∈ scope.view.symbols) : ∃ place, scope.index[symbol.name]? = some place := by
  obtain ⟨place, found⟩ := List.mem_iff_getElem?.mp listed
  rw [symbols_view] at found
  exact ⟨place, (indexed _ _).mpr (by rw [found, Option.map_some])⟩

/-- Since the index has one place for a name, no name is listed twice. -/
theorem Indexed.distinct (indexed : scope.Indexed) :
    (scope.view.symbols.map Symbol.name).Nodup := by
  rw [List.nodup_iff_getElem?_ne_getElem?]
  intro first second before inside same
  have secondFound := List.getElem?_eq_getElem inside
  rw [secondFound] at same
  rw [List.getElem?_map, symbols_view] at same secondFound
  have isFirst := (indexed _ _).mpr same
  have isSecond := (indexed _ _).mpr secondFound
  have equal : first = second := Option.some.inj (isFirst.symm.trans isSecond)
  omega

/-- A name that the index does not have is free: a search through the symbols does not find it. -/
theorem Indexed.get?_of_none (indexed : scope.Indexed) {name : String}
    (absent : scope.index[name]? = none) : scope.view.get? name = none := by
  apply Scope.get?_eq_none_iff.mpr
  rintro symbol listed rfl
  obtain ⟨place, found⟩ := indexed.of_mem listed
  cases absent.symm.trans found

/-- The place that the index gives for a name is that of the symbol the name stands for. In
particular it is a place of the array. -/
theorem Indexed.get?_of_some (indexed : scope.Indexed) {name : String} {place : Nat}
    (found : scope.index[name]? = some place) :
    ∃ symbol, scope.symbols[place]? = some symbol ∧ scope.view.get? name = some symbol := by
  obtain ⟨symbol, atPlace, isName⟩ := Option.map_eq_some_iff.mp ((indexed _ _).mp found)
  refine ⟨symbol, atPlace, (Scope.get?_eq_some_iff indexed.distinct).mpr ⟨?_, isName⟩⟩
  rw [← symbols_view] at atPlace
  exact List.mem_of_getElem? atPlace

/-- The index always leads to a symbol or to none, and to the one that the list of symbols
has. -/
theorem Indexed.get_eq (indexed : scope.Indexed) (name : String) :
    scope.get name = some (scope.view.get? name) := by
  unfold get
  cases found : scope.index[name]? with
  | none => rw [indexed.get?_of_none found]
  | some place =>
    obtain ⟨symbol, atPlace, got⟩ := indexed.get?_of_some found
    simp only [atPlace, got, Option.map_some]

/-- The index has a name exactly if a symbol is listed with it. This is what an insertion asks. -/
theorem Indexed.contains_eq (indexed : scope.Indexed) (name : String) :
    scope.index.contains name = (scope.view.get? name).isSome := by
  rw [Std.HashMap.contains_eq_isSome_getElem?]
  cases found : scope.index[name]? with
  | none =>
    rw [indexed.get?_of_none found]
    rfl
  | some place =>
    obtain ⟨symbol, -, got⟩ := indexed.get?_of_some found
    rw [got]
    rfl

/-- A symbol whose name is taken changes nothing, neither the symbols nor the index. -/
theorem Indexed.insert_of_taken (indexed : scope.Indexed) {symbol : Symbol}
    (taken : (scope.view.get? symbol.name).isSome = true) :
    scope.insert symbol = (scope, false) := by
  rw [insert, indexed.contains_eq, if_pos taken]

/-- A symbol with a free name goes to the end, and the index knows it there. The places of the
others do not move, so the index stays sound. -/
theorem Indexed.insert_of_free (indexed : scope.Indexed) {symbol : Symbol}
    (free : scope.view.get? symbol.name = none) :
    (scope.insert symbol).2 = true ∧ (scope.insert symbol).1.view = scope.view.insert symbol ∧
      (scope.insert symbol).1.Indexed := by
  have absent : scope.index.contains symbol.name = false := by
    rw [indexed.contains_eq, free]
    rfl
  have inserted : scope.insert symbol = ({ scope with
      symbols := scope.symbols.push symbol
      index := scope.index.insert symbol.name scope.symbols.size }, true) := by
    rw [insert, absent]
    rfl
  rw [inserted, Scope.insert_of_free free]
  refine ⟨rfl, by simp [view], ?_⟩
  intro name place
  simp only [Std.HashMap.getElem?_insert, Array.getElem?_push, beq_iff_eq]
  have noEarlier : ∀ other, scope.index[symbol.name]? ≠ some other := by
    intro other found
    obtain ⟨_, _, got⟩ := indexed.get?_of_some found
    cases free.symm.trans got
  by_cases isName : symbol.name = name
  · subst isName
    by_cases isLast : place = scope.symbols.size
    · simp [isLast]
    · have notThere : scope.symbols[place]?.map Symbol.name ≠ some symbol.name :=
        fun found => noEarlier place ((indexed _ _).mpr found)
      simp [isLast, notThere, Ne.symm isLast]
  · by_cases isLast : place = scope.symbols.size
    · have notThere : scope.index[name]? ≠ some scope.symbols.size := by
        intro found
        have atEnd := (indexed _ _).mp found
        simp at atEnd
      simp [isName, isLast, notThere]
    · simp only [if_neg isName, if_neg isLast]
      exact indexed name place

/-- Inserting a symbol does to the view what it does to a list of symbols, keeps the index in
step, and tells whether the name was free. -/
theorem Indexed.insert (indexed : scope.Indexed) (symbol : Symbol) :
    (scope.insert symbol).1.view = scope.view.insert symbol ∧ (scope.insert symbol).1.Indexed ∧
      (scope.insert symbol).2 = (scope.view.get? symbol.name).isNone := by
  cases got : scope.view.get? symbol.name with
  | none =>
    obtain ⟨inserted, sameView, stillIndexed⟩ := indexed.insert_of_free got
    exact ⟨sameView, stillIndexed, inserted⟩
  | some other =>
    have taken : (scope.view.get? symbol.name).isSome = true := by
      rw [got]
      rfl
    rw [indexed.insert_of_taken taken, Scope.insert, if_pos taken]
    exact ⟨rfl, indexed, rfl⟩

/-- A scope without symbols and with an empty index is sound. -/
theorem indexed_empty (name : String) (level : Nat) (parent : Option Nat) :
    Indexed ⟨name, level, parent, #[], ∅⟩ := by
  intro name place
  simp

/-- A scope that was just entered is sound, because the builtin type is inserted like any symbol. -/
theorem indexed_seeded (name : String) (level : Nat) (parent : Option Nat) :
    (seeded name level parent).Indexed :=
  ((indexed_empty name level parent).insert _).2.1

/-- The view of a scope that was just entered is the scope that the table enters. -/
theorem view_seeded (name : String) (level : Nat) (parent : Option Nat) :
    (seeded name level parent).view = Scope.seeded name level parent :=
  ((indexed_empty name level parent).insert _).1

end IndexedScope

/-!
## One operation on the arena
-/

namespace ScopeArena

/-- The arena has the scopes of a table, each with a sound index, and the same current scope
and frame. Nothing in it stands for the table's list of open scopes, which the parents have
to give. -/
structure Represents (arena : ScopeArena) (table : ScopeTable) : Prop where
  scopes : arena.scopes.toList.map IndexedScope.view = table.scopes
  indexed : ∀ scope ∈ arena.scopes.toList, scope.Indexed
  current : arena.current = table.current
  lowest : arena.lowest.toInt = table.offset

namespace Represents

/-- A new arena stands for a new table: both have the global scope, and no slot is given out. -/
theorem new : ScopeArena.new.Represents ScopeTable.new := by
  refine ⟨?_, ?_, rfl, rfl⟩
  · exact congrArg (fun scope => [scope]) (IndexedScope.view_seeded "global" 1 none)
  · intro scope member
    rw [List.mem_singleton.mp member]
    exact IndexedScope.indexed_seeded "global" 1 none

variable {arena : ScopeArena} {table : ScopeTable}

/-- The scopes of the arena are those of the table, number by number. -/
theorem scope? (represents : arena.Represents table) (id : Nat) :
    table.scope? id = arena.scopes[id]?.map IndexedScope.view := by
  rw [ScopeTable.scope?, ← represents.scopes, List.getElem?_map, Array.getElem?_toList]

/-- A scope of the table is stored in the arena, with a sound index. -/
theorem stored (represents : arena.Represents table) {id : Nat} {whole : Scope}
    (found : table.scope? id = some whole) :
    ∃ scope, arena.scopes[id]? = some scope ∧ scope.view = whole ∧ scope.Indexed := by
  rw [represents.scope?] at found
  obtain ⟨scope, isScope, isView⟩ := Option.map_eq_some_iff.mp found
  refine ⟨scope, isScope, isView, represents.indexed scope ?_⟩
  rw [← Array.getElem?_toList] at isScope
  exact List.mem_of_getElem? isScope

/-- The current scope is in the arena, so no operation fails for want of it. That there is one is a
part of the table's soundness. -/
theorem current_stored (represents : arena.Represents table) (sound : table.Sound) :
    ∃ scope, arena.scopes[arena.current]? = some scope ∧
      table.scope? table.current = some scope.view ∧ scope.Indexed := by
  obtain ⟨whole, isWhole⟩ := sound.chain.found
  obtain ⟨scope, isScope, isView, indexed⟩ := represents.stored isWhole
  rw [represents.current]
  exact ⟨scope, isScope, isView ▸ isWhole, indexed⟩

/-- The arena after the current scope has got a symbol, or has refused it, stands for the table
after the insertion. Both cases are one equation, as the scope is stored back either way. -/
theorem insert (represents : arena.Represents table) {scope : IndexedScope}
    (found : arena.scopes[arena.current]? = some scope) (indexed : scope.Indexed)
    (symbol : Symbol) :
    Represents { arena with
      scopes := arena.scopes.setIfInBounds arena.current (scope.insert symbol).1 }
      (table.insert symbol) := by
  obtain ⟨sameView, stillIndexed, -⟩ := indexed.insert symbol
  obtain ⟨inside, isScope⟩ := Array.getElem?_eq_some_iff.mp found
  refine ⟨?_, ?_, represents.current, represents.lowest⟩
  · apply List.ext_getElem?
    intro id
    rw [ScopeTable.insert, List.getElem?_modify, ← represents.current, List.getElem?_map,
      Array.getElem?_toList, Array.getElem?_setIfInBounds]
    have older := represents.scope? id
    rw [ScopeTable.scope?] at older
    rw [older]
    by_cases isCurrent : arena.current = id
    · subst isCurrent
      simp [inside, isScope, sameView]
    · simp [isCurrent]
  · intro other member
    rw [Array.toList_setIfInBounds] at member
    rcases List.mem_or_eq_of_mem_set member with older | rfl
    · exact represents.indexed other older
    · exact stillIndexed

/-- Both have the same number of scopes, so a new one gets the same number. -/
theorem size (represents : arena.Represents table) : arena.scopes.size = table.scopes.length := by
  rw [← represents.scopes, List.length_map, Array.length_toList]

/-- A scope is entered, with the number and the log of the table. The arena reads the level of the
current scope, which therefore has to be there. -/
theorem enter (represents : arena.Represents table) (sound : table.Sound) (name : String) :
    ∃ entered, arena.enter name = some (entered, table.scopes.length, table.enterLog name) ∧
      entered.Represents (table.enter name) := by
  obtain ⟨around, found, isCurrent, indexed⟩ := represents.current_stored sound
  have sameAnswer : (around.insert (.nested name table.scopes.length)).2 =
      (around.view.get? name).isNone := (indexed.insert _).2.2
  have marked := represents.insert found indexed (.nested name table.scopes.length)
  have isLog : table.enterLog name =
      if (around.insert (.nested name table.scopes.length)).2 then []
      else [.debug ("scope marker '" ++ name ++ "' hidden by an existing symbol")] := by
    rw [ScopeTable.enterLog, ScopeTable.lookupLocal?, isCurrent, Option.bind_some, sameAnswer]
    cases around.view.get? name <;> rfl
  have isEntered : (IndexedScope.seeded name (around.level + 1) (some arena.current)).view =
      Scope.seeded name (((table.scope? table.current).map Scope.level).getD 0 + 1)
        (some table.current) := by
    rw [IndexedScope.view_seeded, isCurrent, represents.current]
    rfl
  refine ⟨⟨(arena.scopes.setIfInBounds arena.current
      (around.insert (.nested name table.scopes.length)).1).push
      (.seeded name (around.level + 1) (some arena.current)), table.scopes.length, arena.lowest⟩,
    ?_, ?_⟩
  · simp only [ScopeArena.enter, found, represents.size, isLog]
    rfl
  · refine ⟨?_, ?_, rfl, represents.lowest⟩
    · rw [Array.toList_push, List.map_append, marked.scopes, List.map_singleton, isEntered]
      rfl
    · intro scope member
      rw [Array.toList_push] at member
      rcases List.mem_append.mp member with older | isNew
      · exact marked.indexed scope older
      · rw [List.mem_singleton.mp isNew]
        exact IndexedScope.indexed_seeded name (around.level + 1) (some arena.current)

/-- A scope is left for its parent. The arena reads the parent from the scope, and the table takes
it from its list of open scopes; in a sound table they are the same. -/
theorem exit (represents : arena.Represents table) (sound : table.Sound) :
    ∃ left, arena.exit = some left ∧ left.Represents table.exit := by
  obtain ⟨scope, found, isCurrent, -⟩ := represents.current_stored sound
  have isParent : scope.parent = table.outer.head? := sound.chain.parent isCurrent
  cases isOuter : table.outer with
  | nil =>
    rw [isOuter] at isParent
    refine ⟨arena, ?_, ?_⟩
    · rw [ScopeArena.exit, found]
      simp only [bind, Option.bind, isParent, List.head?_nil]
      rfl
    · rw [ScopeTable.exit, isOuter]
      exact represents
  | cons parent outer =>
    rw [isOuter] at isParent
    refine ⟨{ arena with current := parent }, ?_, ?_⟩
    · rw [ScopeArena.exit, found]
      simp only [bind, Option.bind, isParent, List.head?_cons]
      rfl
    · rw [ScopeTable.exit, isOuter]
      exact ⟨represents.scopes, represents.indexed, rfl, represents.lowest⟩

/-- A slot is given out, and its offset is that of the table, if there is room for it below
the frame base. -/
theorem allocate (represents : arena.Represents table) (room : table.slots < 536870912) :
    arena.allocate.1.Represents table.allocate ∧
      arena.allocate.2.toInt = table.allocate.offset := by
  have next : (arena.lowest - Int32.ofNat ScopeTable.slotWidth).toInt = table.allocate.offset := by
    have width : (Int32.ofNat ScopeTable.slotWidth).toInt = 4 := rfl
    have before := represents.lowest
    rw [Int32.toInt_sub, width, before]
    simp only [ScopeTable.offset, ScopeTable.allocate, ScopeTable.slotWidth]
    rw [Int.bmod_eq_of_le]
    · omega
    · omega
    · omega
  exact ⟨⟨represents.scopes, represents.indexed, represents.current, next⟩, next⟩

/-- A definition is answered as the table answers it. If it is refused, the arena is what it
was. -/
theorem define (represents : arena.Represents table) (sound : table.Sound) (symbol : Symbol)
    (position : Position) :
    (∃ defined, arena.define symbol position = some (defined, .ok ()) ∧
      table.define symbol position = .ok (table.insert symbol) ∧
      defined.Represents (table.insert symbol)) ∨
    (arena.define symbol position = some (arena, .error (.redefinition symbol.name position)) ∧
      table.define symbol position = .error (.redefinition symbol.name position)) := by
  obtain ⟨scope, found, isCurrent, indexed⟩ := represents.current_stored sound
  have isLocal : table.lookupLocal? symbol.name = scope.view.get? symbol.name := by
    rw [ScopeTable.lookupLocal?, isCurrent, Option.bind_some]
  cases got : scope.view.get? symbol.name with
  | none =>
    obtain ⟨inserted, -, -⟩ := indexed.insert_of_free got
    refine .inl ⟨_, ?_, ?_, represents.insert found indexed symbol⟩
    · rw [ScopeArena.define, found]
      simp only [bind, Option.bind, inserted]
      rfl
    · rw [ScopeTable.define, isLocal, got]
      rfl
  | some other =>
    have taken : (scope.view.get? symbol.name).isSome = true := by
      rw [got]
      rfl
    have same : arena.scopes.setIfInBounds arena.current scope = arena.scopes := by
      obtain ⟨inside, isScope⟩ := Array.getElem?_eq_some_iff.mp found
      rw [Array.setIfInBounds, dif_pos inside, ← isScope, Array.set_getElem_self]
    refine .inr ⟨?_, ?_⟩
    · rw [ScopeArena.define, found]
      simp only [bind, Option.bind, indexed.insert_of_taken taken, same]
      rfl
    · rw [ScopeTable.define, isLocal, if_pos taken]

/-- One turn in a scope of the table ends with the symbol of that scope, or, if there is none,
goes on in the parent. -/
theorem lookupTurn (represents : arena.Represents table) {id : Nat} {whole : Scope}
    (found : table.scopes[id]? = some whole) (name : String) :
    arena.lookupTurn name id = some ((table.symbol? id name).elim
      (whole.parent.elim (.inl none) .inr) (fun symbol => .inl (some symbol))) := by
  obtain ⟨scope, isScope, rfl, indexed⟩ := represents.stored found
  have isSymbol : table.symbol? id name = scope.view.get? name := by
    rw [ScopeTable.symbol?, ScopeTable.scope?, found, Option.bind_some]
  have isParent : scope.view.parent = scope.parent := rfl
  rw [ScopeArena.lookupTurn, isScope, isSymbol, isParent]
  simp only [bind, Option.bind, indexed.get_eq name]
  cases scope.view.get? name with
  | some symbol => rfl
  | none => cases scope.parent <;> rfl

/-- The walk along the parents ends, and finds what is found along the chain of scopes. It ends
because a chain is finite, which is known of every scope of a sound table. -/
theorem lookupFrom (represents : arena.Represents table) {id : Nat} {chain : List Nat}
    (isChain : ScopeTable.Chain table.scopes id chain) (name : String) :
    chain.findSome? (table.symbol? · name) ∈ arena.lookupFrom name id := by
  induction isChain with
  | @outermost id whole found noParent =>
    have turn := represents.lookupTurn found name
    rw [noParent] at turn
    apply PFun.mem_fix_iff.mpr
    rw [List.findSome?_singleton]
    cases isSymbol : table.symbol? id name with
    | none => exact .inl (Part.mem_ofOption.mpr (by rw [turn, isSymbol]; rfl))
    | some symbol => exact .inl (Part.mem_ofOption.mpr (by rw [turn, isSymbol]; rfl))
  | @inside id parent whole around found isParent outer inductionHypothesis =>
    have turn := represents.lookupTurn found name
    rw [isParent] at turn
    apply PFun.mem_fix_iff.mpr
    rw [List.findSome?_cons]
    cases isSymbol : table.symbol? id name with
    | none =>
      refine .inr ⟨parent, Part.mem_ofOption.mpr ?_, inductionHypothesis⟩
      rw [turn, isSymbol]
      rfl
    | some symbol => exact .inl (Part.mem_ofOption.mpr (by rw [turn, isSymbol]; rfl))

/-!
## Any number of operations
-/

/-- One operation has a result, and it stands for what the table comes to. A slot has to be
left if the operation takes one. -/
theorem perform (represents : arena.Represents table) (sound : table.Sound)
    (operation : ScopeTable.Operation)
    (room : table.slots + (if operation = .allocate then 1 else 0) ≤ 536870912) :
    ∃ later, arena.perform operation = some later ∧ later.Represents (table.perform operation) := by
  cases operation with
  | enter name =>
    obtain ⟨entered, isEntered, stillRepresents⟩ := represents.enter sound name
    refine ⟨entered, ?_, stillRepresents⟩
    rw [ScopeArena.perform, isEntered, Option.map_some]
  | exit => exact represents.exit sound
  | allocate =>
    simp only [if_true] at room
    exact ⟨_, rfl, (represents.allocate (by omega)).1⟩
  | define symbol position =>
    rw [ScopeArena.perform, ScopeTable.perform]
    rcases represents.define sound symbol position with
      ⟨defined, isDefined, inTable, stillRepresents⟩ | ⟨refused, inTable⟩
    · rw [isDefined, inTable]
      exact ⟨defined, rfl, stillRepresents⟩
    · rw [refused, inTable]
      exact ⟨arena, rfl, represents⟩

/-- A run has a result, and it stands for what the table comes to. The bound keeps the offsets
within 32 bits; without it the arena would wrap around where the table goes on. -/
theorem run (represents : arena.Represents table) (sound : table.Sound)
    (operations : List ScopeTable.Operation)
    (room : table.slots + operations.count .allocate ≤ 536870912) :
    ∃ later, operations.foldlM ScopeArena.perform arena = some later ∧
      later.Represents (operations.foldl ScopeTable.perform table) := by
  induction operations generalizing arena table with
  | nil => exact ⟨arena, rfl, represents⟩
  | cons operation rest inductionHypothesis =>
    simp only [List.count_cons, beq_iff_eq] at room
    obtain ⟨next, isNext, nextRepresents⟩ :=
      represents.perform sound operation (by omega)
    obtain ⟨later, isLater, laterRepresents⟩ :=
      inductionHypothesis nextRepresents (sound.perform operation) (by
        rw [ScopeTable.slots_perform]
        omega)
    refine ⟨later, ?_, laterRepresents⟩
    rw [List.foldlM_cons, isNext]
    exact isLater

end Represents

/-- A scope lists a symbol. -/
def Lists (arena : ScopeArena) (id : Nat) (symbol : Symbol) : Prop :=
  ∃ scope, arena.scopes[id]? = some scope ∧ symbol ∈ scope.symbols

/-- The scopes without their indexes. -/
def views (arena : ScopeArena) : List Scope := arena.scopes.toList.map IndexedScope.view

/-- The symbols of the arena are those of the table, scope by scope. -/
theorem Represents.lists_iff {arena : ScopeArena} {table : ScopeTable}
    (represents : arena.Represents table) {id : Nat} {symbol : Symbol} :
    arena.Lists id symbol ↔ table.Lists id symbol := by
  simp only [Lists, ScopeTable.Lists, represents.scope?, Option.map_eq_some_iff]
  constructor
  · rintro ⟨scope, found, listed⟩
    exact ⟨scope.view, ⟨scope, found, rfl⟩, Array.mem_toList_iff.mpr listed⟩
  · rintro ⟨_, ⟨scope, found, rfl⟩, listed⟩
    exact ⟨scope, found, Array.mem_toList_iff.mp listed⟩

/-- Every scope of the arena lists the builtin type first and no name twice, and a name gets the
symbol that is listed with it. The order of the symbols is known from the table, and the rest from
the index. -/
theorem Represents.listed {arena : ScopeArena} {table : ScopeTable}
    (represents : arena.Represents table) (sound : table.Sound) {scope : IndexedScope}
    (member : scope ∈ arena.scopes) :
    scope.symbols[0]? = some (.builtin builtinType) ∧
      (scope.symbols.toList.map Symbol.name).Nodup ∧ scope.Indexed ∧
      ∀ name, ∃ found, scope.get name = some found ∧
        ∀ symbol, found = some symbol ↔ symbol ∈ scope.symbols ∧ symbol.name = name := by
  have stored : scope ∈ arena.scopes.toList := Array.mem_toList_iff.mpr member
  have indexed : scope.Indexed := represents.indexed scope stored
  have viewSound : scope.view.Sound := by
    apply sound.scopes
    rw [← represents.scopes]
    exact List.mem_map_of_mem stored
  refine ⟨?_, indexed.distinct, indexed, ?_⟩
  · rw [← IndexedScope.symbols_view, ← List.head?_eq_getElem?]
    exact viewSound.builtinFirst
  · intro name
    refine ⟨_, indexed.get_eq name, fun symbol => ?_⟩
    rw [Scope.get?_eq_some_iff indexed.distinct, IndexedScope.view, Array.mem_toList_iff]

/-- A name is looked up with a result, and it is what the table finds. The walk of the arena starts
at its current scope, whose chain is the table's list of open scopes. -/
theorem Represents.lookup {arena : ScopeArena} {table : ScopeTable}
    (represents : arena.Represents table) (sound : table.Sound) (name : String) :
    arena.lookup name = .some (table.lookup? name) := by
  rw [ScopeArena.lookup, represents.current]
  exact Part.eq_some_iff.mpr (represents.lookupFrom sound.chain name)

/-- A definition has an answer. It is refused exactly if the current scope lists the name, and
then the arena is what it was. Otherwise the symbol is added to the current scope, and to no
other. -/
theorem Represents.define_cases {arena : ScopeArena} {table : ScopeTable}
    (represents : arena.Represents table) (sound : table.Sound) (symbol : Symbol)
    (position : Position) :
    ∃ defined answer, arena.define symbol position = some (defined, answer) ∧
      ((∃ taken, arena.Lists arena.current taken ∧ taken.name = symbol.name) ∧
        answer = .error (.redefinition symbol.name position) ∧ defined = arena ∨
      (∀ taken, arena.Lists arena.current taken → taken.name ≠ symbol.name) ∧
        answer = .ok () ∧
        ∀ id other, defined.Lists id other ↔
          arena.Lists id other ∨ id = arena.current ∧ other = symbol) := by
  simp only [represents.lists_iff, represents.current]
  rcases represents.define sound symbol position with
    ⟨defined, isDefined, inTable, stillRepresents⟩ | ⟨refused, inTable⟩
  · have free : ∀ taken, table.Lists table.current taken → taken.name ≠ symbol.name := by
      intro taken listed sameName
      cases inTable.symm.trans (sound.define_refused position listed sameName)
    obtain ⟨-, added⟩ := sound.define_added position free
    refine ⟨defined, .ok (), isDefined, .inr ⟨free, rfl, fun id other => ?_⟩⟩
    rw [stillRepresents.lists_iff]
    exact added id other
  · refine ⟨arena, _, refused, .inl ⟨?_, rfl, rfl⟩⟩
    by_contra noneTaken
    have free : ∀ taken, table.Lists table.current taken → taken.name ≠ symbol.name :=
      fun taken listed sameName => noneTaken ⟨taken, listed, sameName⟩
    cases inTable.symm.trans (sound.define_added position free).1

/-- **The scopes are sound after any run.** Whatever is entered, left, allocated and defined on
a new arena, with fewer than `2 ^ 29` allocations, no place is out of range and no walk goes
on for ever: there is an arena, and it stands for the table that comes of the same operations.
In it, scope 0 is the global one, at level 1 and without a
parent, and every other scope lies in an earlier one, a level deeper. The current scope is
one of them. Every scope lists the builtin type first and no name twice; its index gives a
place for a name exactly if the symbol there has it, and so a name gets the symbol that is
listed with it. The frame has four bytes for each allocation. A definition is refused exactly
if the current scope lists its name, and then the whole arena is what it was; otherwise the
symbol is added there and nowhere else. A name is looked up along the chain of parents from
the current scope to scope 0: it means the symbol of the first scope that lists it, and
nothing only if none does. -/
theorem sound_after_operations (operations : List ScopeTable.Operation)
    (few : operations.count .allocate < 536870912) :
    let table := operations.foldl ScopeTable.perform ScopeTable.new
    ∃ arena, operations.foldlM perform new = some arena ∧ arena.Represents table ∧
      (∃ scope, arena.scopes[0]? = some scope ∧
        scope.name = "global" ∧ scope.level = 1 ∧ scope.parent = none) ∧
      (∀ id scope, 0 < id → arena.scopes[id]? = some scope →
        ∃ parent around, scope.parent = some parent ∧ parent < id ∧
          arena.scopes[parent]? = some around ∧ scope.level = around.level + 1) ∧
      arena.current < arena.scopes.size ∧
      (∀ scope ∈ arena.scopes, scope.symbols[0]? = some (.builtin "int") ∧
        (scope.symbols.toList.map Symbol.name).Nodup ∧
        (∀ name place, scope.index[name]? = some place ↔
          scope.symbols[place]?.map Symbol.name = some name) ∧
        ∀ name, ∃ found, scope.get name = some found ∧
          ∀ symbol, found = some symbol ↔ symbol ∈ scope.symbols ∧ symbol.name = name) ∧
      arena.frameSize = 4 * operations.count .allocate ∧
      (∀ symbol position, ∃ defined answer,
        arena.define symbol position = some (defined, answer) ∧
        ((∃ taken, arena.Lists arena.current taken ∧ taken.name = symbol.name) ∧
          answer = .error (.redefinition symbol.name position) ∧ defined = arena ∨
        (∀ taken, arena.Lists arena.current taken → taken.name ≠ symbol.name) ∧
          answer = .ok () ∧
          ∀ id other, defined.Lists id other ↔
            arena.Lists id other ∨ id = arena.current ∧ other = symbol)) ∧
      ∃ chain, ScopeTable.Chain arena.views arena.current chain ∧ chain.getLast? = some 0 ∧
        ∀ name, ∃ found, arena.lookup name = .some found ∧ found = table.lookup? name ∧
          (∀ symbol, found = some symbol ↔
            ∃ inner id outer, chain = inner ++ id :: outer ∧
              arena.Lists id symbol ∧ symbol.name = name ∧
              ∀ other ∈ inner, ∀ hidden, arena.Lists other hidden → hidden.name ≠ name) ∧
          (found = none ↔
            ∀ id ∈ chain, ∀ symbol, arena.Lists id symbol → symbol.name ≠ name) := by
  intro table
  have sound : table.Sound := ScopeTable.Sound.new.run operations
  have slots := ScopeTable.slots_run ScopeTable.new operations
  obtain ⟨arena, ran, represents⟩ :=
    Represents.new.run ScopeTable.Sound.new operations (by
      simp only [ScopeTable.new]
      omega)
  change table.slots = _ at slots
  change arena.Represents table at represents
  clear_value table
  obtain ⟨current, isCurrent, inTable, -⟩ := represents.current_stored sound
  refine ⟨arena, ran, represents, ?_, ?_, (Array.getElem?_eq_some_iff.mp isCurrent).1,
    ?_, ?_, ?_, ?_⟩
  · obtain ⟨whole, isWhole, named⟩ := sound.global
    obtain ⟨scope, isScope, rfl, -⟩ := represents.stored isWhole
    exact ⟨scope, isScope, named⟩
  · intro id scope positive isScope
    have found : table.scope? id = some scope.view := by
      rw [represents.scope?, isScope, Option.map_some]
    obtain ⟨parent, whole, isParent, earlier, isWhole, level⟩ := sound.inner positive found
    obtain ⟨around, isAround, rfl, -⟩ := represents.stored isWhole
    exact ⟨parent, around, isParent, earlier, isAround, level⟩
  · intro scope member
    exact represents.listed sound member
  · rw [frameSize, represents.lowest, ScopeTable.offset, slots, ScopeTable.slotWidth]
    simp only [ScopeTable.new]
    omega
  · exact represents.define_cases sound
  · refine ⟨table.current :: table.outer, ?_, sound.chain_last sound.chain, ?_⟩
    · rw [views, represents.scopes, represents.current]
      exact sound.chain
    · intro name
      simp only [represents.lists_iff]
      refine ⟨table.lookup? name, represents.lookup sound name, rfl, ?_, ?_⟩
      · intro symbol
        exact sound.lookup?_eq_some_iff
      · exact sound.lookup?_eq_none_iff

/-- A scope whose marker is hidden, a symbol that is refused, and one exit too many. -/
def crowdedScopes : List ScopeTable.Operation :=
  [.allocate, .define (.slot "if" (-4) "int") ⟨1, 1⟩, .enter "if", .allocate,
    .define (.slot "a" (-8) "int") ⟨2, 1⟩, .define (.slot "a" (-12) "int") ⟨3, 1⟩, .exit, .exit]

/-- The theorem on a run in which a marker is hidden, a definition is refused and the global
scope is to be left. The variable that hides the marker is found, and the one of the scope that
has been left is not. -/
theorem sound_after_operations_crowdedScopes :
    crowdedScopes.count .allocate = 2 ∧
      ∃ arena, crowdedScopes.foldlM perform new = some arena ∧ arena.frameSize = 8 ∧
        arena.lookup "if" = .some (some (.slot "if" (-4) "int")) ∧
        arena.lookup "a" = .some none := by
  have two : crowdedScopes.count .allocate = 2 := by decide
  obtain ⟨arena, ran, -, -, -, -, -, frame, -, chain, -, -, lookups⟩ :=
    sound_after_operations crowdedScopes (by rw [two]; decide)
  obtain ⟨outer, isOuter, outerFound, -⟩ := lookups "if"
  obtain ⟨inner, isInner, innerFound, -⟩ := lookups "a"
  refine ⟨two, arena, ran, by rw [frame, two], ?_, ?_⟩
  · rw [isOuter, outerFound]
    exact congrArg Part.some (by decide)
  · rw [isInner, innerFound]
    exact congrArg Part.some (by decide)

end ScopeArena

end IntMain
