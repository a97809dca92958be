import IntMain.Fault
import IntMain.Log

/-!
# Scopes

A scope holds symbols in the order of their definition, no two with one name. The
scopes of a program form a table in the order in which they were entered; each but
the global one lies in an earlier scope. The table knows the current scope, those
around it, and how many variables have a slot in the frame.
-/

namespace IntMain

/-- What a name can stand for. -/
inductive Symbol
  /-- A type that every scope knows. -/
  | builtin (name : String)
  /-- A variable with its offset from the frame base and the name of its type. -/
  | slot (name : String) (offset : Int) (type : String)
  /-- A scope nested in this one. -/
  | nested (name : String) (scope : Nat)
  deriving DecidableEq, Repr

namespace Symbol

/-- The name of a symbol. -/
def name : Symbol → String
  | .builtin name => name
  | .slot name _ _ => name
  | .nested name _ => name

/-- The offset of a variable. -/
def offset? : Symbol → Option Int
  | .slot _ offset _ => some offset
  | _ => none

/-- The name of a variable's type. -/
def typeName? : Symbol → Option String
  | .slot _ _ type => some type
  | _ => none

/-- What kind of symbol it is. -/
def kindName : Symbol → String
  | .builtin _ => "builtin"
  | .slot _ _ _ => "variable"
  | .nested _ _ => "scope"

end Symbol

/-- The name of the type that every scope knows. -/
def builtinType : String := "int"

/-- A region of the program in which names are declared. -/
structure Scope where
  name : String
  /-- One for the global scope, and one more for each level of nesting. -/
  level : Nat
  /-- The scope around this one. -/
  parent : Option Nat
  symbols : List Symbol
  deriving DecidableEq, Repr

namespace Scope

/-- A scope that knows the builtin type only. -/
def seeded (name : String) (level : Nat) (parent : Option Nat) : Scope :=
  ⟨name, level, parent, [.builtin builtinType]⟩

/-- The symbol with a given name. -/
def get? (scope : Scope) (name : String) : Option Symbol :=
  scope.symbols.find? (fun symbol => symbol.name == name)

/-- The scope with one more symbol; a name that is taken keeps its symbol. -/
def insert (scope : Scope) (symbol : Symbol) : Scope :=
  if (scope.get? symbol.name).isSome then scope
  else { scope with symbols := scope.symbols ++ [symbol] }

end Scope

/-- The scopes of a program. -/
structure ScopeTable where
  /-- All scopes in the order in which they were entered, the global one first. -/
  scopes : List Scope
  /-- The scope in which names are declared now. -/
  current : Nat
  /-- The scopes around the current one, innermost first. -/
  outer : List Nat
  /-- The number of slots given out. -/
  slots : Nat
  deriving DecidableEq, Repr

namespace ScopeTable

/-- The bytes of one slot. -/
def slotWidth : Nat := 4

/-- A table with the global scope only. -/
def new : ScopeTable := ⟨[Scope.seeded "global" 1 none], 0, [], 0⟩

/-- The scope with a given number. -/
def scope? (table : ScopeTable) (id : Nat) : Option Scope := table.scopes[id]?

/-- The symbol that a name stands for in the current scope alone. -/
def lookupLocal? (table : ScopeTable) (name : String) : Option Symbol :=
  (table.scope? table.current).bind (·.get? name)

/-- The symbol that a name stands for: that of the innermost scope that has one. -/
def lookup? (table : ScopeTable) (name : String) : Option Symbol :=
  (table.current :: table.outer).findSome? (fun id =>
    (table.scope? id).bind (·.get? name))

/-- Insert a symbol into the current scope. -/
def insert (table : ScopeTable) (symbol : Symbol) : ScopeTable :=
  { table with scopes := table.scopes.modify table.current (·.insert symbol) }

/-- Define a symbol in the current scope, where its name has to be free. -/
def define (table : ScopeTable) (symbol : Symbol) (position : Position) :
    Except Fault ScopeTable :=
  if (table.lookupLocal? symbol.name).isSome then .error (.redefinition symbol.name position)
  else .ok (table.insert symbol)

/-- Enter a new scope in the current one, which gets a symbol for it if the name is
free there. -/
def enter (table : ScopeTable) (name : String) : ScopeTable :=
  let id := table.scopes.length
  let level := ((table.scope? table.current).map Scope.level).getD 0 + 1
  let marked := table.insert (.nested name id)
  { marked with
    scopes := marked.scopes ++ [Scope.seeded name level (some table.current)]
    current := id
    outer := table.current :: table.outer }

/-- What there is to say about entering a scope: its name may be hidden by a symbol of
the current scope. -/
def enterLog (table : ScopeTable) (name : String) : List LogRecord :=
  if (table.lookupLocal? name).isSome then
    [.debug ("scope marker '" ++ name ++ "' hidden by an existing symbol")]
  else []

/-- Leave the current scope; the global scope is never left. -/
def exit (table : ScopeTable) : ScopeTable :=
  match table.outer with
  | [] => table
  | parent :: outer => { table with current := parent, outer }

/-- The offset of the latest slot from the frame base. -/
def offset (table : ScopeTable) : Int := -((slotWidth * table.slots : Nat) : Int)

/-- Give out the next slot. -/
def allocate (table : ScopeTable) : ScopeTable := { table with slots := table.slots + 1 }

/-- The bytes that all slots take. -/
def frameSize (table : ScopeTable) : Nat := slotWidth * table.slots

/-- The name of the scope around a scope. -/
def parentName? (table : ScopeTable) (id : Nat) : Option String := do
  let scope ← table.scope? id
  let parent ← scope.parent
  return (← table.scope? parent).name

end ScopeTable

end IntMain
