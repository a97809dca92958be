import IntMain.Scope.Basic
import IntMain.Tree.Basic

/-!
# Name resolution

Resolution walks through a program, enters a scope for every body of a control
statement and every free-standing block, gives each declared variable a slot in the
frame, and stamps every identifier with the address and type of its variable.

It stops at the first fault: what comes later in the walk keeps its annotations, what
came before is stamped, and every scope that was entered is left again. So the result
is always a tree and a table, with a fault beside them when there is one.
-/

namespace IntMain

/-- How far a resolution has come. -/
structure Resolution where
  table : ScopeTable
  log : Array LogRecord
  /-- The first fault; once there is one, nothing changes any more. -/
  fault : Option Fault
  deriving Repr

namespace Resolution

/-- A resolution that has seen nothing. -/
def start : Resolution := ⟨ScopeTable.new, #[], none⟩

/-- The resolution stopped by a fault. -/
def fail (state : Resolution) (fault : Fault) : Resolution :=
  { state with fault := some fault }

/-- Resolve the use of a name: it has to be a variable. -/
def use (state : Resolution) (position : Position) (name : Identifier) :
    Identifier × Resolution :=
  if state.fault.isSome then (name, state)
  else
    match state.table.lookup? name.name with
    | some (.slot _ offset type) =>
      ({ name with address := some offset, type := TypeTag.ofName? type }, state)
    | _ => (name, state.fail (.undeclared name.name position))

/-- Declare a name in the current scope. It takes a slot even if it is already declared
there. -/
def declareName (state : Resolution) (position : Position) (name : Identifier) :
    Identifier × Resolution :=
  match state.table.lookup? TypeTag.int.name with
  | some (.builtin type) =>
    let table := state.table.allocate
    match table.define (.slot name.name table.offset type) position with
    | .ok defined =>
      ({ name with address := some table.offset, type := some .int },
        { state with
          table := defined
          log := state.log.push
            (.debug ("declared " ++ name.name ++ " at " ++ Text.integer table.offset)) })
    | .error fault => (name, { state with table }.fail fault)
  | _ => (name, state.fail (.undeclared TypeTag.int.name position))

/-- Declare what a declaration names, which has to be an identifier. -/
def declare (state : Resolution) (node : Node) : Node × Resolution :=
  if state.fault.isSome then (node, state)
  else
    match node with
    | .identifier mark name =>
      let (name, state) := state.declareName mark.position name
      (.identifier mark name, state)
    | other =>
      (other, state.fail (.unsupported .analyze ("declaration of a " ++ other.tag ++ " node")))

/-- Enter a scope. -/
def enter (state : Resolution) (name : String) : Resolution :=
  { state with
    table := state.table.enter name
    log := state.log ++ state.table.enterLog name }

/-- Leave the current scope. -/
def exit (state : Resolution) : Resolution :=
  { state with table := state.table.exit }

/-- Resolve a part of the program in a scope of its own. -/
def within {α : Type} (state : Resolution) (name : String)
    (inner : Resolution → α × Resolution) : α × Resolution :=
  if state.fault.isSome then inner state
  else
    let (part, after) := inner (state.enter name)
    (part, after.exit)

/-- Resolve the body of a control statement in a scope of its own, which is announced in
the log. -/
def withinBody {α : Type} (state : Resolution) (name : String)
    (inner : Resolution → α × Resolution) : α × Resolution :=
  let announced :=
    if state.fault.isSome then state
    else { state with log := state.log.push (.debug ("entering scope " ++ name)) }
  announced.within name inner

end Resolution

/-- The name of the scope that belongs to a node. -/
def scopeName (kind : String) (mark : Mark) : String :=
  kind ++ "_" ++ Text.decimal mark.id

/-- The kind of scope that a clause's body has. -/
def ClauseTag.scopeKind : ClauseTag → String
  | .first => "if"
  | .later => "elseif"

namespace Node

mutual

/-- Resolve the names of a tree. The condition of a loop or clause lies outside the scope
of its body, and the value of a declaration is resolved before the name is declared. -/
def resolveFrom (node : Node) (state : Resolution) : Node × Resolution :=
  match node with
  | .integer mark value lexeme => (.integer mark value lexeme, state)
  | .identifier mark name =>
    let (name, state) := state.use mark.position name
    (.identifier mark name, state)
  | .unary mark op operand =>
    let (operand, state) := operand.resolveFrom state
    (.unary mark op operand, state)
  | .binary mark op left right =>
    let (left, state) := left.resolveFrom state
    let (right, state) := right.resolveFrom state
    (.binary mark op left right, state)
  | .clause mark tag condition body =>
    let (condition, state) := condition.resolveFrom state
    let (body, state) := state.withinBody (scopeName tag.scopeKind mark) body.resolveFrom
    (.clause mark tag condition body, state)
  | .chain mark clauses none =>
    let (clauses, state) := resolveAll clauses state
    (.chain mark clauses none, state)
  | .chain mark clauses (some body) =>
    let (clauses, state) := resolveAll clauses state
    let (body, state) := state.withinBody (scopeName "else" mark) body.resolveFrom
    (.chain mark clauses (some body), state)
  | .whileLoop mark condition body =>
    let (condition, state) := condition.resolveFrom state
    let (body, state) := state.withinBody (scopeName "while" mark) body.resolveFrom
    (.whileLoop mark condition body, state)
  | .doWhile mark body condition =>
    let (body, state) := state.withinBody (scopeName "dowhile" mark) body.resolveFrom
    let (condition, state) := condition.resolveFrom state
    (.doWhile mark body condition, state)
  | .compound mark statements =>
    let (statements, state) := resolveAll statements state
    (.compound mark statements, state)
  | .block mark statements =>
    let (statements, state) := state.within (scopeName "block" mark) (resolveAll statements)
    (.block mark statements, state)
  | .declaration mark name =>
    let (name, state) := state.declare name
    (.declaration mark name, state)
  | .initialization mark name value =>
    let (value, state) := value.resolveFrom state
    let (name, state) := state.declare name
    (.initialization mark name value, state)
  | .assignment mark target op value =>
    let (target, state) := target.resolveFrom state
    let (value, state) := value.resolveFrom state
    (.assignment mark target op value, state)
  | .returned mark value =>
    let (value, state) := value.resolveFrom state
    (.returned mark value, state)
  | .empty mark => (.empty mark, state)

/-- Resolve the names of several trees in order. -/
def resolveAll (nodes : List Node) (state : Resolution) : List Node × Resolution :=
  match nodes with
  | [] => ([], state)
  | node :: later =>
    let (node, state) := node.resolveFrom state
    let (later, state) := resolveAll later state
    (node :: later, state)

end

end Node

/-- What resolution makes of a program: its tree and its scopes, and the fault that
stopped it, if any. -/
structure Resolved where
  tree : Node
  table : ScopeTable
  log : List LogRecord
  fault : Option Fault
  deriving Repr

/-- Resolve the names of a program. -/
def Node.resolve (root : Node) : Resolved :=
  let (tree, state) := root.resolveFrom Resolution.start
  let summary :=
    if state.fault.isSome then []
    else
      [LogRecord.info ("analysis complete: " ++ Text.decimal state.table.scopes.length ++
        " scopes, " ++ Text.decimal state.table.frameSize ++ " frame bytes")]
  ⟨tree, state.table, state.log.toList ++ summary, state.fault⟩

end IntMain
