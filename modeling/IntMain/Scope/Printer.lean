import IntMain.Scope.Basic
import IntMain.Text.Layout

/-!
# Scopes as text

Every scope with its level and the scope around it, followed by its symbols.
-/

namespace IntMain

/-- The line of a symbol in the listing: its name in a column of twelve characters and
its kind; for a variable also the offset, at the right of a column of five, and the
type. -/
def Symbol.line (symbol : Symbol) : String :=
  let head := "  " ++ Text.padRight 12 symbol.name ++ " "
  match symbol with
  | .slot _ offset type =>
    head ++ "variable  " ++ Text.padLeft 5 (Text.integer offset) ++ "  " ++ type
  | other => head ++ other.kindName

namespace ScopeTable

/-- The line that heads a scope in the listing. -/
def headline (table : ScopeTable) (id : Nat) (scope : Scope) : String :=
  let place :=
    match table.parentName? id with
    | some parent => ", parent " ++ parent
    | none => ""
  scope.name ++ " (level " ++ Text.decimal scope.level ++ place ++ ")"

/-- The listing of all scopes in the order in which they were entered. -/
def listing (table : ScopeTable) : String :=
  Text.finished (table.scopes.zipIdx.flatMap (fun (scope, id) =>
    table.headline id scope :: scope.symbols.map Symbol.line))

end ScopeTable

end IntMain
