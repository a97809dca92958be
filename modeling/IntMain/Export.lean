import IntMain.Assembly.Line
import IntMain.Diagnostic
import IntMain.Quad.Basic
import IntMain.Scope.Basic
import IntMain.Text.Json
import IntMain.Tree.Parent
import IntMain.Tree.Printer

/-!
# Structured exports

The results of every stage as structured values for other programs: tokens, the tree as
a list of nodes in pre-order with their parents, scopes, quadruples, assembly, and the
report of a failure.
-/

namespace IntMain

open Text (Json)

/-- A position as a value. -/
def Position.json (position : Position) : Json :=
  .record [("line", .natural position.line), ("column", .natural position.column)]

/-- A token as a value. -/
def Token.json (token : Token) : Json :=
  .record [("lexeme", .string token.lexeme), ("coordinates", token.position.json),
    ("kind", .string token.kind.name)]

/-- A token stream as a value. -/
def Token.streamJson (tokens : List Token) : Json := .list (tokens.map Token.json)

/-- A node with its parent and depth. -/
structure ExportedNode where
  id : Nat
  tag : String
  label : String
  parent : Option Nat
  depth : Nat
  position : Position
  deriving DecidableEq, Repr

namespace Node

/-- The nodes of a tree in pre-order, each with its parent and depth. -/
def exported (root : Node) : List ExportedNode :=
  let parents := root.parents
  root.preorder.map (fun (node, depth) =>
    ⟨node.id, node.tag, node.label, parents.lookup node.id, depth, node.position⟩)

end Node

/-- An exported node as a value. -/
def ExportedNode.json (node : ExportedNode) : Json :=
  .record [("id", .natural node.id), ("tag", .string node.tag), ("label", .string node.label),
    ("parent", .optional .natural node.parent), ("depth", .natural node.depth),
    ("at", node.position.json)]

/-- A tree as a value. -/
def Node.json (root : Node) : Json :=
  .record [("root", .natural root.id), ("nodes", .list (root.exported.map ExportedNode.json))]

/-- A symbol as a value. -/
def Symbol.json (symbol : Symbol) : Json :=
  .record [("name", .string symbol.name), ("kind", .string symbol.kindName),
    ("offset", .optional .number symbol.offset?), ("type", .optional .string symbol.typeName?)]

/-- The scopes of a program as a value. -/
def ScopeTable.json (table : ScopeTable) : Json :=
  let scope (scope : Scope) (id : Nat) : Json :=
    .record [("name", .string scope.name), ("level", .natural scope.level),
      ("parent", .optional .string (table.parentName? id)),
      ("symbols", .list (scope.symbols.map Symbol.json))]
  .record [("scopes", .list (table.scopes.zipIdx.map (fun (entry, id) => scope entry id))),
    ("frame_size", .natural table.frameSize)]

/-- A command as a value. -/
def Command.json (command : Command) : Json :=
  .record [("text", .string command.text), ("kind", .string command.kind.name)]

/-- An operand as a value. -/
def Operand.json (operand : Operand) : Json :=
  .record [("kind", .string operand.kind.name), ("name", .string operand.name),
    ("text", .string operand.text)]

/-- A quadruple as a value. -/
def Quad.json (quad : Quad) : Json :=
  .record [("op", .optional Command.json quad.command),
    ("src1", .optional Operand.json quad.left), ("src2", .optional Operand.json quad.right),
    ("dest", .optional Operand.json quad.target)]

/-- An intermediate program as a value. -/
def Program.json (program : Program) : Json :=
  .record [("quads", .list (program.quads.map Quad.json)),
    ("frame_size", .natural program.frameSize)]

/-- An assembly program as a value. -/
def Line.listingJson (lines : List Line) : Json :=
  .record [("assembly", .string (Line.listing lines))]

/-- The report of a failure as a value. -/
def Diagnostic.json (diagnostic : Diagnostic) : Json :=
  .record [("stage", .string diagnostic.stage.key),
    ("category", .string diagnostic.fault.category.name),
    ("message", .string diagnostic.fault.message),
    ("location", .optional Position.json diagnostic.fault.position?),
    ("line_text", .optional .string diagnostic.lineText)]

end IntMain
