import IntMain.Quad.Basic

/-!
# Comparisons and the branches they feed

The machine compares and jumps in two instructions that belong together, while a
quadruple compares into a temporary which a later quadruple tests. Before code is
selected, `Pairing.ofQuads` finds every branch that tests the result of a comparison,
and the comparison that fed it. The branches are then handed to those comparisons in
order.
-/

namespace IntMain

/-- A branch that waits for its comparison. -/
structure Branch where
  label : String
  /-- Whether the branch is taken when the comparison holds. -/
  whenTrue : Bool
  deriving DecidableEq, Repr

/-- The comparisons that feed a branch, by their index in the program, and the branches
they feed, in the order of the program. -/
structure Pairing where
  feeding : List Nat
  branches : List Branch
  deriving DecidableEq, Repr

/-- The family of the instruction that last wrote a temporary, and its index. -/
structure Producer where
  kind : CommandKind
  index : Nat
  deriving DecidableEq, Repr

namespace Quad

/-- The temporary into which an instruction computes a value. -/
def produced? (quad : Quad) : Option String :=
  if quad.producesValue then (quad.target.filter Operand.isTemporary).map Operand.name
  else none

/-- The temporary that a conditional jump tests. -/
def tested? (quad : Quad) : Option String :=
  if quad.kind? = some .conditionalJump then
    (quad.left.filter Operand.isTemporary).map Operand.name
  else none

/-- Whether an instruction is a jump that is taken when its condition holds. -/
def jumpsWhenTrue (quad : Quad) : Bool := quad.command.any Command.jumpsWhenTrue

end Quad

namespace Pairing

/-- The pairing of the quadruples from `index` on, when the temporaries in `producers`
have been written before, the latest first. -/
def collect (index : Nat) (producers : List (String × Producer)) : List Quad → Pairing
  | [] => ⟨[], []⟩
  | quad :: later =>
    let producers :=
      match quad.produced?, quad.kind? with
      | some name, some kind => (name, ⟨kind, index⟩) :: producers
      | _, _ => producers
    let rest := collect (index + 1) producers later
    match quad.tested?.bind (fun name => producers.lookup name), quad.target with
    | some ⟨.relational, comparison⟩, some label =>
      ⟨comparison :: rest.feeding, ⟨label.name, quad.jumpsWhenTrue⟩ :: rest.branches⟩
    | _, _ => rest

/-- The pairing of a program. -/
def ofQuads (quads : List Quad) : Pairing := collect 0 [] quads

end Pairing

end IntMain
