import IntMain.Tree.Basic

/-!
# Walking a tree

The nodes of a tree in pre-order, each with its depth, and in post-order. Both
follow `Node.children`; a child is smaller than its parent, so the walks end.
-/

namespace IntMain.Node

/-- A child is smaller than its parent. -/
theorem sizeOf_lt_of_mem_children {node child : Node} (member : child ∈ node.children) :
    sizeOf child < sizeOf node := by
  cases node with
  | integer mark value lexeme => exact absurd member List.not_mem_nil
  | identifier mark occurrence => exact absurd member List.not_mem_nil
  | empty mark => exact absurd member List.not_mem_nil
  | unary mark op operand =>
    obtain rfl := List.mem_singleton.mp member
    simp only [unary.sizeOf_spec]
    omega
  | declaration mark name =>
    obtain rfl := List.mem_singleton.mp member
    simp only [declaration.sizeOf_spec]
    omega
  | returned mark value =>
    obtain rfl := List.mem_singleton.mp member
    simp only [returned.sizeOf_spec]
    omega
  | binary mark op left right =>
    simp only [children, List.mem_cons, List.not_mem_nil, or_false] at member
    simp only [binary.sizeOf_spec]
    rcases member with rfl | rfl <;> omega
  | clause mark tag condition body =>
    simp only [children, List.mem_cons, List.not_mem_nil, or_false] at member
    simp only [clause.sizeOf_spec]
    rcases member with rfl | rfl <;> omega
  | whileLoop mark condition body =>
    simp only [children, List.mem_cons, List.not_mem_nil, or_false] at member
    simp only [whileLoop.sizeOf_spec]
    rcases member with rfl | rfl <;> omega
  | doWhile mark body condition =>
    simp only [children, List.mem_cons, List.not_mem_nil, or_false] at member
    simp only [doWhile.sizeOf_spec]
    rcases member with rfl | rfl <;> omega
  | initialization mark name value =>
    simp only [children, List.mem_cons, List.not_mem_nil, or_false] at member
    simp only [initialization.sizeOf_spec]
    rcases member with rfl | rfl <;> omega
  | assignment mark target op value =>
    simp only [children, List.mem_cons, List.not_mem_nil, or_false] at member
    simp only [assignment.sizeOf_spec]
    rcases member with rfl | rfl <;> omega
  | chain mark clauses otherwise =>
    simp only [children, List.mem_append, Option.mem_toList] at member
    simp only [chain.sizeOf_spec]
    rcases member with inClauses | isElse
    · have smaller := List.sizeOf_lt_of_mem inClauses
      omega
    · subst isElse
      simp only [Option.some.sizeOf_spec]
      omega
  | compound mark statements =>
    have smaller := List.sizeOf_lt_of_mem (show child ∈ statements from member)
    simp only [compound.sizeOf_spec]
    omega
  | block mark statements =>
    have smaller := List.sizeOf_lt_of_mem (show child ∈ statements from member)
    simp only [block.sizeOf_spec]
    omega

/-- The nodes of a tree, a node before its children, each with its depth, which is
`depth` at the root. -/
def preorderAt (depth : Nat) (node : Node) : List (Node × Nat) :=
  (node, depth) :: node.children.attach.flatMap (fun child => preorderAt (depth + 1) child.1)
termination_by sizeOf node
decreasing_by exact sizeOf_lt_of_mem_children child.2

/-- The nodes of a tree in pre-order with their depths. -/
def preorder (root : Node) : List (Node × Nat) := preorderAt 0 root

/-- The nodes of a tree, a node behind its children. -/
def postorder (node : Node) : List Node :=
  node.children.attach.flatMap (fun child => postorder child.1) ++ [node]
termination_by sizeOf node
decreasing_by exact sizeOf_lt_of_mem_children child.2

/-- A walk through a tree visits the root and then walks through each child. -/
theorem preorderAt_eq (depth : Nat) (node : Node) :
    preorderAt depth node = (node, depth) :: node.children.flatMap (preorderAt (depth + 1)) := by
  rw [preorderAt]
  simp

/-- A post-order walk goes through each child and then visits the root. -/
theorem postorder_eq (node : Node) :
    postorder node = node.children.flatMap postorder ++ [node] := by
  rw [postorder]
  simp

end IntMain.Node
