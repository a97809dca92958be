import IntMain.Tree.Walk

/-!
# Parents by number

Nodes hold no link to their parent. The parents of a tree are listed by number instead,
each child once, in increasing order.
-/

namespace IntMain

/-- Set the value of a key in a list of pairs with increasing keys. -/
def putSorted (key value : Nat) : List (Nat × Nat) → List (Nat × Nat)
  | [] => [(key, value)]
  | (first, kept) :: rest =>
    if key < first then (key, value) :: (first, kept) :: rest
    else if key = first then (key, value) :: rest
    else (first, kept) :: putSorted key value rest

namespace Node

/-- Every child with its parent, parents in the reverse of post-order: a node comes before
its descendants, and its last child's descendants before those of the others. -/
def edges (root : Node) : List (Nat × Nat) :=
  root.postorder.reverse.flatMap (fun parent =>
    parent.children.map (fun child => (child.id, parent.id)))

/-- The parent of every node but the root, in increasing order of the child's number. If
nodes share a number, the last of the `edges` counts. -/
def parents (root : Node) : List (Nat × Nat) :=
  root.edges.foldl (fun known edge => putSorted edge.1 edge.2 known) []

end Node

end IntMain
