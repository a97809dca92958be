import IntMain.Export
import IntMain.Proofs.FrameLayout

/-!
# The exported tree

A tree is exported as the list of its nodes, and what connects them is their numbers. The parents
are found in one walk, which keeps the nodes that wait on a stack, and the list is made in another,
which goes down from each node to its children. Here it is proved that the two belong together for
every tree whose nodes have different numbers: each node is listed with its own parent, and the
numbers alone tell the whole shape of the tree, the order of the children included.

A node is known by the path that leads to it, since equal nodes may stand in several places.
-/

namespace IntMain

/-!
## Tables of parents
-/

/-- A new key is put in, and the others stay. If the key were there, its value would be replaced. -/
theorem putSorted_perm {key value : Nat} {table : List (Nat × Nat)}
    (missing : key ∉ table.map Prod.fst) :
    (putSorted key value table).Perm ((key, value) :: table) := by
  induction table with
  | nil => exact .refl _
  | cons entry rest inductionHypothesis =>
    obtain ⟨first, kept⟩ := entry
    rw [List.map_cons, List.mem_cons, not_or] at missing
    rw [putSorted, if_neg missing.1]
    split
    · exact .refl _
    · exact ((inductionHypothesis missing.2).cons _).trans (.swap _ _ _)

/-- Put several entries into a table. -/
def putAll (table entries : List (Nat × Nat)) : List (Nat × Nat) :=
  entries.foldl (fun known entry => putSorted entry.1 entry.2 known) table

/-- Entries with different keys are all kept. The keys of the table count as well. -/
theorem putAll_perm {table entries : List (Nat × Nat)}
    (distinct : ((table ++ entries).map Prod.fst).Nodup) :
    (putAll table entries).Perm (table ++ entries) := by
  induction entries generalizing table with
  | nil =>
    rw [List.append_nil]
    exact .refl _
  | cons entry later inductionHypothesis =>
    have moved : (table ++ entry :: later).Perm (entry :: table ++ later) := List.perm_middle
    have missing : entry.1 ∉ table.map Prod.fst := by
      have keys := (moved.map Prod.fst).nodup_iff.mp distinct
      rw [List.cons_append, List.map_cons, List.nodup_cons, List.map_append] at keys
      exact fun member => keys.1 (List.mem_append_left _ member)
    have put : (putSorted entry.1 entry.2 table ++ later).Perm (table ++ entry :: later) :=
      ((putSorted_perm missing).append_right later).trans moved.symm
    exact (inductionHypothesis ((put.map Prod.fst).nodup_iff.mpr distinct)).trans put

/-- With different keys, every entry is found. Otherwise only the first of a key would be. -/
theorem lookup_of_mem {table : List (Nat × Nat)} {key value : Nat}
    (distinct : (table.map Prod.fst).Nodup) (member : (key, value) ∈ table) :
    table.lookup key = some value := by
  obtain ⟨before, after, split⟩ := List.append_of_mem member
  refine List.lookup_eq_some_iff.mpr ⟨before, after, split, ?_⟩
  intro entry earlier
  rw [split, List.map_append, List.map_cons, List.nodup_append] at distinct
  have differs := distinct.2.2 entry.1 (List.mem_map_of_mem earlier) key List.mem_cons_self
  exact bne_iff_ne.mpr (Ne.symm differs)

namespace Node

/-!
## The walk with a stack
-/

/-- What a node adds to the table: its children, with itself as their parent. -/
def ownEdges (parent : Node) : List (Nat × Nat) :=
  parent.children.map (fun child => (child.id, parent.id))

/-- The edges of a tree are those of its root and of its children's trees, the last child first. -/
theorem edges_eq (node : Node) :
    node.edges = node.ownEdges ++ node.children.reverse.flatMap edges := by
  rw [edges, postorder_eq, List.reverse_append, List.reverse_singleton, List.singleton_append,
    List.flatMap_cons, List.reverse_flatMap, List.flatMap_assoc]
  rfl

/-- Fill a table with the parents of everything below the nodes on a stack. The node on top is taken
off, its children get their parent, and they go on the stack, the last one on top. -/
def fillParents (known : List (Nat × Nat)) : List Node → List (Nat × Nat)
  | [] => known
  | node :: waiting =>
    fillParents (node.children.foldl (fun known child => putSorted child.id node.id known) known)
      (node.children.reverse ++ waiting)
termination_by stack => (stack.flatMap postorder).length
decreasing_by
  rw [List.flatMap_cons, List.flatMap_append, List.length_append, List.length_append,
    ((List.reverse_perm node.children).flatMap_right postorder).length_eq, postorder_eq node,
    List.length_append, List.length_singleton]
  omega

/-- The stack gives the parents in the order of the edges. This ties the walk with a stack to the
recursion on the tree, for any stack and any table. -/
theorem fillParents_eq (known : List (Nat × Nat)) (stack : List Node) :
    fillParents known stack = putAll known (stack.flatMap edges) := by
  induction known, stack using fillParents.induct with
  | case1 known =>
    rw [fillParents]
    rfl
  | case2 known node waiting inductionHypothesis =>
    rw [fillParents, inductionHypothesis, List.flatMap_cons, edges_eq, List.flatMap_append]
    simp only [putAll, List.foldl_append, ownEdges, List.foldl_map]

/-!
## Edges and nodes
-/

/-- Both walks come to the same nodes, in different orders. -/
theorem postorder_perm (node : Node) : node.postorder.Perm node.nodes := by
  induction node using induction_children with
  | step node each =>
    rw [postorder_eq, nodes_eq]
    apply (List.perm_append_singleton _ _).trans
    exact (List.Perm.flatMap_left _ each).cons _

/-- The children of all nodes are all nodes but the root. They are listed in another order, so this
is stated up to order. -/
theorem children_perm (node : Node) :
    (node.nodes.flatMap children).Perm (node.children.flatMap nodes) := by
  induction node using induction_children with
  | step node each =>
    have split : node.children.flatMap nodes = node.children.flatMap (fun child =>
        [child] ++ child.children.flatMap nodes) :=
      List.flatMap_congr (fun child _ => child.nodes_eq)
    have front : node.children = node.children.flatMap (fun child => [child]) :=
      (List.flatMap_singleton' _).symm
    rw [nodes_eq, List.flatMap_cons, List.flatMap_assoc, split]
    nth_rewrite 1 [front]
    exact ((List.Perm.flatMap_left _ each).append_left _).trans (List.flatMap_append_perm _ _ _)

/-- Every node has the edges to its children, and there are no others. -/
theorem edges_perm (root : Node) : root.edges.Perm (root.nodes.flatMap ownEdges) :=
  ((List.reverse_perm _).trans root.postorder_perm).flatMap_right ownEdges

/-- The edges lead to all nodes but the root, once to each. -/
theorem edges_keys (root : Node) :
    (root.edges.map Prod.fst).Perm (root.nodes.tail.map Node.id) := by
  have keys : (root.nodes.flatMap ownEdges).map Prod.fst =
      (root.nodes.flatMap children).map Node.id := by
    simp only [List.map_flatMap, ownEdges, List.map_map]
    rfl
  have tail : root.nodes.tail = root.children.flatMap nodes := by
    rw [nodes_eq, List.tail_cons]
  rw [tail]
  exact (root.edges_perm.map Prod.fst).trans (keys ▸ root.children_perm.map Node.id)

variable {root : Node}

/-- All edges are kept, if the numbers are different. With the same number twice an edge would be
overwritten. -/
theorem parents_perm (distinct : (root.nodes.map Node.id).Nodup) :
    root.parents.Perm root.edges := by
  have keys : (([] ++ root.edges).map Prod.fst).Nodup :=
    root.edges_keys.nodup_iff.mpr (distinct.sublist ((List.tail_sublist _).map Node.id))
  exact putAll_perm keys

/-- The nodes but the root have parents, and each has one. -/
theorem parents_keys (distinct : (root.nodes.map Node.id).Nodup) :
    (root.parents.map Prod.fst).Perm (root.nodes.tail.map Node.id) :=
  ((parents_perm distinct).map Prod.fst).trans root.edges_keys

/-- The parent of a child is the node whose child it is. The two are known by their numbers, so
these have to be different. -/
theorem lookup_parents (distinct : (root.nodes.map Node.id).Nodup) {parent child : Node}
    (inTree : parent ∈ root.nodes) (isChild : child ∈ parent.children) :
    root.parents.lookup child.id = some parent.id := by
  apply lookup_of_mem
  · exact (parents_keys distinct).nodup_iff.mpr
      (distinct.sublist ((List.tail_sublist _).map Node.id))
  · rw [(parents_perm distinct).mem_iff, root.edges_perm.mem_iff]
    exact List.mem_flatMap.mpr ⟨parent, inTree, List.mem_map_of_mem isChild⟩

/-- The root has no parent, because it is no node's child. -/
theorem lookup_parents_root (distinct : (root.nodes.map Node.id).Nodup) :
    root.parents.lookup root.id = none := by
  have missing : root.id ∉ root.parents.map Prod.fst := by
    rw [(parents_keys distinct).mem_iff]
    rw [nodes_eq, List.map_cons, List.nodup_cons] at distinct
    rw [nodes_eq, List.tail_cons]
    exact distinct.1
  rw [List.lookup_eq_none_iff]
  intro entry member
  exact bne_iff_ne.mpr (fun same => missing (same ▸ List.mem_map_of_mem member))

/-!
## Nodes by their paths
-/

/-- The node that a path of child numbers leads to. -/
def at? : Node → List Nat → Option Node
  | root, [] => some root
  | root, index :: path => root.children[index]?.bind (fun child => child.at? path)

/-- One step more leads to a child of the node that was reached. -/
theorem at?_concat (root : Node) (path : List Nat) (index : Nat) :
    root.at? (path ++ [index]) = (root.at? path).bind (fun parent => parent.children[index]?) := by
  induction path generalizing root with
  | nil => simp [at?]
  | cons first path inductionHypothesis =>
    simp only [List.cons_append, at?, Option.bind_assoc, inductionHypothesis]

/-- A path leads to a node of the tree, if it leads anywhere. -/
theorem mem_nodes_of_at? {root node : Node} {path : List Nat}
    (leads : root.at? path = some node) : node ∈ root.nodes := by
  induction path generalizing root with
  | nil =>
    cases leads
    rw [nodes_eq]
    exact List.mem_cons_self
  | cons index path inductionHypothesis =>
    obtain ⟨child, isChild, below⟩ := Option.bind_eq_some_iff.mp leads
    rw [nodes_eq]
    exact List.mem_cons_of_mem _ (List.mem_flatMap.mpr
      ⟨child, List.mem_of_getElem? isChild, inductionHypothesis below⟩)

/-- The paths of a tree in the order of a walk from the root. -/
def paths (node : Node) : List (List Nat) :=
  [] :: node.children.attach.zipIdx.flatMap
    (fun entry => (paths entry.1.1).map (entry.2 :: ·))
termination_by sizeOf node
decreasing_by exact sizeOf_lt_of_mem_children entry.1.2

/-- A path is empty, or it starts with the number of a child and goes on in that child's tree. -/
theorem paths_eq (node : Node) :
    node.paths = [] :: node.children.zipIdx.flatMap
      (fun entry => entry.1.paths.map (entry.2 :: ·)) := by
  rw [paths]
  conv_rhs => rw [← List.attach_map_subtype_val node.children, List.zipIdx_map, List.flatMap_map]
  rfl

/-- The paths are those that lead to a node, and all of them. -/
theorem mem_paths {node : Node} {path : List Nat} :
    path ∈ node.paths ↔ (node.at? path).isSome = true := by
  induction path generalizing node with
  | nil => simp [paths_eq node, at?]
  | cons index path inductionHypothesis =>
    rw [paths_eq]
    simp only [List.mem_cons, reduceCtorEq, false_or, List.mem_flatMap, List.mem_map,
      List.cons.injEq, List.mem_zipIdx_iff_getElem?, at?]
    constructor
    · rintro ⟨⟨child, _⟩, isChild, _, inside, rfl, rfl⟩
      rw [isChild, Option.bind_some]
      exact inductionHypothesis.mp inside
    · intro leads
      obtain ⟨child, isChild⟩ :=
        Option.isSome_iff_exists.mp (Option.isSome_of_isSome_bind leads)
      rw [isChild, Option.bind_some] at leads
      exact ⟨(child, index), isChild, path, inductionHypothesis.mpr leads, rfl, rfl⟩

/-- The paths come in lexicographic order: a path before those that go on from it, and these by the
number of the child. -/
theorem paths_sorted (node : Node) : node.paths.Pairwise (List.Lex (· < ·)) := by
  induction node using induction_children with
  | step node each =>
    rw [paths_eq, List.pairwise_cons, List.pairwise_flatMap]
    refine ⟨?_, ?_, ?_⟩
    · intro path member
      obtain ⟨entry, -, inside⟩ := List.mem_flatMap.mp member
      obtain ⟨path, -, rfl⟩ := List.mem_map.mp inside
      exact .nil
    · intro entry member
      have isChild := List.mem_of_getElem? (List.mem_zipIdx_iff_getElem?.mp member)
      refine List.pairwise_map.mpr ((each entry.1 isChild).imp ?_)
      intro first second smaller
      exact .cons smaller
    · have increasing : (node.children.zipIdx.map Prod.snd).Pairwise (· < ·) := by
        rw [List.zipIdx_map_snd]
        exact List.pairwise_lt_range'
      refine (List.pairwise_map.mp increasing).imp ?_
      intro first second smaller path inFirst other inSecond
      obtain ⟨path, -, rfl⟩ := List.mem_map.mp inFirst
      obtain ⟨other, -, rfl⟩ := List.mem_map.mp inSecond
      exact .rel smaller

/-- A walk comes to the nodes in the order of their paths, and a node is as deep as its path is
long. -/
theorem preorderAt_paths (node : Node) (depth : Nat) :
    (node.preorderAt depth).map (fun visit => (some visit.1, visit.2)) =
      node.paths.map (fun path => (node.at? path, depth + path.length)) := by
  induction node using induction_children generalizing depth with
  | step node each =>
    have numbered : node.children.flatMap (preorderAt (depth + 1)) =
        node.children.zipIdx.flatMap (fun entry => entry.1.preorderAt (depth + 1)) := by
      nth_rewrite 1 [← List.zipIdx_map_fst 0 node.children]
      rw [List.flatMap_map]
    rw [preorderAt_eq, paths_eq, List.map_cons, List.map_cons, numbered, List.map_flatMap,
      List.map_flatMap]
    congr 1
    refine List.flatMap_congr ?_
    intro entry member
    have isChild := List.mem_zipIdx_iff_getElem?.mp member
    rw [each entry.1 (List.mem_of_getElem? isChild), List.map_map]
    refine List.map_congr_left ?_
    intro path _
    simp only [Function.comp_apply, at?, isChild, Option.bind_some, List.length_cons]
    congr 1
    omega

/-- The node that is one step before the end of a path. -/
def parentAt? (root : Node) (path : List Nat) : Option Node :=
  if path = [] then none else root.at? path.dropLast

/-- What is to be exported at a path: the node there, with its parent and with the length of the
path. -/
def exportedAt? (root : Node) (path : List Nat) : Option ExportedNode :=
  (root.at? path).map (fun node =>
    ⟨node.id, node.tag, node.label, (root.parentAt? path).map Node.id, path.length,
      node.position⟩)

/-- The table of parents agrees with the paths: the parent is the node one step before. For the root
both give nothing. -/
theorem lookup_parents_at (distinct : (root.nodes.map Node.id).Nodup) {path : List Nat}
    {node : Node} (leads : root.at? path = some node) :
    root.parents.lookup node.id = (root.parentAt? path).map Node.id := by
  rw [parentAt?]
  rcases List.eq_nil_or_concat path with rfl | ⟨front, index, rfl⟩
  · cases leads
    exact lookup_parents_root distinct
  · rw [List.concat_eq_append] at leads ⊢
    rw [at?_concat] at leads
    obtain ⟨parent, toParent, isChild⟩ := Option.bind_eq_some_iff.mp leads
    rw [if_neg (List.append_ne_nil_of_right_ne_nil _ (List.cons_ne_nil _ _)),
      List.dropLast_concat, toParent]
    exact lookup_parents distinct (mem_nodes_of_at? toParent) (List.mem_of_getElem? isChild)

/-- The nodes are exported path by path, each with its depth and its parent. The order is that of
the paths. -/
theorem exported_paths (distinct : (root.nodes.map Node.id).Nodup) :
    root.exported.map some = root.paths.map root.exportedAt? := by
  let entry (visit : Option Node × Nat) : Option ExportedNode :=
    visit.1.map (fun node => ⟨node.id, node.tag, node.label, root.parents.lookup node.id, visit.2,
      node.position⟩)
  calc root.exported.map some
      = (root.preorder.map (fun visit => (some visit.1, visit.2))).map entry := by
        rw [exported, List.map_map, List.map_map]
        rfl
    _ = root.paths.map (fun path => entry (root.at? path, 0 + path.length)) := by
        rw [preorder, preorderAt_paths, List.map_map]
        rfl
    _ = root.paths.map root.exportedAt? := by
        refine List.map_congr_left ?_
        intro path member
        obtain ⟨node, leads⟩ := Option.isSome_iff_exists.mp (mem_paths.mp member)
        simp only [entry, exportedAt?, leads, Option.map_some, Nat.zero_add,
          lookup_parents_at distinct leads]

end Node

/-!
## The shape of a tree
-/

/-- An ordered tree of numbers. It is what can be read off the exported numbers and parents
alone. -/
inductive Skeleton
  | node (id : Nat) (children : List Skeleton)

namespace Skeleton

mutual

/-- The numbers of a tree in pre-order, each with its parent. -/
def links (parent : Option Nat) : Skeleton → List (Nat × Option Nat)
  | .node id children => (id, parent) :: linksAll (some id) children

/-- The numbers of several trees that have the same parent. -/
def linksAll (parent : Option Nat) : List Skeleton → List (Nat × Option Nat)
  | [] => []
  | skeleton :: later => skeleton.links parent ++ linksAll parent later

end

/-- The trees are listed one by one, each of them from its root. -/
theorem linksAll_eq (parent : Option Nat) (skeletons : List Skeleton) :
    linksAll parent skeletons = skeletons.flatMap (links parent) := by
  induction skeletons with
  | nil => rw [linksAll, List.flatMap_nil]
  | cons skeleton later inductionHypothesis =>
    rw [linksAll, List.flatMap_cons, inductionHypothesis]

/-- Take one more number in front of the trees that wait for their parent. Those at the front that
wait for this number become its children. -/
def gather (link : Nat × Option Nat) (waiting : List (Option Nat × Skeleton)) :
    List (Option Nat × Skeleton) :=
  let own (entry : Option Nat × Skeleton) : Bool := entry.1 == some link.1
  (link.2, .node link.1 ((waiting.takeWhile own).map Prod.snd)) :: waiting.dropWhile own

/-- The tree whose numbers are listed in pre-order with their parents. The list is read from its
end, so the children of a number are complete when it is reached. -/
def ofLinks? (links : List (Nat × Option Nat)) : Option Skeleton :=
  (links.foldr gather []).head?.map Prod.snd

/-- The first of the trees that wait does not wait for a number of a list. -/
def NotAwaited (links : List (Nat × Option Nat)) (waiting : List (Option Nat × Skeleton)) : Prop :=
  ∀ link ∈ links, waiting.head?.any (·.1 == some link.1) = false

/-- A number gets exactly the trees that wait for it, if these stand at the front. What comes behind
them must not wait for it. -/
theorem gather_children {id : Nat} {parent : Option Nat} {children : List Skeleton}
    {waiting : List (Option Nat × Skeleton)}
    (free : waiting.head?.any (·.1 == some id) = false) :
    gather (id, parent) (children.map (fun child => (some id, child)) ++ waiting) =
      (parent, .node id children) :: waiting := by
  have own : ∀ entry ∈ children.map (fun child => (some id, child)),
      (entry.1 == some id) = true := by
    intro entry member
    obtain ⟨child, -, rfl⟩ := List.mem_map.mp member
    exact beq_self_eq_true _
  have stops : waiting.takeWhile (·.1 == some id) = [] ∧
      waiting.dropWhile (·.1 == some id) = waiting := by
    cases waiting with
    | nil => exact ⟨rfl, rfl⟩
    | cons entry later =>
      rw [List.head?_cons, Option.any_some] at free
      simp [free]
  simp only [gather, List.takeWhile_append_of_pos own, List.dropWhile_append_of_pos own, stops,
    List.append_nil, List.map_map]
  congr 3
  exact List.map_id _

mutual

/-- Reading the numbers of a tree puts this tree in front of what waits. The list is read from its
end, so the children are there before their parent. -/
theorem foldr_gather (parent : Option Nat) (waiting : List (Option Nat × Skeleton)) :
    (skeleton : Skeleton) → ((skeleton.links parent).map Prod.fst).Nodup →
      NotAwaited (skeleton.links parent) waiting →
      (skeleton.links parent).foldr gather waiting = (parent, skeleton) :: waiting
  | .node id children => by
    intro distinct free
    rw [links] at distinct free ⊢
    obtain ⟨idFree, childrenFree⟩ := List.forall_mem_cons.mp free
    rw [List.map_cons, List.nodup_cons] at distinct
    have noParent : ∀ link ∈ linksAll (some id) children, some id ≠ some link.1 := by
      intro link member same
      have isLink : id ∈ (linksAll (some id) children).map Prod.fst :=
        List.mem_map.mpr ⟨link, member, (Option.some.inj same).symm⟩
      exact distinct.1 isLink
    have gathered := foldr_gatherAll (some id) waiting children distinct.2 childrenFree noParent
    rw [List.foldr_cons, gathered]
    exact gather_children idFree

/-- Reading the numbers of several trees with the same parent puts them in front of what waits, in
their order. It is proved together with the lemma on one tree. -/
theorem foldr_gatherAll (parent : Option Nat) (waiting : List (Option Nat × Skeleton)) :
    (skeletons : List Skeleton) → ((linksAll parent skeletons).map Prod.fst).Nodup →
      NotAwaited (linksAll parent skeletons) waiting →
      (∀ link ∈ linksAll parent skeletons, parent ≠ some link.1) →
      (linksAll parent skeletons).foldr gather waiting =
        skeletons.map (fun skeleton => (parent, skeleton)) ++ waiting
  | [] => by
    intro _ _ _
    rw [linksAll, List.foldr_nil, List.map_nil, List.nil_append]
  | skeleton :: later => by
    intro distinct free noParent
    rw [linksAll] at distinct free noParent ⊢
    rw [List.map_append, List.nodup_append] at distinct
    obtain ⟨ownFree, laterFree⟩ := List.forall_mem_append.mp free
    obtain ⟨ownParent, laterParent⟩ := List.forall_mem_append.mp noParent
    -- Behind this tree there is a sibling, which waits for the parent, or what waited before.
    have notAwaited : NotAwaited (skeleton.links parent)
        (later.map (fun skeleton => (parent, skeleton)) ++ waiting) := by
      intro link member
      cases later with
      | nil => exact ownFree link member
      | cons next others => exact beq_false_of_ne (ownParent link member)
    rw [List.foldr_append, foldr_gatherAll parent waiting later distinct.2.1 laterFree laterParent,
      foldr_gather parent _ skeleton distinct.1 notAwaited]
    rfl

end

/-- A tree with different numbers is rebuilt from them. So the list of numbers and parents says all
about its shape. -/
theorem ofLinks?_links {skeleton : Skeleton}
    (distinct : ((skeleton.links none).map Prod.fst).Nodup) :
    ofLinks? (skeleton.links none) = some skeleton := by
  have free : NotAwaited (skeleton.links none) [] := fun _ _ => rfl
  rw [ofLinks?, foldr_gather none [] skeleton distinct free]
  rfl

end Skeleton

/-- The number of an exported node and of its parent. -/
def ExportedNode.link (entry : ExportedNode) : Nat × Option Nat := (entry.id, entry.parent)

namespace Node

/-- The numbers of a tree in its shape. -/
def skeleton (node : Node) : Skeleton :=
  .node node.id (node.children.attach.map (fun child => skeleton child.1))
termination_by sizeOf node
decreasing_by exact sizeOf_lt_of_mem_children child.2

/-- The children keep their order in the shape. -/
theorem skeleton_eq (node : Node) :
    node.skeleton = .node node.id (node.children.map skeleton) := by
  rw [skeleton]
  simp

/-- If parents are looked up in a table that knows them, the links of the shape result. The table
may know others as well. -/
theorem links_skeleton (known : Nat → Option Nat) {node : Node}
    (knows : ∀ parent ∈ node.nodes, ∀ child ∈ parent.children, known child.id = some parent.id) :
    node.nodes.map (fun visited => (visited.id, known visited.id)) =
      node.skeleton.links (known node.id) := by
  induction node using induction_children with
  | step node each =>
    rw [nodes_eq] at knows ⊢
    rw [List.forall_mem_cons] at knows
    obtain ⟨ownKnown, below⟩ := knows
    rw [skeleton_eq, Skeleton.links, Skeleton.linksAll_eq, List.map_cons, List.map_flatMap,
      List.flatMap_map]
    congr 1
    refine List.flatMap_congr ?_
    intro child isChild
    have childKnown : ∀ parent ∈ child.nodes, ∀ other ∈ parent.children,
        known other.id = some parent.id :=
      fun parent inChild => below parent (List.mem_flatMap.mpr ⟨child, isChild, inChild⟩)
    rw [each child isChild childKnown, ownKnown child isChild]

/-- The exported links have the numbers of the nodes, in the order of the walk. -/
theorem exported_links (root : Node) : root.exported.map ExportedNode.link =
    root.nodes.map (fun node => (node.id, root.parents.lookup node.id)) := by
  rw [exported, nodes, List.map_map, List.map_map]
  rfl

/-- The exported links are those of the shape, if the numbers are different. -/
theorem exported_skeleton {root : Node} (distinct : (root.nodes.map Node.id).Nodup) :
    root.exported.map ExportedNode.link = root.skeleton.links none := by
  have knows : ∀ parent ∈ root.nodes, ∀ child ∈ parent.children,
      root.parents.lookup child.id = some parent.id :=
    fun _ inTree _ isChild => lookup_parents distinct inTree isChild
  rw [exported_links, ← lookup_parents_root distinct]
  exact links_skeleton (fun id => root.parents.lookup id) knows

/-- The shape of a tree is rebuilt from its exported links, so an export loses nothing of it. -/
theorem ofLinks?_exported {root : Node} (distinct : (root.nodes.map Node.id).Nodup) :
    Skeleton.ofLinks? (root.exported.map ExportedNode.link) = some root.skeleton := by
  have keys : ((root.skeleton.links none).map Prod.fst).Nodup := by
    rw [← exported_skeleton distinct, exported_links, List.map_map]
    exact distinct
  rw [exported_skeleton distinct, Skeleton.ofLinks?_links keys]

end Node

/-- **The exported tree is the tree.**

For every tree whose nodes have different numbers, the table of parents is what the walk with a
stack fills in. It has one entry for each node but the root, and the parent of a node is the one
that comes before it on its path. The exported list goes through the paths of the tree in
lexicographic order, each path once, and shows the node there with its parent, if it is not the
root, and with its depth. And the numbers in that list with their parents tell the shape of the
tree: it is rebuilt from them, and no tree of another shape is exported with the same ones. -/
theorem export_shows_tree (root : Node) (distinct : (root.nodes.map Node.id).Nodup) :
    root.parents = Node.fillParents [] [root] ∧
    (root.parents.map Prod.fst).Perm (root.nodes.tail.map Node.id) ∧
    (∀ (path : List Nat) (index : Nat) (parent child : Node), root.at? path = some parent →
      parent.children[index]? = some child → root.parents.lookup child.id = some parent.id) ∧
    (∃ paths : List (List Nat), paths.Pairwise (List.Lex (· < ·)) ∧
      (∀ path, path ∈ paths ↔ (root.at? path).isSome = true) ∧
      root.exported.map some = paths.map root.exportedAt?) ∧
    Skeleton.ofLinks? (root.exported.map ExportedNode.link) = some root.skeleton ∧
    ∀ other : Node, other.exported.map ExportedNode.link = root.exported.map ExportedNode.link →
      other.skeleton = root.skeleton := by
  refine ⟨?_, Node.parents_keys distinct, ?_, ?_, Node.ofLinks?_exported distinct, ?_⟩
  · rw [Node.fillParents_eq, List.flatMap_singleton]
    rfl
  · intro path index parent child toParent isChild
    exact Node.lookup_parents distinct (Node.mem_nodes_of_at? toParent)
      (List.mem_of_getElem? isChild)
  · exact ⟨root.paths, root.paths_sorted, fun _ => Node.mem_paths, Node.exported_paths distinct⟩
  · intro other same
    have sameNumbers : other.nodes.map Node.id = root.nodes.map Node.id := by
      have keys := congrArg (List.map Prod.fst) same
      rwa [Node.exported_links, Node.exported_links, List.map_map, List.map_map] at keys
    have otherDistinct : (other.nodes.map Node.id).Nodup := sameNumbers ▸ distinct
    have rebuilt := Node.ofLinks?_exported otherDistinct
    rw [same, Node.ofLinks?_exported distinct] at rebuilt
    exact (Option.some.inj rebuilt).symm

/-- A tree with branches of every width, whose numbers are in no order. -/
def mixedNumbers : Node :=
  .compound ⟨4, ⟨1, 1⟩⟩
    [.chain ⟨9, ⟨2, 1⟩⟩
      [.clause ⟨2, ⟨2, 1⟩⟩ .first
        (.binary ⟨7, ⟨2, 7⟩⟩ .lt (.identifier ⟨0, ⟨2, 5⟩⟩ ⟨"x", none, none⟩)
          (.integer ⟨5, ⟨2, 9⟩⟩ 3 "3"))
        (.compound ⟨8, ⟨2, 12⟩⟩ [.empty ⟨6, ⟨2, 14⟩⟩])]
      (some (.block ⟨1, ⟨3, 6⟩⟩ [])),
    .returned ⟨3, ⟨4, 1⟩⟩ (.identifier ⟨10, ⟨4, 8⟩⟩ ⟨"x", none, none⟩)]

/-- The tree above has eleven different numbers. Its table of parents and its depths are those that
are listed, and its shape is rebuilt from the links. -/
theorem export_shows_tree_mixedNumbers :
    (mixedNumbers.nodes.map Node.id).Nodup ∧
    mixedNumbers.parents =
      [(0, 7), (1, 9), (2, 9), (3, 4), (5, 7), (6, 8), (7, 2), (8, 2), (9, 4), (10, 3)] ∧
    mixedNumbers.exported.map ExportedNode.depth = [0, 1, 2, 3, 4, 4, 3, 4, 2, 1, 2] ∧
    Skeleton.ofLinks? [(4, none), (9, some 4), (2, some 9), (7, some 2), (0, some 7), (5, some 7),
      (8, some 2), (6, some 8), (1, some 9), (3, some 4), (10, some 3)] =
      some (.node 4 [.node 9 [.node 2 [.node 7 [.node 0 [], .node 5 []], .node 8 [.node 6 []]],
        .node 1 []], .node 3 [.node 10 []]]) := by
  have distinct : (mixedNumbers.nodes.map Node.id).Nodup := by decide +kernel
  obtain ⟨-, -, -, -, rebuilt, -⟩ := export_shows_tree mixedNumbers distinct
  have links : mixedNumbers.exported.map ExportedNode.link =
      [(4, none), (9, some 4), (2, some 9), (7, some 2), (0, some 7), (5, some 7), (8, some 2),
        (6, some 8), (1, some 9), (3, some 4), (10, some 3)] := by decide +kernel
  rw [links] at rebuilt
  refine ⟨distinct, by decide +kernel, by decide +kernel, rebuilt.trans ?_⟩
  simp [mixedNumbers, Node.skeleton_eq, Node.children, Node.id, Node.mark]

end IntMain
