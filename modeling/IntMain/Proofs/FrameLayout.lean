import IntMain.Proofs.OperandForms
import Mathlib.Data.List.Perm.Basic
import Mathlib.Data.List.Range

/-!
# The layout of the frame

Three parts of the compiler know the size of the frame. Resolution counts the slots that it
gives out, lowering takes the lowest address stamped on the tree, and the assembler reserves
what lowering says. Here it is proved that they agree, for every program that parses and
resolves: with `d` declarations the frame has `4 * d` bytes, the declarations have the
addresses `-4` to `-4 * d`, and no operand in memory lies outside.

What one event of resolution does to the slots is `Stamps`; everything about addresses
follows from it along the events. The tree and its events hold the same names, in different
orders.
-/

namespace IntMain

/-- The address of a slot. Slots are numbered from one. -/
def slotAddress (number : Nat) : Int := -((ScopeTable.slotWidth * number : Nat) : Int)

/-- Different slots have different addresses, because a slot has a width. So two variables share an
address only if they share a slot. -/
theorem slotAddress_injective : Function.Injective slotAddress := by
  intro first second same
  simp only [slotAddress, ScopeTable.slotWidth] at same
  omega

/-!
## Slots along the events
-/

/-- The name that an event meets. -/
def Event.identifier? : Event → Option Identifier
  | .uses _ name => some name
  | .declares _ name => some name
  | _ => none

/-- The name that an event declares. -/
def Event.declared? : Event → Option Identifier
  | .declares _ name => some name
  | _ => none

/-- What an event is resolved to when some slots are given out, and how many are then. A use gets
one of the slots that are given out, and a declaration takes the next one; which use gets which slot
is left open. -/
inductive Stamps (slots : Nat) : Event → Event → Nat → Prop
  | opens {scope : String} : Stamps slots (.opens scope) (.opens scope) slots
  | closes : Stamps slots .closes .closes slots
  | uses {mark : Mark} {name : Identifier} {type : Option TypeTag} {number : Nat}
      (positive : 0 < number) (given : number ≤ slots) :
      Stamps slots (.uses mark name)
        (.uses mark { name with address := some (slotAddress number), type }) slots
  | declares {mark : Mark} {name : Identifier} {type : Option TypeTag} :
      Stamps slots (.declares mark name)
        (.declares mark { name with address := some (slotAddress (slots + 1)), type }) (slots + 1)

/-- What events in order are resolved to. -/
inductive StampsAll : Nat → List Event → List Event → Nat → Prop
  | nil {slots : Nat} : StampsAll slots [] [] slots
  | cons {slots between after : Nat} {event stamped : Event} {later laterStamped : List Event}
      (first : Stamps slots event stamped between)
      (rest : StampsAll between later laterStamped after) :
      StampsAll slots (event :: later) (stamped :: laterStamped) after

/-- A symbol that is a variable has one of the slots that are given out. -/
def Symbol.Allotted (slots : Nat) : Symbol → Prop
  | .slot _ offset _ => ∃ number, 0 < number ∧ number ≤ slots ∧ offset = slotAddress number
  | _ => True

/-- Slots that are given out stay so while more of them are. Symbols that are no variables have no
slot to keep. -/
theorem Symbol.Allotted.mono {slots more : Nat} {symbol : Symbol} (fewer : slots ≤ more)
    (allotted : symbol.Allotted slots) : symbol.Allotted more := by
  cases symbol with
  | slot name offset type =>
    obtain ⟨number, positive, given, isAddress⟩ := allotted
    exact ⟨number, positive, given.trans fewer, isAddress⟩
  | builtin name => exact trivial
  | nested name scope => exact trivial

/-- Every variable of a table has one of the slots that are given out. -/
def ScopeTable.Allotted (table : ScopeTable) : Prop :=
  ∀ id name symbol, table.symbol? id name = some symbol → symbol.Allotted table.slots

namespace ScopeTable.Allotted

variable {table : ScopeTable}

/-- A new table has no variables, so nothing has to have a slot. -/
theorem new : ScopeTable.new.Allotted := by
  intro id name symbol found
  cases id with
  | zero =>
    have inGlobal : List.find? (fun symbol => symbol.name == name) [Symbol.builtin builtinType] =
      some symbol := found
    rw [List.mem_singleton.mp (List.mem_of_find?_eq_some inGlobal)]
    exact trivial
  | succ id => cases found

/-- A symbol with its slot can be inserted, also if its name is known already and nothing
changes. -/
theorem insert (allotted : table.Allotted) {symbol : Symbol} (own : symbol.Allotted table.slots) :
    (table.insert symbol).Allotted := by
  intro id name other found
  rw [symbol?_insert, Option.or_eq_some_iff] at found
  rcases found with older | ⟨-, new⟩
  · exact allotted id name other older
  · split at new
    · cases new
      exact own
    · cases new

/-- A scope that opens has no variables, and the marker that it leaves in the scope around it is
none. -/
theorem enter (allotted : table.Allotted) (scope : String) : (table.enter scope).Allotted := by
  intro id name symbol found
  rw [symbol?_enter] at found
  split at found
  · split at found
    · cases found
      exact trivial
    · cases found
  · have marker : (Symbol.nested scope table.scopes.length).Allotted table.slots := trivial
    exact allotted.insert marker id name symbol found

/-- Closing a scope changes no symbol. The scope is kept and only left. -/
theorem exit (allotted : table.Allotted) : table.exit.Allotted := by
  unfold ScopeTable.exit
  split
  · exact allotted
  · exact allotted

/-- A name that is found as a variable has its slot, in whichever of the open scopes it is found. -/
theorem lookup? (allotted : table.Allotted) {name : String} {symbol : Symbol}
    (found : table.lookup? name = some symbol) : symbol.Allotted table.slots := by
  obtain ⟨id, -, inScope⟩ := List.exists_of_findSome?_eq_some found
  exact allotted id name symbol inScope

/-- What resolving an event does to the slots, and that every variable keeps one. The table may be
any in which all variables have slots; how it came about does not matter. -/
theorem stamps (allotted : table.Allotted) {event resolved : Event} {next : ScopeTable}
    (resolves : event.resolve table = .ok (resolved, next)) :
    Stamps table.slots event resolved next.slots ∧ next.Allotted := by
  cases event with
  | opens scope =>
    cases resolves
    exact ⟨.opens, allotted.enter scope⟩
  | closes =>
    cases resolves
    have sameSlots : table.exit.slots = table.slots := by
      unfold ScopeTable.exit
      split <;> rfl
    rw [sameSlots]
    exact ⟨.closes, allotted.exit⟩
  | uses mark name =>
    simp only [Event.resolve] at resolves
    split at resolves
    · rename_i owner offset type found
      cases resolves
      obtain ⟨number, positive, given, rfl⟩ := allotted.lookup? found
      exact ⟨.uses positive given, allotted⟩
    · cases resolves
  | declares mark name =>
    simp only [Event.resolve] at resolves
    split at resolves
    · rename_i builtin known
      split at resolves
      · rename_i defined isDefined
        cases resolves
        -- The new slot is counted before the symbol that takes it is inserted.
        have allocated : table.allocate.Allotted := by
          intro id name symbol found
          exact (allotted id name symbol found).mono (Nat.le_succ _)
        unfold ScopeTable.define at isDefined
        split at isDefined
        · cases isDefined
        · cases isDefined
          refine ⟨.declares, allocated.insert ?_⟩
          exact ⟨table.slots + 1, Nat.succ_pos _, Nat.le_refl _, rfl⟩
      · cases resolves
    · cases resolves
  | undeclarable tag => cases resolves

/-- Resolving events in order stamps all of them, if none is refused. The slots at the end are those
of the final table. -/
theorem stampsAll (allotted : table.Allotted) {events : List Event} {final : ScopeTable}
    (resolved : (resolveEvents table events).2 = .ok final) :
    StampsAll table.slots events (resolveEvents table events).1 final.slots := by
  induction events generalizing table with
  | nil =>
    cases resolved
    exact .nil
  | cons event later inductionHypothesis =>
    rw [resolveEvents] at resolved ⊢
    cases resolves : event.resolve table with
    | error fault =>
      rw [resolves] at resolved
      cases resolved
    | ok result =>
      rw [resolves] at resolved
      obtain ⟨first, next⟩ := allotted.stamps resolves
      exact .cons first (inductionHypothesis next resolved)

end ScopeTable.Allotted

namespace StampsAll

variable {slots after : Nat} {events stamped : List Event}

/-- Every declaration takes the next slot, in the order in which declarations are met. So the number
of slots at the end counts the declarations, and no two declarations share one. -/
theorem declared (stamps : StampsAll slots events stamped after) :
    after = slots + (events.filterMap Event.declared?).length ∧
      (stamped.filterMap Event.declared?).map Identifier.address =
        (List.range' (slots + 1) (events.filterMap Event.declared?).length).map
          (fun number => some (slotAddress number)) := by
  induction stamps with
  | nil => exact ⟨rfl, rfl⟩
  | cons first rest inductionHypothesis =>
    obtain ⟨count, addresses⟩ := inductionHypothesis
    cases first with
    | opens => exact ⟨count, addresses⟩
    | closes => exact ⟨count, addresses⟩
    | uses positive given => exact ⟨count, addresses⟩
    | declares =>
      simp only [List.filterMap_cons, Event.declared?, List.length_cons, List.map_cons,
        List.range'_succ]
      constructor
      · omega
      · rw [addresses]

/-- Slots are only ever added. A slot is not given back when its scope closes. -/
theorem slots_le (stamps : StampsAll slots events stamped after) : slots ≤ after := by
  have count := stamps.declared.1
  omega

/-- Every name gets the address of a slot that is given out by the end. A use may get an address
only after the declaration has taken it, but this is not needed here. -/
theorem allotted (stamps : StampsAll slots events stamped after) :
    ∀ event ∈ stamped, ∀ name, event.identifier? = some name →
      ∃ number, 0 < number ∧ number ≤ after ∧ name.address = some (slotAddress number) := by
  induction stamps with
  | nil => exact List.forall_mem_nil _
  | cons first rest inductionHypothesis =>
    refine List.forall_mem_cons.mpr ⟨?_, inductionHypothesis⟩
    have more := rest.slots_le
    intro name isName
    cases first with
    | opens => cases isName
    | closes => cases isName
    | uses positive given =>
      cases isName
      exact ⟨_, positive, given.trans more, rfl⟩
    | declares =>
      cases isName
      exact ⟨_, Nat.succ_pos _, more, rfl⟩

end StampsAll

/-!
## The names of a tree
-/

namespace Node

/-- The nodes of a tree, a node before its children. -/
def nodes (root : Node) : List Node := root.preorder.map Prod.fst

/-- The nodes of a walk do not depend on the depth at which it begins, since the depth is only
written beside them. -/
theorem preorderAt_nodes (node : Node) (depth : Nat) :
    (node.preorderAt depth).map Prod.fst = node.nodes := by
  induction node using induction_children generalizing depth with
  | step node inductionHypothesis =>
    have below (start : Nat) : (node.children.flatMap (preorderAt start)).map Prod.fst =
        node.children.flatMap nodes := by
      rw [List.map_flatMap]
      exact List.flatMap_congr (fun child isChild => inductionHypothesis child isChild start)
    rw [nodes, preorder, preorderAt_eq, preorderAt_eq, List.map_cons, List.map_cons, below, below]

/-- A tree has its root and the nodes of its children, in that order. The proofs below go along this
equation and not along the walk. -/
theorem nodes_eq (node : Node) : node.nodes = node :: node.children.flatMap nodes := by
  rw [nodes, preorder, preorderAt_eq, List.map_cons, List.map_flatMap]
  congr 1
  exact List.flatMap_congr (fun child _ => child.preorderAt_nodes 1)

/-- The name that a statement declares. -/
def declaredName? : Node → Option Identifier
  | .declaration _ (.identifier _ name) => some name
  | .initialization _ (.identifier _ name) _ => some name
  | _ => none

/-- The names that a program declares, one for each declaration. -/
def declaredNames (root : Node) : List Identifier := root.nodes.filterMap declaredName?

/-- The names on the nodes of a tree, declared or used. -/
def identifier? : Node → Option Identifier
  | .identifier _ name => some name
  | _ => none

/-- Whether a node is a name or declares one. -/
def mayHoldName : Node → Bool
  | .identifier _ _ => true
  | .declaration _ _ => true
  | .initialization _ _ _ => true
  | _ => false

end Node

/-- What is picked from the nodes of a tree is what is noted at its events: only names and
declarations count, and each counts once. -/
structure Agree {Found : Type} (pick : Node → Option Found) (note : Event → Option Found) :
    Prop where
  used : ∀ mark name, pick (.identifier mark name) = note (.uses mark name)
  declaration : ∀ mark nameMark name,
    (pick (.declaration mark (.identifier nameMark name))).toList ++
      (pick (.identifier nameMark name)).toList = (note (.declares nameMark name)).toList
  initialization : ∀ mark nameMark name value,
    (pick (.initialization mark (.identifier nameMark name) value)).toList ++
      (pick (.identifier nameMark name)).toList = (note (.declares nameMark name)).toList
  nowhereElse : ∀ node, node.mayHoldName = false → pick node = none
  noScope : (∀ scope, note (.opens scope) = none) ∧ note .closes = none

/-- The declared names of a tree and those of its events agree: a statement that declares a name has
its event, and no other node or event counts. -/
theorem Agree.declared : Agree Node.declaredName? Event.declared? := by
  constructor
  case used => exact fun _ _ => rfl
  case declaration => exact fun _ _ _ => rfl
  case initialization => exact fun _ _ _ _ => rfl
  case nowhereElse =>
    intro node other
    cases node with
    | identifier mark name => cases other
    | declaration mark name => cases other
    | initialization mark name value => cases other
    | _ => rfl
  case noScope => exact ⟨fun _ => rfl, rfl⟩

/-- The names of a tree and those of its events agree: each identifier has one event, as a use or as
a declaration. -/
theorem Agree.named : Agree Node.identifier? Event.identifier? := by
  constructor
  case used => exact fun _ _ => rfl
  case declaration => exact fun _ _ _ => rfl
  case initialization => exact fun _ _ _ _ => rfl
  case nowhereElse =>
    intro node other
    cases node with
    | identifier mark name => cases other
    | declaration mark name => cases other
    | initialization mark name value => cases other
    | _ => rfl
  case noScope => exact ⟨fun _ => rfl, rfl⟩

namespace Agree

variable {Found : Type} {pick : Node → Option Found} {note : Event → Option Found}

/-- A tree has what its root and its children have, whatever is picked from the nodes. -/
theorem picked_eq (pick : Node → Option Found) (node : Node) :
    node.nodes.filterMap pick =
      (pick node).toList ++ node.children.flatMap (fun child => child.nodes.filterMap pick) := by
  rw [node.nodes_eq, ← List.singleton_append, List.filterMap_append, List.filterMap_flatMap]
  congr 1

/-- Where there is no name, a tree has what its children have. Only names and the statements that
declare them are looked at one by one. -/
theorem picked_children (agree : Agree pick note) {node : Node}
    (nameless : node.mayHoldName = false) :
    node.nodes.filterMap pick =
      node.children.flatMap (fun child => child.nodes.filterMap pick) := by
  rw [picked_eq, agree.nowhereElse node nameless, Option.toList_none, List.nil_append]

/-- An identifier has no children, so what is picked from its tree is picked from itself. -/
theorem picked_identifier (pick : Node → Option Found) (mark : Mark) (name : Identifier) :
    (Node.identifier mark name).nodes.filterMap pick =
      (pick (.identifier mark name)).toList := by
  rw [picked_eq]
  exact List.append_nil _

/-- What is noted of a single event is its own note, if it has one. -/
theorem noted_single (note : Event → Option Found) (event : Event) :
    [event].filterMap note = (note event).toList := by
  cases noted : note event <;> simp [noted]

/-- The scope around a part is not noted, so opening and closing it can be left out. -/
theorem noted_scoped (agree : Agree pick note) (scope : String) (inner : List Event) :
    (Node.scopedEvents scope inner).filterMap note = inner.filterMap note := by
  rw [Node.scopedEvents, List.filterMap_cons_none (agree.noScope.1 scope),
    List.filterMap_append, List.filterMap_cons_none agree.noScope.2, List.filterMap_nil,
    List.append_nil]

/-- The events of several trees are noted in order, tree by tree. -/
theorem noted_all (note : Event → Option Found) (nodes : List Node) :
    (Node.eventsAll nodes).filterMap note =
      nodes.flatMap (fun node => node.events.filterMap note) := by
  induction nodes with
  | nil => rfl
  | cons node later inductionHypothesis =>
    rw [Node.eventsAll, List.filterMap_append, inductionHypothesis, List.flatMap_cons]

/-- The tree of a well-formed part holds what is noted at its events, in another order: a value is
met before the name that it initializes. Each is there as often as the other, which is enough to
count declarations and to compare addresses. -/
theorem perm (agree : Agree pick note) {naming : Naming} {part : Part}
    (formed : part.WellFormed naming) :
    (part.node.nodes.filterMap pick).Perm (part.node.events.filterMap note) := by
  induction formed with
  | integer valued =>
    rw [agree.picked_children rfl]
    exact .refl _
  | identifier used =>
    rw [Part.node, picked_identifier, agree.used]
    exact .refl _
  | unary inner operand =>
    rw [agree.picked_children rfl]
    simpa [Part.node, Node.children, Node.events] using operand
  | binary allowed first second left right =>
    rw [agree.picked_children rfl]
    simpa [Part.node, Node.children, Node.events] using left.append right
  | clause tested guarded condition body =>
    rw [agree.picked_children rfl]
    simpa [Part.node, Node.children, Node.events, agree.noted_scoped] using condition.append body
  | @chain mark first later leading following firstPerm laterPerm =>
    have clauses := List.Perm.flatMap_left (first :: later)
      (List.forall_mem_cons.mpr ⟨firstPerm, laterPerm⟩)
    rw [agree.picked_children rfl]
    simpa [Part.node, Node.children, Node.events, noted_all] using clauses
  | @chainElse mark first body later leading following otherwise firstPerm laterPerm bodyPerm =>
    have clauses := List.Perm.flatMap_left (first :: later)
      (List.forall_mem_cons.mpr ⟨firstPerm, laterPerm⟩)
    rw [agree.picked_children rfl]
    simpa [Part.node, Node.children, Node.events, noted_all, agree.noted_scoped] using
      clauses.append bodyPerm
  | whileLoop tested repeated condition body =>
    rw [agree.picked_children rfl]
    simpa [Part.node, Node.children, Node.events, agree.noted_scoped] using condition.append body
  | doWhile repeated tested body condition =>
    rw [agree.picked_children rfl]
    simpa [Part.node, Node.children, Node.events, agree.noted_scoped] using body.append condition
  | @compound mark statements nonempty all each =>
    rw [agree.picked_children rfl]
    simpa [Part.node, Node.children, Node.events, noted_all] using
      List.Perm.flatMap_left statements each
  | @block mark statements nonempty all each =>
    rw [agree.picked_children rfl]
    simpa [Part.node, Node.children, Node.events, noted_all, agree.noted_scoped] using
      List.Perm.flatMap_left statements each
  | @declaration mark nameMark name declared =>
    rw [Part.node, picked_eq, Node.children, List.flatMap_singleton, picked_identifier,
      agree.declaration, Node.events, Node.declaredEvent, noted_single]
  | @initialization mark nameMark name value declared computed valuePerm =>
    -- The tree has the name before the value, and the events have it behind.
    rw [Part.node, picked_eq, Node.children, List.flatMap_cons, List.flatMap_singleton,
      picked_identifier, ← List.append_assoc, agree.initialization, Node.events,
      Node.declaredEvent, List.filterMap_append, noted_single]
    exact List.perm_append_comm.trans (valuePerm.append_right _)
  | assignment used computed valuePerm =>
    rw [agree.picked_children rfl, Part.node, Node.children, List.flatMap_cons,
      List.flatMap_singleton, picked_identifier, agree.used, Node.events, List.filterMap_append,
      Node.events, noted_single]
    exact valuePerm.append_left _
  | returned computed valuePerm =>
    rw [agree.picked_children rfl]
    simpa [Part.node, Node.children, Node.events] using valuePerm
  | empty =>
    rw [agree.picked_children rfl]
    exact .refl _

end Agree

/-!
## The size of the frame
-/

/-- A program without a fault has all its events stamped, starting with no slots. The events of the
resolved tree are the stamped ones. -/
theorem Node.resolve_stampsAll {root : Node} (resolved : root.resolve.fault = none) :
    StampsAll 0 root.events root.resolve.tree.events root.resolve.table.slots := by
  have sameRun := root.resolve_events
  rw [Resolution.outcome, resolved] at sameRun
  have ended : (resolveEvents ScopeTable.new root.events).2 = .ok root.resolve.table :=
    (congrArg Prod.snd sameRun).symm
  have stamps := ScopeTable.Allotted.new.stampsAll ended
  rw [← congrArg Prod.fst sameRun] at stamps
  exact stamps

/-- The lowest of some numbers and a start is any lower bound of both that is one of them. -/
theorem foldl_min_eq {addresses : List Int} {start lowest : Int} (below : lowest ≤ start)
    (bound : ∀ address ∈ addresses, lowest ≤ address)
    (reached : start = lowest ∨ lowest ∈ addresses) : addresses.foldl min start = lowest := by
  induction addresses generalizing start with
  | nil =>
    rcases reached with same | listed
    · exact same
    · cases listed
  | cons first later inductionHypothesis =>
    obtain ⟨belowFirst, belowLater⟩ := List.forall_mem_cons.mp bound
    apply inductionHypothesis (Int.le_min.mpr ⟨below, belowFirst⟩) belowLater
    rcases reached with rfl | listed
    · exact .inl (Int.min_eq_left belowFirst)
    · rcases List.mem_cons.mp listed with rfl | later
      · exact .inl (Int.min_eq_right below)
      · exact .inr later

/-- The frame reaches down to the lowest address on a name of the tree. Names without an address do
not count, and without any address the frame is empty. -/
theorem Node.frameSize_eq (root : Node) :
    root.frameSize = (((root.nodes.filterMap Node.identifier?).filterMap
      Identifier.address).foldl min 0).natAbs := by
  have sameAddress : (fun visit : Node × Nat => visit.1.address?) =
      fun visit => (Node.identifier? visit.1).bind Identifier.address := by
    funext visit
    obtain ⟨node, depth⟩ := visit
    cases node <;> rfl
  rw [Node.frameSize, Node.nodes, List.filterMap_filterMap, List.filterMap_map]
  exact congrArg (fun look => ((root.preorder.filterMap look).foldl min 0).natAbs) sameAddress

section Program

variable {tokens : List Token} {parsed : Parsed}

/-- There is a slot for each declaration, also for those whose scopes have been closed. -/
theorem Parsed.slots_eq (accepted : Parsed.ofTokens tokens = .ok parsed)
    (resolved : parsed.root.resolve.fault = none) :
    parsed.root.resolve.table.slots = parsed.root.declaredNames.length := by
  have sameNames := Agree.declared.perm (Parsed.wellFormed accepted)
  have count := (Node.resolve_stampsAll resolved).declared.1
  rw [Nat.zero_add] at count
  exact count.trans sameNames.length_eq.symm

/-- The declarations have the addresses of the slots, one each. They are compared up to order,
because the tree lists its nodes in another order than resolution meets them. -/
theorem Parsed.declaredAddresses (accepted : Parsed.ofTokens tokens = .ok parsed)
    (resolved : parsed.root.resolve.fault = none) :
    (parsed.root.resolve.tree.declaredNames.map Identifier.address).Perm
      ((List.range' 1 parsed.root.declaredNames.length).map
        (fun number => some (slotAddress number))) := by
  have sameCount : parsed.root.declaredNames.length =
      (parsed.root.events.filterMap Event.declared?).length :=
    (Agree.declared.perm (Parsed.wellFormed accepted)).length_eq
  have sameNames := Agree.declared.perm (Parsed.stamped accepted resolved)
  have addresses := (Node.resolve_stampsAll resolved).declared.2
  rw [Nat.zero_add, ← sameCount] at addresses
  exact (sameNames.map Identifier.address).trans (.of_eq addresses)

/-- Every name of the resolved tree has the address of a slot that belongs to a declaration. -/
theorem Parsed.name_allotted (accepted : Parsed.ofTokens tokens = .ok parsed)
    (resolved : parsed.root.resolve.fault = none) {event : Event}
    (member : event ∈ parsed.root.resolve.tree.events) {name : Identifier}
    (isName : event.identifier? = some name) :
    ∃ number, 0 < number ∧ number ≤ parsed.root.declaredNames.length ∧
      name.address = some (slotAddress number) := by
  rw [← Parsed.slots_eq accepted resolved]
  exact (Node.resolve_stampsAll resolved).allotted event member name isName

/-- Lowering finds the size of the frame: four bytes for each declaration. It looks for the lowest
address on the tree, and the last slot that is given out stands on the tree at its declaration. -/
theorem Parsed.frameSize_eq (accepted : Parsed.ofTokens tokens = .ok parsed)
    (resolved : parsed.root.resolve.fault = none) :
    parsed.root.resolve.tree.frameSize = 4 * parsed.root.declaredNames.length := by
  have sameNames := Agree.named.perm (Parsed.stamped accepted resolved)
  have sameDeclared := Agree.declared.perm (Parsed.stamped accepted resolved)
  have addresses := Parsed.declaredAddresses accepted resolved
  have allotted {event : Event} (member : event ∈ parsed.root.resolve.tree.events)
      {name : Identifier} (isName : event.identifier? = some name) :=
    Parsed.name_allotted accepted resolved member isName
  generalize parsed.root.resolve.tree = tree at sameNames sameDeclared addresses allotted ⊢
  generalize parsed.root.declaredNames.length = count at addresses allotted ⊢
  have lowest : ((tree.nodes.filterMap Node.identifier?).filterMap Identifier.address).foldl min 0 =
      slotAddress count := by
    apply foldl_min_eq
    · simp only [slotAddress]
      omega
    · intro address listed
      obtain ⟨name, inTree, addressed⟩ := List.mem_filterMap.mp listed
      obtain ⟨event, member, isName⟩ := List.mem_filterMap.mp (sameNames.mem_iff.mp inTree)
      obtain ⟨number, -, given, isAddress⟩ := allotted member isName
      obtain rfl : slotAddress number = address := Option.some.inj (isAddress.symm.trans addressed)
      simp only [slotAddress, ScopeTable.slotWidth]
      omega
    · rcases Nat.eq_zero_or_pos count with rfl | positive
      · exact .inl rfl
      · -- The last declaration has the lowest address.
        have last : some (slotAddress count) ∈ tree.declaredNames.map Identifier.address := by
          rw [addresses.mem_iff, List.mem_map]
          exact ⟨count, List.mem_range'_1.mpr ⟨positive, by omega⟩, rfl⟩
        obtain ⟨name, declared, addressed⟩ := List.mem_map.mp last
        obtain ⟨event, member, declares⟩ := List.mem_filterMap.mp (sameDeclared.mem_iff.mp declared)
        have isName : event.identifier? = some name := by
          cases event with
          | declares mark declaredName => exact declares
          | _ => cases declares
        refine .inr (List.mem_filterMap.mpr ⟨name, sameNames.mem_iff.mpr ?_, addressed⟩)
        exact List.mem_filterMap.mpr ⟨event, member, isName⟩
  rw [Node.frameSize_eq, lowest]
  simp only [slotAddress, ScopeTable.slotWidth]
  omega

end Program

/-!
## Operands in the frame
-/

/-- The text of a slot in a frame: its distance from the frame base is a multiple of four,
not zero and not more than the frame has. -/
def InFrame (bytes : Nat) (text : String) : Prop :=
  ∃ below, text = "[ebp-" ++ Text.decimal below ++ "]" ∧ 4 ∣ below ∧ 4 ≤ below ∧ below ≤ bytes

/-- An operand that is in the frame if it is a variable. -/
def Operand.InFrame (bytes : Nat) (operand : Operand) : Prop :=
  operand.kind = .variable → IntMain.InFrame bytes operand.text

/-- A quadruple whose variables are in the frame. -/
def Quad.InFrame (bytes : Nat) (quad : Quad) : Prop :=
  ∀ operand ∈ quad.operandList, operand.InFrame bytes

/-- An event whose name is in the frame. -/
def Event.InFrame (bytes : Nat) (event : Event) : Prop :=
  ∀ name address, event.identifier? = some name → name.address = some address →
    (Operand.stored name.name address).InFrame bytes

/-- A slot that is given out is in the frame. The name of the variable does not matter, since its
place is written by the address alone. -/
theorem Operand.stored_inFrame (name : String) {number slots : Nat} (positive : 0 < number)
    (given : number ≤ slots) : (Operand.stored name (slotAddress number)).InFrame (4 * slots) := by
  intro isVariable
  obtain ⟨earlier, rfl⟩ : ∃ earlier, number = earlier + 1 := ⟨number - 1, by omega⟩
  refine ⟨4 * (earlier + 1), ?_, Nat.dvd_mul_right 4 _, by omega, by omega⟩
  have text : Text.signedInteger (slotAddress (earlier + 1)) =
      "-" ++ Text.decimal (4 * (earlier + 1)) := rfl
  have base : "[ebp" ++ "-" = "[ebp-" := by decide
  rw [Operand.stored, text, ← String.append_assoc, base]

namespace Quad

variable {bytes : Nat} {left right source target : Operand}

/-- A binary operation is in the frame if its operands and its target are. -/
theorem binary_inFrame (op : BinaryOp) (leftInFrame : left.InFrame bytes)
    (rightInFrame : right.InFrame bytes) (targetInFrame : target.InFrame bytes) :
    (Quad.binary op left right target).InFrame bytes :=
  List.forall_mem_cons.mpr ⟨leftInFrame,
    List.forall_mem_cons.mpr ⟨rightInFrame, List.forall_mem_singleton.mpr targetInFrame⟩⟩

/-- A signed operand is in the frame if its operand and its target are. -/
theorem unary_inFrame (op : UnaryOp) (sourceInFrame : source.InFrame bytes)
    (targetInFrame : target.InFrame bytes) : (Quad.unary op source target).InFrame bytes :=
  List.forall_mem_cons.mpr ⟨sourceInFrame, List.forall_mem_singleton.mpr targetInFrame⟩

/-- A copy is in the frame if its source and its target are. -/
theorem copy_inFrame (sourceInFrame : source.InFrame bytes)
    (targetInFrame : target.InFrame bytes) : (Quad.copy source target).InFrame bytes :=
  List.forall_mem_cons.mpr ⟨sourceInFrame, List.forall_mem_singleton.mpr targetInFrame⟩

/-- A jump on a condition is in the frame if its condition is. Its label is no variable, but it is
asked for like the other operands. -/
theorem branch_inFrame {condition label : Operand} (whenTrue : Bool)
    (conditionInFrame : condition.InFrame bytes) (labelInFrame : label.InFrame bytes) :
    (Quad.branch whenTrue condition label).InFrame bytes := by
  cases whenTrue <;>
    exact List.forall_mem_cons.mpr ⟨conditionInFrame, List.forall_mem_singleton.mpr labelInFrame⟩

end Quad

/-- A label is not in memory, so it is in every frame. -/
theorem Operand.label_inFrame (bytes number : Nat) : (Operand.label number).InFrame bytes :=
  OperandKind.noConfusion

/-- A temporary is not in memory, so it is in every frame. -/
theorem Operand.temporary_inFrame (bytes number : Nat) :
    (Operand.temporary number).InFrame bytes :=
  OperandKind.noConfusion

section Lowering

variable {bytes : Nat} {target value : Operand} {code : List Quad}

/-- The code of an expression has the variables of the expression and its target, and no others. Its
value is one of these or a temporary. -/
theorem Computes.inFrame {live : Nat} {node : Node}
    (computed : Computes live node target code value)
    (named : ∀ event ∈ node.events, event.InFrame bytes) (targetInFrame : target.InFrame bytes) :
    (∀ quad ∈ code, quad.InFrame bytes) ∧ value.InFrame bytes := by
  induction computed with
  | integer => exact ⟨List.forall_mem_nil _, OperandKind.noConfusion⟩
  | identifier addressed =>
    constructor
    · exact List.forall_mem_nil _
    · exact named _ List.mem_cons_self _ _ rfl addressed
  | unary inner inductionHypothesis =>
    obtain ⟨operandCode, operand⟩ := inductionHypothesis named (Operand.temporary_inFrame _ _)
    rw [List.forall_mem_append, List.forall_mem_singleton]
    exact ⟨⟨operandCode, Quad.unary_inFrame _ operand targetInFrame⟩, targetInFrame⟩
  | binary first second leftHypothesis rightHypothesis =>
    obtain ⟨leftNamed, rightNamed⟩ := List.forall_mem_append.mp named
    obtain ⟨leftCode, left⟩ := leftHypothesis leftNamed (Operand.temporary_inFrame _ _)
    obtain ⟨rightCode, right⟩ := rightHypothesis rightNamed (Operand.temporary_inFrame _ _)
    rw [List.forall_mem_append, List.forall_mem_append, List.forall_mem_singleton]
    exact ⟨⟨⟨leftCode, rightCode⟩, Quad.binary_inFrame _ left right targetInFrame⟩, targetInFrame⟩

/-- The code of an assignment has the variables of its value and its target, and no others. -/
theorem Stores.inFrame {op : AssignOp} {node : Node} (stored : Stores target op node code)
    (named : ∀ event ∈ node.events, event.InFrame bytes) (targetInFrame : target.InFrame bytes) :
    ∀ quad ∈ code, quad.InFrame bytes := by
  cases stored with
  | copied plain simple =>
    obtain ⟨-, source⟩ := simple.inFrame named targetInFrame
    rw [List.forall_mem_singleton]
    exact Quad.copy_inFrame source targetInFrame
  | computed plain direct nonempty => exact (direct.inFrame named targetInFrame).1
  | combined combining operand =>
    obtain ⟨operandCode, source⟩ := operand.inFrame named (Operand.temporary_inFrame _ _)
    rw [List.forall_mem_append, List.forall_mem_singleton]
    exact ⟨operandCode, Quad.binary_inFrame _ targetInFrame source targetInFrame⟩

end Lowering

/-- What is lowered names variables in the frame only. -/
def Task.InFrame (bytes : Nat) : Task → Prop
  | .statement node => ∀ event ∈ node.events, event.InFrame bytes
  | .statements nodes => ∀ event ∈ Node.eventsAll nodes, event.InFrame bytes
  | .clauses nodes done =>
    (∀ event ∈ Node.eventsAll nodes, event.InFrame bytes) ∧ done.InFrame bytes

/-- What holds of the events with a scope around them holds of the events, since the scope only adds
to them. -/
theorem Node.forall_mem_scopedEvents {scope : String} {inner : List Event} {property : Event → Prop}
    (all : ∀ event ∈ scopedEvents scope inner, property event) :
    ∀ event ∈ inner, property event :=
  (List.forall_mem_append.mp (List.forall_mem_cons.mp all).2).1

/-- The code of a task has the variables that the task names, and no others. The addresses come from
the events of the tree, which is where resolution has put them. -/
theorem Lowers.inFrame {bytes : Nat} {task : Task} {labels after : Nat} {code : List Quad}
    (lowers : Lowers task labels code after) (named : task.InFrame bytes) :
    ∀ quad ∈ code, quad.InFrame bytes := by
  have isLabel := Operand.label_inFrame bytes
  have isTemporary := Operand.temporary_inFrame bytes 1
  -- A label and a jump have one operand, which is their label.
  have labelInFrame (number : Nat) : (Quad.label (.label number)).InFrame bytes :=
    List.forall_mem_singleton.mpr (isLabel number)
  induction lowers with
  | compound inner statements => exact statements named
  | block inner statements => exact statements (Node.forall_mem_scopedEvents named)
  | empty => exact List.forall_mem_nil _
  | declaration => exact List.forall_mem_nil _
  | initialization addressed stored =>
    obtain ⟨valueNamed, nameNamed⟩ := List.forall_mem_append.mp named
    exact stored.inFrame valueNamed (nameNamed _ List.mem_cons_self _ _ rfl addressed)
  | assignment addressed stored =>
    obtain ⟨nameNamed, valueNamed⟩ := List.forall_mem_append.mp named
    exact stored.inFrame valueNamed (nameNamed _ List.mem_cons_self _ _ rfl addressed)
  | returned computed =>
    obtain ⟨valueCode, result⟩ := computed.inFrame named isTemporary
    rw [List.forall_mem_append, List.forall_mem_singleton]
    exact ⟨valueCode, List.forall_mem_singleton.mpr result⟩
  | chain inner clauses =>
    rw [List.forall_mem_append, List.forall_mem_singleton]
    exact ⟨clauses ⟨named, isLabel _⟩, labelInFrame _⟩
  | chainElse inner otherwise clauses body =>
    obtain ⟨clausesNamed, bodyNamed⟩ := List.forall_mem_append.mp named
    rw [List.forall_mem_append, List.forall_mem_append, List.forall_mem_singleton]
    exact ⟨⟨clauses ⟨clausesNamed, isLabel _⟩, body (Node.forall_mem_scopedEvents bodyNamed)⟩,
      labelInFrame _⟩
  | whileLoop tested repeated body =>
    obtain ⟨conditionNamed, bodyNamed⟩ := List.forall_mem_append.mp named
    obtain ⟨test, condition⟩ := tested.inFrame conditionNamed isTemporary
    have bodyCode := body (Node.forall_mem_scopedEvents bodyNamed)
    have leaves (number : Nat) := Quad.branch_inFrame false condition (isLabel number)
    simp only [List.cons_append, List.forall_mem_cons, List.forall_mem_append, List.not_mem_nil,
      false_implies, implies_true, and_true]
    exact ⟨labelInFrame _, ⟨⟨test, leaves _⟩, bodyCode⟩,
      List.forall_mem_singleton.mpr (isLabel _), labelInFrame _⟩
  | doWhile repeated tested body =>
    obtain ⟨bodyNamed, conditionNamed⟩ := List.forall_mem_append.mp named
    obtain ⟨test, condition⟩ := tested.inFrame conditionNamed isTemporary
    have bodyCode := body (Node.forall_mem_scopedEvents bodyNamed)
    have returns (number : Nat) := Quad.branch_inFrame true condition (isLabel number)
    simp only [List.cons_append, List.forall_mem_cons, List.forall_mem_append, List.not_mem_nil,
      false_implies, implies_true, and_true]
    exact ⟨labelInFrame _, ⟨bodyCode, test⟩, returns _⟩
  | nil => exact List.forall_mem_nil _
  | cons first second firstHypothesis secondHypothesis =>
    obtain ⟨firstNamed, laterNamed⟩ := List.forall_mem_append.mp named
    rw [List.forall_mem_append]
    exact ⟨firstHypothesis firstNamed, secondHypothesis laterNamed⟩
  | noClause => exact List.forall_mem_nil _
  | clause tested guarded following body later =>
    obtain ⟨clausesNamed, doneInFrame⟩ := named
    obtain ⟨firstNamed, laterNamed⟩ := List.forall_mem_append.mp clausesNamed
    obtain ⟨conditionNamed, bodyNamed⟩ := List.forall_mem_append.mp firstNamed
    obtain ⟨test, condition⟩ := tested.inFrame conditionNamed isTemporary
    have bodyCode := body (Node.forall_mem_scopedEvents bodyNamed)
    have rest := later ⟨laterNamed, doneInFrame⟩
    have skips (number : Nat) := Quad.branch_inFrame false condition (isLabel number)
    simp only [List.forall_mem_cons, List.forall_mem_append, List.not_mem_nil, false_implies,
      implies_true, and_true]
    exact ⟨⟨⟨⟨test, skips _⟩, bodyCode⟩, List.forall_mem_singleton.mpr doneInFrame, labelInFrame _⟩,
      rest⟩

/-!
## Whole programs
-/

/-- The line that reserves the frame. -/
def frameReservation (bytes : Nat) : Line :=
  .instruction (.arithmetic .sub (.register .esp) (.immediate (Text.decimal bytes)))

/-- A program with a frame reserves it before its code. A program without variables has no such
line. -/
theorem frameReservation_mem_prologue {bytes : Nat} (positive : 0 < bytes) :
    frameReservation bytes ∈ prologue bytes := by
  rw [prologue, if_neg (Nat.pos_iff_ne_zero.mp positive)]
  exact List.mem_append_right _ List.mem_cons_self

/-- The variables of a program that parses and resolves are in its frame, which has four bytes for
each declaration. -/
theorem Parsed.quads_inFrame {tokens : List Token} {parsed : Parsed} {lowered : Lowered}
    (accepted : Parsed.ofTokens tokens = .ok parsed)
    (resolved : parsed.root.resolve.fault = none)
    (isLowered : Lowered.ofTree parsed.root.resolve.tree = .ok lowered) :
    ∀ quad ∈ lowered.program.quads, quad.InFrame (4 * parsed.root.declaredNames.length) := by
  obtain ⟨labels, lowers⟩ := Parsed.lowers accepted resolved isLowered
  apply lowers.inFrame
  intro event member name address isName addressed
  obtain ⟨number, positive, given, isAddress⟩ :=
    Parsed.name_allotted accepted resolved member isName
  obtain rfl : slotAddress number = address := Option.some.inj (isAddress.symm.trans addressed)
  exact Operand.stored_inFrame name.name positive given

/-- The frame of a lowered program is that of its tree, and the code has no part in it. -/
theorem Lowered.frameSize_ofTree {root : Node} {lowered : Lowered}
    (isLowered : Lowered.ofTree root = .ok lowered) :
    lowered.program.frameSize = root.frameSize := by
  obtain ⟨result, -, rest⟩ := bind_eq_ok isLowered
  cases rest
  rfl

/-- For every program that parses and resolves, with `d` declarations: it is lowered, the
frame that lowering finds has the bytes that resolution counted, `4 * d`; its declarations
have the addresses of the slots `1` to `d`, all different; and every variable among the
operands of its quadruples is in the frame. When it assembles, the frame is reserved at the
beginning, and every operand in memory is in it. -/
theorem frame_layout_consistent (tokens : List Token) (parsed : Parsed)
    (accepted : Parsed.ofTokens tokens = .ok parsed)
    (resolved : parsed.root.resolve.fault = none) :
    ∃ lowered, Lowered.ofTree parsed.root.resolve.tree = .ok lowered ∧
      lowered.program.frameSize = parsed.root.resolve.table.frameSize ∧
      lowered.program.frameSize = 4 * parsed.root.declaredNames.length ∧
      (parsed.root.resolve.tree.declaredNames.map Identifier.address).Perm
        ((List.range' 1 parsed.root.declaredNames.length).map
          (fun number => some (slotAddress number))) ∧
      (parsed.root.resolve.tree.declaredNames.map Identifier.address).Nodup ∧
      (∀ quad ∈ lowered.program.quads, ∀ operand ∈ quad.operandList, operand.kind = .variable →
        InFrame lowered.program.frameSize operand.text) ∧
      ∀ lines, (Assembled.ofProgram lowered.program).result = .ok lines →
        ∀ line ∈ lines, ∀ text, .memory text ∈ line.places →
          InFrame lowered.program.frameSize text ∧
          prologue lowered.program.frameSize <+: lines ∧
          frameReservation lowered.program.frameSize ∈ prologue lowered.program.frameSize := by
  obtain ⟨lowered, isLowered⟩ := Parsed.isLowered accepted resolved
  have size : lowered.program.frameSize = 4 * parsed.root.declaredNames.length :=
    (Lowered.frameSize_ofTree isLowered).trans (Parsed.frameSize_eq accepted resolved)
  have counted : parsed.root.resolve.table.frameSize = 4 * parsed.root.declaredNames.length :=
    congrArg (ScopeTable.slotWidth * ·) (Parsed.slots_eq accepted resolved)
  have addresses := Parsed.declaredAddresses accepted resolved
  have inFrame := Parsed.quads_inFrame accepted resolved isLowered
  rw [← size] at inFrame
  refine ⟨lowered, isLowered, size.trans counted.symm, size, addresses, ?_, inFrame, ?_⟩
  · rw [addresses.nodup_iff]
    apply List.Nodup.map _ (List.nodup_range' ..)
    exact fun first second same => slotAddress_injective (Option.some.inj same)
  · intro lines assembled line listed text inMemory
    obtain ⟨steps, final, -, linesOf, sameQuads, emitted⟩ :=
      Parsed.emitted accepted resolved isLowered assembled
    have frame := frameLines_legal lowered.program.frameSize
    have textInFrame : InFrame lowered.program.frameSize text := by
      rcases mem_assembled (linesOf ▸ listed) with ofFrame | ⟨step, isStep, ofStep⟩
      · cases ((frame line ofFrame).2 _ inMemory).1
      · have isQuad : step.quad ∈ lowered.program.quads := by
          rw [← sameQuads]
          exact List.mem_map_of_mem isStep
        rcases ((emitted step isStep).accepts line ofStep).mentions _ inMemory with
          isScratch | supplied
        · cases isScratch
        · cases supplied with
          | memory operand => exact inFrame step.quad isQuad _ operand rfl
    refine ⟨textInFrame, ?_, ?_⟩
    · rw [linesOf, List.append_assoc]
      exact List.prefix_append _ _
    · obtain ⟨below, -, -, positive, within⟩ := textInFrame
      apply frameReservation_mem_prologue
      omega

/-- A program that declares a name again in an inner scope, and variables in scopes that do
not meet. -/
def shadowedSlots : String :=
  "int main() \x7b int a = 1; \x7b int a = 2; int b; b = a; \x7d int c; c = a + 1; " ++
  "if (c > 1) \x7b int d = c; d += a; \x7d return c; \x7d"

/-- The program above has five declarations, one of which shadows another, and a frame of twenty
bytes. The lowest slot is used, and no line reaches beyond it. -/
theorem frame_layout_consistent_shadowedSlots :
    ∃ parsed lowered lines, Parsed.ofTokens (Lexed.ofText shadowedSlots).tokens = .ok parsed ∧
      parsed.root.resolve.fault = none ∧
      Lowered.ofTree parsed.root.resolve.tree = .ok lowered ∧
      (Assembled.ofProgram lowered.program).result = .ok lines ∧
      lowered.program.frameSize = 20 ∧ parsed.root.resolve.table.frameSize = 20 ∧
      (parsed.root.resolve.tree.declaredNames.map Identifier.address).Nodup ∧
      (∃ line ∈ lines, .memory "[ebp-20]" ∈ line.places) ∧
      ∀ line ∈ lines, ∀ text, .memory text ∈ line.places → InFrame 20 text := by
  have evaluated : (Parsed.ofTokens (Lexed.ofText shadowedSlots).tokens).toOption.any
      (fun parsed => parsed.root.resolve.fault.isNone &&
        (Lowered.ofTree parsed.root.resolve.tree).toOption.any (fun lowered =>
          (Assembled.ofProgram lowered.program).result.toOption.any (fun lines =>
            lowered.program.frameSize == 20 &&
              lines.any (fun line => line.places.contains (.memory "[ebp-20]"))))) = true := by
    decide +kernel
  obtain ⟨parsed, accepted, checked⟩ := exists_ok_of_any evaluated
  obtain ⟨resolved, checked⟩ := (Bool.and_eq_true _ _).mp checked
  rw [Option.isNone_iff_eq_none] at resolved
  obtain ⟨other, otherLowered, checked⟩ := exists_ok_of_any checked
  obtain ⟨lines, assembled, checked⟩ := exists_ok_of_any checked
  obtain ⟨size, reached⟩ := (Bool.and_eq_true _ _).mp checked
  rw [beq_iff_eq] at size
  obtain ⟨lowered, isLowered, counted, -, -, distinct, -, inside⟩ :=
    frame_layout_consistent _ parsed accepted resolved
  obtain rfl : other = lowered := Except.ok.inj (otherLowered.symm.trans isLowered)
  obtain ⟨line, listed, lowest⟩ := List.any_eq_true.mp reached
  refine ⟨parsed, other, lines, accepted, resolved, isLowered, assembled, size,
    counted.symm.trans size, distinct, ⟨line, listed, List.contains_iff_mem.mp lowest⟩, ?_⟩
  intro line listed text inMemory
  rw [← size]
  exact (inside lines assembled line listed text inMemory).1

end IntMain
