import IntMain.Proofs.NameChanges
import IntMain.Session

/-!
# Resolution on a tree that has stamps

A tree may be resolved more than once: resolution stamps it in place, and the next
resolution meets the stamps of the last one, whether that came to its end or stopped at a
fault. No stamp is read, so trees that differ in stamps only have the same fault, scopes
and log. And every stamp that resolution writes, it writes again: a second resolution
changes nothing at all. What lies behind a fault is stamped neither time. Both facts are
shown of a single errand, and hold of whole trees because these are resolved errand by errand.
-/

namespace IntMain

/-!
## Stamps are not read
-/

namespace Resolution

/-- The use of a name does not depend on its stamp. The name is looked up by its text, and the old
stamp is overwritten or left. -/
theorem use_same (state : Resolution) (position : Position) (name : Identifier) :
    (state.use position name.unstamped).2 = (state.use position name).2 := by
  unfold Resolution.use
  split
  · rfl
  · dsimp only [Identifier.unstamped]
    split <;> rfl

/-- A declaration does not depend on the stamp of its name, nor on stamps in a node that is no
name. -/
theorem declare_same (state : Resolution) (node : Node) :
    (state.declare (node.mapNames .unstamped)).2 = (state.declare node).2 := by
  unfold Resolution.declare
  split
  · rfl
  · cases node with
    | identifier mark name =>
      simp only [Node.mapNames, declareName, Identifier.unstamped]
      split
      · split <;> rfl
      · rfl
    | chain mark clauses otherwise => cases otherwise <;> simp only [Node.mapNames, Node.tag]
    | _ => simp only [Node.mapNames, Node.tag]

end Resolution

/-- What an errand does besides stamping its name does not depend on the name's stamp. This includes
the log and the fault. -/
theorem Errand.run_same (errand : Errand) (walker : Walker) :
    ((errand.mapNames .unstamped).run walker).2 = (errand.run walker).2 := by
  cases errand with
  | opens announced scope => rfl
  | closes => rfl
  | uses mark name => simp only [Errand.mapNames, Errand.run, Resolution.use_same]
  | declares node => simp only [Errand.mapNames, Errand.run, Resolution.declare_same]

/-- Errands that differ in stamps only leave the walker in the same place. -/
theorem runErrands_same (errands : List Errand) (walker : Walker) :
    (runErrands (errands.map (Errand.mapNames .unstamped)) walker).2 =
      (runErrands errands walker).2 := by
  induction errands generalizing walker with
  | nil => rfl
  | cons errand later inductionHypothesis =>
    simp only [List.map_cons, runErrands, errand.run_same, inductionHypothesis]

/-- What resolution does besides stamping a tree does not depend on the tree's stamps. It may start
in any state, also in one that has stopped. -/
theorem Node.resolveFrom_same (node : Node) (state : Resolution) :
    ((node.mapNames .unstamped).resolveFrom state).2 = (node.resolveFrom state).2 := by
  obtain ⟨fill, forms⟩ := node.exists_forms
  rw [forms.resolve_change_eq, forms.resolve_eq, runErrands_same]

/-- Trees that differ in stamps only have the same scopes, fault and log. A fault is not excluded,
so this says more than that both are resolved. -/
theorem Node.resolve_same {root other : Node} (same : other.unstamped = root.unstamped) :
    other.resolve.table = root.resolve.table ∧ other.resolve.fault = root.resolve.fault ∧
      other.resolve.log = root.resolve.log := by
  have states : (other.resolveFrom Resolution.start).2 = (root.resolveFrom Resolution.start).2 := by
    rw [← other.resolveFrom_same, ← root.resolveFrom_same]
    exact congrArg (fun node => (node.resolveFrom Resolution.start).2) same
  simp only [Node.resolve, states, and_self]

/-!
## Stamps are written again
-/

namespace Resolution

/-- A name that is used again has its stamp, and gets the same one. -/
theorem use_again (state : Resolution) (position : Position) (name : Identifier) :
    state.use position (state.use position name).1 = state.use position name := by
  unfold Resolution.use
  by_cases stopped : state.fault.isSome = true
  · simp only [if_pos stopped]
  · simp only [if_neg stopped]
    cases found : state.table.lookup? name.name with
    | none => simp only [found]
    | some symbol => cases symbol <;> simp only [found]

/-- A name that is declared again, in the scopes that there were, has its stamp. In the scopes
behind the declaration it would be refused. -/
theorem declare_again (state : Resolution) (node : Node) :
    state.declare (state.declare node).1 = state.declare node := by
  unfold Resolution.declare
  by_cases stopped : state.fault.isSome = true
  · simp only [if_pos stopped]
  · simp only [if_neg stopped]
    cases node with
    | identifier mark name =>
      simp only [declareName]
      cases state.table.lookup? TypeTag.int.name with
      | none => rfl
      | some symbol =>
        cases symbol with
        | builtin type =>
          dsimp only
          cases defined : state.table.allocate.define
            (.slot name.name state.table.allocate.offset type) mark.position with
          | error fault => simp only [defined]
          | ok table => simp only [defined]
        | slot => rfl
        | nested => rfl
    | _ => rfl

end Resolution

/-- An errand that is taken again, by a walker in the same place, stays as it is. -/
theorem Errand.run_again (errand : Errand) (walker : Walker) :
    (errand.run walker).1.run walker = errand.run walker := by
  cases errand with
  | opens announced scope =>
    have sameErrand : ((Errand.opens announced scope).run walker).1 = .opens announced scope := by
      rw [Errand.run]
      split <;> rfl
    rw [sameErrand]
  | closes =>
    have sameErrand : (Errand.closes.run walker).1 = .closes := by
      rw [Errand.run]
      split <;> rfl
    rw [sameErrand]
  | uses mark name => simp only [Errand.run, Resolution.use_again]
  | declares node => simp only [Errand.run, Resolution.declare_again]

/-- Errands that are run again, by a walker in the same place, stay as they are. Each of them leaves
the walker where it left it the first time. -/
theorem runErrands_again (errands : List Errand) (walker : Walker) :
    runErrands (runErrands errands walker).1 walker = runErrands errands walker := by
  induction errands generalizing walker with
  | nil => rfl
  | cons errand later inductionHypothesis =>
    simp only [runErrands, errand.run_again, inductionHypothesis]

/-- Resolution of a tree that it has stamped, from the same scopes, changes nothing: neither the
tree nor what resolution leaves. -/
theorem Node.resolveFrom_again (node : Node) (state : Resolution) :
    (node.resolveFrom state).1.resolveFrom state = node.resolveFrom state := by
  obtain ⟨fill, forms⟩ := node.exists_forms
  rw [forms.resolve_resolve_eq, forms.resolve_eq, runErrands_again]

/-- A program that is resolved again stays as it is, also if a fault stops the resolution. Names
behind the fault keep the stamps that they have, the second time too. -/
theorem Node.resolve_again (root : Node) : root.resolve.tree.resolve = root.resolve := by
  simp only [Node.resolve, root.resolveFrom_again]

/-- A session that resolves its tree a second time is as it was behind the first time, with the same
diagnostic. -/
theorem Session.run_analyze_again (session : Session) :
    (session.run .analyze).session.run .analyze = session.run .analyze := by
  obtain ⟨text, tokens, tree, scopes, program, assembly⟩ := session
  cases tree with
  | none => rfl
  | some tree =>
    have again := tree.resolve_again
    cases fault : tree.resolve.fault with
    | none => simp [Session.run, Session.execute, Session.reset, Stage.rank, fault, again]
    | some cause =>
      -- The diagnostic quotes a line of the text, which resolution leaves as it is.
      simp [Session.run, Session.execute, Session.reset, Stage.rank, fault, again,
        Session.diagnose, Session.lineText?, Session.lines]

/-- **Resolution ignores old stamps.**

Take two trees that differ in the stamps of their names only, whatever the stamps are. They
have the same fault or none, the same scopes and the same log, and without a fault they
become the same tree. Resolution always begins with a new table, so it does not matter what
was resolved before, or by whom: a tree that has been resolved, with or without a fault,
is not changed by another resolution, nor are its scopes. So a session may resolve its tree
again at any time. -/
theorem resolution_ignores_stamps (root other : Node) (same : other.unstamped = root.unstamped) :
    other.resolve.fault = root.resolve.fault ∧ other.resolve.table = root.resolve.table ∧
      other.resolve.log = root.resolve.log ∧
      (root.resolve.fault = none → other.resolve.tree = root.resolve.tree) ∧
      root.resolve.tree.resolve = root.resolve ∧
      ∀ session : Session, session.tree = some root →
        (session.run .analyze).session.run .analyze = session.run .analyze := by
  obtain ⟨sameTable, sameFault, sameLog⟩ := Node.resolve_same same
  refine ⟨sameFault, sameTable, sameLog, ?_, root.resolve_again, ?_⟩
  · intro resolved
    exact (Node.resolve_congr same resolved).2.2
  · intro session _
    exact session.run_analyze_again

/-- A program that shadows a variable and returns the outer one, with one stamp on all its
names. -/
def shadowedWith (address : Option Int) (type : Option TypeTag) : Node :=
  let name (id : Nat) : Node := .identifier ⟨id, ⟨1, id + 1⟩⟩ ⟨"a", address, type⟩
  .compound ⟨8, ⟨1, 1⟩⟩
    [.declaration ⟨1, ⟨1, 1⟩⟩ (name 0),
     .block ⟨5, ⟨1, 3⟩⟩ [.initialization ⟨4, ⟨1, 3⟩⟩ (name 2) (name 3)],
     .returned ⟨7, ⟨1, 7⟩⟩ (name 6)]

/-- The program above is resolved to the same scopes and the same tree, with stamps on its names or
without. -/
theorem resolution_ignores_stamps_shadowed :
    let root := shadowedWith none none
    let other := shadowedWith (some 12) (some .int)
    other.unstamped = root.unstamped ∧ root.resolve.fault = none ∧
      root.resolve.table.scopes.length = 2 ∧ root.resolve.table.slots = 2 ∧
      other.resolve.table = root.resolve.table ∧ other.resolve.tree = root.resolve.tree := by
  intro root other
  have same : other.unstamped = root.unstamped := rfl
  have resolved : root.resolve.fault = none := by decide +kernel
  obtain ⟨-, table, -, tree, -⟩ := resolution_ignores_stamps root other same
  exact ⟨same, resolved, by decide +kernel, by decide +kernel, table, tree resolved⟩

end IntMain
