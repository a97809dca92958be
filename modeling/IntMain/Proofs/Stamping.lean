import IntMain.Proofs.TreeShape
import IntMain.Scope.Resolution

/-!
# Resolution stamps every name

A resolution that has met a fault keeps it. So when one ends without a fault, every step
on the way went well: each use found its variable and each declaration its slot. The
resolved tree then has an address on every name, and otherwise the parts it had.
-/

namespace IntMain

/-- A resolution that ends without a fault started without one and gives a result with
that property. -/
def Succeeds {Result : Type} (resolve : Resolution → Result × Resolution)
    (property : Result → Prop) : Prop :=
  ∀ state, (resolve state).2.fault = none → state.fault = none ∧ property (resolve state).1

namespace Succeeds

variable {Result : Type} {resolve : Resolution → Result × Resolution}
  {property : Result → Prop}

/-- Entering and leaving a scope changes no fault, so a part succeeds in a scope of its own if it
succeeds. -/
theorem within (inner : Succeeds resolve property) (name : String) :
    Succeeds (fun state => state.within name resolve) property := by
  intro state ended
  by_cases failed : state.fault.isSome = true
  · simp only [Resolution.within, if_pos failed] at ended ⊢
    exact inner state ended
  · simp only [Resolution.within, if_neg failed] at ended ⊢
    exact ⟨by simpa using failed, (inner (state.enter name) ended).2⟩

/-- Announcing a scope changes no fault. It adds to the log only. -/
theorem withinBody (inner : Succeeds resolve property) (name : String) :
    Succeeds (fun state => state.withinBody name resolve) property := by
  intro state ended
  by_cases failed : state.fault.isSome = true
  · simp only [Resolution.withinBody, if_pos failed] at ended ⊢
    exact inner.within name state ended
  · simp only [Resolution.withinBody, if_neg failed] at ended ⊢
    exact ⟨by simpa using failed, (inner.within name _ ended).2⟩

end Succeeds

/-- A use that goes well stamps its name. A use that does not leaves a fault, which is excluded at
the end. -/
theorem Resolution.use_succeeds (position : Position) (name : Identifier) :
    Succeeds (fun state => state.use position name) Naming.stamped.used := by
  intro state ended
  by_cases failed : state.fault.isSome = true
  · simp only [Resolution.use, if_pos failed] at ended
    simp [ended] at failed
  · refine ⟨by simpa using failed, ?_⟩
    simp only [Resolution.use, if_neg failed] at ended ⊢
    split at ended
    · rfl
    · simp [Resolution.fail] at ended

/-- A name that gets its slot is stamped. If the builtin type is not found or the name is taken,
there is a fault instead. -/
theorem Resolution.declareName_stamped {state : Resolution} {position : Position}
    {name : Identifier} (ended : (state.declareName position name).2.fault = none) :
    Naming.stamped.declared (state.declareName position name).1 := by
  unfold Resolution.declareName at ended ⊢
  split at ended
  · dsimp only at ended ⊢
    split at ended
    · rfl
    · cases ended
  · cases ended

/-- A declaration that goes well stamps its name, which keeps its mark. -/
theorem Resolution.declare_succeeds (mark : Mark) (name : Identifier) :
    Succeeds (fun state => state.declare (.identifier mark name)) (fun node =>
      ∃ stamped, node = .identifier mark stamped ∧ Naming.stamped.declared stamped) := by
  intro state ended
  by_cases failed : state.fault.isSome = true
  · simp only [Resolution.declare, if_pos failed] at ended
    simp [ended] at failed
  · refine ⟨by simpa using failed, ?_⟩
    simp only [Resolution.declare, if_neg failed] at ended ⊢
    exact ⟨_, rfl, Resolution.declareName_stamped ended⟩

/-- When each of several trees is resolved well, all of them are, and none is lost. That one remains
if there was one is needed for bodies and blocks, which are never empty. -/
theorem Node.resolveAll_succeeds (property : Node → Prop) {nodes : List Node}
    (each : ∀ node ∈ nodes, Succeeds node.resolveFrom property) :
    Succeeds (resolveAll nodes) (fun resolved =>
      (nodes ≠ [] → resolved ≠ []) ∧ ∀ node ∈ resolved, property node) := by
  induction nodes with
  | nil =>
    intro state ended
    simp only [resolveAll] at ended ⊢
    exact ⟨ended, fun nonempty => nonempty, List.forall_mem_nil _⟩
  | cons node later inductionHypothesis =>
    obtain ⟨first, rest⟩ := List.forall_mem_cons.mp each
    intro state ended
    simp only [resolveAll] at ended ⊢
    obtain ⟨middle, -, laterHold⟩ := inductionHypothesis rest _ ended
    obtain ⟨started, holds⟩ := first _ middle
    exact ⟨started, fun _ => List.cons_ne_nil _ _, List.forall_mem_cons.mpr ⟨holds, laterHold⟩⟩

/-- The node that plays a part. -/
def Part.node : Part → Node
  | .expression _ node => node
  | .clause _ node => node
  | .statement node => node
  | .body node => node

/-- The same part played by another node. -/
def Part.playedBy : Part → Node → Part
  | .expression inCondition _, other => .expression inCondition other
  | .clause tag _, other => .clause tag other
  | .statement _, other => .statement other
  | .body _, other => .body other

/-- A well-formed part that is resolved well stays well formed, and all its names are
stamped. -/
theorem Part.WellFormed.resolved {naming : Naming} {part : Part}
    (formed : part.WellFormed naming) :
    Succeeds part.node.resolveFrom (fun node => (part.playedBy node).WellFormed .stamped) := by
  induction formed with
  | integer valued =>
    intro state ended
    simp only [Part.node, Node.resolveFrom] at ended ⊢
    exact ⟨ended, .integer valued⟩
  | @identifier inCondition mark name used =>
    intro state ended
    simp only [Part.node, Node.resolveFrom] at ended ⊢
    obtain ⟨started, stamped⟩ := Resolution.use_succeeds mark.position name state ended
    exact ⟨started, .identifier stamped⟩
  | unary inner inductionHypothesis =>
    intro state ended
    simp only [Part.node, Node.resolveFrom] at ended ⊢
    obtain ⟨started, operand⟩ := inductionHypothesis _ ended
    exact ⟨started, .unary operand⟩
  | binary allowed first second firstResolved secondResolved =>
    intro state ended
    simp only [Part.node, Node.resolveFrom] at ended ⊢
    obtain ⟨middle, right⟩ := secondResolved _ ended
    obtain ⟨started, left⟩ := firstResolved _ middle
    exact ⟨started, .binary allowed left right⟩
  | clause tested guarded conditionResolved bodyResolved =>
    intro state ended
    simp only [Part.node, Node.resolveFrom] at ended ⊢
    obtain ⟨middle, body⟩ := bodyResolved.withinBody _ _ ended
    obtain ⟨started, condition⟩ := conditionResolved _ middle
    exact ⟨started, .clause condition body⟩
  | chain leading following firstResolved laterResolved =>
    intro state ended
    simp only [Part.node, Node.resolveFrom, Node.resolveAll] at ended ⊢
    obtain ⟨middle, -, later⟩ := Node.resolveAll_succeeds
      (fun node => Part.WellFormed .stamped (.clause .later node)) laterResolved _ ended
    obtain ⟨started, first⟩ := firstResolved _ middle
    exact ⟨started, .chain first later⟩
  | chainElse leading following otherwise firstResolved laterResolved bodyResolved =>
    intro state ended
    simp only [Part.node, Node.resolveFrom, Node.resolveAll] at ended ⊢
    obtain ⟨clausesEnded, body⟩ := bodyResolved.withinBody _ _ ended
    obtain ⟨middle, -, later⟩ := Node.resolveAll_succeeds
      (fun node => Part.WellFormed .stamped (.clause .later node)) laterResolved _ clausesEnded
    obtain ⟨started, first⟩ := firstResolved _ middle
    exact ⟨started, .chainElse first later body⟩
  | whileLoop tested repeated conditionResolved bodyResolved =>
    intro state ended
    simp only [Part.node, Node.resolveFrom] at ended ⊢
    obtain ⟨middle, body⟩ := bodyResolved.withinBody _ _ ended
    obtain ⟨started, condition⟩ := conditionResolved _ middle
    exact ⟨started, .whileLoop condition body⟩
  | doWhile repeated tested bodyResolved conditionResolved =>
    intro state ended
    simp only [Part.node, Node.resolveFrom] at ended ⊢
    obtain ⟨middle, condition⟩ := conditionResolved _ ended
    obtain ⟨started, body⟩ := bodyResolved.withinBody _ _ middle
    exact ⟨started, .doWhile body condition⟩
  | compound nonempty all allResolved =>
    intro state ended
    simp only [Part.node, Node.resolveFrom] at ended ⊢
    obtain ⟨started, kept, statements⟩ := Node.resolveAll_succeeds
      (fun node => Part.WellFormed .stamped (.statement node)) allResolved _ ended
    exact ⟨started, .compound (kept nonempty) statements⟩
  | block nonempty all allResolved =>
    intro state ended
    simp only [Part.node, Node.resolveFrom] at ended ⊢
    obtain ⟨started, kept, statements⟩ := (Node.resolveAll_succeeds
      (fun node => Part.WellFormed .stamped (.statement node)) allResolved).within _ _ ended
    exact ⟨started, .block (kept nonempty) statements⟩
  | @declaration mark nameMark name declared =>
    intro state ended
    simp only [Part.node, Node.resolveFrom] at ended ⊢
    obtain ⟨started, stamped, named, holds⟩ := Resolution.declare_succeeds nameMark name _ ended
    refine ⟨started, ?_⟩
    rw [named]
    exact .declaration holds
  | @initialization mark nameMark name value declared computed valueResolved =>
    intro state ended
    simp only [Part.node, Node.resolveFrom] at ended ⊢
    obtain ⟨middle, stamped, named, holds⟩ := Resolution.declare_succeeds nameMark name _ ended
    obtain ⟨started, initial⟩ := valueResolved _ middle
    refine ⟨started, ?_⟩
    rw [named]
    exact .initialization holds initial
  | @assignment mark nameMark name op value used computed valueResolved =>
    intro state ended
    simp only [Part.node, Node.resolveFrom] at ended ⊢
    obtain ⟨middle, assigned⟩ := valueResolved _ ended
    obtain ⟨started, stamped⟩ := Resolution.use_succeeds nameMark.position name _ middle
    exact ⟨started, .assignment stamped assigned⟩
  | returned computed valueResolved =>
    intro state ended
    simp only [Part.node, Node.resolveFrom] at ended ⊢
    obtain ⟨started, value⟩ := valueResolved _ ended
    exact ⟨started, .returned value⟩
  | empty =>
    intro state ended
    simp only [Part.node, Node.resolveFrom] at ended ⊢
    exact ⟨ended, .empty⟩

/-- The tree of a program that parses and resolves is well formed, and every name has an
address. -/
theorem Parsed.stamped {tokens : List Token} {parsed : Parsed}
    (accepted : Parsed.ofTokens tokens = .ok parsed)
    (resolved : parsed.root.resolve.fault = none) :
    Part.WellFormed .stamped (.body parsed.root.resolve.tree) :=
  ((Parsed.wellFormed accepted).resolved Resolution.start resolved).2

end IntMain
