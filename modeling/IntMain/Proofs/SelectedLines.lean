import IntMain.Proofs.DirectTests
import IntMain.Proofs.LineMachine

/-!
# What the lines of one quadruple do

The registers hold the temporaries that matter, and the frame holds the variables. When
that is so before a quadruple and its lines, it is so behind both. The lines of a
quadruple change the register in which the result is computed, the scratch register and
the place of the result; `SameBeside` says that they change nothing else, and that is
what keeps the other temporaries.

A right operand that stands in the register of the result is moved to the scratch register
before the left operand is loaded. In every other case it is read where it stands.
-/

namespace IntMain

/-!
## Places
-/

/-- A place where a value of a quadruple can be. The scratch register is left out: it is used within
the lines of one quadruple and holds nothing between them. -/
inductive Place.Ordinary : Place → Prop
  | immediate {value : Int} : Ordinary (.immediate (Text.integer value))
  | memory {name : String} {address : Int} : Ordinary (.memory (Operand.stored name address).text)
  | register {named : Register} (notScratch : named ≠ .edi) : Ordinary (.register named)

/-- Registers have different names, so comparing texts tells registers apart. -/
theorem Register.name_injective : Function.Injective Register.name := by
  intro first second same
  cases first <;> cases second <;> first | rfl | exact absurd same (by decide)

/-- A place is written like a register only if it is that register.

The text of an immediate value reads as a number and that of a slot as an address, and the
name of a register reads as neither. -/
theorem Place.Ordinary.same_register {place : Place} (ordinary : place.Ordinary)
    (named : Register) : place.same (.register named) = true ↔ place = .register named := by
  rw [Place.same, beq_iff_eq]
  cases ordinary with
  | @immediate value =>
    have noNumber : signedNumeral? 10 named.name.toList = none := by cases named <;> decide
    constructor
    · intro alike
      have number := signedNumeral_integer value
      rw [show Text.integer value = named.name from alike, noNumber] at number
      cases number
    · intro same
      cases same
  | @memory name address =>
    have noAddress : frameAddress? named.name = none := by cases named <;> decide
    constructor
    · intro alike
      have read := frameAddress_stored name address
      rw [show (Operand.stored name address).text = named.name from alike, noAddress] at read
      cases read
    · intro same
      cases same
  | @register other notScratch =>
    rw [Place.register.injEq]
    exact Register.name_injective.eq_iff

/-- No ordinary place is the scratch register, so filling it overwrites no operand. -/
theorem Place.Ordinary.ne_scratch {place : Place} (ordinary : place.Ordinary) :
    place ≠ .register .edi := by
  cases ordinary with
  | immediate => exact Place.noConfusion
  | memory => exact Place.noConfusion
  | register notScratch =>
    intro same
    exact notScratch (Place.register.inj same)

/-- The register of a temporary is the one that its number counts. Numbers start at one. -/
theorem Operand.register_temporary {number : Nat} {named : Register} :
    (Operand.temporary number).register = .ok named ↔
      number ≠ 0 ∧ temporaryRegisters[number - 1]? = some named := by
  have numbered : (Operand.temporary number).temporaryNumber? = some number := by
    obtain ⟨first, later, digits, notPlus, -⟩ := Text.decimal_head number
    have text : (Operand.temporary number).name.toList = 't' :: (Text.decimal number).toList := by
      simp only [Operand.temporary, String.toList_append]
      rfl
    have read : Text.numeral? 10 (first :: later) = some number :=
      digits ▸ Text.numeral_decimal number
    rw [Operand.temporaryNumber?, text, digits]
    simp [notPlus, read]
  rw [Operand.register, numbered, Option.bind_some]
  by_cases zero : number = 0
  · simp [zero]
  · rw [if_neg zero]
    cases temporaryRegisters[number - 1]? <;> simp [zero]

namespace Operand

/-- Temporaries of different numbers have different registers, as far as they have any. -/
theorem register_injective {first second : Nat} {named : Register}
    (firstRegister : (Operand.temporary first).register = .ok named)
    (secondRegister : (Operand.temporary second).register = .ok named) : first = second := by
  obtain ⟨firstPositive, firstAt⟩ := register_temporary.mp firstRegister
  obtain ⟨secondPositive, secondAt⟩ := register_temporary.mp secondRegister
  obtain ⟨bound, -⟩ := List.getElem?_eq_some_iff.mp firstAt
  have distinct : temporaryRegisters.Nodup := by decide
  have same := (List.getElem?_inj bound distinct).mp (firstAt.trans secondAt.symm)
  omega

/-- No temporary is in the scratch register. -/
theorem register_ne_scratch {number : Nat} {named : Register}
    (placed : (Operand.temporary number).register = .ok named) : named ≠ .edi := by
  obtain ⟨-, listed⟩ := register_temporary.mp placed
  have member := List.mem_of_getElem? listed
  rintro rfl
  exact absurd member (by decide)

end Operand

/-- The frame holds the variables, and the registers hold the first `live` temporaries. What other
registers hold does not matter, nor what was last compared. -/
structure Agrees (live : Nat) (state : QuadMachine.State) (store : LineMachine.Store) : Prop where
  memory : store.memory = state.memory
  registers : ∀ number ≤ live, ∀ named, (Operand.temporary number).register = .ok named →
    store.registers named = state.temporaries (Operand.temporary number).name

/-- Without temporaries that matter, the frame is all there is. This is how things stand between
statements. -/
theorem Agrees.of_memory {state : QuadMachine.State} {store : LineMachine.Store}
    (memory : store.memory = state.memory) : Agrees 0 state store := by
  refine ⟨memory, ?_⟩
  intro number bound named placed
  obtain ⟨positive, -⟩ := Operand.register_temporary.mp placed
  omega

/-- A readable operand has an ordinary place, and the place has the operand's value in every store
that agrees. That it has a place is a premise, since there may be too few registers. -/
theorem Operand.Readable.placed {live : Nat} {operand : Operand} {place : Place}
    (readable : operand.Readable live) (placed : operand.place = .ok place) :
    place.Ordinary ∧ ∀ state store, Agrees live state store →
      ∃ value, state.read? operand = some value ∧ store.read? place = some value := by
  cases readable with
  | @literal value =>
    cases placed
    refine ⟨.immediate, ?_⟩
    intro state store _
    exact ⟨value, QuadMachine.State.read_literal state value, signedNumeral_integer value⟩
  | @stored name address =>
    cases placed
    refine ⟨.memory, ?_⟩
    intro state store agrees
    refine ⟨state.memory address, QuadMachine.State.read_stored state name address, ?_⟩
    rw [LineMachine.Store.read?, frameAddress_stored, Option.map_some, agrees.memory]
  | @temporary number positive bound =>
    rw [Operand.place] at placed
    cases register : (Operand.temporary number).register with
    | error fault =>
      rw [register] at placed
      cases placed
    | ok named =>
      rw [register] at placed
      cases placed
      refine ⟨.register (Operand.register_ne_scratch register), ?_⟩
      intro state store agrees
      refine ⟨_, QuadMachine.State.read_temporary state number, ?_⟩
      rw [LineMachine.Store.read?, agrees.registers number bound named register]

/-!
## Loading operands
-/

namespace LineMachine

variable (meaning : Interpretation)

/-- Only that register and the scratch register may have changed, and the operands of the
last comparison. -/
structure SameBeside (named : Register) (before after : Store) : Prop where
  memory : after.memory = before.memory
  registers : ∀ other, other ≠ named → other ≠ .edi →
    after.registers other = before.registers other

namespace Store

/-- The store with a value in a register. -/
def withRegister (store : Store) (named : Register) (value : Int) : Store :=
  { store with registers := Function.update store.registers named value }

/-- The register that is written has the value. -/
theorem withRegister_self (store : Store) (named : Register) (value : Int) :
    (store.withRegister named value).registers named = value := by
  simp only [withRegister, Function.update_self]

/-- The registers that are not written keep their values. -/
theorem withRegister_other {store : Store} {named other : Register} {value : Int}
    (different : other ≠ named) :
    (store.withRegister named value).registers other = store.registers other := by
  simp only [withRegister, Function.update_of_ne different]

/-- Places other than the register that is written are read as before, be they registers, in memory
or immediate. -/
theorem read_withRegister {store : Store} {named : Register} {value : Int} {place : Place}
    (different : place ≠ .register named) :
    (store.withRegister named value).read? place = store.read? place := by
  cases place with
  | register other =>
    have otherRegister : other ≠ named := fun same => different (congrArg Place.register same)
    exact congrArg some (withRegister_other otherRegister)
  | immediate text => rfl
  | memory text => rfl
  | symbol name => rfl

/-- A register has its value, which is always there. -/
theorem read_register (store : Store) (named : Register) :
    store.read? (.register named) = some (store.registers named) := rfl

/-- A line that loads a register puts the value there, and the later lines go on from that. -/
theorem performAll_move {store : Store} {named : Register} {source : Place} {value : Int}
    (read : store.read? source = some value) (later : List Line) :
    store.performAll? meaning (Line.move (.register named) source :: later) =
      (store.withRegister named value).performAll? meaning later := by
  simp [performAll?, Line.move, perform?, read, write?, withRegister]

/-- A line that stores into the slot of a variable changes the memory at its address and nothing
else. -/
theorem performAll_store {store : Store} {name : String} {address value : Int} {source : Place}
    (read : store.read? source = some value) :
    store.performAll? meaning [Line.move (.memory (Operand.stored name address).text) source] =
      some { store with memory := Function.update store.memory address value } := by
  simp [performAll?, Line.move, perform?, read, write?, frameAddress_stored]

/-- A line that computes in a register reads it as the left operand and writes the result there. -/
theorem performAll_arithmetic {store : Store} {op : Arithmetic} {named : Register} {right : Place}
    {second : Int} (read : store.read? right = some second) :
    store.performAll? meaning [.instruction (.arithmetic op (.register named) right)] =
      some (store.withRegister named
        (meaning.arithmetic op (store.registers named) second)) := by
  simp [performAll?, perform?, read_register, read, write?, withRegister]

/-- A line that changes the sign in a register changes nothing else. -/
theorem performAll_negate (store : Store) (named : Register) :
    store.performAll? meaning [.instruction (.negate (.register named))] =
      some (store.withRegister named (meaning.negate (store.registers named))) := by
  simp [performAll?, perform?, read_register, write?, withRegister]

/-- A line that compares keeps the two values for the jump that follows. -/
theorem performAll_compare {store : Store} {left right : Place} {first second : Int}
    (leftRead : store.read? left = some first) (rightRead : store.read? right = some second) :
    store.performAll? meaning [.instruction (.compare left right)] =
      some { store with compared := (first, second) } := by
  simp [performAll?, perform?, leftRead, rightRead]

/-- A note is no instruction, so the store stays as it is. -/
theorem performAll_note (store : Store) (op : Arithmetic) (register : Place) :
    store.performAll? meaning (Quad.accumulatorNote op register) = some store := by
  unfold Quad.accumulatorNote
  split <;> rfl

end Store

namespace SameBeside

/-- If nothing has changed, nothing has changed beside the register. -/
theorem refl (named : Register) (store : Store) : SameBeside named store store :=
  ⟨rfl, fun _ _ _ => rfl⟩

/-- One change after another, both in the same register or the scratch register, is such a
change. -/
theorem trans {named : Register} {first second third : Store}
    (before : SameBeside named first second) (after : SameBeside named second third) :
    SameBeside named first third := by
  refine ⟨after.memory.trans before.memory, ?_⟩
  intro other different notScratch
  exact (after.registers other different notScratch).trans
    (before.registers other different notScratch)

/-- Writing the register is a change of this kind. -/
theorem withRegister (named : Register) (store : Store) (value : Int) :
    SameBeside named store (store.withRegister named value) :=
  ⟨rfl, fun _ different _ => Store.withRegister_other different⟩

/-- Writing the scratch register is a change of this kind, whichever the other register is. -/
theorem withScratch (named : Register) (store : Store) (value : Int) :
    SameBeside named store (store.withRegister .edi value) :=
  ⟨rfl, fun _ _ notScratch => Store.withRegister_other notScratch⟩

end SameBeside

/-- Loading an operand brings its value to the workplace and changes nothing else. If it is there
already there is no line, and then the store is the same. -/
theorem load_performed {store : Store} {source : Place} {value : Int} (named : Register)
    (slot : Option Place) (ordinary : source.Ordinary) (read : store.read? source = some value) :
    ∃ loaded, store.performAll? meaning ((⟨.register named, slot⟩ : Workplace).load source) =
        some loaded ∧ loaded.registers named = value ∧ SameBeside named store loaded ∧
      ∀ place, place ≠ .register named → loaded.read? place = store.read? place := by
  by_cases there : source = .register named
  · have kept : (⟨.register named, slot⟩ : Workplace).load source = [] :=
      if_pos ((ordinary.same_register named).mpr there)
    rw [there] at read
    rw [kept]
    exact ⟨store, rfl, Option.some.inj read, .refl named store, fun _ _ => rfl⟩
  · have moved : (⟨.register named, slot⟩ : Workplace).load source =
        [.move (.register named) source] :=
      if_neg (fun same => there ((ordinary.same_register named).mp same))
    rw [moved, Store.performAll_move meaning read]
    exact ⟨_, rfl, store.withRegister_self named value, .withRegister named store value,
      fun _ different => Store.read_withRegister different⟩

/-- A right operand in the way of the left one is moved to the scratch register first. It is in the
way if it is in the register to which the left one is loaded. -/
theorem loadPair_overwritten {named : Register} {slot : Option Place} {left right : Place}
    (leftOrdinary : left.Ordinary) (rightOrdinary : right.Ordinary)
    (rightThere : right = .register named) (leftElsewhere : left ≠ .register named) :
    (⟨.register named, slot⟩ : Workplace).loadPair left right =
      ([.move scratch right, .move (.register named) left], scratch) := by
  have rightSame := (rightOrdinary.same_register named).mpr rightThere
  have leftOther : left.same (.register named) = false := by
    rw [Bool.eq_false_iff, ne_eq, leftOrdinary.same_register]
    exact leftElsewhere
  simp [Workplace.loadPair, Workplace.load, rightSame, leftOther]

/-- A right operand that is not in the way stays. This includes the case that both operands are in
the same register. -/
theorem loadPair_kept {named : Register} {slot : Option Place} {left right : Place}
    (leftOrdinary : left.Ordinary) (rightOrdinary : right.Ordinary)
    (kept : right ≠ .register named ∨ left = .register named) :
    (⟨.register named, slot⟩ : Workplace).loadPair left right =
      ((⟨.register named, slot⟩ : Workplace).load left, right) := by
  rcases kept with rightElsewhere | leftThere
  · have rightOther : right.same (.register named) = false := by
      rw [Bool.eq_false_iff, ne_eq, rightOrdinary.same_register]
      exact rightElsewhere
    simp [Workplace.loadPair, rightOther]
  · have leftSame := (leftOrdinary.same_register named).mpr leftThere
    simp [Workplace.loadPair, leftSame]

/-- Loading two operands brings the left value to the workplace and leaves the right one
where the result says. -/
theorem loadPair_performed {store : Store} {left right : Place} {first second : Int}
    (named : Register) (slot : Option Place) (leftOrdinary : left.Ordinary)
    (rightOrdinary : right.Ordinary) (leftRead : store.read? left = some first)
    (rightRead : store.read? right = some second) :
    ∃ loaded, store.performAll? meaning
        ((⟨.register named, slot⟩ : Workplace).loadPair left right).1 = some loaded ∧
      loaded.registers named = first ∧
      loaded.read? ((⟨.register named, slot⟩ : Workplace).loadPair left right).2 = some second ∧
      SameBeside named store loaded := by
  by_cases overwritten : right = .register named ∧ left ≠ .register named
  · obtain ⟨rightThere, leftElsewhere⟩ := overwritten
    have notScratch : Register.edi ≠ named := by
      rintro rfl
      exact rightOrdinary.ne_scratch rightThere
    have leftKept : (store.withRegister .edi second).read? left = some first :=
      (Store.read_withRegister leftOrdinary.ne_scratch).trans leftRead
    rw [loadPair_overwritten leftOrdinary rightOrdinary rightThere leftElsewhere, scratch,
      Store.performAll_move meaning rightRead, Store.performAll_move meaning leftKept]
    refine ⟨_, rfl, Store.withRegister_self _ _ _, ?_, ?_⟩
    · rw [Store.read?, Store.withRegister_other notScratch, Store.withRegister_self]
    · exact (SameBeside.withScratch named store second).trans (.withRegister named _ first)
  · obtain ⟨loaded, performed, held, same, others⟩ :=
      load_performed meaning named slot leftOrdinary leftRead
    by_cases rightThere : right = .register named
    · have leftThere : left = .register named := by
        by_contra leftElsewhere
        exact overwritten ⟨rightThere, leftElsewhere⟩
      rw [loadPair_kept leftOrdinary rightOrdinary (.inr leftThere)]
      refine ⟨loaded, performed, held, ?_, same⟩
      rw [rightThere, ← leftThere, leftRead] at rightRead
      rw [rightThere, Store.read?, held]
      exact rightRead
    · rw [loadPair_kept leftOrdinary rightOrdinary (.inl rightThere)]
      exact ⟨loaded, performed, held, (others right rightThere).trans rightRead, same⟩

/-!
## Delivering results
-/

/-- A result at the workplace goes to its target, in the registers and the frame as among
the temporaries and variables. -/
theorem storing_performed {live next : Nat} {target : Operand} {workplace : Workplace}
    (writable : target.Writable live next) (chosen : Workplace.ofTarget target = .ok workplace) :
    ∃ named slot, workplace = ⟨.register named, slot⟩ ∧
      ∀ state store computed result, Agrees live state store → SameBeside named store computed →
        computed.registers named = result →
        ∃ written stored, state.write? target result = some written ∧
          computed.performAll? meaning workplace.storing = some stored ∧
          Agrees next written stored := by
  cases writable with
  | @stored name address =>
    cases chosen
    refine ⟨.edi, _, rfl, ?_⟩
    intro state store computed result agrees same held
    refine ⟨_, { computed with memory := Function.update computed.memory address result },
      QuadMachine.State.write_stored state name address result, ?_, .of_memory ?_⟩
    · exact Store.performAll_store meaning (congrArg some held)
    · simp only [same.memory, agrees.memory]
  | temporary bound =>
    rw [Workplace.ofTarget] at chosen
    cases register : (Operand.temporary next).register with
    | error fault =>
      rw [register] at chosen
      cases chosen
    | ok named =>
      rw [register] at chosen
      cases chosen
      refine ⟨named, none, rfl, ?_⟩
      intro state store computed result agrees same held
      refine ⟨_, computed, QuadMachine.State.write_temporary state next result, rfl,
        same.memory.trans agrees.memory, ?_⟩
      intro number small other placed
      by_cases isTarget : number = next
      · subst isTarget
        obtain rfl : other = named := Except.ok.inj (placed.symm.trans register)
        simp only [Function.update_self, held]
      · have otherName : (Operand.temporary number).name ≠ (Operand.temporary next).name := by
          intro sameName
          exact isTarget (Operand.temporary_name_injective sameName)
        have otherRegister : other ≠ named := by
          rintro rfl
          exact isTarget (Operand.register_injective placed register)
        have kept := same.registers other otherRegister (Operand.register_ne_scratch placed)
        simp only [Function.update_of_ne otherName, kept]
        exact agrees.registers number (by omega) other placed

end LineMachine

/-!
## The lines of each command
-/

/-- The places of a binary operation are those of its operands, in order, and its workplace is that
of its target. -/
theorem Quad.operands_binary {op : BinaryOp} {left right target : Operand}
    {places : Place × Place × Workplace}
    (placed : (Quad.binary op left right target).operands = .ok places) :
    left.place = .ok places.1 ∧ right.place = .ok places.2.1 ∧
      Workplace.ofTarget target = .ok places.2.2 := by
  unfold Quad.operands at placed
  obtain ⟨_, ⟨⟩, placed⟩ := bind_eq_ok placed
  obtain ⟨leftPlace, leftPlaced, placed⟩ := bind_eq_ok placed
  obtain ⟨_, ⟨⟩, placed⟩ := bind_eq_ok placed
  obtain ⟨rightPlace, rightPlaced, placed⟩ := bind_eq_ok placed
  obtain ⟨_, ⟨⟩, placed⟩ := bind_eq_ok placed
  obtain ⟨workplace, chosen, ⟨⟩⟩ := bind_eq_ok placed
  exact ⟨leftPlaced, rightPlaced, chosen⟩

/-- The instruction for an arithmetic operator computes what the operator means, under every reading
of the operators. -/
theorem Arithmetic.ofSymbol_arithmetic (meaning : Interpretation) {op : BinaryOp}
    {arithmetic : Arithmetic} (found : Arithmetic.ofSymbol? op.symbol = some arithmetic)
    (left right : Int) :
    meaning.arithmetic arithmetic left right = meaning.binary op left right := by
  cases op <;> simp [Arithmetic.ofSymbol?, BinaryOp.symbol, List.lookup_cons] at found <;>
    subst found <;> rfl

/-- A relation for a comparison holds where the comparison is not zero. Comparisons are read alike
under every reading. -/
theorem Relation.holds_iff (meaning : Interpretation) {op : BinaryOp} {relation : Relation}
    (found : Relation.ofSymbol? op.symbol = some relation) (left right : Int) :
    relation.holds left right = decide (meaning.binary op left right ≠ 0) := by
  cases op <;> simp [Relation.ofSymbol?, BinaryOp.symbol, List.lookup_cons] at found <;>
    subst found <;> simp [Relation.holds, Interpretation.binary, Interpretation.truth]

section Commands

variable (meaning : Interpretation) {live : Nat} {state : QuadMachine.State}
  {store : LineMachine.Store} {block : List Line}

/-- The lines of an arithmetic operation compute its value into its target. The store agrees
afterwards for as many temporaries as are live then. -/
theorem arithmetic_performed {next : Nat} {op : BinaryOp} {left right target : Operand}
    (agrees : Agrees live state store) (leftReadable : left.Readable live)
    (rightReadable : right.Readable live) (writable : target.Writable live next)
    (selected : (Quad.binary op left right target).selectArithmetic op.symbol = .ok block) :
    ∃ first second written stored, state.read? left = some first ∧
      state.read? right = some second ∧
      state.write? target (meaning.binary op first second) = some written ∧
      store.performAll? meaning block = some stored ∧ Agrees next written stored := by
  obtain ⟨⟨leftPlace, rightPlace, workplace⟩, placed, selected⟩ := bind_eq_ok selected
  obtain ⟨leftPlaced, rightPlaced, chosen⟩ := Quad.operands_binary placed
  cases found : Arithmetic.ofSymbol? op.symbol with
  | none =>
    simp only [found] at selected
    cases selected
  | some arithmetic =>
    simp only [found] at selected
    cases selected
    obtain ⟨leftOrdinary, leftValue⟩ := leftReadable.placed leftPlaced
    obtain ⟨rightOrdinary, rightValue⟩ := rightReadable.placed rightPlaced
    obtain ⟨first, leftRead, leftHeld⟩ := leftValue state store agrees
    obtain ⟨second, rightRead, rightHeld⟩ := rightValue state store agrees
    obtain ⟨named, slot, rfl, delivers⟩ := LineMachine.storing_performed meaning writable chosen
    obtain ⟨loaded, loads, held, rightKept, same⟩ := LineMachine.loadPair_performed meaning named
      slot leftOrdinary rightOrdinary leftHeld rightHeld
    obtain ⟨written, stored, wrote, stores, after⟩ := delivers state store
      (loaded.withRegister named (meaning.binary op first second)) _ agrees
      (same.trans (.withRegister named loaded _)) (LineMachine.Store.withRegister_self _ _ _)
    refine ⟨first, second, written, stored, leftRead, rightRead, wrote, ?_, after⟩
    rw [LineMachine.Store.performAll_append, LineMachine.Store.performAll_append,
      LineMachine.Store.performAll_append, loads, Option.bind_some,
      LineMachine.Store.performAll_note, Option.bind_some,
      LineMachine.Store.performAll_arithmetic meaning rightKept, held, Option.bind_some,
      Arithmetic.ofSymbol_arithmetic meaning found, stores]

/-- The lines of a signed operand compute its value into its target. A plus sign takes no lines
besides those that load and store. -/
theorem unary_performed {next : Nat} {op : UnaryOp} {operand target : Operand}
    (agrees : Agrees live state store) (readable : operand.Readable live)
    (writable : target.Writable live next)
    (selected : (Quad.unary op operand target).selectUnary op.symbol = .ok block) :
    ∃ value written stored, state.read? operand = some value ∧
      state.write? target (meaning.unary op value) = some written ∧
      store.performAll? meaning block = some stored ∧ Agrees next written stored := by
  obtain ⟨_, ⟨⟩, selected⟩ := bind_eq_ok selected
  obtain ⟨place, placed, selected⟩ := bind_eq_ok selected
  obtain ⟨_, ⟨⟩, selected⟩ := bind_eq_ok selected
  obtain ⟨workplace, chosen, ⟨⟩⟩ := bind_eq_ok selected
  obtain ⟨ordinary, placeValue⟩ := readable.placed placed
  obtain ⟨value, read, held⟩ := placeValue state store agrees
  obtain ⟨named, slot, rfl, delivers⟩ := LineMachine.storing_performed meaning writable chosen
  obtain ⟨loaded, loads, loadedValue, same, -⟩ :=
    LineMachine.load_performed meaning named slot ordinary held
  cases op with
  | plus =>
    obtain ⟨written, stored, wrote, stores, after⟩ :=
      delivers state store loaded value agrees same loadedValue
    refine ⟨value, written, stored, read, wrote, ?_, after⟩
    rw [if_neg (by decide), List.append_nil, LineMachine.Store.performAll_append, loads,
      Option.bind_some, stores]
  | minus =>
    obtain ⟨written, stored, wrote, stores, after⟩ := delivers state store
      (loaded.withRegister named (meaning.negate value)) _ agrees
      (same.trans (.withRegister named loaded _)) (LineMachine.Store.withRegister_self _ _ _)
    refine ⟨value, written, stored, read, wrote, ?_, after⟩
    rw [if_pos (by decide), LineMachine.Store.performAll_append,
      LineMachine.Store.performAll_append, loads, Option.bind_some,
      LineMachine.Store.performAll_negate, loadedValue, Option.bind_some, stores]

/-- The lines of a copy to a variable store the value there. No temporary is live afterwards,
because a copy ends a statement. -/
theorem copy_performed {source : Operand} {name : String} {address : Int}
    (agrees : Agrees live state store) (readable : source.Readable live)
    (selected : (Quad.copy source (.stored name address)).selectCopy = .ok block) :
    ∃ value written stored, state.read? source = some value ∧
      state.write? (.stored name address) value = some written ∧
      store.performAll? meaning block = some stored ∧ Agrees 0 written stored := by
  obtain ⟨_, ⟨⟩, selected⟩ := bind_eq_ok selected
  obtain ⟨_, ⟨⟩, selected⟩ := bind_eq_ok selected
  obtain ⟨place, placed, selected⟩ := bind_eq_ok selected
  obtain ⟨-, placeValue⟩ := readable.placed placed
  obtain ⟨value, read, held⟩ := placeValue state store agrees
  have wrote := QuadMachine.State.write_stored state name address value
  by_cases twoVariables : (Operand.stored name address).kind = .variable ∧ source.kind = .variable
  · rw [if_pos twoVariables] at selected
    cases selected
    refine ⟨value, _, { store.withRegister .edi value with
      memory := Function.update store.memory address value }, read, wrote, ?_, .of_memory ?_⟩
    · rw [scratch, LineMachine.Store.performAll_move meaning held,
        LineMachine.Store.performAll_store meaning (LineMachine.Store.read_register _ _),
        LineMachine.Store.withRegister_self]
      rfl
    · simp only [agrees.memory]
  · rw [if_neg twoVariables] at selected
    cases selected
    refine ⟨value, _, _, read, wrote, LineMachine.Store.performAll_store meaning held,
      .of_memory ?_⟩
    simp only [agrees.memory]

/-- The lines of a comparison compare its operands and then jump. Its target is not written, so only
the memory is known to agree. -/
theorem comparison_performed {op : BinaryOp} {left right : Operand} {number : Nat}
    {branch : Branch} (agrees : Agrees live state store) (leftReadable : left.Readable live)
    (rightReadable : right.Readable live)
    (selected : (Quad.binary op left right (.temporary number)).selectComparison op.symbol branch =
      .ok block) :
    ∃ first second relation compare stored, state.read? left = some first ∧
      state.read? right = some second ∧ Relation.ofSymbol? op.symbol = some relation ∧
      block = compare ++ [.instruction (.jumpIf
        (if branch.whenTrue then relation else relation.negated) branch.label)] ∧
      store.performAll? meaning compare = some stored ∧ stored.compared = (first, second) ∧
      stored.memory = state.memory := by
  obtain ⟨⟨leftPlace, rightPlace, workplace⟩, placed, selected⟩ := bind_eq_ok selected
  obtain ⟨leftPlaced, rightPlaced, chosen⟩ := Quad.operands_binary placed
  cases found : Relation.ofSymbol? op.symbol with
  | none =>
    simp only [found] at selected
    cases selected
  | some relation =>
    simp only [found] at selected
    cases selected
    obtain ⟨leftOrdinary, leftValue⟩ := leftReadable.placed leftPlaced
    obtain ⟨rightOrdinary, rightValue⟩ := rightReadable.placed rightPlaced
    obtain ⟨first, leftRead, leftHeld⟩ := leftValue state store agrees
    obtain ⟨second, rightRead, rightHeld⟩ := rightValue state store agrees
    obtain ⟨named, slot, rfl, -⟩ := LineMachine.storing_performed meaning
      (.temporary (Nat.le_succ number)) chosen
    obtain ⟨loaded, loads, held, rightKept, same⟩ := LineMachine.loadPair_performed meaning named
      slot leftOrdinary rightOrdinary leftHeld rightHeld
    have leftKept : loaded.read? (.register named) = some first := congrArg some held
    generalize (⟨.register named, slot⟩ : Workplace).loadPair leftPlace rightPlace = pair
      at loads rightKept ⊢
    refine ⟨first, second, relation, pair.1 ++ [.instruction (.compare (.register named) pair.2)],
      { loaded with compared := (first, second) }, leftRead, rightRead, rfl, ?_, ?_, rfl,
      same.memory.trans agrees.memory⟩
    · rw [List.append_assoc]
      rfl
    · rw [LineMachine.Store.performAll_append, loads, Option.bind_some,
        LineMachine.Store.performAll_compare meaning leftKept rightKept]

/-- A jump on a condition reads it, whether it is taken on true or on false. -/
theorem Quad.branch_left (whenTrue : Bool) (condition label : Operand) :
    (Quad.branch whenTrue condition label).left = some condition := by
  cases whenTrue <;> rfl

/-- A jump on a condition names its label, whether it is taken on true or on false. -/
theorem Quad.branch_target (whenTrue : Bool) (condition label : Operand) :
    (Quad.branch whenTrue condition label).target = some label := by
  cases whenTrue <;> rfl

/-- The lines of a jump on the value of an operand. A literal cannot be compared, so it
is loaded first. -/
theorem Quad.selectBranch_plain {condition label : Operand} {command : Command}
    {whenTrue : Bool} {producer : Option CommandKind}
    (known : producer ≠ some .relational ∧ producer ≠ some .logical)
    (selected : (Quad.branch whenTrue condition label).selectBranch command producer = .ok block) :
    ∃ place, condition.place = .ok place ∧ block =
      (if condition.kind = .literal then ([Line.move scratch place], scratch) else ([], place)).1 ++
      [.instruction (.compare (if condition.kind = .literal then
          ([Line.move scratch place], scratch) else ([], place)).2 (.immediate "0")),
        .instruction (.jumpIf (if command.jumpsWhenTrue then .notEqual else .equal)
          label.name)] := by
  rw [Quad.selectBranch, Quad.branch_left, Quad.branch_target] at selected
  obtain ⟨_, ⟨⟩, selected⟩ := bind_eq_ok selected
  obtain ⟨_, ⟨⟩, selected⟩ := bind_eq_ok selected
  split at selected
  · exact absurd rfl known.1
  · exact absurd rfl known.2
  · obtain ⟨place, placed, ⟨⟩⟩ := bind_eq_ok selected
    exact ⟨place, placed, rfl⟩

/-- The lines of a jump on the value of an operand compare it with zero and then jump. What has
produced the value must be neither a comparison nor a logical operator, which have other lines. -/
theorem branch_performed {condition label : Operand} {command : Command} {whenTrue : Bool}
    {producer : Option CommandKind} (agrees : Agrees live state store)
    (readable : condition.Readable live)
    (known : producer ≠ some .relational ∧ producer ≠ some .logical)
    (selected : (Quad.branch whenTrue condition label).selectBranch command producer = .ok block) :
    ∃ value compare stored, state.read? condition = some value ∧
      block = compare ++ [.instruction (.jumpIf
        (if command.jumpsWhenTrue then .notEqual else .equal) label.name)] ∧
      store.performAll? meaning compare = some stored ∧ stored.compared = (value, 0) ∧
      stored.memory = state.memory := by
  obtain ⟨place, placed, rfl⟩ := Quad.selectBranch_plain known selected
  obtain ⟨-, placeValue⟩ := readable.placed placed
  obtain ⟨value, read, held⟩ := placeValue state store agrees
  have zero : ∀ store : LineMachine.Store, store.read? (.immediate "0") = some 0 := by
    intro store
    exact signedNumeral_integer 0
  by_cases literal : condition.kind = .literal
  · refine ⟨value, [.move scratch place, .instruction (.compare scratch (.immediate "0"))],
      { store.withRegister .edi value with compared := (value, 0) }, read, ?_, ?_, rfl,
      agrees.memory⟩
    · simp only [if_pos literal]
      rfl
    · have loaded : (store.withRegister .edi value).read? (.register .edi) = some value :=
        congrArg some (LineMachine.Store.withRegister_self _ _ _)
      rw [scratch, LineMachine.Store.performAll_move meaning held,
        LineMachine.Store.performAll_compare meaning loaded (zero _)]
  · refine ⟨value, [.instruction (.compare place (.immediate "0"))],
      { store with compared := (value, 0) }, read, ?_,
      LineMachine.Store.performAll_compare meaning held (zero _), rfl, agrees.memory⟩
    simp only [if_neg literal]
    rfl

/-- The lines of a return bring its value to the accumulator and leave. -/
theorem ret_performed {value : Operand} (agrees : Agrees live state store)
    (readable : value.Readable live) (selected : (Quad.ret value).selectReturn = .ok block) :
    ∃ result load stored, state.read? value = some result ∧
      block = load ++ [.instruction (.jump exitLabel)] ∧
      store.performAll? meaning load = some stored ∧ stored.registers .eax = result ∧
      stored.memory = state.memory := by
  obtain ⟨_, ⟨⟩, selected⟩ := bind_eq_ok selected
  obtain ⟨place, placed, ⟨⟩⟩ := bind_eq_ok selected
  obtain ⟨ordinary, placeValue⟩ := readable.placed placed
  obtain ⟨result, read, held⟩ := placeValue state store agrees
  obtain ⟨loaded, loads, inAccumulator, same, -⟩ :=
    LineMachine.load_performed meaning .eax none ordinary held
  exact ⟨result, _, loaded, read, rfl, loads, inAccumulator, same.memory.trans agrees.memory⟩

end Commands

end IntMain
