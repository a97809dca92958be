import IntMain.Proofs.EndOfText
import IntMain.Proofs.IntegerSpelling
import IntMain.Proofs.SelectionRules
import IntMain.Proofs.SessionCoherence
import IntMain.Proofs.TreeGrowth
import IntMain.Session.Output

/-!
# The lines of a listing

A listing is one text, in which every line of a program is followed by a line feed. What is
known about the lines of a program, such as the places of its labels or the operands of its
instructions, is known about the lines of that text only if no line holds a line feed itself.
Texts come into a program at one place: the names of variables, which assembly quotes in its
comments. They are lexemes of identifiers, and no character of a word ends a line.

The argument goes from the front to the back: the words of a lexed text, the names of its tree
before and after resolution, the operands of its quadruples, the lines that selection emits for
them. Nothing is assumed about the program but that every stage has accepted it up to there, and
the lines that selection has emitted before a fault are covered as well.
-/

namespace IntMain

/-!
## Texts without a line end
-/

namespace Text

/-- A text without a line feed and without a carriage return. Both are ruled out, since a carriage
return in front of a line feed is taken for a part of the line's end. -/
def OneLine (text : String) : Prop :=
  text.toList.all (fun character => character != '\n' && character != '\r') = true

/-- Whether a text stands on one line is decided by a look at its characters, which settles the
fixed texts of the printers by evaluation. -/
instance (text : String) : Decidable (OneLine text) :=
  inferInstanceAs (Decidable (_ = true))

/-- Texts on one line can be put together on it. Every printer is built from fixed texts and the
texts of its parts in this way, so nothing else is needed about texts in a row. -/
theorem OneLine.append {first second : String} (firstLine : OneLine first)
    (secondLine : OneLine second) : OneLine (first ++ second) := by
  rw [OneLine, String.toList_append, List.all_append, Bool.and_eq_true]
  exact ⟨firstLine, secondLine⟩

/-- A text stands on one line if each of its characters has a property that no line end has. The
property is a test, so for a fixed alphabet the two premises on it are evaluated. -/
theorem OneLine.of_all {text : String} (test : Char → Bool) (all : text.toList.all test = true)
    (noFeed : test '\n' = false) (noReturn : test '\r' = false) : OneLine text := by
  rw [OneLine, List.all_eq_true]
  rw [List.all_eq_true] at all
  intro character member
  have passes := all character member
  rw [Bool.and_eq_true, bne_iff_ne, bne_iff_ne]
  constructor
  · rintro rfl
    rw [noFeed] at passes
    cases passes
  · rintro rfl
    rw [noReturn] at passes
    cases passes

/-- A numeral stands on one line, since it consists of digits. -/
theorem oneLine_decimal (value : Nat) : OneLine (decimal value) := by
  apply OneLine.of_all Char.isDigit
  · rw [List.all_eq_true, decimal_toList]
    intro character member
    exact Nat.isDigit_of_mem_toDigits (by decide) (by decide) member
  · rfl
  · rfl

/-- The numeral of an integer stands on one line, with or without a sign. -/
theorem oneLine_integer (value : Int) : OneLine (integer value) := by
  cases value with
  | ofNat value => exact oneLine_decimal value
  | negSucc value => exact OneLine.append (by decide) (oneLine_decimal _)

/-- The numeral of an address stands on one line, whichever sign is written in front of it. -/
theorem oneLine_signedInteger (value : Int) : OneLine (signedInteger value) := by
  cases value with
  | ofNat value => exact OneLine.append (by decide) (oneLine_decimal _)
  | negSucc value => exact OneLine.append (by decide) (oneLine_decimal _)

/-- Lines that are each followed by a line feed are taken apart into the same lines. The premise is
needed line by line: a line feed inside of one would end it early, and a carriage return at its end
would be dropped. -/
theorem lines_finished {texts : List String} (oneLine : ∀ text ∈ texts, OneLine text) :
    lines (finished texts) = texts := by
  induction texts with
  | nil => rfl
  | cons text later inductionHypothesis =>
    obtain ⟨first, others⟩ := List.forall_mem_cons.mp oneLine
    have split : (finished (text :: later)).toList =
        text.toList ++ '\n' :: (finished later).toList := by
      simp [finished, String.toList_join]
    rw [OneLine, List.all_eq_true] at first
    have noFeed : '\n' ∉ text.toList := fun member => absurd (first '\n' member) (by decide)
    have noReturn : text.toList.getLast? ≠ some '\r' := by
      intro isLast
      exact absurd (first '\r' (List.mem_of_getLast? isLast)) (by decide)
    rw [lines, split, linesFrom_feed [] _ _ noFeed, List.map_cons, List.reverse_nil,
      List.nil_append, withoutReturn, if_neg noReturn, String.ofList_toList]
    exact congrArg (List.cons text) (inductionHypothesis others)

end Text

/-!
## Names
-/

/-- The identifiers of a text are words: a lexeme of this kind consists of characters that continue
one. No fixed spelling has the kind, and only words are discovered to have it. -/
theorem Upheld.words : Upheld (fun lexeme kind => kind = .identifier →
    lexeme.toList.all continuesWord = true) where
  spelling := by
    have others : ∀ entry ∈ fixedSpellings, entry.2 ≠ .identifier := by decide
    intro entry member isIdentifier
    exact absurd isIdentifier (others entry member)
  interned := by
    rintro character rest mode piece kind cut role rfl
    rcases cut.interned_cases role with ⟨-, isWord⟩ | ⟨-, rfl⟩ | other
    · rw [String.toList_ofList, isWord]
      exact List.all_takeWhile
    · obtain ⟨kind, isNumber, isKind⟩ := number_role (character :: rest)
      rw [role] at isKind
      cases isKind
      exact absurd isNumber (by decide)
    · exact absurd other (by decide)
  fixed := by
    rintro character rest mode piece kind cut role rfl
    exact absurd (cut.fixed_kind role) (by decide)

/-- Every name in a tree stands on one line. Nothing else in a tree is written to a listing as it is
in the text: operators and keywords have fixed spellings, and literals are written anew. -/
def Node.NamesOneLine (root : Node) : Prop :=
  ∀ mark name, .identifier mark name ∈ root.postorder → Text.OneLine name.name

/-- The names of a program that is parsed from a text stand on one line, because they are words of
that text. For tokens of any other origin nothing would be known about their lexemes. -/
theorem Parsed.namesOneLine {text : String} {parsed : Parsed}
    (accepted : Parsed.ofTokens (Lexed.ofText text).tokens = .ok parsed) :
    parsed.root.NamesOneLine := by
  intro mark name inside
  obtain ⟨token, read, isIdentifier, sameName, -⟩ := Parsed.namedBy accepted mark name inside
  have member : token ∈ (Lexed.ofText text).tokens := (List.takeWhile_sublist _).subset read
  rw [sameName]
  rcases Upheld.words.ofText text member with isEnd | isWord
  · rw [isIdentifier] at isEnd
    cases isEnd
  · exact Text.OneLine.of_all continuesWord (isWord isIdentifier) (by decide) (by decide)

namespace Node

/-- A walk through a changed tree meets the changed nodes, a node behind its children. A change of
names leaves the shape of the tree as it is. -/
theorem postorder_mapNames (change : Identifier → Identifier) (node : Node) :
    (node.mapNames change).postorder = node.postorder.map (mapNames change) := by
  induction node using induction_children with
  | step node each =>
    rw [postorder_eq, postorder_eq, children_mapNames, List.map_append, List.flatMap_map,
      List.map_flatMap, List.map_singleton]
    refine congrArg (· ++ _) ?_
    exact List.flatMap_congr each

/-- Only an identifier is changed to an identifier, and its mark is kept. -/
theorem mapNames_eq_identifier {change : Identifier → Identifier} {node : Node} {mark : Mark}
    {name : Identifier} (same : node.mapNames change = .identifier mark name) :
    ∃ original, node = .identifier mark original ∧ name = change original := by
  cases node with
  | identifier _ original =>
    cases same
    exact ⟨original, rfl, rfl⟩
  | chain _ clauses otherwise => cases otherwise <;> cases same
  | _ => cases same

/-- Resolution stamps names and leaves them as they are, so the names of a resolved tree stand on
one line if those of the tree do. It does not matter whether resolution has met a fault. -/
theorem NamesOneLine.resolved {root : Node} (named : root.NamesOneLine) :
    root.resolve.tree.NamesOneLine := by
  have same : root.resolve.tree.mapNames .unstamped = root.mapNames .unstamped :=
    root.resolveFrom_unstamped _
  intro mark name inside
  have changed : mapNames .unstamped (.identifier mark name) ∈
      (root.mapNames .unstamped).postorder := by
    rw [← same, postorder_mapNames]
    exact List.mem_map_of_mem inside
  rw [postorder_mapNames] at changed
  obtain ⟨node, member, isChanged⟩ := List.mem_map.mp changed
  obtain ⟨original, rfl, sameName⟩ := mapNames_eq_identifier isChanged
  have nameEq : name.unstamped.name = original.unstamped.name :=
    congrArg Identifier.name sameName
  rw [Identifier.unstamped, Identifier.unstamped] at nameEq
  rw [nameEq]
  exact named mark original member

/-- The names of a child are names of the tree, so what is known of a tree can be used for its
parts. -/
theorem NamesOneLine.child {root child : Node} (named : root.NamesOneLine)
    (isChild : child ∈ root.children) : child.NamesOneLine := by
  intro mark name inside
  apply named mark name
  rw [postorder_eq]
  exact List.mem_append_left _ (List.mem_flatMap.mpr ⟨child, isChild, inside⟩)

/-- An identifier is a name of its own tree, which has no other node. -/
theorem NamesOneLine.own {mark : Mark} {name : Identifier}
    (named : (Node.identifier mark name).NamesOneLine) : Text.OneLine name.name :=
  named mark name (mem_postorder _)

end Node

/-!
## Quadruples
-/

/-- An operand that is listed and placed on one line. The text is that of a slot or of a value, and
selection writes it where the listing of quadruples writes the name. -/
structure Operand.OneLine (operand : Operand) : Prop where
  name : Text.OneLine operand.name
  text : Text.OneLine operand.text

namespace Operand

/-- An integer is written as a numeral, also where an operand is asked for its name. -/
theorem oneLine_literal (value : Int) : (literal value).OneLine :=
  ⟨Text.oneLine_integer value, Text.oneLine_integer value⟩

/-- A variable is listed by its name and placed by its address. Only the name has to be known to
stand on one line. -/
theorem oneLine_stored {name : String} (oneLine : Text.OneLine name) (address : Int) :
    (stored name address).OneLine := by
  have slot : Text.OneLine ("[ebp" ++ Text.signedInteger address ++ "]") :=
    .append (.append (by decide) (Text.oneLine_signedInteger address)) (by decide)
  exact ⟨oneLine, slot⟩

/-- A temporary is listed by its number. The assembly writes a register for it instead. -/
theorem oneLine_temporary (number : Nat) : (temporary number).OneLine := by
  have numbered : Text.OneLine ("t" ++ Text.decimal number) :=
    .append (by decide) (Text.oneLine_decimal number)
  exact ⟨numbered, numbered⟩

/-- A label is listed by its number, in the program and in the assembly alike. -/
theorem oneLine_label (number : Nat) : (label number).OneLine := by
  have numbered : Text.OneLine ("L" ++ Text.decimal number) :=
    .append (by decide) (Text.oneLine_decimal number)
  exact ⟨numbered, numbered⟩

end Operand

/-- A quadruple whose command and operands, as far as it has them, stand on one line. -/
structure Quad.OneLine (quad : Quad) : Prop where
  command : ∀ command ∈ quad.command, Text.OneLine command.text
  left : ∀ operand ∈ quad.left, operand.OneLine
  right : ∀ operand ∈ quad.right, operand.OneLine
  target : ∀ operand ∈ quad.target, operand.OneLine

namespace Quad

variable {left right source condition target : Operand}

/-- An operand that is missing has nothing to write, so nothing is asked of it. -/
theorem oneLine_none : ∀ operand ∈ (none : Option Operand), operand.OneLine := by
  intro operand member
  cases member

/-- Where there is an operand, it is the only one to be asked for. -/
theorem oneLine_some (oneLine : source.OneLine) : ∀ operand ∈ some source, operand.OneLine := by
  intro operand member
  cases member
  exact oneLine

/-- Where there is a command, its text is the only one to be asked for. The kind of the command is
not written. -/
theorem oneLine_command {text : String} {kind : CommandKind} (oneLine : Text.OneLine text) :
    ∀ command ∈ some (Command.mk text kind), Text.OneLine command.text := by
  intro command member
  cases member
  exact oneLine

/-- A binary operation is spelled like its operator, which has no line end. -/
theorem oneLine_binary (op : BinaryOp) (leftLine : left.OneLine) (rightLine : right.OneLine)
    (targetLine : target.OneLine) : (binary op left right target).OneLine where
  command := by cases op <;> exact oneLine_command (by decide)
  left := oneLine_some leftLine
  right := oneLine_some rightLine
  target := oneLine_some targetLine

/-- A signed operand is spelled like its sign, which has no line end. -/
theorem oneLine_unary (op : UnaryOp) (sourceLine : source.OneLine) (targetLine : target.OneLine) :
    (unary op source target).OneLine where
  command := by cases op <;> exact oneLine_command (by decide)
  left := oneLine_some sourceLine
  right := oneLine_none
  target := oneLine_some targetLine

/-- A copy stands on one line if its two operands do. Its command is a fixed word. -/
theorem oneLine_copy (sourceLine : source.OneLine) (targetLine : target.OneLine) :
    (copy source target).OneLine :=
  ⟨oneLine_command (by decide), oneLine_some sourceLine, oneLine_none, oneLine_some targetLine⟩

/-- A branch stands on one line if its condition and its label do, whether it is taken on true or on
false. -/
theorem oneLine_jumpIfFalse (conditionLine : condition.OneLine) (targetLine : target.OneLine) :
    (jumpIfFalse condition target).OneLine :=
  ⟨oneLine_command (by decide), oneLine_some conditionLine, oneLine_none, oneLine_some targetLine⟩

@[inherit_doc oneLine_jumpIfFalse]
theorem oneLine_jumpIfTrue (conditionLine : condition.OneLine) (targetLine : target.OneLine) :
    (jumpIfTrue condition target).OneLine :=
  ⟨oneLine_command (by decide), oneLine_some conditionLine, oneLine_none, oneLine_some targetLine⟩

/-- A jump stands on one line if its label does. -/
theorem oneLine_jump (targetLine : target.OneLine) : (jump target).OneLine :=
  ⟨oneLine_command (by decide), oneLine_none, oneLine_none, oneLine_some targetLine⟩

/-- The place of a label stands on one line if the label does. -/
theorem oneLine_label (targetLine : target.OneLine) : (label target).OneLine :=
  ⟨oneLine_command (by decide), oneLine_none, oneLine_none, oneLine_some targetLine⟩

/-- A return stands on one line if its value does. -/
theorem oneLine_ret (targetLine : target.OneLine) : (ret target).OneLine :=
  ⟨oneLine_command (by decide), oneLine_none, oneLine_none, oneLine_some targetLine⟩

/-- The name that is listed for an operand stands on one line. For a missing operand a fixed sign is
listed. -/
theorem oneLine_nameOf {operand : Option Operand}
    (oneLine : ∀ found ∈ operand, found.OneLine) : Text.OneLine (Operand.nameOf operand) := by
  cases operand with
  | none => decide
  | some found => exact (oneLine found rfl).name

/-- A quadruple is listed on one line. All families are covered, also with operands that a
quadruple of the family should have and does not. -/
theorem OneLine.text {quad : Quad} (oneLine : quad.OneLine) : Text.OneLine quad.text := by
  have left := oneLine_nameOf oneLine.left
  have right := oneLine_nameOf oneLine.right
  have target := oneLine_nameOf oneLine.target
  rw [Quad.text]
  cases commanded : quad.command with
  | none => exact (by decide : Text.OneLine "nop")
  | some command =>
    have spelled : Text.OneLine command.text := oneLine.command command commanded
    have operation : Text.OneLine (Operand.nameOf quad.target ++ " = " ++
        Operand.nameOf quad.left ++ " " ++ command.text ++ " " ++ Operand.nameOf quad.right) :=
      .append (.append (.append (.append (.append (.append target (by decide)) left) (by decide))
        spelled) (by decide)) right
    cases family : command.kind with
    | arithmetic => simpa only [family] using operation
    | relational => simpa only [family] using operation
    | logical => simpa only [family] using operation
    | unary =>
      simp only [family]
      exact .append (.append (.append target (by decide)) spelled) left
    | copy =>
      simp only [family]
      exact .append (.append target (by decide)) left
    | conditionalJump =>
      simp only [family]
      exact .append (.append (.append (.append spelled (by decide)) left) (by decide)) target
    | unconditionalJump =>
      simp only [family]
      exact .append (by decide) target
    | label =>
      simp only [family]
      exact .append target (by decide)
    | ret =>
      simp only [family]
      exact .append (by decide) target

/-- The indentation in a listing changes nothing, since it is made of spaces. -/
theorem OneLine.line {quad : Quad} (oneLine : quad.OneLine) : Text.OneLine quad.line := by
  rw [Quad.line]
  split
  · exact oneLine.text
  · exact .append (by decide) oneLine.text

end Quad

/-- The code of an expression stands on one line for each quadruple, and so does the operand that
has its value. The target is any operand that does. -/
theorem Computes.oneLine {live : Nat} {node : Node} {target value : Operand} {code : List Quad}
    (computed : Computes live node target code value) (named : node.NamesOneLine)
    (targetLine : target.OneLine) : (∀ quad ∈ code, quad.OneLine) ∧ value.OneLine := by
  induction computed with
  | integer => exact ⟨List.forall_mem_nil _, Operand.oneLine_literal _⟩
  | identifier addressed => exact ⟨List.forall_mem_nil _, Operand.oneLine_stored named.own _⟩
  | unary inner operand =>
    obtain ⟨code, value⟩ :=
      operand (named.child List.mem_cons_self) (Operand.oneLine_temporary _)
    refine ⟨List.forall_mem_append.mpr ⟨code, ?_⟩, targetLine⟩
    exact List.forall_mem_singleton.mpr (Quad.oneLine_unary _ value targetLine)
  | binary first second left right =>
    obtain ⟨leftCode, leftValue⟩ :=
      left (named.child List.mem_cons_self) (Operand.oneLine_temporary _)
    obtain ⟨rightCode, rightValue⟩ :=
      right (named.child (by simp [Node.children])) (Operand.oneLine_temporary _)
    refine ⟨List.forall_mem_append.mpr ⟨List.forall_mem_append.mpr ⟨leftCode, rightCode⟩, ?_⟩,
      targetLine⟩
    exact List.forall_mem_singleton.mpr (Quad.oneLine_binary _ leftValue rightValue targetLine)

/-- The code of an assignment stands on one line for each quadruple. The target is asked for besides
the value, because it is no part of the value's tree. -/
theorem Stores.oneLine {target : Operand} {op : AssignOp} {value : Node} {code : List Quad}
    (stored : Stores target op value code) (named : value.NamesOneLine)
    (targetLine : target.OneLine) : ∀ quad ∈ code, quad.OneLine := by
  cases stored with
  | copied plain simple =>
    obtain ⟨-, source⟩ := simple.oneLine named targetLine
    exact List.forall_mem_singleton.mpr (Quad.oneLine_copy source targetLine)
  | computed plain direct nonempty => exact (direct.oneLine named targetLine).1
  | combined combining operand =>
    obtain ⟨code, source⟩ := operand.oneLine named (Operand.oneLine_temporary 1)
    refine List.forall_mem_append.mpr ⟨code, ?_⟩
    exact List.forall_mem_singleton.mpr (Quad.oneLine_binary _ targetLine source targetLine)

/-- The names in a task stand on one line, and so does the label for which clauses leave. -/
def Task.NamesOneLine : Task → Prop
  | .statement node => node.NamesOneLine
  | .statements nodes => ∀ node ∈ nodes, node.NamesOneLine
  | .clauses nodes done => (∀ node ∈ nodes, node.NamesOneLine) ∧ done.OneLine

/-- The code of every task stands on one line for each quadruple. The labels are numbered, so the
names of the variables are all that has to be known. -/
theorem Lowers.oneLine {task : Task} {labels after : Nat} {code : List Quad}
    (lowers : Lowers task labels code after) (named : task.NamesOneLine) :
    ∀ quad ∈ code, quad.OneLine := by
  have labelled (number : Nat) : (Quad.label (.label number)).OneLine :=
    Quad.oneLine_label (Operand.oneLine_label number)
  induction lowers with
  | compound inner statements => exact statements (fun node member => named.child member)
  | block inner statements => exact statements (fun node member => named.child member)
  | empty => exact List.forall_mem_nil _
  | declaration => exact List.forall_mem_nil _
  | initialization addressed stored =>
    have name := (named.child List.mem_cons_self).own
    exact stored.oneLine (named.child (by simp [Node.children])) (Operand.oneLine_stored name _)
  | assignment addressed stored =>
    have name := (named.child List.mem_cons_self).own
    exact stored.oneLine (named.child (by simp [Node.children])) (Operand.oneLine_stored name _)
  | returned computed =>
    obtain ⟨code, value⟩ :=
      computed.oneLine (named.child List.mem_cons_self) (Operand.oneLine_temporary 1)
    refine List.forall_mem_append.mpr ⟨code, ?_⟩
    exact List.forall_mem_singleton.mpr (Quad.oneLine_ret value)
  | chain inner clauses =>
    have clausesNamed (node : Node) (member : node ∈ _) : node.NamesOneLine :=
      named.child (List.mem_append_left _ member)
    refine List.forall_mem_append.mpr ⟨clauses ⟨clausesNamed, Operand.oneLine_label _⟩, ?_⟩
    exact List.forall_mem_singleton.mpr (labelled _)
  | chainElse inner otherwise clauses body =>
    have clausesNamed (node : Node) (member : node ∈ _) : node.NamesOneLine :=
      named.child (List.mem_append_left _ member)
    have bodyNamed := body (named.child (List.mem_append_right _ List.mem_cons_self))
    simp only [List.forall_mem_append, List.forall_mem_singleton]
    exact ⟨⟨clauses ⟨clausesNamed, Operand.oneLine_label _⟩, bodyNamed⟩, labelled _⟩
  | whileLoop tested repeated body =>
    obtain ⟨test, value⟩ :=
      tested.oneLine (named.child List.mem_cons_self) (Operand.oneLine_temporary 1)
    have bodyCode := body (named.child (by simp [Node.children]))
    simp only [List.forall_mem_append, List.forall_mem_cons, List.not_mem_nil, false_implies,
      implies_true, and_true]
    exact ⟨⟨⟨⟨labelled _, test⟩, Quad.oneLine_jumpIfFalse value (Operand.oneLine_label _)⟩,
      bodyCode⟩, Quad.oneLine_jump (Operand.oneLine_label _), labelled _⟩
  | doWhile repeated tested body =>
    obtain ⟨test, value⟩ :=
      tested.oneLine (named.child (by simp [Node.children])) (Operand.oneLine_temporary 1)
    have bodyCode := body (named.child List.mem_cons_self)
    simp only [List.forall_mem_append, List.forall_mem_cons, List.not_mem_nil, false_implies,
      implies_true, and_true]
    exact ⟨⟨⟨labelled _, bodyCode⟩, test⟩,
      Quad.oneLine_jumpIfTrue value (Operand.oneLine_label _)⟩
  | nil => exact List.forall_mem_nil _
  | cons first second head tail =>
    obtain ⟨firstNamed, laterNamed⟩ := List.forall_mem_cons.mp named
    exact List.forall_mem_append.mpr ⟨head firstNamed, tail laterNamed⟩
  | noClause => exact List.forall_mem_nil _
  | clause tested guarded following body clauses =>
    obtain ⟨allNamed, doneLine⟩ := named
    obtain ⟨firstNamed, laterNamed⟩ := List.forall_mem_cons.mp allNamed
    obtain ⟨test, value⟩ :=
      tested.oneLine (firstNamed.child List.mem_cons_self) (Operand.oneLine_temporary 1)
    have bodyCode := body (firstNamed.child (by simp [Node.children]))
    simp only [List.forall_mem_append, List.forall_mem_cons, List.not_mem_nil, false_implies,
      implies_true, and_true]
    exact ⟨⟨⟨⟨test, Quad.oneLine_jumpIfFalse value (Operand.oneLine_label _)⟩, bodyCode⟩,
      Quad.oneLine_jump doneLine, labelled _⟩, clauses ⟨laterNamed, doneLine⟩⟩

/-!
## Lines
-/

/-- What a computation gives, if it gives anything, is as wanted. Nothing is said about its
faults. -/
def Gives {Result : Type} (wanted : Result → Prop) (computation : Except Fault Result) : Prop :=
  ∀ result, computation = .ok result → wanted result

namespace Gives

variable {Result Next : Type} {wanted : Result → Prop} {final : Next → Prop}

/-- A result that is there has to be as wanted itself. -/
theorem ok {result : Result} (holds : wanted result) : Gives wanted (.ok result) := by
  intro given isGiven
  cases isGiven
  exact holds

/-- A fault gives nothing, so it satisfies every wish. No lemma below looks at which faults there
are. -/
theorem error {fault : Fault} : Gives wanted (.error fault : Except Fault Result) := by
  intro given isGiven
  cases isGiven

/-- A step may use what the steps before it have given. What is wanted in between may be another
thing than what is wanted at the end. -/
theorem bind {computation : Except Fault Result} {next : Result → Except Fault Next}
    (first : Gives wanted computation)
    (second : ∀ result, wanted result → Gives final (next result)) :
    Gives final (computation >>= next) := by
  intro given isGiven
  obtain ⟨result, isResult, isNext⟩ := bind_eq_ok isGiven
  exact second result (first result isResult) given isNext

/-- A result may be changed on its way, if the change leads to what is wanted. -/
theorem map {computation : Except Fault Result} {change : Result → Next}
    (first : Gives wanted computation) (kept : ∀ result, wanted result → final (change result)) :
    Gives final (computation.map change) := by
  cases computation with
  | error fault => exact error
  | ok result => exact ok (kept result (first result rfl))

end Gives

/-- A place that is written on one line. -/
abbrev Place.OneLine (place : Place) : Prop := Text.OneLine place.text

/-- A line of assembly that is one line of its listing. -/
abbrev Line.OneLine (line : Line) : Prop := Text.OneLine line.text

/-- Registers are written as their names, none of which has a line end. There are finitely many, so
this is looked up. -/
theorem Place.oneLine_register (named : Register) : (Place.register named).OneLine := by
  cases named <;> decide

namespace Line

variable {target source left right : Place} {name : String}

/-- Moving a value takes one line if both places are written on one. -/
theorem oneLine_move (targetLine : target.OneLine) (sourceLine : source.OneLine) :
    (Line.move target source).OneLine :=
  .append (by decide) (.append (.append (.append (by decide) targetLine) (by decide)) sourceLine)

/-- Arithmetic on two places takes one line if both are written on one. The mnemonics of the
operations have no line ends. -/
theorem oneLine_arithmetic (op : Arithmetic) (targetLine : target.OneLine)
    (sourceLine : source.OneLine) :
    (Line.instruction (.arithmetic op target source)).OneLine := by
  have mnemonic : Text.OneLine op.mnemonic := by cases op <;> decide
  exact .append (by decide)
    (.append (.append (.append (.append mnemonic (by decide)) targetLine) (by decide)) sourceLine)

/-- The negation of a place takes one line if the place is written on one. -/
theorem oneLine_negate (targetLine : target.OneLine) :
    (Line.instruction (.negate target)).OneLine :=
  .append (by decide) (.append (by decide) targetLine)

/-- The comparison of two places takes one line if both are written on one. -/
theorem oneLine_compare (leftLine : left.OneLine) (rightLine : right.OneLine) :
    (Line.instruction (.compare left right)).OneLine :=
  .append (by decide) (.append (.append (.append (by decide) leftLine) (by decide)) rightLine)

/-- A jump to a label takes one line if the name of the label stands on one. -/
theorem oneLine_jump (nameLine : Text.OneLine name) : (Line.instruction (.jump name)).OneLine :=
  .append (by decide) (.append (by decide) nameLine)

/-- A jump on a relation takes one line if the name of its label stands on one. The mnemonics of the
relations have no line ends. -/
theorem oneLine_jumpIf (relation : Relation) (nameLine : Text.OneLine name) :
    (Line.instruction (.jumpIf relation name)).OneLine := by
  have mnemonic : Text.OneLine relation.mnemonic := by cases relation <;> decide
  exact .append (by decide) (.append (.append mnemonic (by decide)) nameLine)

/-- A comment takes one line if what it says does. -/
theorem oneLine_comment (textLine : Text.OneLine name) : (Line.comment name).OneLine :=
  .append (by decide) textLine

/-- The place of a label takes one line if its name does. -/
theorem oneLine_label (nameLine : Text.OneLine name) : (Line.label name).OneLine :=
  .append nameLine (by decide)

end Line

/-- The places of a workplace are written on one line: the register, and the slot if there is
one. -/
structure Workplace.OneLine (workplace : Workplace) : Prop where
  register : workplace.register.OneLine
  store : ∀ slot ∈ workplace.store, slot.OneLine

namespace Workplace.OneLine

variable {workplace : Workplace} {source left right : Place}

/-- Loading a value takes one line or none, depending on whether it is in its place already. -/
theorem load (works : workplace.OneLine) (sourceLine : source.OneLine) :
    ∀ line ∈ workplace.load source, line.OneLine := by
  rw [Workplace.load]
  split
  · exact List.forall_mem_nil _
  · exact List.forall_mem_singleton.mpr (Line.oneLine_move works.register sourceLine)

/-- Storing the result takes one line or none, depending on whether it is computed where it
belongs. -/
theorem storing (works : workplace.OneLine) : ∀ line ∈ workplace.storing, line.OneLine := by
  obtain ⟨register, slot⟩ := workplace
  cases slot with
  | none => exact List.forall_mem_nil _
  | some slot =>
    exact List.forall_mem_singleton.mpr (Line.oneLine_move (works.store slot rfl) works.register)

/-- Loading two values takes lines that are one line each, and leaves the right value at a place
that is written on one line: its own or the scratch register. -/
theorem loadPair (works : workplace.OneLine) (leftLine : left.OneLine)
    (rightLine : right.OneLine) :
    (∀ line ∈ (workplace.loadPair left right).1, line.OneLine) ∧
      (workplace.loadPair left right).2.OneLine := by
  have scratchLine : scratch.OneLine := Place.oneLine_register .edi
  rw [Workplace.loadPair]
  split
  · exact ⟨List.forall_mem_cons.mpr ⟨Line.oneLine_move scratchLine rightLine,
      works.load leftLine⟩, scratchLine⟩
  · exact ⟨works.load leftLine, rightLine⟩

end Workplace.OneLine

namespace Operand.OneLine

variable {operand : Operand}

/-- The place of an operand is written on one line. A temporary is written as a register, whatever
its name is. -/
theorem place (oneLine : operand.OneLine) : Gives Place.OneLine operand.place := by
  rw [Operand.place]
  split
  · exact Gives.map (fun _ _ => trivial) (fun register _ => Place.oneLine_register register)
  · exact Gives.ok oneLine.text
  · exact Gives.ok oneLine.text
  · exact Gives.ok oneLine.name

/-- The workplace of a result is written on one line. It is the place of the result or the scratch
register. -/
theorem ofTarget (oneLine : operand.OneLine) :
    Gives Workplace.OneLine (Workplace.ofTarget operand) := by
  have noStore : ∀ slot ∈ (none : Option Place), slot.OneLine := by
    intro slot member
    cases member
  have slotStore : ∀ slot ∈ some (Place.memory operand.text), slot.OneLine := by
    intro slot member
    cases member
    exact oneLine.text
  rw [Workplace.ofTarget]
  split
  · exact Gives.map (fun _ _ => trivial)
      (fun register _ => ⟨Place.oneLine_register register, noStore⟩)
  · exact Gives.ok ⟨Place.oneLine_register .edi, slotStore⟩
  · exact Gives.error

end Operand.OneLine

namespace Quad

variable {quad : Quad} {symbol : String}

/-- An operand that is required is one of the quadruple, or there is a fault. What it is required
for appears in the fault only. -/
theorem required_oneLine {operand : Option Operand} (oneLine : ∀ found ∈ operand, found.OneLine)
    (what : String) : Gives Operand.OneLine (quad.required operand what) := by
  cases operand with
  | none => exact Gives.error
  | some found => exact Gives.ok (oneLine found rfl)

namespace OneLine

/-- The places of two operands and the workplace of the result are written on one line, if all three
operands are there. -/
theorem operands (oneLine : quad.OneLine) :
    Gives (fun places => places.1.OneLine ∧ places.2.1.OneLine ∧ places.2.2.OneLine)
      quad.operands := by
  refine (required_oneLine oneLine.left _).bind ?_
  intro left leftLine
  refine leftLine.place.bind ?_
  intro leftPlace leftPlaced
  refine (required_oneLine oneLine.right _).bind ?_
  intro right rightLine
  refine rightLine.place.bind ?_
  intro rightPlace rightPlaced
  refine (required_oneLine oneLine.target _).bind ?_
  intro target targetLine
  refine targetLine.ofTarget.bind ?_
  intro workplace works
  exact Gives.ok ⟨leftPlaced, rightPlaced, works⟩

/-- A return has lines that are one line each: its value is moved unless it is there already, and a
jump leads to a fixed label. -/
theorem selectReturn (oneLine : quad.OneLine) :
    Gives (fun lines => ∀ line ∈ lines, line.OneLine) quad.selectReturn := by
  refine (required_oneLine oneLine.target _).bind ?_
  intro value valueLine
  refine valueLine.place.bind ?_
  intro place placed
  have loads : ∀ line ∈ (if place.same accumulator then [] else [Line.move accumulator place]),
      line.OneLine := by
    split
    · exact List.forall_mem_nil _
    · exact List.forall_mem_singleton.mpr
        (Line.oneLine_move (Place.oneLine_register .eax) placed)
  refine Gives.ok (List.forall_mem_append.mpr ⟨loads, ?_⟩)
  exact List.forall_mem_singleton.mpr (Line.oneLine_jump (by decide))

/-- A copy has lines that are one line each, through the scratch register or not. -/
theorem selectCopy (oneLine : quad.OneLine) :
    Gives (fun lines => ∀ line ∈ lines, line.OneLine) quad.selectCopy := by
  refine (required_oneLine oneLine.left _).bind ?_
  intro source sourceLine
  refine (required_oneLine oneLine.target _).bind ?_
  intro target targetLine
  refine sourceLine.place.bind ?_
  intro place placed
  have scratchLine : scratch.OneLine := Place.oneLine_register .edi
  have slotLine : (Place.memory target.text).OneLine := targetLine.text
  split
  · refine Gives.ok (List.forall_mem_cons.mpr ⟨Line.oneLine_move scratchLine placed, ?_⟩)
    exact List.forall_mem_singleton.mpr (Line.oneLine_move slotLine scratchLine)
  · refine targetLine.place.bind ?_
    intro written isWritten
    exact Gives.ok (List.forall_mem_singleton.mpr (Line.oneLine_move isWritten placed))

/-- A signed operand has lines that are one line each. The spelling of the sign is compared and not
written, so it may be any text. -/
theorem selectUnary (oneLine : quad.OneLine) :
    Gives (fun lines => ∀ line ∈ lines, line.OneLine) (quad.selectUnary symbol) := by
  refine (required_oneLine oneLine.left _).bind ?_
  intro source sourceLine
  refine sourceLine.place.bind ?_
  intro place placed
  refine (required_oneLine oneLine.target _).bind ?_
  intro target targetLine
  refine targetLine.ofTarget.bind ?_
  intro workplace works
  have negations : ∀ line ∈ (if symbol = "-" then
      [Line.instruction (.negate workplace.register)] else []), line.OneLine := by
    split
    · exact List.forall_mem_singleton.mpr (Line.oneLine_negate works.register)
    · exact List.forall_mem_nil _
  refine Gives.ok ?_
  simp only [List.forall_mem_append]
  exact ⟨⟨works.load placed, negations⟩, works.storing⟩

/-- An arithmetic operation has lines that are one line each, the note on the accumulator
included. -/
theorem selectArithmetic (oneLine : quad.OneLine) :
    Gives (fun lines => ∀ line ∈ lines, line.OneLine) (quad.selectArithmetic symbol) := by
  refine oneLine.operands.bind ?_
  rintro ⟨left, right, workplace⟩ ⟨leftLine, rightLine, works⟩
  dsimp only
  split
  · exact Gives.error
  · rename_i op _
    have note : ∀ line ∈ accumulatorNote op workplace.register, line.OneLine := by
      rw [accumulatorNote]
      split
      · have mnemonic : Text.OneLine op.mnemonic := by cases op <;> decide
        exact List.forall_mem_singleton.mpr (Line.oneLine_comment
          (.append (.append (.append mnemonic (by decide)) (by decide)) (by decide)))
      · exact List.forall_mem_nil _
    obtain ⟨loads, rightPlaced⟩ := works.loadPair leftLine rightLine
    refine Gives.ok ?_
    simp only [List.forall_mem_append, List.forall_mem_singleton]
    exact ⟨⟨⟨loads, note⟩, Line.oneLine_arithmetic op works.register rightPlaced⟩, works.storing⟩

/-- A comparison has lines that are one line each, if the label of its branch is. The branch is
another quadruple, so its label is not among the operands of this one. -/
theorem selectComparison (oneLine : quad.OneLine) {branch : Branch}
    (branchLine : Text.OneLine branch.label) :
    Gives (fun lines => ∀ line ∈ lines, line.OneLine) (quad.selectComparison symbol branch) := by
  refine oneLine.operands.bind ?_
  rintro ⟨left, right, workplace⟩ ⟨leftLine, rightLine, works⟩
  dsimp only
  split
  · exact Gives.error
  · obtain ⟨loads, rightPlaced⟩ := works.loadPair leftLine rightLine
    refine Gives.ok (List.forall_mem_append.mpr ⟨loads, ?_⟩)
    refine List.forall_mem_cons.mpr ⟨Line.oneLine_compare works.register rightPlaced, ?_⟩
    exact List.forall_mem_singleton.mpr (Line.oneLine_jumpIf _ branchLine)

/-- A conditional jump has lines that are one line each. Where it is left as a comment, the comment
quotes the quadruple. -/
theorem selectBranch (oneLine : quad.OneLine) (command : Command)
    (producer : Option CommandKind) :
    Gives (fun lines => ∀ line ∈ lines, line.OneLine) (quad.selectBranch command producer) := by
  refine (required_oneLine oneLine.left _).bind ?_
  intro condition conditionLine
  refine (required_oneLine oneLine.target _).bind ?_
  intro label labelLine
  split
  · exact Gives.ok (List.forall_mem_nil _)
  · exact Gives.ok (List.forall_mem_singleton.mpr
      (Line.oneLine_comment (.append oneLine.text (by decide))))
  · refine conditionLine.place.bind ?_
    intro place placed
    have scratchLine : scratch.OneLine := Place.oneLine_register .edi
    have zeroLine : (Place.immediate "0").OneLine := by decide
    by_cases isLiteral : condition.kind = .literal
    · simp only [if_pos isLiteral]
      refine Gives.ok (List.forall_mem_cons.mpr ⟨Line.oneLine_move scratchLine placed, ?_⟩)
      refine List.forall_mem_cons.mpr ⟨Line.oneLine_compare scratchLine zeroLine, ?_⟩
      exact List.forall_mem_singleton.mpr (Line.oneLine_jumpIf _ labelLine.name)
    · simp only [if_neg isLiteral]
      refine Gives.ok (List.forall_mem_cons.mpr ⟨Line.oneLine_compare placed zeroLine, ?_⟩)
      exact List.forall_mem_singleton.mpr (Line.oneLine_jumpIf _ labelLine.name)

end OneLine

end Quad

/-- What selection leaves behind one quadruple: lines that are one line each, and waiting branches
whose labels are. -/
structure Selected.OneLine (selected : Selected) : Prop where
  lines : ∀ line ∈ selected.lines, line.OneLine
  waiting : ∀ branch ∈ selected.waiting, Text.OneLine branch.label

/-- Selection keeps to one line, whatever the command is and whether a comparison feeds a branch.
The branches that wait are handed on or used up, so their labels are all that has to be known about
what selection knows. -/
theorem Quad.OneLine.selectCommand {quad : Quad} (oneLine : quad.OneLine) {state : Selection}
    (waiting : ∀ branch ∈ state.waiting, Text.OneLine branch.label) (feeds : Bool)
    (command : Command) :
    Gives Selected.OneLine (state.selectCommand feeds quad command) := by
  have plain {computation : Except Fault (List Line)}
      (given : Gives (fun lines => ∀ line ∈ lines, line.OneLine) computation) :
      Gives Selected.OneLine
        (computation >>= fun lines => .ok { lines, waiting := state.waiting }) :=
    given.bind (fun lines linesLine => Gives.ok ⟨linesLine, waiting⟩)
  have commented {note : String} (noteLine : Text.OneLine note) :
      ∀ line ∈ [Line.comment (quad.text ++ note)], line.OneLine :=
    List.forall_mem_singleton.mpr (Line.oneLine_comment (.append oneLine.text noteLine))
  unfold Selection.selectCommand
  cases command.kind with
  | label =>
    refine (required_oneLine oneLine.target _).bind ?_
    intro target targetLine
    exact Gives.ok
      ⟨List.forall_mem_singleton.mpr (Line.oneLine_label targetLine.name), waiting⟩
  | unconditionalJump =>
    refine (required_oneLine oneLine.target _).bind ?_
    intro target targetLine
    exact Gives.ok
      ⟨List.forall_mem_singleton.mpr (Line.oneLine_jump targetLine.name), waiting⟩
  | ret => exact plain oneLine.selectReturn
  | copy => exact plain oneLine.selectCopy
  | unary => exact plain oneLine.selectUnary
  | arithmetic => exact plain oneLine.selectArithmetic
  | relational =>
    dsimp only
    split
    · rename_i branch others isWaiting
      rw [isWaiting] at waiting
      obtain ⟨branchLine, othersLine⟩ := List.forall_mem_cons.mp waiting
      refine (oneLine.selectComparison branchLine).bind ?_
      intro lines linesLine
      exact Gives.ok ⟨linesLine, othersLine⟩
    · exact Gives.ok ⟨commented (by decide), waiting⟩
  | logical => exact Gives.ok ⟨commented (by decide), waiting⟩
  | conditionalJump => exact plain (oneLine.selectBranch command _)

/-- The lines of quadruples in a row are one line each, also those that are emitted before a
fault. -/
theorem Selection.selectAll_oneLine {feeding : List Nat} {quads : List Quad}
    (oneLine : ∀ quad ∈ quads, quad.OneLine) {state : Selection}
    (waiting : ∀ branch ∈ state.waiting, Text.OneLine branch.label) (index : Nat) :
    ∀ line ∈ (state.selectAll feeding index quads).lines, line.OneLine := by
  induction quads generalizing state index with
  | nil => exact List.forall_mem_nil _
  | cons quad later inductionHypothesis =>
    obtain ⟨here, others⟩ := List.forall_mem_cons.mp oneLine
    rw [selectAll]
    cases quad.command with
    | none => exact inductionHypothesis others waiting _
    | some command =>
      have given := here.selectCommand waiting (feeding.contains index) command
      cases chosen : state.selectCommand (feeding.contains index) quad command with
      | error fault =>
        simp only [chosen]
        exact List.forall_mem_nil _
      | ok selected =>
        have selectedLine := given selected chosen
        simp only [chosen]
        refine List.forall_mem_append.mpr ⟨selectedLine.lines, ?_⟩
        exact inductionHypothesis others selectedLine.waiting _

/-- The labels of the branches that wait for comparisons are targets of quadruples. Which
comparisons they wait for does not matter here, so the producers may be any. -/
theorem Pairing.collect_oneLine {quads : List Quad} (oneLine : ∀ quad ∈ quads, quad.OneLine)
    (index : Nat) (producers : List (String × Producer)) :
    ∀ branch ∈ (collect index producers quads).branches, Text.OneLine branch.label := by
  induction quads generalizing index producers with
  | nil => exact List.forall_mem_nil _
  | cons quad later inductionHypothesis =>
    obtain ⟨here, others⟩ := List.forall_mem_cons.mp oneLine
    rw [collect_cons]
    split
    · rename_i comparison label tests isTarget
      exact List.forall_mem_cons.mpr
        ⟨(here.target label isTarget).name, inductionHypothesis others _ _⟩
    · exact inductionHypothesis others _ _

/-- A program is assembled to lines that are one line each, if its quadruples stand on one line. The
frame is set up and given up by lines that are known beforehand but for its size. -/
theorem Assembled.ofProgram_oneLine {program : Program}
    (oneLine : ∀ quad ∈ program.quads, quad.OneLine) :
    ∀ line ∈ (Assembled.ofProgram program).lines, line.OneLine := by
  have opening : ∀ line ∈ prologue program.frameSize, line.OneLine := by
    have reserving : ∀ line ∈ (if program.frameSize = 0 then [] else
        [Line.instruction (.arithmetic .sub (.register .esp)
          (.immediate (Text.decimal program.frameSize)))]), line.OneLine := by
      split
      · exact List.forall_mem_nil _
      · exact List.forall_mem_singleton.mpr (Line.oneLine_arithmetic .sub
          (Place.oneLine_register .esp) (Text.oneLine_decimal program.frameSize))
    have fixedLines : ∀ line ∈ [Line.label "main", .instruction (.push (.register .ebp)),
        .move (.register .ebp) (.register .esp)], line.OneLine := by decide
    exact List.forall_mem_append.mpr ⟨fixedLines, reserving⟩
  have closing : ∀ line ∈ epilogue, line.OneLine := by decide
  have code : ∀ line ∈ (Selection.selectAll (Pairing.ofQuads program.quads).feeding
      ⟨(Pairing.ofQuads program.quads).branches, []⟩ 0 program.quads).lines, line.OneLine :=
    Selection.selectAll_oneLine oneLine (Pairing.collect_oneLine oneLine 0 []) 0
  exact List.forall_mem_append.mpr ⟨List.forall_mem_append.mpr ⟨opening, code⟩, closing⟩

/-!
## Listings
-/

/-- The quadruples of a program that comes from a text stand on one line each. The text is what the
names need, and the other premises say that the program is the one that lowering has made of it. -/
theorem Parsed.quadsOneLine {text : String} {parsed : Parsed} {lowered : Lowered}
    (accepted : Parsed.ofTokens (Lexed.ofText text).tokens = .ok parsed)
    (resolved : parsed.root.resolve.fault = none)
    (isLowered : Lowered.ofTree parsed.root.resolve.tree = .ok lowered) :
    ∀ quad ∈ lowered.program.quads, quad.OneLine := by
  obtain ⟨labels, lowers⟩ := Parsed.lowers accepted resolved isLowered
  exact lowers.oneLine (Parsed.namesOneLine accepted).resolved

namespace Session.Coherent

variable {session : Session} {lexed : Option String}

/-- The quadruples of a coherent session stand on one line each, because its tokens have been lexed,
from whatever text that was. -/
theorem quadsOneLine (coherent : session.Coherent lexed) {program : Program}
    (present : session.program = some program) : ∀ quad ∈ program.quads, quad.OneLine := by
  obtain ⟨hasScopes, tree, lowered, isTree, isLowered, rfl⟩ := coherent.program program present
  obtain ⟨table, isTable⟩ := Option.isSome_iff_exists.mp hasScopes
  obtain ⟨tokens, parsed, isTokens, accepted, resolved, sameTree, -⟩ :=
    coherent.scopes table isTable
  obtain ⟨text, -, rfl⟩ := coherent.tokens tokens isTokens
  rw [isTree] at sameTree
  cases sameTree
  exact Parsed.quadsOneLine accepted resolved isLowered

/-- The listing of the program has a line for each quadruple, and no others. So the listing can be
read line by line. -/
theorem programLines (coherent : session.Coherent lexed) {program : Program}
    (present : session.program = some program) :
    Text.lines program.listing = program.quads.map Quad.line := by
  apply Text.lines_finished
  rw [List.forall_mem_map]
  intro quad member
  exact (coherent.quadsOneLine present quad member).line

/-- The listing of the assembly has a line for each of its lines, and no others. What is proved
about the list of lines is proved about the lines of the text. -/
theorem assemblyLines (coherent : session.Coherent lexed) {lines : List Line}
    (present : session.assembly = some lines) :
    Text.lines (Line.listing lines) = lines.map Line.text := by
  obtain ⟨program, isProgram, assembled⟩ := coherent.assembly lines present
  have isLines : lines = (Assembled.ofProgram program).lines := by
    rw [Assembled.result] at assembled
    split at assembled
    · cases assembled
    · exact (Except.ok.inj assembled).symm
  apply Text.lines_finished
  rw [List.forall_mem_map, isLines]
  exact Assembled.ofProgram_oneLine (coherent.quadsOneLine isProgram)

end Session.Coherent

/-- **The lines of a listing are the lines of the program.**

Take a session on any text and perform any operations. If it has a program, the text that it shows
for it is taken apart into the lines of the quadruples, one for each and in their order. If it has
assembly, the text that it shows for that is taken apart into the texts of the assembly's lines. So
whatever is said about the lines of a program is said about the lines of the text that is written,
and nothing in a name or a comment can start a line of its own. -/
theorem listings_show_lines (text : String) (operations : List Session.Operation) :
    let session := (operations.foldl Session.History.after (Session.History.start text)).session
    (∀ program, session.program = some program →
      ∃ listing, session.show? .text .program = some listing ∧
        Text.lines listing = program.quads.map Quad.line) ∧
    ∀ lines, session.assembly = some lines →
      ∃ listing, session.show? .text .assembly = some listing ∧
        Text.lines listing = lines.map Line.text := by
  have start : (Session.History.start text).session.Coherent (Session.History.start text).lexed :=
    Session.Coherent.ofText text none
  have coherent := start.afterAll operations
  constructor
  case left =>
    intro program present
    refine ⟨program.listing, ?_, coherent.programLines present⟩
    simp only [Session.show?, present, Option.map_some]
  case right =>
    intro lines present
    refine ⟨Line.listing lines, ?_, coherent.assemblyLines present⟩
    simp only [Session.show?, present, Option.map_some]

end IntMain
