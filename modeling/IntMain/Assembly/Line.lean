import IntMain.Text.Layout

/-!
# Assembly lines

A program in assembly is a list of lines: labels, instructions and comments. An
instruction's operands are places, which are registers, immediate values, memory or
symbols. Two places are the same if they are written alike.
-/

namespace IntMain

/-- The registers of the machine that assembly programs use. -/
inductive Register
  | eax
  | ebx
  | ecx
  | edx
  | edi
  | esp
  | ebp
  deriving DecidableEq, Repr

/-- The name of a register. -/
def Register.name : Register → String
  | .eax => "eax"
  | .ebx => "ebx"
  | .ecx => "ecx"
  | .edx => "edx"
  | .edi => "edi"
  | .esp => "esp"
  | .ebp => "ebp"

/-- An operand of an instruction. -/
inductive Place
  | register (named : Register)
  | immediate (text : String)
  | memory (text : String)
  | symbol (name : String)
  deriving DecidableEq, Repr

namespace Place

/-- The text of a place. -/
def text : Place → String
  | .register named => named.name
  | .immediate text => text
  | .memory text => text
  | .symbol name => name

/-- Whether two places are written alike. -/
def same (first second : Place) : Bool := first.text == second.text

end Place

/-- The two-operand arithmetic instructions. -/
inductive Arithmetic
  | add
  | sub
  | mul
  | div
  deriving DecidableEq, Repr

namespace Arithmetic

/-- The mnemonic of an arithmetic instruction. -/
def mnemonic : Arithmetic → String
  | .add => "add"
  | .sub => "sub"
  | .mul => "mul"
  | .div => "div"

/-- The instruction for an operator spelling. -/
def ofSymbol? (symbol : String) : Option Arithmetic :=
  [("+", Arithmetic.add), ("-", .sub), ("*", .mul), ("/", .div)].lookup symbol

/-- Whether the machine's instruction takes its first operand from the accumulator. -/
def takesAccumulator : Arithmetic → Bool
  | .add => false
  | .sub => false
  | .mul => true
  | .div => true

end Arithmetic

/-- How the operands of the last comparison have to be related for a jump. -/
inductive Relation
  | greater
  | less
  | greaterOrEqual
  | lessOrEqual
  | equal
  | notEqual
  deriving DecidableEq, Repr

namespace Relation

/-- The mnemonic of a jump on a relation. -/
def mnemonic : Relation → String
  | .greater => "jg"
  | .less => "jl"
  | .greaterOrEqual => "jge"
  | .lessOrEqual => "jle"
  | .equal => "je"
  | .notEqual => "jne"

/-- The relation that holds when this one does not. -/
def negated : Relation → Relation
  | .greater => .lessOrEqual
  | .less => .greaterOrEqual
  | .greaterOrEqual => .less
  | .lessOrEqual => .greater
  | .equal => .notEqual
  | .notEqual => .equal

/-- The relation for an operator spelling. -/
def ofSymbol? (symbol : String) : Option Relation :=
  [(">", Relation.greater), ("<", .less), (">=", .greaterOrEqual), ("<=", .lessOrEqual),
   ("==", .equal), ("!=", .notEqual)].lookup symbol

end Relation

/-- An instruction of the machine. -/
inductive Instruction
  | push (source : Place)
  | pop (target : Place)
  | ret
  | move (target source : Place)
  | arithmetic (op : Arithmetic) (target source : Place)
  | negate (target : Place)
  | compare (left right : Place)
  | jump (label : String)
  | jumpIf (relation : Relation) (label : String)
  deriving DecidableEq, Repr

/-- The text of an instruction. -/
def Instruction.text : Instruction → String
  | .push source => "push " ++ source.text
  | .pop target => "pop " ++ target.text
  | .ret => "ret"
  | .move target source => "mov " ++ target.text ++ ", " ++ source.text
  | .arithmetic op target source => op.mnemonic ++ " " ++ target.text ++ ", " ++ source.text
  | .negate target => "neg " ++ target.text
  | .compare left right => "cmp " ++ left.text ++ ", " ++ right.text
  | .jump label => "jmp " ++ label
  | .jumpIf relation label => relation.mnemonic ++ " " ++ label

/-- A line of an assembly program. -/
inductive Line
  | label (name : String)
  | instruction (executed : Instruction)
  | comment (text : String)
  deriving DecidableEq, Repr

namespace Line

/-- The text of a line. Labels stand at the left, everything else is indented. -/
def text : Line → String
  | .label name => name ++ ":"
  | .instruction executed => "    " ++ executed.text
  | .comment text => "    ; " ++ text

/-- The line that moves a value. -/
def move (target source : Place) : Line := .instruction (.move target source)

/-- The text of a whole program. -/
def listing (lines : List Line) : String := Text.finished (lines.map text)

end Line

end IntMain
