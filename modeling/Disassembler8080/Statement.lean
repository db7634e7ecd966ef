/-
# Statements

A program is a row of statements: instructions with their operands, and data bytes.  A statement
knows the bytes it takes in memory, the address it refers to, its text in the listing and its
encoding.

An instruction may be built with any operand, not only with one that fits its form.  Its size
always follows the form; its text and its target follow the operand that was given.

Main statement: `length_encode`, a statement whose operand fits its form is encoded in as many
bytes as its size says.
-/
import Disassembler8080.Address
import Disassembler8080.InstructionForm

namespace Disassembler8080

/-! ## 1. Operands -/

/-- The value that follows an opcode. -/
inductive Operand where
  | none
  | byte (value : UInt8)
  | word (value : Address)
deriving DecidableEq, Repr

namespace Operand

/-- The width that an operand has. -/
def width : Operand → OperandWidth
  | .none => .none
  | .byte _ => .byte
  | .word _ => .word

/-- How an operand is written: a byte as a number, a word as a label. -/
def text : Operand → String
  | .none => ""
  | .byte value => "$" ++ String.ofList (Hexadecimal.fixed .lower 2 value.toNat)
  | .word value => value.label

/-- The bytes of an operand, the low one first. -/
def encode : Operand → List UInt8
  | .none => []
  | .byte value => [value]
  | .word value => [value.toUInt8, (value >>> 8).toUInt8]

/-- The word that two bytes in memory hold. -/
def wordOfBytes (low high : UInt8) : Address := high.toUInt16 <<< 8 ||| low.toUInt16

end Operand

/-! ## 2. Statements -/

/-- What stands at one place of a program. -/
inductive Statement where
  | instruction (form : InstructionForm) (operand : Operand)
  | data (value : UInt8)
deriving DecidableEq, Repr

namespace Statement

/-- The bytes that a statement takes in memory. -/
def size : Statement → Nat
  | .instruction form _ => form.size
  | .data _ => 1

/-- The address that a statement refers to. -/
def target? : Statement → Option Address
  | .instruction _ (.word target) => some target
  | _ => none

/-- Whether a byte can be shown as a character: the space and all that leaves a mark on paper. -/
def isPrintable (value : UInt8) : Bool := 0x20 ≤ value && value ≤ 0x7e

/-- How a statement is written.  A data byte that is a printable character shows that character in a
comment. -/
def text : Statement → String
  | .instruction form operand => form.head ++ operand.text
  | .data value =>
    "db\t$" ++ String.ofList (Hexadecimal.fixed .lower 2 value.toNat)
      ++ (if isPrintable value then "\t\t; '" ++ String.singleton (Char.ofNat value.toNat) ++ "'"
          else "")

/-! ## 3. Encoding -/

/-- The bytes of a statement. -/
def encode : Statement → List UInt8
  | .instruction form operand => form.opcode :: operand.encode
  | .data value => [value]

/-- A statement that can stand in memory: its form is the documented one of its opcode, and its
operand is of the width that the form asks for. -/
def WellFormed : Statement → Prop
  | .instruction form operand =>
    InstructionForm.ofOpcode? form.opcode = some form ∧ operand.width = form.width
  | .data _ => True

instance : DecidablePred WellFormed
  | .instruction form operand =>
    inferInstanceAs
      (Decidable (InstructionForm.ofOpcode? form.opcode = some form ∧ operand.width = form.width))
  | .data _ => inferInstanceAs (Decidable True)

/-- The encoding of a well-formed statement takes the bytes that its size says. -/
theorem length_encode {statement : Statement} (h : statement.WellFormed) :
    statement.encode.length = statement.size := by
  cases statement with
  | data value => rfl
  | instruction form operand =>
    simp only [encode, size, InstructionForm.size, ← h.2]
    cases operand <;> rfl

theorem size_pos (statement : Statement) : 0 < statement.size := by
  cases statement with
  | data value => exact Nat.zero_lt_one
  | instruction form operand =>
    simp only [size, InstructionForm.size]
    cases form.width <;> simp [OperandWidth.size]

theorem size_le (statement : Statement) : statement.size ≤ 3 := by
  cases statement with
  | data value => simp [size]
  | instruction form operand =>
    simp only [size, InstructionForm.size]
    cases form.width <;> simp [OperandWidth.size]

end Statement

end Disassembler8080
