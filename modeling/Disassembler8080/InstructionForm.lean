/-
# The instruction set of the 8080

Every byte of a program is either the first byte of a documented instruction or of none.  An
`InstructionForm` says how a documented instruction is written and how many operand bytes follow
its opcode; `InstructionForm.ofOpcode?` finds the form of a byte.

The opcodes are laid out in octal.  The two high bits choose one of four groups and the two lower
octal digits name registers, register pairs, conditions or operations, so the table is four short
functions on those digits and not a list of 256 entries.

Main statements: `ofOpcode?_eq_none_iff` names the twelve bytes that begin no instruction, and
`opcode_of_ofOpcode?` says that a form carries the byte that it was found under.
-/

namespace Disassembler8080

/-! ## 1. Forms -/

/-- What follows an opcode in memory. -/
inductive OperandWidth where
  | none
  | byte
  | word
deriving DecidableEq, Repr

/-- The bytes that an instruction takes, its opcode among them. -/
def OperandWidth.size : OperandWidth → Nat
  | .none => 1
  | .byte => 2
  | .word => 3

/-- How one documented instruction is written and how long it is.  The text `fixed` holds the
registers and other operands that the opcode itself determines; an operand that follows in
memory is written directly after it. -/
structure InstructionForm where
  opcode : UInt8
  mnemonic : String
  fixed : String
  width : OperandWidth
deriving DecidableEq, Repr

namespace InstructionForm

/-- The bytes that an instruction of this form takes. -/
def size (form : InstructionForm) : Nat := form.width.size

/-- What is written of an instruction before its operand.  Operands of either kind follow a tab,
which an instruction without any goes without. -/
def head (form : InstructionForm) : String :=
  form.mnemonic ++ (if form.width ≠ .none ∨ form.fixed ≠ "" then "\t" ++ form.fixed else "")

/-! ## 2. The names that octal digits stand for -/

/-- The eight places that an operand can name; `m` is the byte that `h` and `l` point to. -/
def register : Fin 8 → String
  | 0 => "b" | 1 => "c" | 2 => "d" | 3 => "e" | 4 => "h" | 5 => "l" | 6 => "m" | 7 => "a"

/-- The register pairs; the fourth is `last`, which depends on the instruction. -/
def registerPair (last : String) : Fin 4 → String
  | 0 => "b" | 1 => "d" | 2 => "h" | 3 => last

/-- The conditions of jumps, calls and returns. -/
def condition : Fin 8 → String
  | 0 => "nz" | 1 => "z" | 2 => "nc" | 3 => "c" | 4 => "po" | 5 => "pe" | 6 => "p" | 7 => "m"

/-- The operations on the accumulator and a register. -/
def arithmetic : Fin 8 → String
  | 0 => "add" | 1 => "adc" | 2 => "sub" | 3 => "sbb"
  | 4 => "ana" | 5 => "xra" | 6 => "ora" | 7 => "cmp"

/-- The operations on the accumulator and an operand byte. -/
def arithmeticImmediate : Fin 8 → String
  | 0 => "adi" | 1 => "aci" | 2 => "sui" | 3 => "sbi"
  | 4 => "ani" | 5 => "xri" | 6 => "ori" | 7 => "cpi"

/-- The operations on the accumulator and the flags alone. -/
def accumulator : Fin 8 → String
  | 0 => "rlc" | 1 => "rrc" | 2 => "ral" | 3 => "rar"
  | 4 => "daa" | 5 => "cma" | 6 => "stc" | 7 => "cmc"

/-- The pair that an octal digit names, and whether the digit is odd: instructions on pairs come
in twos, told apart by the lowest bit of the digit. -/
def pairOf (digit : Fin 8) : Fin 4 × Bool :=
  (⟨digit / 2, by omega⟩, digit.val % 2 == 1)

/-! ## 3. The four groups

Each function gives mnemonic, fixed operands and operand width for the two lower octal digits. -/

/-- What a form says besides its opcode. -/
abbrev Spelling := String × String × OperandWidth

/-- Opcodes 00 to 3f: transfers to and from memory, pairs, increments and immediates. -/
def transferGroup (y z : Fin 8) : Option Spelling :=
  match z with
  | 0 => if y = 0 then some ("nop", "", .none) else none
  | 1 =>
    match pairOf y with
    | (pair, false) => some ("lxi", registerPair "sp" pair ++ ",", .word)
    | (pair, true) => some ("dad", registerPair "sp" pair, .none)
  | 2 =>
    match y with
    | 0 => some ("stax", "b", .none)
    | 1 => some ("ldax", "b", .none)
    | 2 => some ("stax", "d", .none)
    | 3 => some ("ldax", "d", .none)
    | 4 => some ("shld", "", .word)
    | 5 => some ("lhld", "", .word)
    | 6 => some ("sta", "", .word)
    | 7 => some ("lda", "", .word)
  | 3 =>
    match pairOf y with
    | (pair, false) => some ("inx", registerPair "sp" pair, .none)
    | (pair, true) => some ("dcx", registerPair "sp" pair, .none)
  | 4 => some ("inr", register y, .none)
  | 5 => some ("dcr", register y, .none)
  | 6 => some ("mvi", register y ++ ",", .byte)
  | 7 => some (accumulator y, "", .none)

/-- Opcodes 40 to 7f: moves between registers.  The move from memory to itself would be
pointless, and its opcode halts the processor. -/
def moveGroup (y z : Fin 8) : Spelling :=
  if y = 6 ∧ z = 6 then ("hlt", "", .none) else ("mov", register y ++ "," ++ register z, .none)

/-- Opcodes 80 to bf: arithmetic and logic with a register. -/
def arithmeticGroup (y z : Fin 8) : Spelling :=
  (arithmetic y, register z, .none)

/-- Opcodes c0 to ff: jumps, calls, the stack, input and output, and operations with an operand
byte. -/
def controlGroup (y z : Fin 8) : Option Spelling :=
  match z with
  | 0 => some ("r" ++ condition y, "", .none)
  | 1 =>
    match pairOf y with
    | (pair, false) => some ("pop", registerPair "psw" pair, .none)
    | (0, true) => some ("ret", "", .none)
    | (1, true) => none
    | (2, true) => some ("pchl", "", .none)
    | (3, true) => some ("sphl", "", .none)
  | 2 => some ("j" ++ condition y, "", .word)
  | 3 =>
    match y with
    | 0 => some ("jmp", "", .word)
    | 1 => none
    | 2 => some ("out", "", .byte)
    | 3 => some ("in", "", .byte)
    | 4 => some ("xthl", "", .none)
    | 5 => some ("xchg", "", .none)
    | 6 => some ("di", "", .none)
    | 7 => some ("ei", "", .none)
  | 4 => some ("c" ++ condition y, "", .word)
  | 5 =>
    match pairOf y with
    | (pair, false) => some ("push", registerPair "psw" pair, .none)
    | (0, true) => some ("call", "", .word)
    | (_, true) => none
  | 6 => some (arithmeticImmediate y, "", .byte)
  | 7 => some ("rst", y.val.repr, .none)

/-! ## 4. The form of a byte -/

/-- The group of an opcode: its two highest bits. -/
def group (opcode : UInt8) : Fin 4 := ⟨opcode.toNat / 64, by have := opcode.toNat_lt; omega⟩

/-- The middle octal digit of an opcode. -/
def middle (opcode : UInt8) : Fin 8 := ⟨opcode.toNat / 8 % 8, by omega⟩

/-- The lowest octal digit of an opcode. -/
def lowest (opcode : UInt8) : Fin 8 := ⟨opcode.toNat % 8, by omega⟩

/-- How the instruction of an opcode is spelled, if there is a documented one. -/
def spelling? (opcode : UInt8) : Option Spelling :=
  match group opcode with
  | 0 => transferGroup (middle opcode) (lowest opcode)
  | 1 => some (moveGroup (middle opcode) (lowest opcode))
  | 2 => some (arithmeticGroup (middle opcode) (lowest opcode))
  | 3 => controlGroup (middle opcode) (lowest opcode)

/-- The documented instruction that begins with a byte. -/
def ofOpcode? (opcode : UInt8) : Option InstructionForm :=
  (spelling? opcode).map fun (mnemonic, fixed, width) => ⟨opcode, mnemonic, fixed, width⟩

/-- All documented instructions in the order of their opcodes. -/
def all : List InstructionForm :=
  (List.range UInt8.size).filterMap fun opcode => ofOpcode? (UInt8.ofNat opcode)

/-- A form carries the byte that it was found under. -/
theorem opcode_of_ofOpcode? {opcode : UInt8} {form : InstructionForm}
    (h : ofOpcode? opcode = some form) : form.opcode = opcode := by
  obtain ⟨spelling, _, rfl⟩ := Option.map_eq_some_iff.1 h
  rfl

/-- The bytes that begin no documented instruction.  The processor runs each of them as another
name of a documented one, which an assembler would not write back, so they count as data. -/
def undocumented : List UInt8 :=
  [0x08, 0x10, 0x18, 0x20, 0x28, 0x30, 0x38, 0xcb, 0xd9, 0xdd, 0xed, 0xfd]

/-- Exactly twelve bytes begin no instruction. -/
theorem ofOpcode?_eq_none_iff (opcode : UInt8) :
    ofOpcode? opcode = none ↔ opcode ∈ undocumented := by
  revert opcode
  have all : ∀ n : Fin 256, ofOpcode? (UInt8.ofFin n) = none ↔ UInt8.ofFin n ∈ undocumented := by
    decide +kernel
  intro opcode
  simpa using all opcode.toFin

end InstructionForm

end Disassembler8080
