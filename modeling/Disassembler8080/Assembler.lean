/-
# The assembler

An assembler reads a listing and gives back the bytes of the program.  It knows nothing of how
listings are made but their notation, so that assembling a listing tells whether the listing says
everything about the program that it was made from.

A listing is read in two passes.  The first one goes through the body, the lines up to the first
empty one, and counts the bytes of its statements: a label stands for the count where it is met.
The lines after the empty one define further names, and an empty line and the directive `end` close
the listing.  The second pass writes the statements as bytes and looks up every name that an operand
uses.  A name may be bound once only, and its digits mean nothing.
-/
import Std.Data.ExtTreeMap
import Disassembler8080.Numeral
import Disassembler8080.Statement

namespace Disassembler8080.Assembler

/-! ## 1. What is read -/

/-- Why a listing is not a program. -/
inductive Problem where
  | unreadable (line : String)
  | boundTwice (name : String)
  | unbound (name : String)
deriving DecidableEq, Repr

/-- The operand of an instruction as it is written. -/
inductive Argument where
  | none
  | byte (value : UInt8)
  | name (name : String)
deriving DecidableEq, Repr

/-- A line of the body. -/
inductive Item where
  | label (name : String)
  | instruction (form : InstructionForm) (argument : Argument)
  | data (value : UInt8)
deriving DecidableEq, Repr

/-- The bytes that a line of the body adds to the program. -/
def Item.size : Item → Nat
  | .label _ => 0
  | .instruction form _ => form.size
  | .data _ => 1

/-! ## 2. Reading lines -/

/-- Reads exactly `width` hexadecimal digits. -/
def readDigits? (width : Nat) (text : List Char) : Option Nat :=
  if text.length = width then Numeral.digitsFrom? .hexadecimal 0 text else none

/-- Reads a byte: a mark and two digits. -/
def readByte? : List Char → Option UInt8
  | '$' :: digits => (readDigits? 2 digits).map UInt8.ofNat
  | _ => none

/-- Reads an address: a mark and four digits. -/
def readConstant? : List Char → Option Address
  | '$' :: digits => (readDigits? 4 digits).map UInt16.ofNat
  | _ => none

/-- Reads a name: a letter and four digits. -/
def readName? : List Char → Option String
  | 'L' :: digits => (readDigits? 4 digits).map fun _ => String.ofList ('L' :: digits)
  | _ => none

/-- Reads the operand of an instruction. -/
def readArgument? (text : List Char) : OperandWidth → Option Argument
  | .none => if text.isEmpty then some .none else none
  | .byte => (readByte? text).map .byte
  | .word => (readName? text).map .name

/-- Reads an instruction of a form. -/
def readAs? (text : List Char) (form : InstructionForm) : Option Item := do
  let rest ← form.head.toList.isPrefixOf? text
  let argument ← readArgument? rest form.width
  return .instruction form argument

/-- Reads what follows a data byte: nothing, or tabs and a comment. -/
def isComment (text : List Char) : Bool :=
  text.isEmpty || (text.dropWhile (· == '\t')).head? == some ';'

/-- Reads a data byte with a comment or without. -/
def readData? (text : List Char) : Option Item := do
  let rest ← "db\t".toList.isPrefixOf? text
  let value ← readByte? (rest.take 3)
  if isComment (rest.drop 3) then some (.data value) else none

/-- Reads a line of the body: a statement behind a tab, or a name before a colon. -/
def readItem (line : List Char) : Except Problem Item :=
  let item? :=
    match line with
    | '\t' :: text => (readData? text).orElse fun _ => InstructionForm.all.findSome? (readAs? text)
    | _ =>
      if line.getLast? = some ':' then (readName? line.dropLast).map .label
      else none
  match item? with
  | some item => .ok item
  | none => .error (.unreadable (String.ofList line))

/-- Reads a definition: a name and the address that it stands for. -/
def readDefinition (line : List Char) : Except Problem (String × Address) :=
  let definition? := do
    let name ← readName? (line.take 5)
    let rest ← "\t= ".toList.isPrefixOf? (line.drop 5)
    let value ← readConstant? rest
    return (name, value)
  match definition? with
  | some definition => .ok definition
  | none => .error (.unreadable (String.ofList line))

/-! ## 3. Names -/

/-- The names of a program and what they stand for. -/
abbrev Names := Std.ExtTreeMap String Address

/-- Binds a name that is not bound yet. -/
def bind (names : Names) (name : String) (value : Address) : Except Problem Names :=
  if names.contains name then .error (.boundTwice name) else .ok (names.insert name value)

/-- Binds the labels of a body that begins at a count. -/
def bindLabels (names : Names) (count : Nat) : List Item → Except Problem Names
  | [] => .ok names
  | .label name :: rest => do
    let names ← bind names name (UInt16.ofNat count)
    bindLabels names count rest
  | item :: rest => bindLabels names (count + item.size) rest

/-- Binds the names that are defined after the body. -/
def bindDefinitions (names : Names) (definitions : List (String × Address)) :
    Except Problem Names :=
  definitions.foldlM (fun names (name, value) => bind names name value) names

/-! ## 4. Writing bytes -/

/-- The value of an operand. -/
def resolve (names : Names) : Argument → Except Problem Operand
  | .none => .ok .none
  | .byte value => .ok (.byte value)
  | .name name =>
    match names[name]? with
    | some address => .ok (.word address)
    | none => .error (.unbound name)

/-- The bytes of a line of the body. -/
def encodeItem (names : Names) : Item → Except Problem (List UInt8)
  | .label _ => .ok []
  | .data value => .ok [value]
  | .instruction form argument => do
    let operand ← resolve names argument
    return form.opcode :: operand.encode

/-- The lines that close a listing. -/
def closing : List (List Char) := [[], "end".toList, [], []]

/-- Assembles the lines of a listing. -/
def assembleLines (lines : List (List Char)) : Except Problem (List UInt8) := do
  let (body, rest) := lines.span fun line => !line.isEmpty
  let (definitions, rest) := (rest.drop 1).span fun line => !line.isEmpty
  if rest ≠ closing then
    .error (.unreadable ("\n".intercalate (rest.map String.ofList)))
  let items ← body.mapM readItem
  let definitions ← definitions.mapM readDefinition
  let names ← bindLabels ∅ 0 items
  let names ← bindDefinitions names definitions
  let bytes ← items.mapM (encodeItem names)
  return bytes.flatten

/-- Assembles a listing. -/
def assemble (listing : String) : Except Problem (List UInt8) :=
  assembleLines (listing.toList.splitOn '\n')

end Disassembler8080.Assembler
