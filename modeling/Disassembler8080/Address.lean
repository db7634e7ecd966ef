/-
# Addresses and their texts

The processor addresses 65536 bytes with 16 bits.  This file holds that size and the ways in which
an address is written: as a label, as the constant that defines a label, and inside messages.

Main statement: `length_labelDigits`, every label has four digits.
-/
import Disassembler8080.Hexadecimal

namespace Disassembler8080

/-- The number of addressable bytes. -/
def memorySize : Nat := 0x10000

/-- A place in memory. -/
abbrev Address := UInt16

namespace Address

/-- The digits of a label: four, with capital letters. -/
def labelDigits (address : Address) : List Char := Hexadecimal.fixed .upper 4 address.toNat

/-- A label has four digits. -/
@[simp] theorem length_labelDigits (address : Address) : address.labelDigits.length = 4 := by
  simp [labelDigits]

/-- The name by which the listing refers to an address. -/
def label (address : Address) : String := "L" ++ String.ofList address.labelDigits

/-- The number that the listing defines a label as. -/
def constant (address : Address) : String := "$" ++ String.ofList address.labelDigits

/-- An address in a log message: four digits and no mark. -/
def plain (address : Address) : String :=
  String.ofList (Hexadecimal.fixed .lower 4 address.toNat)

end Address

/-- A number as error messages and log messages write an address: marked as hexadecimal, with four
digits or more, since it may lie past the end of memory. -/
def markedHexadecimal (n : Nat) : String := "0x" ++ String.ofList (Hexadecimal.atLeast 4 n)

end Disassembler8080
