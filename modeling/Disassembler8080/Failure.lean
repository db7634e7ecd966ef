/-
# Failures

Everything that can go wrong between the options of a run and its finished listing, by cause, and
the one place where the wording of each cause is written.
-/
import Disassembler8080.Address

namespace Disassembler8080

/-- Why a disassembly could not be made. -/
inductive Failure where
  /-- A data block does not lie in memory. -/
  | blockOutsideMemory (start count : UInt64)
  /-- A text is no number. -/
  | notANumber (text : String)
  /-- The statement at an address would need bytes past the end of memory. -/
  | pastMemory (statement : Address)
  /-- The input ended inside the statement at an address. -/
  | cutShort (statement : Address)
  /-- Reading or writing failed. -/
  | inputOutput (text : String)
deriving DecidableEq, Repr

namespace Failure

/-- The wording of a failure. -/
def message : Failure → String
  | .blockOutsideMemory start count =>
    "-d ADDR COUNT: invalid range (start " ++ markedHexadecimal start.toNat ++ ", count "
      ++ count.toNat.repr ++ ")"
  | .notANumber text => "-d ADDR COUNT: invalid number `" ++ text ++ "`"
  | .pastMemory statement =>
    "too much input: unit at " ++ markedHexadecimal statement.toNat
      ++ " runs past the end of the address space"
  | .cutShort statement =>
    "unexpected end of input inside unit at " ++ markedHexadecimal statement.toNat
  | .inputOutput text => "io error: " ++ text

/-- Whether a statement was cut short, by the end of the input or by the end of memory. -/
def isOverrun : Failure → Bool
  | .pastMemory _ | .cutShort _ => true
  | _ => false

end Failure

end Disassembler8080
