/-
# Disassemblies

A disassembly is a memory map together with the address at which decoding stopped.
-/
import Disassembler8080.MemoryMap

namespace Disassembler8080

/-- What is known of a program: of each address, and where the program stops, which is the number
of bytes that were decoded.  A map may hold statements past the stop. -/
structure Disassembly where
  map : MemoryMap := .blank
  stop : Nat := 0

namespace Disassembly

/-- The statements below the stop in the order of their addresses, whether they overlap or not. -/
def statements (disassembly : Disassembly) : List (Address × Statement) :=
  disassembly.map.statements.toList.filter fun (address, _) => address.toNat < disassembly.stop

end Disassembly

end Disassembler8080
