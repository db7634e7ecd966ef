/-
# The lines of a listing

A listing is a row of lines of five kinds.  Each line has its text and ends with a line feed.
-/
import Disassembler8080.MemoryMap

namespace Disassembler8080

/-- A line of a listing. -/
inductive Line where
  /-- A label in place, in front of the statement that it names. -/
  | label (address : Address)
  | statement (content : Statement)
  | blank
  /-- A label that stands nowhere in the listing, as a constant. -/
  | definition (address : Address)
  /-- The directive that ends a program. -/
  | finish
deriving DecidableEq, Repr

namespace Line

/-- The text of a line without the line feed. -/
def text : Line → String
  | .label address => address.label ++ ":"
  | .statement content => "\t" ++ content.text
  | .blank => ""
  | .definition address => address.label ++ "\t= " ++ address.constant
  | .finish => "end"

/-- A line as it is written. -/
def written (line : Line) : String := line.text ++ "\n"

/-- The mark that a line leaves once it is written: a label in place marks its address. -/
def mark : Line → MemoryMap → MemoryMap
  | .label address, map => map.markLabelled address
  | _, map => map

end Line

end Disassembler8080
