/-
# The layout of a listing

The body of a listing shows statements in the order of their addresses, each with a label in front
if its address is referenced.  A statement is shown if it starts at or after the end of the one
shown before it, below the stop and below the last address of memory: the body never reaches that
address.  After an empty line come the definitions of all referenced addresses that have no label
in place, neither in this body nor in an earlier listing, and after another the closing lines.

Main statements: `visitFrom_eq` (the walk with its result so far taken out).
-/
import Disassembler8080.Disassembly
import Disassembler8080.Listing.Line

namespace Disassembler8080.Disassembly

/-! ## 1. The statements that are shown -/

/-- Walks through statements in the order of their addresses.  One that starts before `next`, and
so inside the one shown before it, is passed over; the walk ends at `limit`.  The statements shown
so far are kept in reverse. -/
def visitFrom (limit next : Nat) (shown : List (Address × Statement)) :
    List (Address × Statement) → List (Address × Statement)
  | [] => shown.reverse
  | (address, statement) :: rest =>
    if address.toNat < next then visitFrom limit next shown rest
    else if address.toNat < limit then
      visitFrom limit (address.toNat + statement.size) ((address, statement) :: shown) rest
    else shown.reverse

/-- What was shown before stays in front and decides nothing. -/
theorem visitFrom_eq (limit next : Nat) (shown statements : List (Address × Statement)) :
    visitFrom limit next shown statements =
      shown.reverse ++ visitFrom limit next [] statements := by
  induction statements generalizing next shown with
  | nil => simp [visitFrom]
  | cons head rest ih =>
    obtain ⟨address, statement⟩ := head
    simp only [visitFrom]
    split
    · exact ih next shown
    · split
      · rw [ih, ih _ [(address, statement)]]
        simp
      · simp

/-- The address that the body does not reach: the stop, or the last address of memory if that comes
first. -/
def bodyLimit (disassembly : Disassembly) : Nat := min disassembly.stop (memorySize - 1)

/-- The statements that the body shows. -/
def shown (disassembly : Disassembly) : List (Address × Statement) :=
  visitFrom disassembly.bodyLimit 0 [] disassembly.map.statements.toList

/-! ## 2. The parts of a listing -/

/-- The lines of one shown statement. -/
def linesOf (disassembly : Disassembly) (address : Address) (statement : Statement) : List Line :=
  if disassembly.map.referenced.contains address then [.label address, .statement statement]
  else [.statement statement]

/-- The body: all shown statements with their labels. -/
def body (disassembly : Disassembly) : List Line :=
  disassembly.shown.flatMap fun (address, statement) => disassembly.linesOf address statement

/-- The addresses that get a label in place. -/
def placed (disassembly : Disassembly) : List Address :=
  (disassembly.shown.map Prod.fst).filter disassembly.map.referenced.contains

/-- The addresses that are labelled once the body is written. -/
def labelledAfterBody (disassembly : Disassembly) : Std.ExtTreeSet Address :=
  disassembly.map.labelled.insertMany disassembly.placed

/-- The referenced addresses that no label stands for, in increasing order. -/
def outside (disassembly : Disassembly) : List Address :=
  let labelled := disassembly.labelledAfterBody
  disassembly.map.references.filter fun address => !labelled.contains address

/-- The body and the definitions. -/
def front (disassembly : Disassembly) : List Line :=
  disassembly.body ++ .blank :: disassembly.outside.map .definition

/-- The closing lines. -/
def closing : List Line := [.blank, .finish, .blank]

/-- All lines of the listing. -/
def lines (disassembly : Disassembly) : List Line := disassembly.front ++ closing

/-- The listing as one text. -/
def listing (disassembly : Disassembly) : String := String.join (disassembly.lines.map Line.written)

end Disassembler8080.Disassembly
