/-
# What a run needs from its surroundings

A run reads one input, writes one listing and says things on the side.  `Host` names these needs,
so that one definition of a run serves a real machine and a world that is a plain value.

Failures of the surroundings are texts, since a run can do no more with them than show them.
-/
import Disassembler8080.ByteStream
import Disassembler8080.Job
import Disassembler8080.Writer

namespace Disassembler8080

/-- The wording of a system failure: what happened and its number. -/
def systemFailure (text : String) (number : Nat) : String :=
  text ++ " (os error " ++ number.repr ++ ")"

/-- The surroundings of a run. -/
class Host (m : Type → Type) where
  /-- A sink that has been opened. -/
  Target : Type
  /-- The bytes of standard input. -/
  standardInput : m ByteStream
  /-- Opens a file for reading. -/
  openInput (path : String) : m (Except String ByteStream)
  /-- Opens a sink, and empties it if it is a file.  The writer says how much it will take. -/
  openSink (sink : Sink) : m (Except String (Target × Writer))
  /-- Hands what a writer has taken over to its sink, and flushes it.  Gives the failure of the
  flush. -/
  handOver (target : Target) (writer : Writer) : m (Option String)
  /-- Shows a text on standard output. -/
  print (text : String) : m PUnit
  /-- Shows a text on standard error. -/
  complain (text : String) : m PUnit

end Disassembler8080
