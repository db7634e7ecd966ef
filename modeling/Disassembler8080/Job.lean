/-
# Jobs

A job is a command line whose texts have been checked: which blocks are data, where the program
comes from and where the listing goes.  Only the blocks can be wrong, and the first bad one is what
is reported.
-/
import Disassembler8080.CommandLine.Arguments
import Disassembler8080.LogEvent

namespace Disassembler8080

/-- Where a program comes from. -/
inductive Source where
  | standardInput
  | file (path : String)
deriving DecidableEq, Repr

/-- Where a listing goes. -/
inductive Sink where
  | standardOutput
  | file (path : String)
deriving DecidableEq, Repr

/-- What a run is to do; by default, to pass standard input on as a listing to standard output. -/
structure Job where
  blocks : List DataBlock := []
  source : Source := .standardInput
  sink : Sink := .standardOutput
deriving DecidableEq

namespace CommandLine.Arguments

/-- The source that the arguments name.  A dash stands for standard input. -/
def source (arguments : Arguments) : Source :=
  match arguments.input with
  | none => .standardInput
  | some path => if path = "-" then .standardInput else .file path

/-- The sink that the arguments name.  A dash is a file like any other. -/
def sink (arguments : Arguments) : Sink :=
  match arguments.output with
  | none => .standardOutput
  | some path => .file path

/-- The data blocks of the arguments in the order of use, or what is wrong with the first bad one.
-/
def dataBlocks (arguments : Arguments) : Except Failure (List DataBlock) :=
  arguments.blocks.mapM fun (start, count) => DataBlock.parse start count

/-- The job that the arguments describe. -/
def job (arguments : Arguments) : Except Failure Job := do
  let blocks ← arguments.dataBlocks
  .ok { blocks := blocks, source := arguments.source, sink := arguments.sink }

/-- How much of the log the arguments ask for. -/
def logLevel (arguments : Arguments) : Severity :=
  match arguments.verbosity with
  | 0 => .warn
  | 1 => .info
  | 2 => .debug
  | _ => .trace

end CommandLine.Arguments

end Disassembler8080
