/-
# The log

What a run reports about itself, as events.  An event has a severity, the part of the program it
comes from and a wording; which events are shown, and how, is decided elsewhere.
-/
import Disassembler8080.DataBlock

namespace Disassembler8080

/-- How much an event matters, the most important first. -/
inductive Severity where
  | error
  | warn
  | info
  | debug
  | trace
deriving DecidableEq, Repr

namespace Severity

/-- The rank of a severity: the higher, the less it matters. -/
def rank : Severity → Nat
  | .error => 1
  | .warn => 2
  | .info => 3
  | .debug => 4
  | .trace => 5

/-- The name of a severity in log lines. -/
def name : Severity → String
  | .error => "ERROR"
  | .warn => "WARN"
  | .info => "INFO"
  | .debug => "DEBUG"
  | .trace => "TRACE"

end Severity

/-- How much of the log is shown: nothing, or all events down to a severity. -/
abbrev Verbosity := Option Severity

/-- Whether an event of a severity is shown. -/
def Verbosity.shows (verbosity : Verbosity) (severity : Severity) : Bool :=
  match verbosity with
  | none => false
  | some least => severity.rank ≤ least.rank

/-- What can be reported. -/
inductive LogEvent where
  /-- An input file is about to be opened. -/
  | opening (path : String)
  /-- A data block is about to be applied. -/
  | forcing (block : DataBlock)
  /-- A statement has been decoded. -/
  | decoded (address : Address) (statement : Statement)
  /-- Memory is full and the input goes on. -/
  | surplusInput
  /-- The input has been decoded to its end. -/
  | finished (count : Nat)
  /-- The labels that stand nowhere in the listing have been defined. -/
  | definedOutside (count : Nat)
deriving DecidableEq

namespace LogEvent

/-- How much an event matters. -/
def severity : LogEvent → Severity
  | .opening _ => .info
  | .forcing _ => .debug
  | .decoded _ _ => .trace
  | .surplusInput => .warn
  | .finished _ => .debug
  | .definedOutside _ => .debug

/-- The part of the program that an event comes from, by which log settings choose events. -/
def component : LogEvent → String
  | .opening _ => "dis8080"
  | .forcing _ => "dis8080::decode"
  | .decoded _ _ => "dis8080::decode"
  | .surplusInput => "dis8080::cursor"
  | .finished _ => "dis8080::decode"
  | .definedOutside _ => "dis8080::listing"

/-- The wording of an event. -/
def message : LogEvent → String
  | .opening path => "reading " ++ path
  | .forcing block =>
    "forcing data at " ++ markedHexadecimal block.start.toNat ++ ", " ++ block.count.toNat.repr
      ++ " byte(s)"
  | .decoded address statement => address.plain ++ ": " ++ statement.text
  | .surplusInput => "input continues past address 0xffff, ignoring the rest"
  | .finished count => "decoded " ++ count.repr ++ " byte(s)"
  | .definedOutside count => count.repr ++ " label(s) defined outside the decoded units"

end LogEvent

end Disassembler8080
