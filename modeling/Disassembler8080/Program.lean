/-
# A run of the program

A run reads its arguments, checks them, reads and decodes the whole input, and only then opens the
sink and writes the listing.  So a run that fails before the listing is complete has touched no
file.

The exit status is 0 for a listing, a help text or the version, 1 for a failure, and 2 for a misuse
of the command line.
-/
import Disassembler8080.CommandLine.Help
import Disassembler8080.Host
import Disassembler8080.Listing.Delivery
import Disassembler8080.LogFilter
import Disassembler8080.Text.ControlSequence

namespace Disassembler8080

/-! ## 1. Wordings -/

/-- The wording of a misuse. -/
def CommandLine.Misuse.message : CommandLine.Misuse → String
  | .unknownArgument => "unexpected argument found"
  | .missingValue => "a value is required but none was supplied"
  | .wrongValueCount => "2 values required for '--data <ADDR> <COUNT>' but 1 was provided"
  | .unexpectedValue => "unexpected value for an option that takes none"
  | .repeatedOption => "the argument '--output <FILE>' cannot be used multiple times"

/-- The parts of what is said about a failure, the outermost first.  A failure of reading is a
cause of its own behind the failure of the run. -/
def Failure.chain : Failure → List String
  | .inputOutput text => [Failure.message (.inputOutput text), text]
  | failure => [failure.message]

/-- The line that is shown for a failure. -/
def errorLine (chain : List String) : String := "error: " ++ ": ".intercalate chain

/-- A message with its further lines indented. -/
def indentLines (message : List Char) : List Char :=
  message.flatMap fun c => if c = '\n' then ['\n', ' ', ' ', ' ', ' '] else [c]

/-- An event as it is shown: severity, component and message.  What a terminal would take as a
command is left out, which can make the end of the line part of a sequence that has no end. -/
def LogEvent.line (event : LogEvent) : String :=
  let head := "[" ++ String.ofList (event.severity.name.toList.rightpad 5 ' ') ++ " "
    ++ event.component ++ "] "
  head ++ String.ofList
    (Text.ControlSequence.plain (indentLines event.message.toList ++ ['\n']))

namespace Program

variable {m : Type → Type} [Monad m] [Host m]

/-! ## 2. Reporting -/

/-- Shows a line on standard error. -/
def complainLine (line : String) : m PUnit := Host.complain (line ++ "\n")

/-- Shows the events that the settings let through. -/
def report (filter : LogFilter) (events : List LogEvent) : m PUnit :=
  (events.filter filter.shows).forM fun event => Host.complain event.line

/-- Shows a failure and gives the exit status that goes with it. -/
def fail (chain : List String) : m UInt32 := do
  complainLine (errorLine chain)
  return 1

/-- Answers a command line that does not lead to a run. -/
def answer : CommandLine.Interruption → m UInt32
  | .help false => do
    Host.print CommandLine.summaryText
    return 0
  | .help true => do
    Host.print CommandLine.detailsText
    return 0
  | .version => do
    Host.print CommandLine.versionText
    return 0
  | .misuse misuse => do
    complainLine (errorLine [misuse.message])
    complainLine ""
    complainLine CommandLine.usageHint
    return 2

/-! ## 3. The stages of a run -/

/-- Opens the source of a job. -/
def openSource (filter : LogFilter) : Source → m (Except (List String) ByteStream)
  | .standardInput => do
    let stream ← Host.standardInput
    return .ok stream
  | .file path => do
    report filter [.opening path]
    match ← Host.openInput path with
    | .ok stream => return .ok stream
    | .error text => return .error ["cannot open input " ++ path, text]

/-- What is said about a sink in front of a failure to open it. -/
def openingContext : Sink → List String
  | .standardOutput => []
  | .file path => ["cannot create output " ++ path]

/-- What is said about a sink in front of a failure to write to it. -/
def writingContext : Sink → List String
  | .standardOutput => []
  | .file path => ["cannot write " ++ path]

/-- Writes the listing of a disassembly to a sink.  A failure of the last flush is shown by
itself. -/
def writeListing (filter : LogFilter) (sink : Sink) (disassembly : Disassembly) : m UInt32 := do
  match ← Host.openSink sink with
  | .error text => fail (openingContext sink ++ [text])
  | .ok (target, writer) =>
    let written := disassembly.write writer
    report filter written.events
    let flushFailure ← Host.handOver target written.writer
    match written.failure, flushFailure with
    | some text, _ => fail (writingContext sink ++ [text])
    | none, some text => fail [text]
    | none, none => return 0

/-- Does a job. -/
def perform (filter : LogFilter) (job : Job) : m UInt32 := do
  match ← openSource filter job.source with
  | .error chain => fail chain
  | .ok stream =>
    let sweep := linearSweep stream job.blocks
    report filter sweep.events
    match sweep.result with
    | .error failure => fail failure.chain
    | .ok disassembly => writeListing filter job.sink disassembly

/-- Runs the program on its arguments and on the log settings, if there are any, and gives the exit
status. -/
def run (arguments : List String) (logSettings : Option String) : m UInt32 := do
  match CommandLine.parse arguments with
  | .error interruption => answer interruption
  | .ok arguments =>
    let settings := LogSettings.ofText arguments.logLevel logSettings
    settings.warnings.forM complainLine
    match arguments.job with
    | .error failure => fail failure.chain
    | .ok job => perform settings.filter job

end Program

end Disassembler8080
