/-
# The command

The program on a real machine: its files, its standard streams and its environment.
-/
import Disassembler8080.Program

namespace Disassembler8080.Machine

/-- The wording of a failure of the system. -/
def failureText : IO.Error → String
  | .alreadyExists _ code text | .interrupted _ code text | .noFileOrDirectory _ code text
  | .invalidArgument _ code text | .permissionDenied _ code text
  | .resourceExhausted _ code text | .inappropriateType _ code text
  | .noSuchThing _ code text | .otherError code text | .resourceBusy code text
  | .resourceVanished code text | .unsupportedOperation code text
  | .hardwareFault code text | .unsatisfiedConstraints code text
  | .illegalOperation code text | .protocolError code text
  | .timeExpired code text => systemFailure text code.toNat
  | failure => toString failure

/-- Reads until the input ends or fails, but no more than memory holds and one byte, which shows
whether the input goes on.  Each round reads a byte at least, so `rounds` bounds them. -/
def readBytes (stream : IO.FS.Stream) (rounds : Nat) (read : ByteArray) : IO ByteStream := do
  match rounds with
  | 0 => return .ofBytes read.toList
  | rounds + 1 =>
    if memorySize < read.size then return .ofBytes read.toList
    else
      let more ←
        try
          let bytes ← stream.read (USize.ofNat (memorySize + 1 - read.size))
          pure (Except.ok bytes)
        catch failure => pure (Except.error (failureText failure))
      match more with
      | .error text => return [.data read.toList, .failure text]
      | .ok bytes =>
        if bytes.isEmpty then return .ofBytes read.toList
        else readBytes stream rounds (read ++ bytes)

/-- Reads a whole input. -/
def readAll (stream : IO.FS.Stream) : IO ByteStream :=
  readBytes stream (memorySize + 2) ByteArray.empty

/-- Opens a file for reading or for writing. -/
def openFile (path : String) (mode : IO.FS.Mode) : IO (Except String IO.FS.Stream) :=
  try
    let handle ← IO.FS.Handle.mk path mode
    return .ok (IO.FS.Stream.ofHandle handle)
  catch failure => return .error (failureText failure)

/-- A machine serves as the surroundings of a run. -/
instance : Host IO where
  Target := IO.FS.Stream
  standardInput := do
    let stream ← IO.getStdin
    readAll stream
  openInput path := do
    match ← openFile path .read with
    | .error text => return .error text
    | .ok stream => return .ok (← readAll stream)
  openSink
    | .standardOutput => do
      let stream ← IO.getStdout
      return .ok (stream, .unbounded)
    | .file path => do
      match ← openFile path .write with
      | .error text => return .error text
      | .ok stream => return .ok (stream, .unbounded)
  handOver stream writer :=
    try
      stream.write writer.taken
      stream.flush
      return none
    catch failure => return some (failureText failure)
  print text := do
    let stream ← IO.getStdout
    stream.putStr text
    stream.flush
  complain text := IO.eprint text

end Disassembler8080.Machine

/-- Runs the program on the arguments of the command. -/
def main (arguments : List String) : IO UInt32 := do
  let settings ← IO.getEnv "RUST_LOG"
  Disassembler8080.Program.run arguments settings
