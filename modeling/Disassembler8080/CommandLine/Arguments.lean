/-
# The arguments of a run

The command line takes any number of data blocks (`-d ADDR COUNT`), one output file, any number of
requests to say more, and one input file.  Arguments are read from left to right, and the first
thing that is wrong, or the first request for help or for the version, ends the reading.

Options have short and long names.  A value may stand in the argument after its option or, for the
output, be attached to it: `-o x`, `-ox`, `-o=x`, `--output x` and `--output=x` are alike.  Short
names may be put together behind one dash.  After `--` every argument is a path.

What an option has gathered is *pending* until the next option, the next path or the end of the
arguments settles it, and only then is it checked whether that was enough.  An argument that is no
option at all is refused at once, whatever is pending.

Main statement: `read_append`, arguments are read one after the other.
-/

namespace Disassembler8080.CommandLine

/-! ## 1. What the arguments say -/

/-- The meaning of a command line. -/
structure Arguments where
  /-- The values of all data blocks in one row, in the order of use. -/
  data : List String := []
  output : Option String := none
  input : Option String := none
  /-- How often the program was asked to say more, as far as that is counted. -/
  verbosity : Nat := 0
deriving DecidableEq, Repr

/-- Cuts a row of values into pairs by position.  A last value without another one is left out. -/
def pairsOf : List String → List (String × String)
  | start :: count :: rest => (start, count) :: pairsOf rest
  | _ => []

/-- Start and count of each data block, in the order of use. -/
def Arguments.blocks (arguments : Arguments) : List (String × String) := pairsOf arguments.data

/-- The largest verbosity that is told from smaller ones. -/
def maxVerbosity : Nat := 255

/-- What can be wrong with a command line. -/
inductive Misuse where
  /-- An option that does not exist, or a path too many. -/
  | unknownArgument
  /-- An option without a value, or an empty path. -/
  | missingValue
  /-- A data block with one value. -/
  | wrongValueCount
  /-- A value attached to an option that takes none. -/
  | unexpectedValue
  /-- A second output. -/
  | repeatedOption
deriving DecidableEq, Repr

/-- Why a command line does not lead to a run. -/
inductive Interruption where
  | misuse (misuse : Misuse)
  /-- A request for help, in detail or as a summary. -/
  | help (inDetail : Bool)
  | version
deriving DecidableEq, Repr

/-! ## 2. Reading under way -/

/-- What the latest option or path has gathered and has not yet been settled. -/
inductive Pending where
  | nothing
  /-- A data block without values so far. -/
  | block
  /-- A data block with its start. -/
  | blockFrom (start : String)
  | wholeBlock (start count : String)
  /-- An output without its path so far. -/
  | output
  | outputTo (path : String)
  | inputFrom (path : String)
deriving DecidableEq, Repr

/-- A command line that has been read in part. -/
structure Reading where
  arguments : Arguments := {}
  pending : Pending := .nothing
  /-- Whether `--` has been read. -/
  onlyPaths : Bool := false
deriving DecidableEq, Repr

namespace Reading

/-- Sets the output, which may be done once and not to an empty path. -/
def setOutput (reading : Reading) (path : String) : Except Interruption Reading :=
  if reading.arguments.output.isSome then .error (.misuse .repeatedOption)
  else if path = "" then .error (.misuse .missingValue)
  else
    .ok { reading with
      arguments := { reading.arguments with output := some path }, pending := .nothing }

/-- Turns what is pending into a part of the arguments, if it is complete. -/
def settle (reading : Reading) : Except Interruption Reading :=
  match reading.pending with
  | .nothing => .ok reading
  | .block => .error (.misuse .missingValue)
  | .blockFrom _ => .error (.misuse .wrongValueCount)
  | .wholeBlock start count =>
    .ok { reading with
      arguments := { reading.arguments with data := reading.arguments.data ++ [start, count] }
      pending := .nothing }
  | .output => .error (.misuse .missingValue)
  | .outputTo path => reading.setOutput path
  | .inputFrom path =>
    if path = "" then .error (.misuse .missingValue)
    else
      .ok { reading with
        arguments := { reading.arguments with input := some path }, pending := .nothing }

/-- Settles what is pending and begins to gather something new. -/
def await (reading : Reading) (pending : Pending) : Except Interruption Reading := do
  let settled ← reading.settle
  .ok { settled with pending := pending }

/-- Settles what is pending and stops for a reason. -/
def interrupt (reading : Reading) (reason : Interruption) : Except Interruption Reading := do
  let _ ← reading.settle
  .error reason

/-- Settles what is pending and counts a request to say more. -/
def sayMore (reading : Reading) : Except Interruption Reading := do
  let settled ← reading.settle
  .ok { settled with
    arguments :=
      { settled.arguments with
        verbosity := min maxVerbosity (settled.arguments.verbosity + 1) } }

/-- Settles what is pending and sets the output to a path that was attached to its option. -/
def attachOutput (reading : Reading) (path : String) : Except Interruption Reading := do
  let settled ← reading.settle
  settled.setOutput path

/-! ## 3. Arguments of each kind -/

/-- The text after an equals sign, or the whole text if it begins with none. -/
def withoutEquals : List Char → List Char
  | '=' :: value => value
  | value => value

/-- Reads short options behind one dash.  An option that takes a value ends them: what follows it
is attached to it, and a data block with an attached value has one value where it needs two. -/
def readShort (reading : Reading) : List Char → Except Interruption Reading
  | [] => .ok reading
  | 'v' :: rest => do
    let reading ← reading.sayMore
    readShort reading rest
  | 'h' :: _ => reading.interrupt (.help false)
  | 'V' :: _ => reading.interrupt .version
  | ['d'] => reading.await .block
  | 'd' :: _ => reading.interrupt (.misuse .wrongValueCount)
  | ['o'] => reading.await .output
  | 'o' :: value => reading.attachOutput (String.ofList (withoutEquals value))
  | _ => .error (.misuse .unknownArgument)

/-- Splits a long option at its first equals sign. -/
def splitLong (option : List Char) : String × Option String :=
  match option.dropWhile (· ≠ '=') with
  | [] => (String.ofList option, none)
  | _ :: value => (String.ofList (option.takeWhile (· ≠ '=')), some (String.ofList value))

/-- Reads a long option behind its two dashes.  Names may not be shortened. -/
def readLong (reading : Reading) (option : List Char) : Except Interruption Reading :=
  match splitLong option with
  | ("data", none) => reading.await .block
  | ("data", some _) => reading.interrupt (.misuse .wrongValueCount)
  | ("output", none) => reading.await .output
  | ("output", some path) => reading.attachOutput path
  | ("verbose", none) => reading.sayMore
  | ("help", none) => reading.interrupt (.help true)
  | ("version", none) => reading.interrupt .version
  | ("verbose", some _) | ("help", some _) | ("version", some _) =>
    .error (.misuse .unexpectedValue)
  | _ => .error (.misuse .unknownArgument)

/-- Whether the input is known, settled or not. -/
def hasInput (reading : Reading) : Bool :=
  match reading.pending with
  | .inputFrom _ => true
  | _ => reading.arguments.input.isSome

/-- Reads a path, which is the input unless there is one already. -/
def readPath (reading : Reading) (path : String) : Except Interruption Reading :=
  if reading.hasInput then .error (.misuse .unknownArgument)
  else reading.await (.inputFrom path)

/-- Reads an argument that is no option: a value if one is wanted, and else a path. -/
def readPlain (reading : Reading) (argument : String) : Except Interruption Reading :=
  match reading.pending with
  | .block => .ok { reading with pending := .blockFrom argument }
  | .blockFrom start => .ok { reading with pending := .wholeBlock start argument }
  | .output => .ok { reading with pending := .outputTo argument }
  | _ => reading.readPath argument

/-- Reads one argument.  A dash alone is no option. -/
def readArgument (reading : Reading) (argument : String) : Except Interruption Reading :=
  if reading.onlyPaths then reading.readPath argument
  else
    match argument.toList with
    | ['-', '-'] => .ok { reading with onlyPaths := true }
    | '-' :: '-' :: option => reading.readLong option
    | '-' :: option :: options => reading.readShort (option :: options)
    | _ => reading.readPlain argument

/-- Reads arguments from left to right. -/
def read (reading : Reading) (arguments : List String) : Except Interruption Reading :=
  arguments.foldlM readArgument reading

/-- Arguments are read one after the other. -/
theorem read_append (reading : Reading) (first second : List String) :
    reading.read (first ++ second) = reading.read first >>= fun middle => middle.read second := by
  simp [read, List.foldlM_append]

end Reading

/-- The meaning of a command line. -/
def parse (arguments : List String) : Except Interruption Arguments := do
  let reading ← Reading.read {} arguments
  let settled ← reading.settle
  .ok settled.arguments

end Disassembler8080.CommandLine
