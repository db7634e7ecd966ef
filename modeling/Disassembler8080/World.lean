/-
# A world of files

A machine as a plain value: a tree of files, directories and devices, a working directory, standard
input, and what has been shown on standard output and standard error.  A run of the program in such
a world is a function, and its effect is the world that it leaves.

Paths are followed name by name from the root or from the working directory, and every place that
is left by a name has to be a directory.
-/
import Disassembler8080.Host
import Disassembler8080.Program

namespace Disassembler8080

/-! ## 1. Worlds -/

/-- The special files of a world. -/
inductive Device where
  /-- Takes everything and holds nothing. -/
  | null
  /-- Holds zeros without end and takes everything. -/
  | zero
  /-- Holds zeros without end and is always full. -/
  | full
  /-- A standard stream under the name of a file. -/
  | standardInput
  | standardOutput
  | standardError
  /-- A terminal that is not there. -/
  | terminal
deriving DecidableEq, Repr

/-- What can stand in a directory. -/
inductive Entry where
  | file (bytes : List UInt8)
  /-- A directory.  In a sealed one no file can be made. -/
  | directory (isSealed : Bool)
  | device (device : Device)
deriving DecidableEq, Repr

/-- A place in the tree: the names on the way to it from the root. -/
abbrev Place := List String

/-- The surroundings of a run as a value. -/
structure World where
  /-- Everything in the tree but the root, with its place. -/
  entries : List (Place × Entry) := []
  workingDirectory : Place := []
  input : List UInt8 := []
  /-- The bytes on standard output. -/
  shown : ByteArray := .empty
  /-- The pieces of what is on standard error, the latest first. -/
  complaints : List ByteArray := []

/-- The text on standard output. -/
def World.output (world : World) : String := Text.ofBytes world.shown

/-- The text on standard error. -/
def World.errorOutput (world : World) : String :=
  Text.ofBytes (world.complaints.foldr (fun piece before => before ++ piece) .empty)

/-- The ways in which a path can lead nowhere. -/
inductive PathFailure where
  | notFound
  | notADirectory
  | isADirectory
  | nameTooLong
  | noSuchDevice
deriving DecidableEq, Repr

/-- The wording of a path that leads nowhere. -/
def PathFailure.message : PathFailure → String
  | .notFound => systemFailure "No such file or directory" 2
  | .notADirectory => systemFailure "Not a directory" 20
  | .isADirectory => systemFailure "Is a directory" 21
  | .nameTooLong => systemFailure "File name too long" 36
  | .noSuchDevice => systemFailure "No such device or address" 6

namespace World

/-! ## 2. Finding places -/

/-- The most bytes that a name may have. -/
def maxNameSize : Nat := 255

/-- The size from which on a path is too long. -/
def pathSizeLimit : Nat := 4096

/-- What stands at a place. -/
def entry? (world : World) (place : Place) : Option Entry :=
  if place.isEmpty then some (.directory false)
  else (world.entries.find? fun (other, _) => other == place).map Prod.snd

/-- Puts something at a place, instead of what was there. -/
def put (world : World) (place : Place) (entry : Entry) : World :=
  { world with
    entries := (place, entry) :: world.entries.filter fun (other, _) => other != place }

/-- Follows names from a place on.  Whether anything stands where the last name leads is left
open. -/
def follow (world : World) (place : Place) : List String → Except PathFailure Place
  | [] => .ok place
  | name :: rest =>
    match world.entry? place with
    | none => .error .notFound
    | some (.directory _) =>
      if name = "." then follow world place rest
      else if name = ".." then follow world place.dropLast rest
      else if maxNameSize < name.utf8ByteSize then .error .nameTooLong
      else follow world (place ++ [name]) rest
    | some _ => .error .notADirectory

/-- A path taken apart. -/
structure Path where
  /-- Where the names start from. -/
  start : Place
  names : List String
  /-- Whether the path ends with a slash, and so has to lead to a directory. -/
  endsWithSlash : Bool

/-- Takes a path apart.  Slashes that follow each other count as one. -/
def path (world : World) (text : String) : Path :=
  let pieces := List.splitOn '/' text.toList
  { start := if text.toList.head? = some '/' then [] else world.workingDirectory
    names := (pieces.filter fun piece => !piece.isEmpty).map String.ofList
    endsWithSlash := text.toList.getLast? = some '/' }

/-- The place that a path to something existing leads to, and what stands there. -/
def find (world : World) (text : String) : Except PathFailure (Place × Entry) := do
  if text.isEmpty then .error .notFound
  else if pathSizeLimit ≤ text.utf8ByteSize then .error .nameTooLong
  else
    let path := world.path text
    let place ← world.follow path.start (path.names ++ if path.endsWithSlash then ["."] else [])
    match world.entry? place with
    | none => .error .notFound
    | some (.device .terminal) => .error .noSuchDevice
    | some entry => .ok (place, entry)

/-- The place of a file that is to be written, and what stands there if anything does.  The
directory that is to hold the file has to exist, and no directory can be written. -/
def findForWriting (world : World) (text : String) :
    Except PathFailure (Place × Option Entry) := do
  if text.isEmpty then .error .notFound
  else if pathSizeLimit ≤ text.utf8ByteSize then .error .nameTooLong
  else
    let path := world.path text
    match path.names.getLast? with
    | none => .error .isADirectory
    | some name =>
      let parent ← world.follow path.start path.names.dropLast
      match world.entry? parent with
      | none => .error .notFound
      | some (.directory isSealed) =>
        if path.endsWithSlash ∨ name = "." ∨ name = ".." then .error .isADirectory
        else if maxNameSize < name.utf8ByteSize then .error .nameTooLong
        else
          let place := parent ++ [name]
          match world.entry? place with
          | some (.directory _) => .error .isADirectory
          | some (.device .terminal) => .error .noSuchDevice
          | none => if isSealed then .error .notFound else .ok (place, none)
          | entry => .ok (place, entry)
      | some _ => .error .notADirectory

/-! ## 3. Reading and writing -/

/-- The failure of a device that is full. -/
def noSpace : String := systemFailure "No space left on device" 28

/-- The size of the blocks in which output is handed to the system. -/
def blockSize : Nat := 8192

/-- What reading something gives.  A directory can be opened, and reading it fails. -/
def read (world : World) : Entry → ByteStream
  | .file bytes => .ofBytes bytes
  | .directory _ => [.failure PathFailure.isADirectory.message]
  | .device .null | .device .standardOutput | .device .standardError | .device .terminal => []
  | .device .zero | .device .full => .ofBytes (List.replicate (memorySize + 1) 0)
  | .device .standardInput => .ofBytes world.input

/-- A sink that has been opened. -/
inductive Opened where
  | standardOutput
  | file (place : Place)
  | device (device : Device)
deriving DecidableEq, Repr

/-- The writer of an opened sink.  A full device is noticed when the first block is handed to it,
or else by the flush. -/
def Opened.writer : Opened → Writer
  | .device .full =>
    { room := some blockSize, refusal := .failure noSpace, flushFailure := some noSpace }
  | _ => .unbounded

/-- Opens a sink.  A file is created, or emptied if it exists. -/
def openSink (world : World) : Sink → Except PathFailure Opened × World
  | .standardOutput => (.ok .standardOutput, world)
  | .file text =>
    match world.findForWriting text with
    | .error failure => (.error failure, world)
    | .ok (_, some (.device device)) => (.ok (.device device), world)
    | .ok (place, _) => (.ok (.file place), world.put place (.file []))

/-- Shows bytes on standard output. -/
def print (world : World) (bytes : ByteArray) : World :=
  { world with shown := world.shown ++ bytes }

/-- Shows bytes on standard error. -/
def complain (world : World) (bytes : ByteArray) : World :=
  { world with complaints := bytes :: world.complaints }

/-- Adds bytes to an opened sink. -/
def handOver (world : World) (bytes : ByteArray) : Opened → World
  | .standardOutput | .device .standardOutput => world.print bytes
  | .device .standardError => world.complain bytes
  | .file place => world.put place (.file bytes.data.toList)
  | .device _ => world

/-! ## 4. Running the program -/

/-- A world serves as the surroundings of a run. -/
instance : Host (StateM World) where
  Target := Opened
  standardInput := do
    let world ← get
    return .ofBytes world.input
  openInput text := do
    let world ← get
    match world.find text with
    | .error failure => return .error failure.message
    | .ok (_, entry) => return .ok (world.read entry)
  openSink sink := do
    let world ← get
    match world.openSink sink with
    | (.error failure, _) => return .error failure.message
    | (.ok opened, world) =>
      set world
      return .ok (opened, opened.writer)
  handOver opened writer := do
    modify fun world => world.handOver writer.taken opened
    return writer.flushFailure
  print text := modify (·.print text.toByteArray)
  complain text := modify (·.complain text.toByteArray)

/-- Runs the program in a world.  Gives the exit status and the world afterwards. -/
def run (world : World) (arguments : List String) (logSettings : Option String) :
    UInt32 × World :=
  let program : StateM World UInt32 := Program.run arguments logSettings
  program world

end World

end Disassembler8080
