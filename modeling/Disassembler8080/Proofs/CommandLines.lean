/-
# Command lines in other words

The same can be asked for in many ways: options have two names, a path may be attached to its
option, requests to say more may share a dash, the input may stand behind `--`, and all of this in
any order.  A `Wording` is a command line as it is written, group by group, and what it says is read
off the groups: the data blocks in the order of use, the one output, the one input, and how many
requests there are.  Reading its arguments gives just that.

What an option has gathered is settled late, by whatever comes next.  So what a step preserves is not
what has been read but what it *comes to*: the arguments that settling would give (`ComesTo`).  A
group of arguments goes from what the groups before it say to what they say together with it,
however the last of those was left.

Main statements:

* `Reading.read_group` and `Reading.read_groups`: reading a group, and reading groups.
* `parse_wording`: what a command line is read as.
* `Arguments.job_eq_ok_iff` and `Arguments.job_eq_error_iff`: what job the arguments describe.
* `reads_every_wording`: a command line means what its groups say, however it is worded.
-/
import Disassembler8080.Proofs.BlockArithmetic
import Disassembler8080.Proofs.FailedRuns
import Mathlib.Data.List.Forall2

namespace Disassembler8080

namespace CommandLine

/-! ## 1. Wordings -/

/-- A text that stands for itself where an option could stand: a dash, or a text that begins with
none. -/
def IsPlain (text : String) : Prop := text = "-" ∨ text.toList.head? ≠ some '-'

instance : DecidablePred IsPlain := fun text =>
  inferInstanceAs (Decidable (text = "-" ∨ text.toList.head? ≠ some '-'))

/-- A text that stands for itself. -/
abbrev PlainText := { text : String // IsPlain text }

/-- The two names of an option. -/
inductive OptionName where
  | short
  | long
deriving DecidableEq, Repr

/-- The option for data blocks under a name. -/
def OptionName.forBlocks : OptionName → String
  | .short => "-d"
  | .long => "--data"

/-- The option for the output under a name. -/
def OptionName.forOutput : OptionName → String
  | .short => "-o"
  | .long => "--output"

/-- Arguments that belong together. -/
inductive Group where
  /-- A data block. -/
  | block (name : OptionName) (start count : PlainText)
  /-- An output in the argument behind its option. -/
  | outputBehind (name : OptionName) (path : PlainText) (hpath : path.val ≠ "")
  /-- An output attached to the short name of its option. -/
  | outputAttached (path : String) (hpath : path ≠ "") (hfirst : path.toList.head? ≠ some '=')
  /-- An output attached to its option by an equals sign. -/
  | outputEquals (name : OptionName) (path : String) (hpath : path ≠ "")
  | verbose
  /-- One request to say more, and more of them behind the same dash. -/
  | verboseShort (more : Nat)
  | input (path : PlainText) (hpath : path.val ≠ "")

namespace Group

/-- The arguments as they are written. -/
def written : Group → List String
  | .block name start count => [name.forBlocks, start, count]
  | .outputBehind name path _ => [name.forOutput, path]
  | .outputAttached path _ _ => [OptionName.short.forOutput ++ path]
  | .outputEquals name path _ => [name.forOutput ++ "=" ++ path]
  | .verbose => ["--verbose"]
  | .verboseShort more => [String.ofList ('-' :: List.replicate (more + 1) 'v')]
  | .input path _ => [path]

/-- The start and the count of a data block. -/
def pair? : Group → Option (String × String)
  | .block _ start count => some (start, count)
  | _ => none

/-- The values of a data block. -/
def values : Group → List String
  | .block _ start count => [start, count]
  | _ => []

/-- The path of an output. -/
def output? : Group → Option String
  | .outputBehind _ path _ => some path
  | .outputAttached path _ _ => some path
  | .outputEquals _ path _ => some path
  | _ => none

/-- The path of an input. -/
def input? : Group → Option String
  | .input path _ => some path
  | _ => none

/-- How often a group asks to say more. -/
def requests : Group → Nat
  | .verbose => 1
  | .verboseShort more => more + 1
  | _ => 0

/-- How often groups ask to say more. -/
def requestsOfAll : List Group → Nat
  | [] => 0
  | group :: rest => group.requests + requestsOfAll rest

theorem requestsOfAll_perm {first second : List Group} (h : first.Perm second) :
    requestsOfAll first = requestsOfAll second := by
  induction h with
  | nil => rfl
  | cons group _ ih => rw [requestsOfAll, requestsOfAll, ih]
  | swap group other rest =>
    simp only [requestsOfAll]
    omega
  | trans _ _ ih ih' => exact ih.trans ih'

end Group

/-- How a command line ends. -/
inductive Closing where
  | plain
  /-- With the mark behind which all is a path, and nothing behind it. -/
  | marked
  /-- With an input behind that mark, which may begin with a dash. -/
  | input (path : String) (hpath : path ≠ "")

namespace Closing

/-- The last arguments as they are written. -/
def written : Closing → List String
  | .plain => []
  | .marked => ["--"]
  | .input path _ => ["--", path]

/-- The path of an input. -/
def input? : Closing → Option String
  | .input path _ => some path
  | _ => none

end Closing

/-- A command line as it is written, with no more than one output and one input. -/
structure Wording where
  groups : List Group
  closing : Closing := .plain
  length_outputs_le : (groups.filterMap Group.output?).length ≤ 1
  length_inputs_le : (groups.filterMap Group.input? ++ closing.input?.toList).length ≤ 1

/-- What arguments say together with a group behind them. -/
def Arguments.adding (arguments : Arguments) (group : Group) : Arguments where
  data := arguments.data ++ group.values
  output := arguments.output.or group.output?
  input := arguments.input.or group.input?
  verbosity := min maxVerbosity (arguments.verbosity + group.requests)

theorem Arguments.adding_block {arguments : Arguments}
    (hle : arguments.verbosity ≤ maxVerbosity) (name : OptionName) (start count : PlainText) :
    arguments.adding (.block name start count) =
      { arguments with data := arguments.data ++ [start.val, count.val] } := by
  simp [adding, Group.values, Group.output?, Group.input?, Group.requests, hle]

/-- A group with an output sets the output, however it is written. -/
theorem Arguments.adding_output {arguments : Arguments}
    (hle : arguments.verbosity ≤ maxVerbosity) (hnone : arguments.output = none) {group : Group}
    {path : String} (h : group.output? = some path) :
    arguments.adding group = { arguments with output := some path } := by
  cases group with
  | outputBehind | outputAttached | outputEquals =>
    cases h
    simp [adding, Group.values, Group.output?, Group.input?, Group.requests, hle, hnone]
  | block | verbose | verboseShort | input => cases h

theorem Arguments.adding_input {arguments : Arguments}
    (hle : arguments.verbosity ≤ maxVerbosity) (hnone : arguments.input = none) (path : PlainText)
    (hpath : path.val ≠ "") :
    arguments.adding (.input path hpath) = { arguments with input := some path.val } := by
  simp [adding, Group.values, Group.output?, Group.input?, Group.requests, hle, hnone]

namespace Wording

variable (wording : Wording)

/-- The arguments as they are written. -/
def arguments : List String := wording.groups.flatMap Group.written ++ wording.closing.written

/-- The starts and counts of the data blocks in the order of use. -/
def pairs : List (String × String) := wording.groups.filterMap Group.pair?

/-- The values of the data blocks in one row, in the order of use. -/
def values : List String := wording.groups.flatMap Group.values

/-- The output, if there is one. -/
def outputs : List String := wording.groups.filterMap Group.output?

/-- The input, if there is one. -/
def inputs : List String :=
  wording.groups.filterMap Group.input? ++ wording.closing.input?.toList

/-- How often it is asked to say more. -/
def requests : Nat := Group.requestsOfAll wording.groups

/-- What a command line says. -/
def meaning : Arguments where
  data := wording.values
  output := wording.outputs.head?
  input := wording.inputs.head?
  verbosity := min maxVerbosity wording.requests

end Wording

/-! ## 2. What a reading comes to -/

namespace Reading

/-- What a reading comes to: the arguments that settling it would give. -/
def ComesTo (reading : Reading) (arguments : Arguments) : Prop :=
  reading.settle =
    .ok { arguments := arguments, pending := .nothing, onlyPaths := reading.onlyPaths }

variable {reading : Reading} {arguments : Arguments}

/-- A reading with nothing pending comes to what it has read. -/
theorem comesTo_of_nothing (arguments : Arguments) (onlyPaths : Bool) :
    ComesTo { arguments := arguments, pending := .nothing, onlyPaths := onlyPaths } arguments := rfl

theorem comesTo_of_wholeBlock (arguments : Arguments) (start count : String) (onlyPaths : Bool) :
    ComesTo { arguments := arguments, pending := .wholeBlock start count, onlyPaths := onlyPaths }
      { arguments with data := arguments.data ++ [start, count] } := rfl

theorem setOutput_eq_ok {path : String} (hnone : reading.arguments.output = none)
    (hpath : path ≠ "") :
    reading.setOutput path =
      .ok { reading with
        arguments := { reading.arguments with output := some path }, pending := .nothing } := by
  rw [setOutput, hnone, if_neg (by simp), if_neg hpath]

theorem comesTo_of_outputTo {path : String} (hnone : arguments.output = none) (hpath : path ≠ "")
    (onlyPaths : Bool) :
    ComesTo { arguments := arguments, pending := .outputTo path, onlyPaths := onlyPaths }
      { arguments with output := some path } :=
  setOutput_eq_ok hnone hpath

theorem comesTo_of_inputFrom {path : String} (hpath : path ≠ "") (arguments : Arguments)
    (onlyPaths : Bool) :
    ComesTo { arguments := arguments, pending := .inputFrom path, onlyPaths := onlyPaths }
      { arguments with input := some path } :=
  if_neg hpath

/-- Settling does not look at the mark behind which all is a path. -/
theorem settle_mark (reading : Reading) :
    settle { reading with onlyPaths := true } =
      reading.settle.map fun settled => { settled with onlyPaths := true } := by
  obtain ⟨read, pending, onlyPaths⟩ := reading
  cases pending with
  | outputTo path =>
    simp only [settle, setOutput]
    split
    · rfl
    · split <;> rfl
  | inputFrom path =>
    simp only [settle]
    split <;> rfl
  | _ => rfl

namespace ComesTo

theorem mark (h : ComesTo reading arguments) :
    ComesTo { reading with onlyPaths := true } arguments := by
  rw [ComesTo, settle_mark, h]
  rfl

theorem hasInput_eq (h : ComesTo reading arguments) :
    reading.hasInput = arguments.input.isSome := by
  obtain ⟨read, pending, onlyPaths⟩ := reading
  unfold ComesTo settle at h
  cases pending with
  | nothing | wholeBlock start count =>
    cases h
    rfl
  | block | blockFrom start | output => cases h
  | outputTo path =>
    simp only [setOutput] at h
    split at h
    · cases h
    · split at h
      · cases h
      · cases h
        rfl
  | inputFrom path =>
    simp only at h
    split at h
    · cases h
    · cases h
      rfl

/-- Something new is gathered on top of what the reading comes to. -/
theorem await_eq (h : ComesTo reading arguments) (pending : Pending) :
    reading.await pending =
      .ok { arguments := arguments, pending := pending, onlyPaths := reading.onlyPaths } := by
  rw [await, h]
  rfl

theorem sayMore_eq (h : ComesTo reading arguments) :
    reading.sayMore =
      .ok { arguments := { arguments with
              verbosity := min maxVerbosity (arguments.verbosity + 1) }
            pending := .nothing
            onlyPaths := reading.onlyPaths } := by
  rw [sayMore, h]
  rfl

theorem attachOutput_eq (h : ComesTo reading arguments) {path : String}
    (hnone : arguments.output = none) (hpath : path ≠ "") :
    reading.attachOutput path =
      .ok { arguments := { arguments with output := some path }
            pending := .nothing
            onlyPaths := reading.onlyPaths } := by
  rw [attachOutput, h]
  exact setOutput_eq_ok hnone hpath

/-- The first path that is read is gathered as the input. -/
theorem readPath_eq (h : ComesTo reading arguments) (hnone : arguments.input = none)
    (path : String) :
    reading.readPath path =
      .ok { arguments := arguments, pending := .inputFrom path, onlyPaths := reading.onlyPaths } := by
  rw [readPath, h.hasInput_eq, hnone, if_neg (by simp), h.await_eq]

/-- No value is wanted where a reading comes to something. -/
theorem readPlain_eq (h : ComesTo reading arguments) (argument : String) :
    reading.readPlain argument = reading.readPath argument := by
  obtain ⟨read, pending, onlyPaths⟩ := reading
  cases pending with
  | block | blockFrom start | output => cases h
  | nothing | wholeBlock start count | outputTo path | inputFrom path => rfl

end ComesTo

/-! ## 3. Single arguments -/

theorem readArgument_of_isPlain {text : String} (h : IsPlain text)
    (hopen : reading.onlyPaths = false) :
    reading.readArgument text = reading.readPlain text := by
  rw [readArgument, hopen, if_neg (by simp)]
  rcases h with rfl | hfirst
  · rfl
  · split
    · rename_i htext
      rw [htext] at hfirst
      exact absurd rfl hfirst
    · rename_i htext
      rw [htext] at hfirst
      exact absurd rfl hfirst
    · rename_i htext
      rw [htext] at hfirst
      exact absurd rfl hfirst
    · rfl

/-- An argument of a dash and something other than a dash is a row of short options. -/
theorem readArgument_short {text : String} (option : Char) (options : List Char)
    (htext : text.toList = '-' :: option :: options) (hoption : option ≠ '-')
    (hopen : reading.onlyPaths = false) :
    reading.readArgument text = reading.readShort (option :: options) := by
  rw [readArgument, hopen, if_neg (by simp), htext]
  split
  · rename_i heq
    cases heq
    exact absurd rfl hoption
  · rename_i heq
    cases heq
    exact absurd rfl hoption
  · rename_i heq
    cases heq
    rfl
  · rename_i hnot
    exact absurd rfl (hnot option options)

/-- An argument of two dashes and something else is a long option. -/
theorem readArgument_long {text : String} (option : List Char)
    (htext : text.toList = '-' :: '-' :: option) (hoption : option ≠ [])
    (hopen : reading.onlyPaths = false) :
    reading.readArgument text = reading.readLong option := by
  rw [readArgument, hopen, if_neg (by simp), htext]
  split
  · rename_i heq
    cases heq
    exact absurd rfl hoption
  · rename_i heq
    cases heq
    rfl
  · rename_i hnot heq
    cases heq
    exact absurd rfl hnot
  · rename_i hnot _
    exact absurd rfl (hnot _)

/-! ## 4. Groups of arguments -/

theorem read_cons (reading : Reading) (argument : String) (rest : List String) :
    reading.read (argument :: rest) =
      reading.readArgument argument >>= fun next => next.read rest := by
  rw [read, List.foldlM_cons]
  rfl

theorem read_singleton (reading : Reading) (argument : String) :
    reading.read [argument] = reading.readArgument argument := by
  rw [read_cons]
  cases reading.readArgument argument <;> rfl

theorem readArgument_forBlocks (hopen : reading.onlyPaths = false) (name : OptionName) :
    reading.readArgument name.forBlocks = reading.await .block := by
  cases name with
  | short => exact readArgument_short 'd' [] rfl (by decide) hopen
  | long => exact readArgument_long "data".toList rfl (List.cons_ne_nil _ _) hopen

theorem readArgument_forOutput (hopen : reading.onlyPaths = false) (name : OptionName) :
    reading.readArgument name.forOutput = reading.await .output := by
  cases name with
  | short => exact readArgument_short 'o' [] rfl (by decide) hopen
  | long => exact readArgument_long "output".toList rfl (List.cons_ne_nil _ _) hopen

theorem readArgument_equals (hopen : reading.onlyPaths = false) (name : OptionName)
    (path : String) :
    reading.readArgument (name.forOutput ++ "=" ++ path) = reading.attachOutput path := by
  cases name with
  | short =>
    have htext : ("-o" ++ "=" ++ path).toList = '-' :: 'o' :: '=' :: path.toList :=
      String.toList_append
    rw [OptionName.forOutput, readArgument_short _ _ htext (by decide) hopen]
    change reading.attachOutput (String.ofList path.toList) = _
    rw [String.ofList_toList]
  | long =>
    have htext : ("--output" ++ "=" ++ path).toList =
        '-' :: '-' :: ("output=".toList ++ path.toList) :=
      String.toList_append
    rw [OptionName.forOutput, readArgument_long _ htext (List.cons_ne_nil _ _) hopen]
    change reading.attachOutput (String.ofList path.toList) = _
    rw [String.ofList_toList]

/-- An output attached directly is attached too, unless it begins with an equals sign, which would
be taken away. -/
theorem readArgument_attached (hopen : reading.onlyPaths = false) {path : String}
    (hpath : path ≠ "") (hfirst : path.toList.head? ≠ some '=') :
    reading.readArgument (OptionName.short.forOutput ++ path) = reading.attachOutput path := by
  have htext : ("-o" ++ path).toList = '-' :: 'o' :: path.toList := String.toList_append
  rw [OptionName.forOutput, readArgument_short _ _ htext (by decide) hopen]
  cases hchars : path.toList with
  | nil => exact absurd (String.toList_inj.mp hchars) hpath
  | cons first rest =>
    have hkept : withoutEquals (first :: rest) = first :: rest := by
      unfold withoutEquals
      split
      · rename_i heq
        cases heq
        rw [hchars] at hfirst
        exact absurd rfl hfirst
      · rfl
    change reading.attachOutput (String.ofList (withoutEquals (first :: rest))) = _
    rw [hkept, ← hchars, String.ofList_toList]

theorem readShort_replicate (h : ComesTo reading arguments)
    (hle : arguments.verbosity ≤ maxVerbosity) (count : Nat) :
    ∃ next, reading.readShort (List.replicate count 'v') = .ok next ∧
      next.onlyPaths = reading.onlyPaths ∧
      ComesTo next { arguments with
        verbosity := min maxVerbosity (arguments.verbosity + count) } := by
  induction count generalizing reading arguments with
  | zero =>
    refine ⟨reading, rfl, rfl, ?_⟩
    rwa [Nat.add_zero, Nat.min_eq_right hle]
  | succ count ih =>
    obtain ⟨next, hnext, hopen, hcomes⟩ :=
      ih (comesTo_of_nothing { arguments with
        verbosity := min maxVerbosity (arguments.verbosity + 1) } reading.onlyPaths)
        (Nat.min_le_left _ _)
    refine ⟨next, ?_, hopen, ?_⟩
    · change (reading.sayMore >>= fun more => more.readShort (List.replicate count 'v')) = _
      rw [h.sayMore_eq]
      exact hnext
    · have hcount : min maxVerbosity (min maxVerbosity (arguments.verbosity + 1) + count) =
          min maxVerbosity (arguments.verbosity + (count + 1)) := by omega
      rwa [← hcount]

/-- **Reading a group** leads from what was said before to what is said together with it. -/
theorem read_group (group : Group) (h : ComesTo reading arguments)
    (hopen : reading.onlyPaths = false) (hle : arguments.verbosity ≤ maxVerbosity)
    (houtput : group.output? = none ∨ arguments.output = none)
    (hinput : group.input? = none ∨ arguments.input = none) :
    ∃ next, reading.read group.written = .ok next ∧ next.onlyPaths = false ∧
      ComesTo next (arguments.adding group) := by
  cases group with
  | block name start count =>
    rw [Arguments.adding_block hle]
    refine ⟨{ arguments := arguments, pending := .wholeBlock start count }, ?_, rfl,
      comesTo_of_wholeBlock arguments start count false⟩
    rw [Group.written, read_cons, readArgument_forBlocks hopen, h.await_eq, hopen]
    change read { arguments := arguments, pending := .block } [start.val, count.val] = _
    rw [read_cons, readArgument_of_isPlain start.property rfl]
    change read { arguments := arguments, pending := .blockFrom start } [count.val] = _
    rw [read_singleton, readArgument_of_isPlain count.property rfl]
    rfl
  | outputBehind name path hpath =>
    have hnone := houtput.resolve_left (Option.some_ne_none _)
    rw [Arguments.adding_output hle hnone rfl]
    refine ⟨{ arguments := arguments, pending := .outputTo path }, ?_, rfl,
      comesTo_of_outputTo hnone hpath false⟩
    rw [Group.written, read_cons, readArgument_forOutput hopen, h.await_eq, hopen]
    change read { arguments := arguments, pending := .output } [path.val] = _
    rw [read_singleton, readArgument_of_isPlain path.property rfl]
    rfl
  | outputAttached path hpath hfirst =>
    have hnone := houtput.resolve_left (Option.some_ne_none _)
    rw [Arguments.adding_output hle hnone rfl, Group.written, read_singleton,
      readArgument_attached hopen hpath hfirst, h.attachOutput_eq hnone hpath]
    exact ⟨_, rfl, hopen, comesTo_of_nothing _ _⟩
  | outputEquals name path hpath =>
    have hnone := houtput.resolve_left (Option.some_ne_none _)
    rw [Arguments.adding_output hle hnone rfl, Group.written, read_singleton,
      readArgument_equals hopen, h.attachOutput_eq hnone hpath]
    exact ⟨_, rfl, hopen, comesTo_of_nothing _ _⟩
  | verbose =>
    have hread : reading.readArgument "--verbose" = reading.sayMore :=
      readArgument_long "verbose".toList rfl (List.cons_ne_nil _ _) hopen
    rw [Group.written, read_singleton, hread, h.sayMore_eq]
    refine ⟨_, rfl, hopen, ?_⟩
    simp only [Arguments.adding, Group.values, Group.output?, Group.input?, Group.requests,
      List.append_nil, Option.or_none]
    exact comesTo_of_nothing _ _
  | verboseShort more =>
    obtain ⟨next, hnext, hstill, hcomes⟩ := readShort_replicate h hle (more + 1)
    have hread : reading.readArgument (String.ofList ('-' :: List.replicate (more + 1) 'v')) =
        reading.readShort (List.replicate (more + 1) 'v') :=
      readArgument_short 'v' (List.replicate more 'v') String.toList_ofList (by decide) hopen
    refine ⟨next, ?_, hstill.trans hopen, ?_⟩
    · rw [Group.written, read_singleton, hread, hnext]
    · simp only [Arguments.adding, Group.values, Group.output?, Group.input?, Group.requests,
        List.append_nil, Option.or_none]
      exact hcomes
  | input path hpath =>
    have hnone := hinput.resolve_left (Option.some_ne_none _)
    rw [Arguments.adding_input hle hnone, Group.written, read_singleton,
      readArgument_of_isPlain path.property hopen, h.readPlain_eq, h.readPath_eq hnone]
    exact ⟨_, rfl, hopen, comesTo_of_inputFrom hpath _ _⟩

/-- Where a group and those behind it may say one thing at most together with what has been said,
the group says nothing or nothing has been said. -/
theorem one_at_most {said : Option String} {part : Group → Option String} {group : Group}
    {rest : List Group} (h : (said.toList ++ (group :: rest).filterMap part).length ≤ 1) :
    (part group = none ∨ said = none) ∧
      ((said.or (part group)).toList ++ rest.filterMap part).length ≤ 1 := by
  rw [List.filterMap_cons, List.length_append] at h
  cases hgroup : part group with
  | none =>
    rw [hgroup] at h
    rw [Option.or_none, List.length_append]
    exact ⟨Or.inl rfl, h⟩
  | some path =>
    rw [hgroup] at h
    cases said with
    | none => exact ⟨Or.inr rfl, by simpa using h⟩
    | some other =>
      simp only [Option.toList_some, List.length_cons, List.length_nil] at h
      omega

/-- **Reading groups** one after the other, as long as there is one output and one input at most. -/
theorem read_groups (groups : List Group) (h : ComesTo reading arguments)
    (hopen : reading.onlyPaths = false) (hle : arguments.verbosity ≤ maxVerbosity)
    (houtputs : (arguments.output.toList ++ groups.filterMap Group.output?).length ≤ 1)
    (hinputs : (arguments.input.toList ++ groups.filterMap Group.input?).length ≤ 1) :
    ∃ next, reading.read (groups.flatMap Group.written) = .ok next ∧ next.onlyPaths = false ∧
      ComesTo next (groups.foldl Arguments.adding arguments) := by
  induction groups generalizing reading arguments with
  | nil => exact ⟨reading, rfl, hopen, h⟩
  | cons group rest ih =>
    obtain ⟨houtput, houtputs'⟩ := one_at_most houtputs
    obtain ⟨hinput, hinputs'⟩ := one_at_most hinputs
    obtain ⟨middle, hmiddle, hstill, hcomes⟩ := read_group group h hopen hle houtput hinput
    obtain ⟨next, hnext, hlast, hall⟩ :=
      ih hcomes hstill (Nat.min_le_left _ _) houtputs' hinputs'
    refine ⟨next, ?_, hlast, hall⟩
    rw [List.flatMap_cons, read_append, hmiddle]
    exact hnext

theorem read_closing (closing : Closing) (h : ComesTo reading arguments)
    (hopen : reading.onlyPaths = false)
    (hinput : closing.input? = none ∨ arguments.input = none) :
    ∃ next, reading.read closing.written = .ok next ∧
      ComesTo next { arguments with input := arguments.input.or closing.input? } := by
  have hmark : reading.readArgument "--" = .ok { reading with onlyPaths := true } := by
    rw [readArgument, hopen]
    rfl
  cases closing with
  | plain =>
    simp only [Closing.input?, Option.or_none]
    exact ⟨reading, rfl, h⟩
  | marked =>
    simp only [Closing.input?, Option.or_none]
    rw [Closing.written, read_singleton, hmark]
    exact ⟨_, rfl, h.mark⟩
  | input path hpath =>
    have hnone := hinput.resolve_left (Option.some_ne_none _)
    have hpathRead := h.mark.readPath_eq hnone path
    rw [Closing.input?, hnone, Option.none_or, Closing.written, read_cons, hmark]
    refine ⟨_, ?_, comesTo_of_inputFrom hpath arguments true⟩
    change read { reading with onlyPaths := true } [path] = _
    rw [read_singleton, readArgument, if_pos rfl, hpathRead]

end Reading

/-- What groups say, taken together. -/
theorem foldl_adding (groups : List Group) {arguments : Arguments}
    (hle : arguments.verbosity ≤ maxVerbosity) :
    groups.foldl Arguments.adding arguments =
      { data := arguments.data ++ groups.flatMap Group.values
        output := arguments.output.or (groups.filterMap Group.output?).head?
        input := arguments.input.or (groups.filterMap Group.input?).head?
        verbosity := min maxVerbosity (arguments.verbosity + Group.requestsOfAll groups) } := by
  induction groups generalizing arguments with
  | nil => simp [Group.requestsOfAll, hle]
  | cons group rest ih =>
    rw [List.foldl_cons, ih (Nat.min_le_left _ _), Arguments.mk.injEq]
    refine ⟨?_, ?_, ?_, ?_⟩
    · rw [Arguments.adding, List.flatMap_cons, List.append_assoc]
    · cases houtput : group.output? <;> simp [Arguments.adding, houtput]
    · cases hinput : group.input? <;> simp [Arguments.adding, hinput]
    · simp only [Arguments.adding, Group.requestsOfAll]
      omega

/-- **A command line is read as what it says.** -/
theorem parse_wording (wording : Wording) : parse wording.arguments = .ok wording.meaning := by
  obtain ⟨groups, closing, houtputs, hinputs⟩ := wording
  have hgroupInputs : (groups.filterMap Group.input?).length ≤ 1 := by
    rw [List.length_append] at hinputs
    omega
  obtain ⟨middle, hmiddle, hopen, hcomes⟩ :=
    Reading.read_groups groups (Reading.comesTo_of_nothing {} false) rfl (Nat.zero_le _)
      houtputs hgroupInputs
  rw [foldl_adding groups (Nat.zero_le _)] at hcomes
  have hinput : closing.input? = none ∨ (groups.filterMap Group.input?).head? = none := by
    cases hclosing : closing.input? with
    | none => exact Or.inl rfl
    | some path =>
      rw [hclosing, List.length_append] at hinputs
      refine Or.inr (List.head?_eq_none_iff.mpr (List.eq_nil_of_length_eq_zero ?_))
      simp only [Option.toList_some, List.length_singleton] at hinputs
      omega
  obtain ⟨last, hlast, hsettled⟩ := Reading.read_closing closing hcomes hopen hinput
  unfold parse
  rw [Wording.arguments, Reading.read_append, hmiddle]
  change (Reading.read middle closing.written >>= fun reading => reading.settle >>= fun settled =>
    Except.ok settled.arguments) = _
  rw [hlast]
  change (last.settle >>= fun settled => Except.ok settled.arguments) = _
  rw [hsettled]
  simp [Wording.meaning, Wording.values, Wording.outputs, Wording.inputs, Wording.requests, bind,
    Except.bind]

/-! ## 5. Values in one row -/

/-- A row of values that come in pairs is cut into those pairs. -/
theorem pairsOf_flatMap (pairs : List (String × String)) :
    pairsOf (pairs.flatMap fun pair => [pair.1, pair.2]) = pairs := by
  induction pairs with
  | nil => rfl
  | cons pair rest ih =>
    rw [List.flatMap_cons, List.cons_append, List.cons_append, List.nil_append, pairsOf, ih]

theorem Wording.values_eq (wording : Wording) :
    wording.values = wording.pairs.flatMap fun pair => [pair.1, pair.2] := by
  unfold values pairs
  induction wording.groups with
  | nil => rfl
  | cons group rest ih =>
    rw [List.flatMap_cons, ih]
    cases group <;> rfl

/-- **No value goes astray.**  Cut into pairs by position, the row of all values gives the data
blocks as they were written. -/
theorem Wording.blocks_meaning (wording : Wording) : wording.meaning.blocks = wording.pairs := by
  rw [Arguments.blocks, meaning, values_eq, pairsOf_flatMap]

end CommandLine

/-! ## 6. Jobs -/

/-- Why two texts make no data block: the start is looked at first, then the count, and then the
numbers together. -/
inductive DataBlock.FirstFault (start count : String) : Failure → Prop
  | start {failure : Failure} (h : Numeral.parse start = .error failure) :
    FirstFault start count failure
  | count {first : UInt64} {failure : Failure} (hstart : Numeral.parse start = .ok first)
    (h : Numeral.parse count = .error failure) : FirstFault start count failure
  | outside {first size : UInt64} (hstart : Numeral.parse start = .ok first)
    (hcount : Numeral.parse count = .ok size)
    (h : ¬ (1 ≤ first.toNat + size.toNat ∧ first.toNat + size.toNat ≤ memorySize)) :
    FirstFault start count (.blockOutsideMemory first size)

/-- Two texts are refused for the first thing that is wrong with them. -/
theorem DataBlock.parse_eq_error_iff (start count : String) (failure : Failure) :
    parse start count = .error failure ↔ FirstFault start count failure := by
  unfold parse
  constructor
  · intro h
    cases hstart : Numeral.parse start with
    | error cause =>
      rw [hstart] at h
      cases h
      exact .start hstart
    | ok first =>
      cases hcount : Numeral.parse count with
      | error cause =>
        rw [hstart, hcount] at h
        cases h
        exact .count hstart hcount
      | ok size =>
        rw [hstart, hcount] at h
        change ofNumbers first size = .error failure at h
        rw [ofNumbers_error h]
        refine .outside hstart hcount fun hinside => ?_
        obtain ⟨block, hblock⟩ := (exists_ofNumbers_iff first size).mpr hinside
        exact absurd (hblock.symm.trans h) (by simp)
  · rintro (h | ⟨hstart, h⟩ | ⟨hstart, hcount, h⟩)
    · rw [h]
      rfl
    · rw [hstart, h]
      rfl
    · rw [hstart, hcount]
      exact ofNumbers_of_outside h

section InOrder

variable {α β ε : Type} {f : α → Except ε β}

/-- Things done one after the other succeed if each of them does, and give their values in order. -/
theorem mapM_eq_ok_iff {items : List α} {values : List β} :
    items.mapM f = .ok values ↔
      List.Forall₂ (fun item value => f item = .ok value) items values := by
  induction items generalizing values with
  | nil =>
    rw [List.mapM_nil, List.forall₂_nil_left_iff]
    exact ⟨fun h => (Except.ok.inj h).symm, fun h => congrArg _ h.symm⟩
  | cons item rest ih =>
    rw [List.mapM_cons, List.forall₂_cons_left_iff]
    constructor
    · intro h
      cases hitem : f item with
      | error failure =>
        rw [hitem] at h
        cases h
      | ok value =>
        cases hrest : rest.mapM f with
        | error failure =>
          rw [hitem, hrest] at h
          cases h
        | ok others =>
          rw [hitem, hrest] at h
          cases h
          exact ⟨value, others, rfl, ih.mp hrest, rfl⟩
    · rintro ⟨value, others, hitem, hrest, rfl⟩
      rw [hitem, ih.mpr hrest]
      rfl

theorem mapM_eq_error_iff {items : List α} {failure : ε} :
    items.mapM f = .error failure ↔
      ∃ before item after, items = before ++ item :: after ∧
        (∀ earlier ∈ before, ∃ value, f earlier = .ok value) ∧ f item = .error failure := by
  constructor
  · intro h
    induction items with
    | nil => cases h
    | cons item rest ih =>
      rw [List.mapM_cons] at h
      cases hitem : f item with
      | error cause =>
        rw [hitem] at h
        cases h
        exact ⟨[], item, rest, rfl, by simp, hitem⟩
      | ok value =>
        cases hrest : rest.mapM f with
        | error cause =>
          rw [hitem, hrest] at h
          cases h
          obtain ⟨before, first, after, rfl, hbefore, hfirst⟩ := ih hrest
          exact ⟨item :: before, first, after, rfl,
            List.forall_mem_cons.mpr ⟨⟨value, hitem⟩, hbefore⟩, hfirst⟩
        | ok others =>
          rw [hitem, hrest] at h
          cases h
  · rintro ⟨before, item, after, rfl, hbefore, hitem⟩
    exact mapM_eq_error hbefore hitem

end InOrder

namespace CommandLine

/-- The job of arguments is made of their blocks, if these can be made. -/
theorem Arguments.job_eq_map (arguments : Arguments) :
    arguments.job = arguments.dataBlocks.map fun blocks =>
      { blocks := blocks, source := arguments.source, sink := arguments.sink } := by
  rw [Arguments.job]
  cases arguments.dataBlocks <;> rfl

/-- **The job of arguments** has a block for each use of the option, in order. -/
theorem Arguments.job_eq_ok_iff (arguments : Arguments) (job : Job) :
    arguments.job = .ok job ↔
      List.Forall₂ (fun pair block => DataBlock.parse pair.1 pair.2 = .ok block)
        arguments.blocks job.blocks ∧
      job.source = arguments.source ∧ job.sink = arguments.sink := by
  have hblocks : arguments.dataBlocks = .ok job.blocks ↔
      List.Forall₂ (fun pair block => DataBlock.parse pair.1 pair.2 = .ok block)
        arguments.blocks job.blocks := mapM_eq_ok_iff
  obtain ⟨blocks, source, sink⟩ := job
  rw [← hblocks, job_eq_map]
  cases arguments.dataBlocks with
  | error failure => simp [Except.map]
  | ok found => simp [Except.map, eq_comm]

/-- **Arguments describe no job** for the first use of the option that makes no block. -/
theorem Arguments.job_eq_error_iff (arguments : Arguments) (failure : Failure) :
    arguments.job = .error failure ↔
      ∃ before pair after, arguments.blocks = before ++ pair :: after ∧
        (∀ earlier ∈ before, ∃ block, DataBlock.parse earlier.1 earlier.2 = .ok block) ∧
        DataBlock.FirstFault pair.1 pair.2 failure := by
  have hblocks : arguments.dataBlocks = .error failure ↔
      ∃ before pair after, arguments.blocks = before ++ pair :: after ∧
        (∀ earlier ∈ before, ∃ block, DataBlock.parse earlier.1 earlier.2 = .ok block) ∧
        DataBlock.parse pair.1 pair.2 = .error failure := mapM_eq_error_iff
  simp only [DataBlock.parse_eq_error_iff] at hblocks
  rw [← hblocks, job_eq_map]
  cases arguments.dataBlocks with
  | error cause => simp [Except.map]
  | ok blocks => simp [Except.map]

/-! ## 7. Command lines in other words -/

theorem eq_of_perm_of_length_le {α : Type} {first second : List α} (h : first.Perm second)
    (hle : first.length ≤ 1) : first = second := by
  match first, hle with
  | [], _ => exact (List.nil_perm.mp h).symm
  | [_], _ => exact List.singleton_perm.mp h

/-- A command line whose groups were moved, but for the data blocks among themselves, says what it
said before. -/
theorem Wording.meaning_eq_of_perm {first second : Wording}
    (hgroups : first.groups.Perm second.groups) (hclosing : first.closing = second.closing)
    (hpairs : first.pairs = second.pairs) : first.meaning = second.meaning := by
  have houtputs : first.outputs = second.outputs :=
    eq_of_perm_of_length_le (hgroups.filterMap _) first.length_outputs_le
  have hinputs : first.inputs = second.inputs := by
    refine eq_of_perm_of_length_le ?_ first.length_inputs_le
    rw [Wording.inputs, hclosing]
    exact (hgroups.filterMap _).append_right _
  have hrequests : first.requests = second.requests := Group.requestsOfAll_perm hgroups
  rw [Wording.meaning, Wording.meaning, Wording.values_eq, Wording.values_eq, hpairs, houtputs,
    hinputs, hrequests]

/-- A command line that is read as it is worded, and leads to the job that it is about. -/
structure ReadAsWorded (wording : Wording) : Prop where
  read_eq : parse wording.arguments =
    .ok { data := wording.groups.flatMap Group.values
          output := wording.outputs.head?
          input := wording.inputs.head?
          verbosity := min 255 wording.requests }
  /-- The values of the data blocks, which stand in one row, are cut by position into the start and
  the count of each. -/
  blocks_eq : wording.meaning.blocks = wording.pairs
  /-- The job has one block for each pair, made of that pair, in the same order. -/
  job_eq_ok_iff : ∀ job, wording.meaning.job = .ok job ↔
    List.Forall₂ (fun pair block => DataBlock.parse pair.1 pair.2 = .ok block)
      wording.pairs job.blocks ∧
    job.source = wording.meaning.source ∧ job.sink = wording.meaning.sink
  /-- There is no job if a pair makes no block, -/
  job_fails_iff : (∃ failure, wording.meaning.job = .error failure) ↔
    ∃ pair ∈ wording.pairs, ∃ failure, DataBlock.parse pair.1 pair.2 = .error failure
  /-- and then the first such pair is reported, and the first thing that is wrong with it. -/
  job_eq_error_iff : ∀ failure, wording.meaning.job = .error failure ↔
    ∃ before pair after, wording.pairs = before ++ pair :: after ∧
      (∀ earlier ∈ before, ∃ block, DataBlock.parse earlier.1 earlier.2 = .ok block) ∧
      DataBlock.FirstFault pair.1 pair.2 failure
  /-- Other words for the same are read alike. -/
  reworded : ∀ other : Wording, other.pairs = wording.pairs → other.outputs = wording.outputs →
    other.inputs = wording.inputs → other.requests = wording.requests →
      parse other.arguments = parse wording.arguments
  /-- So are the same groups in another order, if the data blocks keep theirs. -/
  moved : ∀ other : Wording, other.groups.Perm wording.groups →
    other.closing = wording.closing → other.pairs = wording.pairs →
      parse other.arguments = parse wording.arguments

/-- **A command line means what its groups say, however it is worded.**  Every spelling of its
options and every order of its groups is read; the data blocks are those of the groups, in the order
of use and with their own values; and the job has a block for each of them or is refused for the
first that makes none. -/
theorem reads_every_wording (wording : Wording) : ReadAsWorded wording where
  read_eq := parse_wording wording
  blocks_eq := wording.blocks_meaning
  job_eq_ok_iff job := by rw [wording.meaning.job_eq_ok_iff, wording.blocks_meaning]
  job_fails_iff := by
    simp only [wording.meaning.job_eq_error_iff, wording.blocks_meaning,
      ← DataBlock.parse_eq_error_iff]
    constructor
    · rintro ⟨failure, before, pair, after, hpairs, -, hpair⟩
      rw [hpairs]
      exact ⟨pair, List.mem_append_right _ List.mem_cons_self, failure, hpair⟩
    · intro hfails
      obtain ⟨before, pair, after, failure, hpairs, hbefore, hpair⟩ := exists_first_error hfails
      exact ⟨failure, before, pair, after, hpairs, hbefore, hpair⟩
  job_eq_error_iff failure := by
    rw [wording.meaning.job_eq_error_iff, wording.blocks_meaning]
  reworded := by
    intro other hpairs houtputs hinputs hrequests
    rw [parse_wording, parse_wording, Wording.meaning, Wording.meaning, Wording.values_eq,
      Wording.values_eq, hpairs, houtputs, hinputs, hrequests]
  moved := by
    intro other hgroups hclosing hpairs
    rw [parse_wording, parse_wording, Wording.meaning_eq_of_perm hgroups hclosing hpairs]

/-- Two data blocks, an output, an input and four requests to say more, in two wordings.  The second
block has a bad start. -/
theorem reads_every_wording_of_two_blocks :
    let first := ["-vv", "-d", "0x10", "2", "rom.bin", "-oout.asm", "--verbose", "--data", "-", "8",
      "-v"]
    let second := ["--output=out.asm", "--data", "0x10", "2", "-vvvv", "-d", "-", "8", "--",
      "rom.bin"]
    let said : Arguments :=
      { data := ["0x10", "2", "-", "8"]
        output := some "out.asm"
        input := some "rom.bin"
        verbosity := 4 }
    parse first = .ok said ∧ parse second = .ok said ∧
      said.job = .error (.notANumber "-") := by
  intro first second said
  let lower : PlainText := ⟨"0x10", by decide⟩
  let two : PlainText := ⟨"2", by decide⟩
  let dash : PlainText := ⟨"-", by decide⟩
  let eight : PlainText := ⟨"8", by decide⟩
  let wording : Wording :=
    { groups := [.verboseShort 1, .block .short lower two,
        .input ⟨"rom.bin", by decide⟩ (by decide), .outputAttached "out.asm" (by decide) (by decide),
        .verbose, .block .long dash eight, .verboseShort 0]
      length_outputs_le := by decide
      length_inputs_le := by decide }
  let other : Wording :=
    { groups := [.outputEquals .long "out.asm" (by decide), .block .long lower two,
        .verboseShort 3, .block .short dash eight]
      closing := .input "rom.bin" (by decide)
      length_outputs_le := by decide
      length_inputs_le := by decide }
  have hread := reads_every_wording wording
  refine ⟨hread.read_eq, ?_, ?_⟩
  · exact (hread.reworded other rfl rfl rfl rfl).trans hread.read_eq
  · refine (hread.job_eq_error_iff _).mpr
      ⟨[("0x10", "2")], ("-", "8"), [], rfl, ?_, .start rfl⟩
    intro earlier hearlier
    cases List.mem_singleton.mp hearlier
    exact ⟨⟨16, 2, by decide, by decide⟩, rfl⟩

end CommandLine

end Disassembler8080
