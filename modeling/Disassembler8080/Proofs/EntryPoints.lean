/-
# All ways to a listing agree

There are three: a sweep whose result is rendered, the disassembling of a stream into a writer, and
a run of the program, which can take its input from a file or from standard input and can put the
listing into a file or on standard output.  For the same bytes and the same data blocks they come to
the same text, or fail in the same way.

A run reads all of its input before it opens its sink, and opening a sink is what empties a file.
So a listing may go to the file that the input comes from, and a file that exists holds the listing
afterwards and nothing of what it held before.

Main statements:

* `World.entry?_put_self` and `World.entry?_put_of_ne`: what stands where after a file was written.
* `World.run_delivers` and `World.run_of_result_eq_error`: what runs come to.
* `entry_points_agree`: the three ways come to the same, whatever is reported of it.
-/
import Disassembler8080.Proofs.RoundTrip
import Disassembler8080.Proofs.Verbosity

namespace Disassembler8080

open Tiling

namespace World

/-! ## 1. Where bytes come from and where a text goes -/

/-- Worlds that have bytes where a command line looks for its input: standard input stands for an
input that is not named or named by a dash. -/
inductive Supplies (world : World) (bytes : List UInt8) : Option String → Prop
  | absent (h : world.input = bytes) : Supplies world bytes none
  | dash (h : world.input = bytes) : Supplies world bytes (some "-")
  | file {path : String} {place : Place} (hpath : path ≠ "-")
    (h : world.find path = .ok (place, .file bytes)) : Supplies world bytes (some path)

/-- Worlds in which the output that a command line names, if it does, is a file that exists or can be
made, and the place of that file. -/
inductive Creates (world : World) : Option String → Option Place → Prop
  | standardOutput : Creates world none none
  | file {path : String} {place : Place} {entry : Option Entry}
    (h : world.findForWriting path = .ok (place, entry))
    (hentry : ∀ device, entry ≠ some (.device device)) : Creates world (some path) (some place)

/-- Worlds before and after a text went to standard output, or became all that a file holds. -/
inductive Delivered (before after : World) (text : String) : Option Place → Prop
  | standardOutput (hshown : after.shown = before.shown ++ text.toByteArray)
    (hentries : ∀ place, after.entry? place = before.entry? place) :
    Delivered before after text none
  | file {place : Place} (hshown : after.shown = before.shown)
    (hfile : after.entry? place = some (.file (Text.bytes text)))
    (hothers : ∀ other, other ≠ place → after.entry? other = before.entry? other) :
    Delivered before after text (some place)

variable {world : World} {bytes : List UInt8}

theorem Supplies.saying {input : Option String} (h : world.Supplies bytes input)
    (pieces : List ByteArray) : (world.saying pieces).Supplies bytes input := by
  cases h with
  | absent h => exact .absent h
  | dash h => exact .dash h
  | file hpath h => exact .file hpath (by rwa [find_saying])

theorem Creates.saying {output : Option String} {target : Option Place}
    (h : world.Creates output target) (pieces : List ByteArray) :
    (world.saying pieces).Creates output target := by
  cases h with
  | standardOutput => exact .standardOutput
  | file h hentry => exact .file (by rwa [findForWriting_saying]) hentry

theorem Delivered.of_saying {pieces : List ByteArray} {after : World} {text : String}
    {target : Option Place} (h : Delivered (world.saying pieces) after text target) :
    Delivered world after text target := by
  cases h with
  | standardOutput hshown hentries => exact .standardOutput hshown hentries
  | file hshown hfile hothers => exact .file hshown hfile hothers

/-- What is delivered to an empty standard output is the text there. -/
theorem Delivered.output_eq {before after : World} {text : String}
    (h : Delivered before after text none) (hempty : before.shown = .empty) :
    after.output = text := by
  cases h with
  | standardOutput hshown _ =>
    rw [World.output, hshown, hempty, ByteArray.empty_append, Text.ofBytes_toByteArray]

/-! ## 2. Files -/

/-- What was put at a place stands there, unless that is the root. -/
theorem entry?_put_self (world : World) {place : Place} (h : place ≠ []) (entry : Entry) :
    World.entry? (world.put place entry) place = some entry := by
  simp [ entry?, put, h]

/-- What stands at other places stays there. -/
theorem entry?_put_of_ne (world : World) {place other : Place} (h : other ≠ place)
    (entry : Entry) :
    World.entry? (world.put place entry) other = world.entry? other := by
  have hskip : (fun found : Place × Entry =>
      decide ((found.1 != place) = true ∧ (found.1 == other) = true)) =
        fun found => found.1 == other := by
    funext found
    rw [Bool.eq_iff_iff, decide_eq_true_iff, and_iff_right_iff_imp, bne_iff_ne, beq_iff_eq]
    rintro rfl
    exact h
  have hfirst : (place == other) = false := beq_eq_false_iff_ne.mpr h.symm
  simp only [ entry?, put, List.find?_cons, hfirst, List.find?_filter, hskip]

theorem ne_nil_of_findForWriting {text : String} {place : Place} {entry : Option Entry}
    (h : world.findForWriting text = .ok (place, entry)) : place ≠ [] := by
  simp only [findForWriting, bind, Except.bind] at h
  repeat' split at h
  -- where a place is given at all, it is that of a name in a directory
  all_goals cases h
  all_goals exact List.append_ne_nil_of_right_ne_nil _ (List.cons_ne_nil _ _)

/-! ## 3. Runs -/

/-- The bytes that a world supplies are what is read, and nothing is done but to report it. -/
theorem openSource_of_supplies {parsed : CommandLine.Arguments}
    (h : world.Supplies bytes parsed.input) (filter : LogFilter) :
    ∃ pieces, (Program.openSource filter parsed.source : StateM World _) world =
      (.ok (.ofBytes bytes), world.saying pieces) := by
  unfold CommandLine.Arguments.source
  generalize parsed.input = input at h
  cases h with
  | absent h => exact ⟨[], by rw [← h]; rfl⟩
  | dash h => exact ⟨[], by rw [← h]; rfl⟩
  | file hpath h =>
    simp only [if_neg hpath, Program.openSource, bind_eq, report_eq]
    simp only [Host.openInput, bind_eq, get_eq, find_saying, h]
    exact ⟨_, rfl⟩

/-- A listing is handed over whole to a sink that takes everything. -/
theorem writeListing_of_unbounded {sink : Sink} {opened : Opened} {after : World}
    (hopen : world.openSink sink = (.ok opened, after)) (hwriter : opened.writer = .unbounded)
    (filter : LogFilter) (found : Disassembly) :
    ∃ pieces, (Program.writeListing filter sink found : StateM World UInt32) world =
      (0, (after.saying pieces).handOver found.render.1.toByteArray opened) := by
  obtain ⟨hwritten, hfailure, -⟩ := found.write_eq .unbounded
  have htaken : (found.write .unbounded).writer.taken = found.render.1.toByteArray := by
    rw [hwritten, Writer.taken_put_unbounded, Disassembly.render_fst]
  simp only [Program.writeListing, bind_eq, openSink_eq_ok hopen, hwriter, report_eq, handOver_eq,
    hfailure, htaken, found.flushFailure_write]
  exact ⟨_, rfl⟩

/-- **A listing is delivered** to standard output or to a file that can be made. -/
theorem writeListing_delivers {parsed : CommandLine.Arguments} {target : Option Place}
    (h : world.Creates parsed.output target) (filter : LogFilter) (found : Disassembly) :
    ∃ after, (Program.writeListing filter parsed.sink found : StateM World UInt32) world =
      (0, after) ∧ Delivered world after found.render.1 target := by
  unfold CommandLine.Arguments.sink
  generalize parsed.output = output at h
  cases h with
  | standardOutput =>
    have hopen : world.openSink .standardOutput = (.ok .standardOutput, world) := rfl
    obtain ⟨pieces, hwrite⟩ := writeListing_of_unbounded hopen rfl filter found
    exact ⟨_, hwrite, .standardOutput rfl fun _ => rfl⟩
  | @file path place entry hfound hentry =>
    have hopen : world.openSink (.file path) = (.ok (.file place), world.put place (.file [])) := by
      rw [openSink, hfound]
      cases entry with
      | none => rfl
      | some entry =>
        cases entry with
        | device device => exact absurd rfl (hentry device)
        | file bytes => rfl
        | directory isSealed => rfl
    obtain ⟨pieces, hwrite⟩ := writeListing_of_unbounded hopen rfl filter found
    have hplace := ne_nil_of_findForWriting hfound
    refine ⟨_, hwrite, .file rfl (entry?_put_self _ hplace _) fun other hother => ?_⟩
    exact (entry?_put_of_ne _ hother _).trans (entry?_put_of_ne world hother _)

theorem job_of_dataBlocks {parsed : CommandLine.Arguments} {blocks : List DataBlock}
    (h : parsed.dataBlocks = .ok blocks) :
    parsed.job = .ok { blocks := blocks, source := parsed.source, sink := parsed.sink } := by
  rw [CommandLine.Arguments.job, h]
  rfl

section Run

variable {arguments : List String} {parsed : CommandLine.Arguments} {blocks : List DataBlock}

/-- What a run comes to once its input has been read. -/
theorem run_of_supplies (hparse : CommandLine.parse arguments = .ok parsed)
    (hblocks : parsed.dataBlocks = .ok blocks) (hsupplies : world.Supplies bytes parsed.input)
    (logSettings : Option String) :
    ∃ filter pieces, world.run arguments logSettings =
      (match (linearSweep (.ofBytes bytes) blocks).result with
        | .error failure => Program.fail failure.chain
        | .ok found => Program.writeListing filter parsed.sink found : StateM World UInt32)
        (world.saying pieces) := by
  obtain ⟨pieces, hopen⟩ := openSource_of_supplies
    (hsupplies.saying (warningsFor parsed logSettings))
    (LogSettings.ofText parsed.logLevel logSettings).filter
  rw [run_of_job_eq_ok hparse (job_of_dataBlocks hblocks)]
  simp only [Program.perform, bind_eq, hopen, report_eq, saying_saying]
  exact ⟨_, _, rfl⟩

/-- **A run delivers the listing** of an input that can be decoded. -/
theorem run_delivers (hparse : CommandLine.parse arguments = .ok parsed)
    (hblocks : parsed.dataBlocks = .ok blocks) (hsupplies : world.Supplies bytes parsed.input)
    {target : Option Place} (hcreates : world.Creates parsed.output target) {found : Disassembly}
    (hresult : (linearSweep (.ofBytes bytes) blocks).result = .ok found)
    (logSettings : Option String) :
    ∃ after, world.run arguments logSettings = (0, after) ∧
      Delivered world after found.render.1 target := by
  obtain ⟨filter, pieces, hrun⟩ := run_of_supplies hparse hblocks hsupplies logSettings
  obtain ⟨after, hwrite, hdelivered⟩ :=
    writeListing_delivers (hcreates.saying pieces) filter found
  rw [hresult] at hrun
  exact ⟨after, hrun.trans hwrite, hdelivered.of_saying⟩

/-- A run shows the failure of an input that cannot be decoded. -/
theorem run_of_result_eq_error (hparse : CommandLine.parse arguments = .ok parsed)
    (hblocks : parsed.dataBlocks = .ok blocks) (hsupplies : world.Supplies bytes parsed.input)
    {failure : Failure} (hresult : (linearSweep (.ofBytes bytes) blocks).result = .error failure)
    (logSettings : Option String) :
    ∃ pieces, world.run arguments logSettings =
      (1, world.saying ((errorLine failure.chain ++ "\n").toByteArray :: pieces)) := by
  obtain ⟨filter, pieces, hrun⟩ := run_of_supplies hparse hblocks hsupplies logSettings
  rw [hresult] at hrun
  exact ⟨pieces, hrun⟩

end Run

end World

/-! ## 4. The three ways -/

/-- Bytes are no stream that can fail, so a sweep of them fails in a statement or not at all. -/
theorem exists_of_result_eq_error {bytes : List UInt8} {blocks : List DataBlock}
    {failure : Failure} (h : (linearSweep (.ofBytes bytes) blocks).result = .error failure) :
    ∃ address, failure = .cutShort address ∨ failure = .pastMemory address := by
  rw [result_eq_verdict, ByteStream.failure?_ofBytes] at h
  cases hverdict : verdict blocks (ByteStream.ofBytes bytes).ready none with
  | ok stop =>
    rw [hverdict] at h
    cases h
  | error cause =>
    rw [hverdict] at h
    cases h
    simp only [verdict] at hverdict
    split at hverdict
    · split at hverdict
      · cases hverdict
      · cases hverdict
        exact ⟨_, Or.inl rfl⟩
    · split at hverdict
      · cases hverdict
        exact ⟨_, Or.inr rfl⟩
      · cases hverdict

theorem errorLine_of_result_eq_error {bytes : List UInt8} {blocks : List DataBlock}
    {failure : Failure} (h : (linearSweep (.ofBytes bytes) blocks).result = .error failure) :
    errorLine failure.chain = "error: " ++ failure.message := by
  obtain ⟨address, rfl | rfl⟩ := exists_of_result_eq_error h <;> rfl

/-- Disassembling into a writer without bounds gives the text of the listing. -/
theorem disassemble_of_room_eq_none {stream : ByteStream} {blocks : List DataBlock}
    {found : Disassembly} (h : (linearSweep stream blocks).result = .ok found) {writer : Writer}
    (hroom : writer.room = none) (hflush : writer.flushFailure = none) :
    (disassemble stream blocks writer).failure = none ∧
      (disassemble stream blocks writer).writer.bytes =
        writer.bytes ++ Text.bytes found.render.1 := by
  obtain ⟨hfailure, hbytes, -⟩ := found.write_of_room_eq_none hroom
  simp only [disassemble, h, hfailure, found.flushFailure_write, hflush, hbytes,
    Disassembly.render_fst]
  exact ⟨rfl, rfl⟩

/-- Bytes and data blocks for which every way to a listing comes to one text. -/
structure ListedEverywhere (bytes : List UInt8) (blocks : List DataBlock) (text : String) : Prop where
  /-- A sweep succeeds, in whatever pieces the bytes come, and what it finds is rendered as the text.
  -/
  of_sweep : ∀ stream : ByteStream, stream.DataOnly → stream.bytes = bytes →
    ∃ found, (linearSweep stream blocks).result = .ok found ∧ found.render.1 = text
  /-- A writer that takes everything takes the text. -/
  of_disassemble : ∀ stream : ByteStream, stream.DataOnly → stream.bytes = bytes →
    ∀ writer : Writer, writer.room = none → writer.flushFailure = none →
      (disassemble stream blocks writer).failure = none ∧
        (disassemble stream blocks writer).writer.bytes = writer.bytes ++ Text.bytes text
  /-- A run ends with status 0 and delivers the text. -/
  of_run : ∀ (world : World) (arguments : List String) (parsed : CommandLine.Arguments)
    (logSettings : Option String) (target : Option Place),
    CommandLine.parse arguments = .ok parsed → parsed.dataBlocks = .ok blocks →
      world.Supplies bytes parsed.input → world.Creates parsed.output target →
        ∃ after, world.run arguments logSettings = (0, after) ∧
          World.Delivered world after text target

/-- Bytes and data blocks for which every way to a listing comes to one failure. -/
structure FailsEverywhere (bytes : List UInt8) (blocks : List DataBlock) (failure : Failure) :
    Prop where
  of_sweep : ∀ stream : ByteStream, stream.DataOnly → stream.bytes = bytes →
    (linearSweep stream blocks).result = .error failure
  /-- Nothing is written. -/
  of_disassemble : ∀ stream : ByteStream, stream.DataOnly → stream.bytes = bytes →
    ∀ writer : Writer, (disassemble stream blocks writer).failure = some failure ∧
      (disassemble stream blocks writer).writer = writer
  /-- A run ends with status 1, its last line is that of the failure, and nothing else changes. -/
  of_run : ∀ (world : World) (arguments : List String) (parsed : CommandLine.Arguments)
    (logSettings : Option String),
    CommandLine.parse arguments = .ok parsed → parsed.dataBlocks = .ok blocks →
      world.Supplies bytes parsed.input →
        ∃ pieces, world.run arguments logSettings =
          (1, world.saying (("error: " ++ failure.message ++ "\n").toByteArray :: pieces))

variable {bytes : List UInt8} {blocks : List DataBlock}

theorem listedEverywhere_of_result {found : Disassembly}
    (h : (linearSweep (.ofBytes bytes) blocks).result = .ok found) :
    ListedEverywhere bytes blocks found.render.1 := by
  have hsweep : ∀ stream : ByteStream, stream.DataOnly → stream.bytes = bytes →
      (linearSweep stream blocks).result = .ok found := by
    rintro stream hdata rfl
    rw [result_eq_of_dataOnly hdata, h]
  constructor
  · intro stream hdata hbytes
    exact ⟨found, hsweep stream hdata hbytes, rfl⟩
  · intro stream hdata hbytes writer hroom hflush
    exact disassemble_of_room_eq_none (hsweep stream hdata hbytes) hroom hflush
  · intro world arguments parsed logSettings target hparse hblocks hsupplies hcreates
    exact World.run_delivers hparse hblocks hsupplies hcreates h logSettings

theorem failsEverywhere_of_result {failure : Failure}
    (h : (linearSweep (.ofBytes bytes) blocks).result = .error failure) :
    FailsEverywhere bytes blocks failure := by
  have hsweep : ∀ stream : ByteStream, stream.DataOnly → stream.bytes = bytes →
      (linearSweep stream blocks).result = .error failure := by
    rintro stream hdata rfl
    rw [result_eq_of_dataOnly hdata, h]
  constructor
  · exact hsweep
  · intro stream hdata hbytes writer
    simp only [disassemble, hsweep stream hdata hbytes, and_self]
  · intro world arguments parsed logSettings hparse hblocks hsupplies
    rw [← errorLine_of_result_eq_error h]
    exact World.run_of_result_eq_error hparse hblocks hsupplies h logSettings

/-- **All ways to a listing agree.**  If a sweep of some bytes with some data blocks succeeds, then
rendering what it finds, disassembling into a writer without bounds, and every run of the program
with these blocks and bytes come to the same text, which a run delivers to standard output or, as
all that it holds then, to a file.  If the sweep fails, all of them fail with its failure.  And
neither requests to say more nor log settings ever change anything but standard error. -/
theorem entry_points_agree (bytes : List UInt8) (blocks : List DataBlock) :
    (∀ found, (linearSweep (.ofBytes bytes) blocks).result = .ok found →
      ListedEverywhere bytes blocks found.render.1) ∧
    (∀ failure, (linearSweep (.ofBytes bytes) blocks).result = .error failure →
      FailsEverywhere bytes blocks failure) ∧
    (∀ (world : World) (arguments arguments' : List String)
      (logSettings logSettings' : Option String), CommandLine.AskAlike arguments arguments' →
        World.SameEffect (world.run arguments logSettings) (world.run arguments' logSettings')) ∧
    ∀ (count : Nat) (arguments : List String),
      CommandLine.AskAlike (List.replicate count "-v" ++ arguments) arguments := by
  refine ⟨fun _ => listedEverywhere_of_result, fun _ => failsEverywhere_of_result, ?_,
    CommandLine.askAlike_verbose⟩
  intro world arguments arguments' logSettings logSettings' h
  exact World.sameEffect_run h world logSettings logSettings'

/-- A run that is asked to say more and puts the listing of a file into that file, and one whose
standard input ends inside a jump. -/
theorem entry_points_agree_in_place :
    let world : World := { entries := [(["rom.bin"], .file [0x00, 0x00])], input := [0xc3] }
    (∃ found after, (linearSweep (.ofBytes [0x00, 0x00]) []).result = .ok found ∧
      world.run ["-v", "-o", "rom.bin", "rom.bin"] (some "trace") = (0, after) ∧
        after.shown = .empty ∧
        after.entry? ["rom.bin"] = some (.file (Text.bytes found.render.1)) ∧
        World.SameEffect (0, after) (world.run ["-o", "rom.bin", "rom.bin"] none)) ∧
    ∃ pieces, world.run ["-"] none =
      (1, world.saying
        ("error: unexpected end of input inside unit at 0x0000\n".toByteArray :: pieces)) := by
  intro world
  constructor
  · let nop : Statement := .instruction ⟨0x00, "nop", "", .none⟩ .none
    have hfitting : Fitting (DataBlock.covers []) 0 [nop, nop] :=
      fitting_of_wellFormed (by decide) (by decide)
    have hresult : (linearSweep (.ofBytes [0x00, 0x00]) []).result =
        .ok (.ofStatements [] [nop, nop]) := result_of_fitting hfitting (by decide)
    obtain ⟨hlisted, -, hsame, hverbose⟩ := entry_points_agree [0x00, 0x00] []
    have hfind : world.find "rom.bin" = .ok (["rom.bin"], .file [0x00, 0x00]) := by decide
    have hwrite : world.findForWriting "rom.bin" =
        .ok (["rom.bin"], some (.file [0x00, 0x00])) := by decide
    obtain ⟨after, hrun, hdelivered⟩ := (hlisted _ hresult).of_run world
      ["-v", "-o", "rom.bin", "rom.bin"]
      { output := some "rom.bin", input := some "rom.bin", verbosity := 1 } (some "trace")
      (some ["rom.bin"]) rfl rfl (.file (by decide) hfind) (.file hwrite (by simp))
    refine ⟨_, after, hresult, hrun, ?_⟩
    cases hdelivered with
    | file hshown hfile _ =>
      refine ⟨hshown, hfile, ?_⟩
      rw [← hrun]
      exact hsame world _ _ _ _ (hverbose 1 ["-o", "rom.bin", "rom.bin"])
  · have hresult : (linearSweep (.ofBytes [0xc3]) []).result = .error (.cutShort 0) := by
      have hstep : ∃ last,
          (Sweep.start (.ofBytes [0xc3]) []).step = .fail (.cutShort 0) last := ⟨_, rfl⟩
      obtain ⟨last, hstep⟩ := hstep
      rw [linearSweep, Sweep.run_of_fail hstep]
    exact ((entry_points_agree [0xc3] []).2.1 _ hresult).of_run world ["-"]
      { input := some "-" } none rfl rfl (.dash rfl)

end Disassembler8080
