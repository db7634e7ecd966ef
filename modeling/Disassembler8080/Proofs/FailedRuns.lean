/-
# Runs that fail

A run can fail in its arguments, at the numbers of a data block, when its input is opened, while it
is read and decoded, and when its output is opened.  All of this comes before the first change to
the world: the output is opened last, and opening it is what empties a file that exists.  So a run
that fails has done nothing but speak on standard error, unless it fails later still, in writing.

What has been said on standard error decides about nothing.  A run speaks between its stages, and
each of them finds the files and the standard streams as the run found them.

Main statements:

* `World.openSink_saying`: what has been said does not decide about opening a sink.
* `World.endsCleanly_perform`: what doing a job comes to.
* `exists_first_error`: the first of several things that fails.
* `World.failed_run_leaves_nothing`: what a run comes to, and that a bad data block ends it first.
-/
import Disassembler8080.Proofs.Writing
import Disassembler8080.World

namespace Disassembler8080

namespace World

/-! ## 1. What is said on the side -/

/-- A world in which more has been said on standard error, the latest piece first. -/
def saying (world : World) (pieces : List ByteArray) : World :=
  { world with complaints := pieces ++ world.complaints }

variable (world : World)

theorem saying_saying (first second : List ByteArray) :
    (world.saying first).saying second = world.saying (second ++ first) := by
  simp [saying]

/-- What has been said does not change the places that names lead to. -/
theorem follow_saying (pieces : List ByteArray) (place : Place) (names : List String) :
    (world.saying pieces).follow place names = world.follow place names := by
  induction names generalizing place with
  | nil => rfl
  | cons name rest ih =>
    simp only [follow, ih]
    rfl

theorem findForWriting_saying (pieces : List ByteArray) (text : String) :
    (world.saying pieces).findForWriting text = world.findForWriting text := by
  simp only [findForWriting, follow_saying]
  rfl

/-- **What has been said does not decide about opening a sink.** -/
theorem openSink_saying (pieces : List ByteArray) (sink : Sink) :
    (world.saying pieces).openSink sink =
      ((world.openSink sink).1, (world.openSink sink).2.saying pieces) := by
  cases sink with
  | standardOutput => rfl
  | file text =>
    rw [openSink, findForWriting_saying]
    cases hfound : world.findForWriting text with
    | error failure => simp [openSink, hfound]
    | ok found =>
      obtain ⟨place, entry⟩ := found
      cases entry with
      | none => simp [openSink, hfound, saying, put]
      | some entry => cases entry <;> simp [openSink, hfound, saying, put]

/-- Whether a sink, once it has been opened, takes every text and never fails. -/
def TakesAll (sink : Sink) : Prop :=
  ∀ opened after, world.openSink sink = (.ok opened, after) →
    (∀ bytes, (opened.writer.put bytes).2 = none) ∧ opened.writer.flushFailure = none

theorem takesAll_iff (sink : Sink) :
    world.TakesAll sink ↔ (world.openSink sink).1 ≠ .ok (.device .full) := by
  constructor
  · intro h hfull
    have hflushed := (h (.device .full) _ (Prod.ext hfull rfl)).2
    exact absurd hflushed (by simp [Opened.writer])
  · intro h opened after hopen
    have hunbounded : opened.writer = .unbounded := by
      rw [hopen] at h
      unfold Opened.writer
      split
      · exact absurd rfl h
      · rfl
    rw [hunbounded]
    exact ⟨fun _ => rfl, rfl⟩

variable {world}

theorem TakesAll.saying {sink : Sink} (h : world.TakesAll sink) (pieces : List ByteArray) :
    (world.saying pieces).TakesAll sink := by
  intro opened after hopen
  rw [openSink_saying, Prod.mk.injEq] at hopen
  exact h opened _ (Prod.ext hopen.1 rfl)

/-! ## 2. Actions in a world -/

theorem bind_eq {α β : Type} (world : World) (action : StateM World α) (next : α → StateM World β) :
    (action >>= next) world = next (action world).1 (action world).2 := rfl

theorem get_eq (world : World) : (get : StateM World World) world = (world, world) := rfl

theorem openInput_eq (world : World) (path : String) :
    ∃ outcome, (Host.openInput path : StateM World _) world = (outcome, world) := by
  simp only [Host.openInput, bind_eq, get_eq]
  cases world.find path <;> exact ⟨_, rfl⟩

/-- A sink that cannot be opened leaves the world as it is. -/
theorem openSink_eq_error {sink : Sink} {failure : PathFailure} {after : World}
    (h : world.openSink sink = (.error failure, after)) :
    (Host.openSink sink : StateM World _) world = (.error failure.message, world) := by
  simp only [Host.openSink, bind_eq, get_eq, h]
  rfl

/-- A sink that can be opened gives its writer. -/
theorem openSink_eq_ok {sink : Sink} {opened : Opened} {after : World}
    (h : world.openSink sink = (.ok opened, after)) :
    (Host.openSink sink : StateM World _) world = (.ok (opened, opened.writer), after) := by
  simp only [Host.openSink, bind_eq, get_eq, h]
  rfl

theorem handOver_eq (world : World) (opened : Opened) (writer : Writer) :
    (Host.handOver opened writer : StateM World (Option String)) world =
      (writer.flushFailure, world.handOver writer.taken opened) := rfl

theorem forM_complain {α : Type} (world : World) (say : α → String) (items : List α) :
    (items.forM fun item => Host.complain (say item) : StateM World PUnit) world =
      (⟨⟩, world.saying (items.map fun item => (say item).toByteArray).reverse) := by
  induction items generalizing world with
  | nil => rfl
  | cons item rest ih =>
    change (rest.forM fun item => Host.complain (say item) : StateM World PUnit)
      (world.saying [(say item).toByteArray]) = _
    rw [ih, saying_saying, List.map_cons, List.reverse_cons]

theorem complainLines_eq (world : World) (lines : List String) :
    (lines.forM Program.complainLine : StateM World PUnit) world =
      (⟨⟩, world.saying (lines.map fun line => (line ++ "\n").toByteArray).reverse) :=
  forM_complain world (· ++ "\n") lines

/-- Showing events changes nothing else. -/
theorem report_eq (world : World) (filter : LogFilter) (events : List LogEvent) :
    (Program.report filter events : StateM World PUnit) world =
      (⟨⟩, world.saying
        ((events.filter filter.shows).map fun event => event.line.toByteArray).reverse) :=
  forM_complain world LogEvent.line _

/-- Opening a source changes nothing else. -/
theorem openSource_eq (world : World) (filter : LogFilter) (source : Source) :
    ∃ outcome pieces, (Program.openSource filter source : StateM World _) world =
      (outcome, world.saying pieces) := by
  cases source with
  | standardInput => exact ⟨_, [], rfl⟩
  | file path =>
    simp only [Program.openSource, bind_eq, report_eq]
    obtain ⟨outcome, hopen⟩ := openInput_eq (world.saying _) path
    rw [hopen]
    cases outcome <;> exact ⟨_, _, rfl⟩

/-! ## 3. What a run comes to -/

/-- What a run should come to: one of three exit statuses, and unless it is 0, nothing has changed
but for what has been said on standard error. -/
structure EndsCleanly (world : World) (result : UInt32 × World) : Prop where
  status_eq : result.1 = 0 ∨ result.1 = 1 ∨ result.1 = 2
  eq_saying : result.1 ≠ 0 → ∃ pieces, result.2 = world.saying pieces

namespace EndsCleanly

/-- A run that succeeds comes to an end in that way whatever it has changed. -/
theorem of_status_eq_zero {result : UInt32 × World} (h : result.1 = 0) :
    EndsCleanly world result :=
  ⟨Or.inl h, fun hstatus => absurd h hstatus⟩

theorem of_saying {pieces : List ByteArray} {result : UInt32 × World}
    (h : EndsCleanly (world.saying pieces) result) : EndsCleanly world result := by
  refine ⟨h.status_eq, fun hstatus => ?_⟩
  obtain ⟨later, hlater⟩ := h.eq_saying hstatus
  exact ⟨later ++ pieces, by rw [hlater, saying_saying]⟩

end EndsCleanly

/-- A failure is shown and nothing else is done. -/
theorem endsCleanly_fail (world : World) (chain : List String) :
    EndsCleanly world ((Program.fail chain : StateM World UInt32) world) :=
  ⟨Or.inr (Or.inl rfl), fun _ => ⟨[(errorLine chain ++ "\n").toByteArray], rfl⟩⟩

/-- A misuse of the command line is shown and nothing else is done; any other answer succeeds. -/
theorem endsCleanly_answer (world : World) (interruption : CommandLine.Interruption) :
    EndsCleanly world ((Program.answer interruption : StateM World UInt32) world) := by
  cases interruption with
  | misuse misuse => exact ⟨Or.inr (Or.inr rfl), fun _ => ⟨[_, _, _], rfl⟩⟩
  | help inDetail => cases inDetail <;> exact .of_status_eq_zero rfl
  | version => exact .of_status_eq_zero rfl

/-- Writing a listing fails when its sink is opened or not at all, if the sink takes everything. -/
theorem endsCleanly_writeListing (filter : LogFilter) {sink : Sink} (disassembly : Disassembly)
    (h : world.TakesAll sink) :
    EndsCleanly world
      ((Program.writeListing filter sink disassembly : StateM World UInt32) world) := by
  simp only [Program.writeListing, bind_eq]
  cases hopen : world.openSink sink with
  | mk outcome after =>
    cases outcome with
    | error failure =>
      rw [openSink_eq_error hopen]
      exact endsCleanly_fail world _
    | ok opened =>
      obtain ⟨htaken, hflushed⟩ := h opened after hopen
      obtain ⟨-, hfailure, -⟩ := disassembly.write_eq opened.writer
      rw [openSink_eq_ok hopen]
      refine .of_status_eq_zero ?_
      simp only [bind_eq, handOver_eq, hfailure, htaken, disassembly.flushFailure_write, hflushed]
      rfl

/-- **What doing a job comes to.**  The sink is opened when all else that can fail has gone well. -/
theorem endsCleanly_perform (filter : LogFilter) {job : Job} (h : world.TakesAll job.sink) :
    EndsCleanly world ((Program.perform filter job : StateM World UInt32) world) := by
  obtain ⟨outcome, pieces, hopen⟩ := openSource_eq world filter job.source
  simp only [Program.perform, bind_eq, hopen]
  cases outcome with
  | error chain => exact (endsCleanly_fail _ chain).of_saying
  | ok stream =>
    simp only [bind_eq, report_eq, saying_saying]
    cases (linearSweep stream job.blocks).result with
    | error failure => exact (endsCleanly_fail _ failure.chain).of_saying
    | ok disassembly => exact (endsCleanly_writeListing filter disassembly (h.saying _)).of_saying

theorem status_perform_of_error {filter : LogFilter} {job : Job} {stream : ByteStream}
    {after : World} {failure : Failure}
    (hopen : (Program.openSource filter job.source : StateM World _) world = (.ok stream, after))
    (hresult : (linearSweep stream job.blocks).result = .error failure) :
    ((Program.perform filter job : StateM World UInt32) world).1 = 1 := by
  simp only [Program.perform, bind_eq, hopen, hresult]
  rfl

end World

/-! ## 4. Data blocks that make no sense -/

section FirstError

variable {α β ε : Type} {f : α → Except ε β}

/-- If one of several things fails, one of them is the first to fail. -/
theorem exists_first_error {items : List α}
    (h : ∃ item ∈ items, ∃ failure, f item = .error failure) :
    ∃ before item after failure, items = before ++ item :: after ∧
      (∀ earlier ∈ before, ∃ value, f earlier = .ok value) ∧ f item = .error failure := by
  induction items with
  | nil =>
    obtain ⟨item, hmem, -⟩ := h
    exact absurd hmem List.not_mem_nil
  | cons item rest ih =>
    cases hitem : f item with
    | error failure => exact ⟨[], item, rest, failure, rfl, by simp, hitem⟩
    | ok value =>
      obtain ⟨other, hmem, failure, hother⟩ := h
      rcases List.mem_cons.mp hmem with rfl | hrest
      · exact absurd (hitem.symm.trans hother) (by simp)
      · obtain ⟨before, first, after, cause, rfl, hbefore, hfirst⟩ :=
          ih ⟨other, hrest, failure, hother⟩
        exact ⟨item :: before, first, after, cause, rfl,
          List.forall_mem_cons.mpr ⟨⟨value, hitem⟩, hbefore⟩, hfirst⟩

theorem mapM_eq_error {before after : List α} {item : α} {failure : ε}
    (hbefore : ∀ earlier ∈ before, ∃ value, f earlier = .ok value) (h : f item = .error failure) :
    (before ++ item :: after).mapM f = .error failure := by
  induction before with
  | nil =>
    rw [List.nil_append, List.mapM_cons, h]
    rfl
  | cons earlier rest ih =>
    obtain ⟨⟨value, hvalue⟩, hrest⟩ := List.forall_mem_cons.mp hbefore
    rw [List.cons_append, List.mapM_cons, hvalue, ih hrest]
    rfl

end FirstError

theorem DataBlock.errorLine_of_parse_error {start count : String} {failure : Failure}
    (h : parse start count = .error failure) :
    errorLine failure.chain = "error: " ++ failure.message := by
  rcases parse_error h with rfl | rfl | ⟨first, size, -, -, rfl⟩ <;> rfl

namespace World

/-- What a run says before it looks at its data blocks: the warnings about the log settings, the
latest first. -/
def warningsFor (parsed : CommandLine.Arguments) (logSettings : Option String) :
    List ByteArray :=
  ((LogSettings.ofText parsed.logLevel logSettings).warnings.map
    fun warning => (warning ++ "\n").toByteArray).reverse

variable {arguments : List String} {parsed : CommandLine.Arguments}

/-- Arguments that make sense but for a data block end a run with the line about that block. -/
theorem run_of_job_eq_error {failure : Failure} (hparse : CommandLine.parse arguments = .ok parsed)
    (hjob : parsed.job = .error failure) (world : World) (logSettings : Option String) :
    world.run arguments logSettings =
      (1, world.saying
        ((errorLine failure.chain ++ "\n").toByteArray :: warningsFor parsed logSettings)) := by
  simp only [run, Program.run, hparse, hjob, bind_eq, complainLines_eq]
  rfl

/-- Arguments that make sense lead to the job that they describe. -/
theorem run_of_job_eq_ok {job : Job} (hparse : CommandLine.parse arguments = .ok parsed)
    (hjob : parsed.job = .ok job) (world : World) (logSettings : Option String) :
    world.run arguments logSettings =
      (Program.perform (LogSettings.ofText parsed.logLevel logSettings).filter job :
        StateM World UInt32) (world.saying (warningsFor parsed logSettings)) := by
  simp only [run, Program.run, hparse, hjob, bind_eq, complainLines_eq]
  rfl

theorem sink_of_job {job : Job} (h : parsed.job = .ok job) : job.sink = parsed.sink := by
  unfold CommandLine.Arguments.job at h
  cases hblocks : parsed.dataBlocks with
  | error failure =>
    rw [hblocks] at h
    cases h
  | ok blocks =>
    rw [hblocks] at h
    cases h
    rfl

/-- What a run comes to, if its sink takes everything once it has been opened. -/
theorem endsCleanly_run (arguments : List String) (logSettings : Option String)
    (h : ∀ parsed, CommandLine.parse arguments = .ok parsed → world.TakesAll parsed.sink) :
    EndsCleanly world (world.run arguments logSettings) := by
  cases hparse : CommandLine.parse arguments with
  | error interruption =>
    simp only [run, Program.run, hparse]
    exact endsCleanly_answer world interruption
  | ok parsed =>
    cases hjob : parsed.job with
    | error failure =>
      rw [run_of_job_eq_error hparse hjob]
      exact ⟨Or.inr (Or.inl rfl), fun _ => ⟨_, rfl⟩⟩
    | ok job =>
      rw [run_of_job_eq_ok hparse hjob]
      have htakes : world.TakesAll job.sink := by
        rw [sink_of_job hjob]
        exact h parsed hparse
      exact (endsCleanly_perform _ (htakes.saying _)).of_saying

/-- **A run that fails leaves nothing behind.**  If its sink, once opened, takes everything, then a
run ends with status 0, 1 or 2, and unless it ends with 0, no file and no standard stream has
changed but standard error.  A data block that makes no sense ends a run before it looks at the
world: whatever that holds, the status is 1 and the last line is about the first such block. -/
theorem failed_run_leaves_nothing (arguments : List String) (logSettings : Option String) :
    (∀ world : World,
      (∀ parsed, CommandLine.parse arguments = .ok parsed → world.TakesAll parsed.sink) →
        EndsCleanly world (world.run arguments logSettings)) ∧
    ∀ parsed, CommandLine.parse arguments = .ok parsed →
      (∃ pair ∈ parsed.blocks, ∃ failure, DataBlock.parse pair.1 pair.2 = .error failure) →
      ∃ before pair after failure, parsed.blocks = before ++ pair :: after ∧
        (∀ earlier ∈ before, ∃ block, DataBlock.parse earlier.1 earlier.2 = .ok block) ∧
        DataBlock.parse pair.1 pair.2 = .error failure ∧
        ∀ world : World, world.run arguments logSettings =
          (1, world.saying
            (("error: " ++ failure.message ++ "\n").toByteArray ::
              warningsFor parsed logSettings)) := by
  refine ⟨fun world => endsCleanly_run arguments logSettings, ?_⟩
  intro parsed hparse hbad
  obtain ⟨before, pair, after, failure, hblocks, hbefore, hpair⟩ :=
    exists_first_error hbad
  have hjob : parsed.job = .error failure := by
    rw [CommandLine.Arguments.job, CommandLine.Arguments.dataBlocks, hblocks]
    rw [mapM_eq_error hbefore hpair]
    rfl
  refine ⟨before, pair, after, failure, hblocks, hbefore, hpair, fun world => ?_⟩
  rw [run_of_job_eq_error hparse hjob, DataBlock.errorLine_of_parse_error hpair]

/-- Arguments that name an existing file for the listing of an input that ends inside a jump, and
arguments with two bad data blocks. -/
theorem failed_run_leaves_nothing_of_cut_input :
    let world : World :=
      { entries := [(["rom.bin"], .file [0xc3, 0x00]), (["out.asm"], .file [0x41])] }
    let cut := ["-o", "out.asm", "rom.bin"]
    let bad := ["-d", "0xffff", "2", "-d", "x", "1", "-o", "out.asm", "nowhere"]
    (world.run cut none).1 = 1 ∧ (∃ pieces, (world.run cut none).2 = world.saying pieces) ∧
      ∀ other : World, other.run bad none =
        (1, other.saying
          ["error: -d ADDR COUNT: invalid range (start 0xffff, count 2)\n".toByteArray]) := by
  intro world cut bad
  have hparse : CommandLine.parse cut =
      .ok { output := some "out.asm", input := some "rom.bin" } := rfl
  have hresult : (linearSweep (.ofBytes [0xc3, 0x00]) []).result = .error (.cutShort 0) := by
    have hstep : ∃ last,
        (Sweep.start (.ofBytes [0xc3, 0x00]) []).step = .fail (.cutShort 0) last := ⟨_, rfl⟩
    obtain ⟨last, hstep⟩ := hstep
    rw [linearSweep, Sweep.run_of_fail hstep]
  have hstatus : (world.run cut none).1 = 1 := by
    rw [run_of_job_eq_ok hparse rfl]
    exact status_perform_of_error rfl hresult
  refine ⟨hstatus, ?_, ?_⟩
  · have hclean : EndsCleanly world (world.run cut none) := by
      refine (failed_run_leaves_nothing cut none).1 world fun parsed hparsed => ?_
      cases hparse.symm.trans hparsed
      rw [takesAll_iff]
      decide
    exact hclean.eq_saying (by rw [hstatus]; decide)
  · have hbad : CommandLine.parse bad = .ok { data := ["0xffff", "2", "x", "1"]
                                              output := some "out.asm"
                                              input := some "nowhere" } := rfl
    have hfirst : DataBlock.parse "0xffff" "2" = .error (.blockOutsideMemory 0xffff 2) := rfl
    obtain ⟨before, pair, after, failure, hblocks, hbefore, hpair, hrun⟩ :=
      (failed_run_leaves_nothing bad none).2 _ hbad ⟨_, List.mem_cons_self, _, hfirst⟩
    intro other
    rw [hrun other]
    cases before with
    | nil =>
      cases hblocks
      cases hfirst.symm.trans hpair
      rfl
    | cons earlier rest =>
      obtain ⟨rfl, -⟩ := List.cons.inj hblocks
      obtain ⟨block, hblock⟩ := hbefore _ List.mem_cons_self
      exact absurd (hfirst.symm.trans hblock) (by simp)

end World

end Disassembler8080
