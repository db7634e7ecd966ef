/-
# What the log leaves alone

How much of its work a run reports is up to the requests on its command line and to the log
settings.  Whatever these are, the report goes to standard error, and nothing else of a run depends
on them: neither the exit status, nor standard output, nor a file.

There are two halves to this, and one argument for both.  Reading a command line is a row of steps,
none of which looks at the requests counted so far.  A run is a row of actions in a world, none of
which looks at what has been said there.  So a step leads from states that differ in this alone to
states that again differ in this alone, and then all of the steps together do.

Main statements:

* `CommandLine.askAlike_verbose`: requests to say more do not change what else is asked.
* `World.alike_perform`: a job has the same effect whatever is reported of it.
* `World.sameEffect_run`: so has a run.
-/
import Disassembler8080.Proofs.FailedRuns

namespace Disassembler8080

/-! ## 1. Requests on the command line -/

namespace CommandLine

/-- Arguments without the requests to say more. -/
def Arguments.hushed (arguments : Arguments) : Arguments := { arguments with verbosity := 0 }

theorem Arguments.job_hushed (arguments : Arguments) : arguments.hushed.job = arguments.job := rfl

/-- Command lines that ask for the same but for how much is said, or are turned away for the same
reason. -/
def AskAlike (first second : List String) : Prop :=
  (parse first).map Arguments.hushed = (parse second).map Arguments.hushed

namespace Reading

/-- A reading without the requests to say more. -/
def hushed (reading : Reading) : Reading :=
  { reading with arguments := reading.arguments.hushed }

/-- Whether a step of the reading goes on in the same way, whatever has been asked so far. -/
def Ignores (step : Reading → Except Interruption Reading) : Prop :=
  ∀ reading, (step reading).map hushed = (step reading.hushed).map hushed

variable {first second : Reading → Except Interruption Reading}

/-- Such a step goes on alike from readings that are alike. -/
theorem Ignores.map_eq (h : Ignores first) {reading other : Reading}
    (hsame : reading.hushed = other.hushed) :
    (first reading).map hushed = (first other).map hushed := by
  rw [h reading, hsame, ← h other]

/-- What a step makes of two readings that are alike, or of one reason not to go on. -/
theorem Ignores.map_bind_eq (h : Ignores first) {outcome other : Except Interruption Reading}
    (hsame : outcome.map hushed = other.map hushed) :
    (outcome >>= first).map hushed = (other >>= first).map hushed := by
  cases outcome with
  | error reason =>
    cases other with
    | error reason' =>
      cases hsame
      rfl
    | ok next' => cases hsame
  | ok next =>
    cases other with
    | error reason' => cases hsame
    | ok next' => exact h.map_eq (Except.ok.inj hsame)

theorem Ignores.bind (h : Ignores first) (h' : Ignores second) :
    Ignores fun reading => first reading >>= second :=
  fun reading => h'.map_bind_eq (h reading)

theorem Ignores.ite {test : Reading → Prop} [DecidablePred test]
    (htest : ∀ reading, test reading ↔ test reading.hushed) (h : Ignores first)
    (h' : Ignores second) :
    Ignores fun reading => if test reading then first reading else second reading := by
  intro reading
  by_cases hholds : test reading
  · simp only [if_pos hholds, if_pos ((htest reading).mp hholds)]
    exact h reading
  · simp only [if_neg hholds, if_neg (mt (htest reading).mpr hholds)]
    exact h' reading

theorem ignores_error (reason : Interruption) : Ignores fun _ => .error reason :=
  fun _ => rfl

theorem ignores_setOutput (path : String) : Ignores fun reading => reading.setOutput path := by
  refine Ignores.ite (fun _ => Iff.rfl) (ignores_error _) ?_
  exact Ignores.ite (fun _ => Iff.rfl) (ignores_error _) fun _ => rfl

theorem ignores_settle : Ignores settle := by
  rintro ⟨arguments, pending, onlyPaths⟩
  cases pending with
  | outputTo path => exact ignores_setOutput path ⟨arguments, .outputTo path, onlyPaths⟩
  | inputFrom path =>
    simp only [settle, hushed, Arguments.hushed]
    split <;> rfl
  | _ => rfl

theorem ignores_await (pending : Pending) : Ignores fun reading => reading.await pending :=
  ignores_settle.bind fun _ => rfl

theorem ignores_interrupt (reason : Interruption) :
    Ignores fun reading => reading.interrupt reason :=
  ignores_settle.bind (ignores_error reason)

theorem ignores_sayMore : Ignores sayMore :=
  ignores_settle.bind fun _ => rfl

theorem ignores_attachOutput (path : String) :
    Ignores fun reading => reading.attachOutput path :=
  ignores_settle.bind (ignores_setOutput path)

theorem ignores_readShort (options : List Char) :
    Ignores fun reading => reading.readShort options := by
  induction options with
  | nil => exact fun _ => rfl
  | cons option rest ih =>
    intro reading
    unfold readShort
    split
    · rfl
    · rename_i heq
      cases heq
      exact ignores_sayMore.bind ih reading
    · exact ignores_interrupt _ reading
    · exact ignores_interrupt _ reading
    · exact ignores_await _ reading
    · exact ignores_interrupt _ reading
    · exact ignores_await _ reading
    · exact ignores_attachOutput _ reading
    · rfl

theorem ignores_readLong (option : List Char) : Ignores fun reading => reading.readLong option := by
  intro reading
  unfold readLong
  split
  · exact ignores_await _ reading
  · exact ignores_interrupt _ reading
  · exact ignores_await _ reading
  · exact ignores_attachOutput _ reading
  · exact ignores_sayMore reading
  · exact ignores_interrupt _ reading
  · exact ignores_interrupt _ reading
  · rfl
  · rfl
  · rfl
  · rfl

theorem ignores_readPath (path : String) : Ignores fun reading => reading.readPath path := by
  refine Ignores.ite ?_ (ignores_error _) (ignores_await _)
  rintro ⟨arguments, pending, onlyPaths⟩
  cases pending <;> exact Iff.rfl

theorem ignores_readPlain (argument : String) :
    Ignores fun reading => reading.readPlain argument := by
  rintro ⟨arguments, pending, onlyPaths⟩
  cases pending with
  | block => rfl
  | blockFrom start => rfl
  | output => rfl
  | _ => exact ignores_readPath argument _

/-- **No argument is read in the light of the requests before it.** -/
theorem ignores_readArgument (argument : String) :
    Ignores fun reading => reading.readArgument argument := by
  refine Ignores.ite (fun _ => Iff.rfl) (ignores_readPath argument) ?_
  intro reading
  dsimp only
  split
  · rfl
  · exact ignores_readLong _ reading
  · exact ignores_readShort _ reading
  · exact ignores_readPlain argument reading

theorem ignores_read (arguments : List String) : Ignores fun reading => reading.read arguments := by
  induction arguments with
  | nil => exact fun _ => rfl
  | cons argument rest ih => exact (ignores_readArgument argument).bind ih

theorem map_read_verbose (arguments : List String) :
    (read {} ("-v" :: arguments)).map hushed = (read {} arguments).map hushed :=
  (ignores_read arguments).map_eq rfl

end Reading

theorem parse_eq (arguments : List String) :
    (parse arguments).map Arguments.hushed =
      ((Reading.read {} arguments >>= Reading.settle).map Reading.hushed).map
        Reading.arguments := by
  unfold parse
  cases Reading.read {} arguments with
  | error reason => rfl
  | ok reading =>
    change (reading.settle >>= fun settled => Except.ok settled.arguments).map _ =
      (reading.settle.map _).map _
    cases reading.settle <;> rfl

/-- **Requests to say more do not change what else is asked.** -/
theorem askAlike_verbose (count : Nat) (arguments : List String) :
    AskAlike (List.replicate count "-v" ++ arguments) arguments := by
  induction count with
  | zero => rfl
  | succ count ih =>
    refine Eq.trans ?_ ih
    have hread := Reading.map_read_verbose (List.replicate count "-v" ++ arguments)
    rw [List.replicate_succ, List.cons_append, parse_eq, parse_eq,
      Reading.ignores_settle.map_bind_eq hread]

end CommandLine

/-! ## 2. Actions in a world -/

namespace World

/-- A world without what has been said on standard error. -/
def silenced (world : World) : World := { world with complaints := [] }

theorem saying_silenced (world : World) : world.silenced.saying world.complaints = world := by
  simp [silenced, saying]

/-- Two outcomes of an action: the same value, and worlds that differ in what has been said at most.
-/
structure SameEffect {α : Type} (first second : α × World) : Prop where
  value_eq : first.1 = second.1
  world_eq : first.2.silenced = second.2.silenced

/-- Actions that have the same effect, whatever has been said before. -/
def Alike {α : Type} (first second : StateM World α) : Prop :=
  ∀ before other : World, before.silenced = other.silenced →
    SameEffect (first before) (second other)

variable {α β : Type} {first second : StateM World α}

theorem Alike.bind {next next' : α → StateM World β} (h : Alike first second)
    (hnext : ∀ value, Alike (next value) (next' value)) :
    Alike (first >>= next) (second >>= next') := by
  intro before other hsame
  obtain ⟨hvalue, hworld⟩ := h before other hsame
  rw [bind_eq, bind_eq, hvalue]
  exact hnext _ _ _ hworld

theorem alike_pure (value : α) : Alike (pure value) (pure value) :=
  fun _ _ hsame => ⟨rfl, hsame⟩

/-- An action is alike itself if its effect is the same in a world in which nothing has been said. -/
theorem alike_self {action : StateM World α}
    (h : ∀ (world : World) (pieces : List ByteArray),
      SameEffect (action (world.saying pieces)) (action world)) : Alike action action := by
  intro before other hsame
  have hbefore := h before.silenced before.complaints
  have hother := h other.silenced other.complaints
  rw [saying_silenced] at hbefore hother
  rw [← hsame] at hother
  exact ⟨hbefore.value_eq.trans hother.value_eq.symm, hbefore.world_eq.trans hother.world_eq.symm⟩

/-! ## 3. The actions of a run -/

/-- Whatever is said, it is said on standard error. -/
theorem alike_report (filter filter' : LogFilter) (events events' : List LogEvent) :
    Alike (Program.report filter events) (Program.report filter' events') := by
  intro before other hsame
  rw [report_eq, report_eq]
  exact ⟨rfl, hsame⟩

theorem alike_complainLines (lines lines' : List String) :
    Alike (lines.forM Program.complainLine) (lines'.forM Program.complainLine) := by
  intro before other hsame
  rw [complainLines_eq, complainLines_eq]
  exact ⟨rfl, hsame⟩

theorem alike_fail (chain : List String) :
    Alike (Program.fail chain) (Program.fail chain) :=
  alike_self fun _ _ => ⟨rfl, rfl⟩

theorem alike_answer (interruption : CommandLine.Interruption) :
    Alike (Program.answer interruption) (Program.answer interruption) := by
  refine alike_self fun world pieces => ?_
  cases interruption with
  | help inDetail => cases inDetail <;> exact ⟨rfl, rfl⟩
  | version => exact ⟨rfl, rfl⟩
  | misuse misuse => exact ⟨rfl, rfl⟩

/-- What has been said does not change what a path leads to. -/
theorem find_saying (world : World) (pieces : List ByteArray) (text : String) :
    (world.saying pieces).find text = world.find text := by
  simp only [find, follow_saying]
  rfl

theorem read_saying (world : World) (pieces : List ByteArray) (entry : Entry) :
    (world.saying pieces).read entry = world.read entry := by
  cases entry with
  | device device => cases device <;> rfl
  | _ => rfl

theorem alike_openInput (path : String) :
    Alike (Host.openInput path) (Host.openInput path) := by
  refine alike_self fun world pieces => ?_
  simp only [Host.openInput, bind_eq, get_eq, find_saying, read_saying]
  cases world.find path <;> exact ⟨rfl, rfl⟩

theorem alike_openSink (sink : Sink) : Alike (Host.openSink sink) (Host.openSink sink) := by
  refine alike_self fun world pieces => ?_
  have hsaying := world.openSink_saying pieces sink
  cases hopen : world.openSink sink with
  | mk outcome after =>
    rw [hopen] at hsaying
    cases outcome with
    | error failure =>
      rw [openSink_eq_error hopen, openSink_eq_error hsaying]
      exact ⟨rfl, rfl⟩
    | ok opened =>
      rw [openSink_eq_ok hopen, openSink_eq_ok hsaying]
      exact ⟨rfl, rfl⟩

theorem alike_handOver (opened : Opened) (writer : Writer) :
    Alike (Host.handOver opened writer) (Host.handOver opened writer) := by
  refine alike_self fun world pieces => ?_
  rw [handOver_eq, handOver_eq]
  refine ⟨rfl, ?_⟩
  cases opened with
  | device device => cases device <;> rfl
  | _ => rfl

theorem alike_openSource (filter filter' : LogFilter) (source : Source) :
    Alike (Program.openSource filter source) (Program.openSource filter' source) := by
  cases source with
  | standardInput => exact alike_self fun _ _ => ⟨rfl, rfl⟩
  | file path =>
    refine (alike_report filter filter' _ _).bind fun _ => ?_
    refine (alike_openInput path).bind fun outcome => ?_
    cases outcome <;> exact alike_pure _

theorem alike_writeListing (filter filter' : LogFilter) (sink : Sink)
    (disassembly : Disassembly) :
    Alike (Program.writeListing filter sink disassembly)
      (Program.writeListing filter' sink disassembly) := by
  refine (alike_openSink sink).bind fun outcome => ?_
  cases outcome with
  | error text => exact alike_fail _
  | ok opened =>
    refine (alike_report filter filter' _ _).bind fun _ => ?_
    refine (alike_handOver _ _).bind fun flushFailure => ?_
    split
    · exact alike_fail _
    · exact alike_fail _
    · exact alike_pure _

/-- **A job has the same effect whatever is reported of it.** -/
theorem alike_perform (filter filter' : LogFilter) (job : Job) :
    Alike (Program.perform filter job) (Program.perform filter' job) := by
  refine (alike_openSource filter filter' job.source).bind fun outcome => ?_
  cases outcome with
  | error chain => exact alike_fail chain
  | ok stream =>
    refine (alike_report filter filter' _ _).bind fun _ => ?_
    split
    · exact alike_fail _
    · exact alike_writeListing filter filter' job.sink _

/-! ## 4. Runs -/

/-- A run answers its command line, or does the job that the command line describes. -/
theorem alike_run {arguments arguments' : List String}
    (h : CommandLine.AskAlike arguments arguments') (logSettings logSettings' : Option String) :
    Alike (Program.run arguments logSettings) (Program.run arguments' logSettings') := by
  unfold CommandLine.AskAlike at h
  unfold Program.run
  cases hparse : CommandLine.parse arguments with
  | error interruption =>
    cases hparse' : CommandLine.parse arguments' with
    | error interruption' =>
      rw [hparse, hparse'] at h
      cases h
      exact alike_answer interruption
    | ok parsed' =>
      rw [hparse, hparse'] at h
      cases h
  | ok parsed =>
    cases hparse' : CommandLine.parse arguments' with
    | error interruption' =>
      rw [hparse, hparse'] at h
      cases h
    | ok parsed' =>
      rw [hparse, hparse'] at h
      have hhushed : parsed.hushed = parsed'.hushed := Except.ok.inj h
      have hjob : parsed.job = parsed'.job := by
        rw [← parsed.job_hushed, hhushed, parsed'.job_hushed]
      refine (alike_complainLines _ _).bind fun _ => ?_
      rw [hjob]
      cases parsed'.job with
      | error failure => exact alike_fail failure.chain
      | ok job => exact alike_perform _ _ job

/-- **A run has the same effect whatever is reported of it**: however often it is asked to say more,
and whatever the log settings are. -/
theorem sameEffect_run {arguments arguments' : List String}
    (h : CommandLine.AskAlike arguments arguments') (world : World)
    (logSettings logSettings' : Option String) :
    SameEffect (world.run arguments logSettings) (world.run arguments' logSettings') :=
  alike_run h logSettings logSettings' world world rfl

end World

end Disassembler8080
