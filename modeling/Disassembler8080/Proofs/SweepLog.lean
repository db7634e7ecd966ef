/-
# What a sweep reports

A sweep leaves bytes of its input aside in one case only: memory is full and the input goes on.  It
says so, and it says so in no other case, so a listing without that warning is one of the whole
input.

Whether the input goes on is looked at once, when the whole window has been taken and the next
statement should begin.  A sweep that stops before that, inside a statement, does not look, and one
that finds a failure there has nothing to warn of.  So the report of a run follows from the cut of
its window: an event for each statement of the cut, and behind them the warning or nothing.  The
induction is on the cut, as for what a run finds.

Main statements:

* `Sweep.events_of_fail` and `Sweep.events_of_finish`: what the last step reports.
* `Sweep.events_run`: what a run reports.
* `events_linearSweep`: the whole report of a sweep.
* `no_silent_truncation`: when there is a warning, and that each statement is reported once.
-/
import Disassembler8080.Proofs.Underway

namespace Disassembler8080

open Tiling

/-! ## 1. Streams up to their end -/

namespace ByteStream

/-- The bytes that a stream delivers before it first ends, with failures passed over. -/
def beforeEnd : ByteStream → List UInt8
  | [] => []
  | .data bytes :: rest => bytes ++ beforeEnd rest
  | .failure _ :: rest => beforeEnd rest
  | .pause :: _ => []

theorem ready_prefix_beforeEnd (stream : ByteStream) : stream.ready <+: stream.beforeEnd := by
  induction stream with
  | nil => exact List.nil_prefix
  | cons segment rest ih =>
    cases segment with
    | data bytes => exact (List.prefix_append_right_inj bytes).mpr ih
    | failure text => exact List.nil_prefix
    | pause => exact List.nil_prefix

theorem beforeEnd_of_failure?_none {stream : ByteStream} (h : stream.failure? = none) :
    stream.beforeEnd = stream.ready := by
  induction stream with
  | nil => rfl
  | cons segment rest ih =>
    cases segment with
    | data bytes => rw [beforeEnd, ready, ih h]
    | failure text => cases h
    | pause => rfl

end ByteStream

/-! ## 2. What is reported -/

/-- The event of a decoded statement. -/
def LogEvent.ofEntry (entry : Address × Statement) : LogEvent := .decoded entry.1 entry.2

/-- The events of a report that have a severity, in order. -/
def SweepReport.eventsAt (report : SweepReport) (severity : Severity) : List LogEvent :=
  report.events.filter (·.severity = severity)

/-- The wordings of the warnings of a report. -/
def SweepReport.warnings (report : SweepReport) : List String :=
  (report.eventsAt .warn).map LogEvent.message

namespace Fetch

/-- What is to be reported when the window has been taken: a warning if the input goes on behind
it. -/
def warning (fetch : Fetch) : List LogEvent :=
  if fetch.window.length < fetch.stream.ready.length then [.surplusInput] else []

/-- Fetching bytes of the window does not change whether the input goes on behind it. -/
theorem Ahead.warning_eq {fetch later : Fetch} {count : Nat} (h : Ahead fetch count later) :
    later.warning = fetch.warning := by
  have hcount := h.le_length
  have hwindow : fetch.window.length ≤ fetch.stream.ready.length := List.length_take_le' _ _
  have hiff : later.window.length < later.stream.ready.length ↔
      fetch.window.length < fetch.stream.ready.length := by
    rw [h.window_eq, h.ready_eq, List.length_drop, List.length_drop]
    omega
  simp only [warning, hiff]

/-- A request for a first byte reports the warning if the window has been used up. -/
theorem events_leading_of_window_nil {fetch : Fetch} (h : fetch.window = []) :
    fetch.leading.1.events = fetch.warning := by
  rw [leading_of_window_nil h, warning, h]
  cases fetch.stream.ready with
  | nil => cases fetch.stream.failure? <;> rfl
  | cons first bytes => rfl

/-- Where the stream fails just behind the window, the input does not go on there. -/
theorem warning_of_ending? {fetch : Fetch} {failure : Failure}
    (h : fetch.ending? = some failure) : fetch.warning = [] := by
  unfold ending? at h
  split at h
  · rename_i text hdrop _
    have hle := List.drop_eq_nil_iff.mp hdrop
    exact if_neg (Nat.not_lt.mpr hle)
  · cases h

end Fetch

namespace Sweep

variable {sweep last : Sweep}

/-! ## 3. Steps -/

/-- A step that fails reports nothing. -/
theorem events_of_fail {failure : Failure} (h : sweep.step = .fail failure last) :
    last.events = sweep.events := by
  unfold step at h
  split at h
  · split at h
    · cases h
    · cases h
      rfl
  · cases h
  · cases h
  · cases h
    rfl

/-- A step that finishes reports what the request for a first byte does. -/
theorem events_of_finish (h : sweep.step = .finish last) :
    last.events = sweep.fetch.leading.1.events ++ sweep.events := by
  unfold step at h
  split at h
  · split at h <;> cases h
  · rename_i hleading
    cases h
    rw [hleading]
    rfl
  · rename_i hleading
    cases h
    rw [hleading]
  · cases h

/-! ## 4. Runs -/

/-- What is reported behind the statements of a cut: the warning if the cut takes the whole window,
and nothing where it stops before. -/
def closing (sweep : Sweep) (cut : List Statement) : List LogEvent :=
  if extent cut = sweep.fetch.window.length then sweep.fetch.warning else []

theorem closing_cases (sweep : Sweep) (cut : List Statement) :
    sweep.closing cut = [] ∨ sweep.closing cut = [.surplusInput] := by
  unfold closing Fetch.warning
  split
  · split
    · exact Or.inr rfl
    · exact Or.inl rfl
  · exact Or.inl rfl

theorem closing_of_stopping? {cut : List Statement} {failure : Failure}
    (h : sweep.stopping? cut = some failure) : sweep.closing cut = [] := by
  unfold closing
  split
  · rename_i hwhole
    rw [stopping?, if_pos hwhole] at h
    exact Fetch.warning_of_ending? h
  · rfl

theorem events_run_of_window_nil (hwindow : sweep.fetch.window = []) :
    sweep.run.last.events = sweep.closing [] ++ sweep.events := by
  have hclosing : sweep.closing [] = sweep.fetch.warning := if_pos (by rw [hwindow]; rfl)
  obtain ⟨last, -, -, hstep⟩ := step_of_window_nil hwindow
  cases hending : sweep.fetch.ending? with
  | none =>
    rw [hending] at hstep
    rw [run_of_finish hstep, events_of_finish hstep, Fetch.events_leading_of_window_nil hwindow,
      hclosing]
  | some failure =>
    rw [hending] at hstep
    rw [run_of_fail hstep, events_of_fail hstep, hclosing, Fetch.warning_of_ending? hending]
    rfl

/-- A run whose window is too short for the next statement reports nothing. -/
theorem events_run_of_front?_none {forced : Bool} {first : UInt8} {rest : List UInt8}
    (hforced : (sweep.map.location (UInt16.ofNat sweep.fetch.position)).forced = forced)
    (hwindow : sweep.fetch.window = first :: rest)
    (hfront : Statement.front? forced (first :: rest) = none) :
    sweep.run.last.events = sweep.closing [] ++ sweep.events := by
  obtain ⟨last, hstep, -⟩ := step_of_front?_none hforced hwindow hfront
  have hpart : extent [] ≠ sweep.fetch.window.length := by
    rw [hwindow, extent_nil, List.length_cons]
    omega
  rw [run_of_fail hstep, events_of_fail hstep, closing, if_neg hpart]
  rfl

/-- What is reported behind a cut stays the same when its first statement is recorded. -/
theorem closing_record {statement : Statement} {later : Fetch} {others : List Statement}
    (hahead : Fetch.Ahead sweep.fetch statement.size later) (address : Address) :
    (sweep.record address statement later).closing others =
      sweep.closing (statement :: others) := by
  have hle := hahead.le_length
  have hwhole : extent others = later.window.length ↔
      extent (statement :: others) = sweep.fetch.window.length := by
    rw [hahead.window_eq, List.length_drop, extent_cons]
    omega
  simp only [closing, record, hwhole, hahead.warning_eq]

/-- **What a run reports**: each statement of the cut of its window, and then the warning if the
whole window was taken and the input goes on.  The latest event stands first. -/
theorem events_run (sweep : Sweep) {forced : Address → Bool} {cut : List Statement}
    (hforced : ∀ address, (sweep.map.location address).forced = forced address)
    (hcut : tiles forced sweep.fetch.position sweep.fetch.window = cut) :
    sweep.run.last.events =
      sweep.closing cut ++
        ((addressed sweep.fetch.position cut).map LogEvent.ofEntry).reverse ++ sweep.events := by
  induction cut generalizing sweep with
  | nil =>
    rw [addressed, List.map_nil, List.reverse_nil, List.append_nil]
    cases sweep.goesOn hforced hcut with
    | usedUp hwindow => exact events_run_of_window_nil hwindow
    | tooShort hwindow hfront => exact events_run_of_front?_none (hforced _) hwindow hfront
  | cons statement others ih =>
    cases sweep.goesOn hforced hcut with
    | takes hstep hahead hlater hothers =>
      rw [run_of_proceed hstep, ih _ hlater hothers, closing_record hahead, addressed,
        List.map_cons, List.reverse_cons, ← hahead.position_eq]
      simp only [record, LogEvent.ofEntry, List.append_assoc, List.singleton_append]

end Sweep

/-! ## 5. Reports -/

/-- The event behind a sweep that succeeds. -/
def finishedEvents : Except Failure Disassembly → List LogEvent
  | .ok found => [.finished found.stop]
  | .error _ => []

/-- **The whole report of a sweep**: its blocks, the statements of the cut, the warning if there is
one to give, and where the sweep ended if it did not fail. -/
theorem events_linearSweep (stream : ByteStream) (blocks : List DataBlock) :
    (linearSweep stream blocks).events =
      blocks.map .forcing ++
        ((addressed 0 (statementsIn blocks stream.image)).map LogEvent.ofEntry ++
          ((Sweep.start stream blocks).closing (statementsIn blocks stream.image) ++
            finishedEvents (linearSweep stream blocks).result)) := by
  have hevents := Sweep.events_run (Sweep.start stream blocks)
    (Sweep.forced_start stream blocks) rfl
  change (Sweep.start stream blocks).run.last.events =
    (Sweep.start stream blocks).closing (statementsIn blocks stream.image) ++
      ((addressed 0 (statementsIn blocks stream.image)).map LogEvent.ofEntry).reverse ++
        (blocks.map LogEvent.forcing).reverse at hevents
  have hclosing : ((Sweep.start stream blocks).closing
      (statementsIn blocks stream.image)).reverse =
        (Sweep.start stream blocks).closing (statementsIn blocks stream.image) := by
    rcases Sweep.closing_cases (Sweep.start stream blocks) (statementsIn blocks stream.image) with
      hnone | hone
    · rw [hnone, List.reverse_nil]
    · rw [hone, List.reverse_singleton]
  unfold linearSweep
  rcases hrun : (Sweep.start stream blocks).run with ⟨failure?, last⟩
  rw [hrun] at hevents
  have hreverse : last.events.reverse =
      blocks.map .forcing ++
        ((addressed 0 (statementsIn blocks stream.image)).map LogEvent.ofEntry ++
          (Sweep.start stream blocks).closing (statementsIn blocks stream.image)) := by
    rw [hevents, List.reverse_append, List.reverse_append, List.reverse_reverse,
      List.reverse_reverse, hclosing]
  cases failure? with
  | some failure => simp only [hreverse, finishedEvents, List.append_nil]
  | none =>
    simp only [List.reverse_cons, hreverse, finishedEvents, List.append_assoc]

/-- Of events that all have one severity, those that have a severity are all of them or none. -/
theorem filter_severity {events : List LogEvent} {own : Severity}
    (h : ∀ event ∈ events, event.severity = own) (severity : Severity) :
    events.filter (·.severity = severity) = if own = severity then events else [] := by
  split
  · rename_i heq
    exact List.filter_eq_self.mpr fun event hmem => decide_eq_true ((h event hmem).trans heq)
  · rename_i hne
    refine List.filter_eq_nil_iff.mpr fun event hmem hkept => hne ?_
    exact (h event hmem).symm.trans (of_decide_eq_true hkept)

theorem eventsAt_linearSweep (stream : ByteStream) (blocks : List DataBlock)
    (severity : Severity) :
    (linearSweep stream blocks).eventsAt severity =
      (if .debug = severity then blocks.map .forcing else []) ++
        ((if .trace = severity then
            (addressed 0 (statementsIn blocks stream.image)).map LogEvent.ofEntry else []) ++
          ((if .warn = severity then
              (Sweep.start stream blocks).closing (statementsIn blocks stream.image) else []) ++
            if .debug = severity then finishedEvents (linearSweep stream blocks).result
            else [])) := by
  rw [SweepReport.eventsAt, events_linearSweep, List.filter_append, List.filter_append,
    List.filter_append]
  congr 1
  · refine filter_severity (fun event hmem => ?_) severity
    obtain ⟨block, -, rfl⟩ := List.mem_map.mp hmem
    rfl
  congr 1
  · refine filter_severity (fun event hmem => ?_) severity
    obtain ⟨entry, -, rfl⟩ := List.mem_map.mp hmem
    rfl
  congr 1
  · refine filter_severity (fun event hmem => ?_) severity
    rcases Sweep.closing_cases (Sweep.start stream blocks) (statementsIn blocks stream.image) with
      hnone | hone
    · rw [hnone] at hmem
      cases hmem
    · rw [hone] at hmem
      cases List.mem_singleton.mp hmem
      rfl
  · refine filter_severity (fun event hmem => ?_) severity
    cases hresult : (linearSweep stream blocks).result with
    | ok found =>
      rw [hresult] at hmem
      cases List.mem_singleton.mp hmem
      rfl
    | error failure =>
      rw [hresult] at hmem
      cases hmem

theorem eventsAt_warn (stream : ByteStream) (blocks : List DataBlock) :
    (linearSweep stream blocks).eventsAt .warn =
      (Sweep.start stream blocks).closing (statementsIn blocks stream.image) := by
  rw [eventsAt_linearSweep]
  exact List.append_nil _

/-- The events of the lowest severity are the statements of the cut. -/
theorem eventsAt_trace (stream : ByteStream) (blocks : List DataBlock) :
    (linearSweep stream blocks).eventsAt .trace =
      (addressed 0 (statementsIn blocks stream.image)).map LogEvent.ofEntry := by
  rw [eventsAt_linearSweep]
  exact List.append_nil _

/-! ## 6. Nothing is left out in silence -/

/-- A sweep that fails gives no warning. -/
theorem warnings_of_error {stream : ByteStream} {blocks : List DataBlock} {failure : Failure}
    (h : (linearSweep stream blocks).result = .error failure) :
    (linearSweep stream blocks).warnings = [] := by
  rw [result_eq_cut] at h
  cases hstopping :
      (Sweep.start stream blocks).stopping? (statementsIn blocks stream.image) with
  | some cause =>
    rw [SweepReport.warnings, eventsAt_warn, Sweep.closing_of_stopping? hstopping]
    rfl
  | none =>
    rw [hstopping] at h
    cases h

theorem Sweep.closing_start (stream : ByteStream) (blocks : List DataBlock)
    (cut : List Statement) :
    (start stream blocks).closing cut =
      if extent cut = stream.image.length then
        if stream.image.length < stream.ready.length then [.surplusInput] else []
      else [] := rfl

/-- A sweep that succeeds has taken the whole image of its stream, and the stream goes on behind
memory or ends behind its ready bytes. -/
theorem Sweep.of_stopping?_none {stream : ByteStream} {blocks : List DataBlock}
    {cut : List Statement} (h : (start stream blocks).stopping? cut = none) :
    extent cut = stream.image.length ∧
      (memorySize < stream.ready.length ∨ stream.failure? = none) := by
  by_cases hroom : stream.ready.length < memorySize
  · have himage : stream.image.length = stream.ready.length := by
      rw [ByteStream.image, List.length_take]
      omega
    rw [stopping?_of_length_lt hroom] at h
    cases hfailure : stream.failure? with
    | some text =>
      rw [hfailure] at h
      cases h
    | none =>
      rw [hfailure] at h
      by_cases hwhole : extent cut = stream.ready.length
      · exact ⟨hwhole.trans himage.symm, Or.inr rfl⟩
      · rw [if_neg hwhole] at h
        cases h
  · have himage : stream.image.length = memorySize :=
      List.length_take_of_le (Nat.le_of_not_lt hroom)
    rw [stopping?_of_le_length (Nat.le_of_not_lt hroom)] at h
    split at h
    · rename_i hwhole
      refine ⟨hwhole.trans himage.symm, ?_⟩
      cases hfailure : stream.failure? with
      | none => exact Or.inr rfl
      | some text =>
        -- a failure just at the end of memory would have been met
        have hne : stream.ready.length ≠ memorySize := fun hexact => by simp [hfailure, hexact] at h
        exact Or.inl (by omega)
    · cases h

/-- A sweep that succeeds has taken the whole input up to its end, or has filled memory and says
that the input goes on. -/
theorem warnings_of_ok {stream : ByteStream} {blocks : List DataBlock} {found : Disassembly}
    (h : (linearSweep stream blocks).result = .ok found) :
    (found.stop = stream.beforeEnd.length ∧ (linearSweep stream blocks).warnings = []) ∨
      (found.stop = memorySize ∧ memorySize < stream.beforeEnd.length ∧
        (linearSweep stream blocks).warnings =
          ["input continues past address 0xffff, ignoring the rest"]) := by
  rw [result_eq_cut] at h
  split at h
  · cases h
  · rename_i hstopping
    cases h
    obtain ⟨hwhole, hend⟩ := Sweep.of_stopping?_none hstopping
    have hlength : stream.image.length = min memorySize stream.ready.length := List.length_take
    have hstop : (Disassembly.ofStatements blocks (statementsIn blocks stream.image)).stop =
        stream.image.length := hwhole
    rw [SweepReport.warnings, eventsAt_warn, Sweep.closing_start, if_pos hwhole, hstop]
    by_cases hmore : memorySize < stream.ready.length
    · have hbefore := stream.ready_prefix_beforeEnd.length_le
      refine Or.inr ⟨by omega, by omega, ?_⟩
      rw [if_pos (by omega)]
      rfl
    · have hnone := hend.resolve_left hmore
      refine Or.inl ⟨?_, ?_⟩
      · rw [ByteStream.beforeEnd_of_failure?_none hnone]
        omega
      · rw [if_neg (by omega)]
        rfl

theorem Sweep.Ends.map_eq {last : Sweep} {ending : Ending} (h : Ends last ending) :
    ending.last.map = last.map := by
  cases h with
  | finish hstep =>
    rcases step_cases last with ⟨_, _, -, -, hrecord⟩ | ⟨_, hfinish, hsame, -⟩ | ⟨_, _, hfail, -⟩
    · exact absurd (hrecord.symm.trans hstep) (by simp)
    · cases hfinish.symm.trans hstep
      exact hsame
    · exact absurd (hfail.symm.trans hstep) (by simp)
  | fail hstep =>
    rcases step_cases last with ⟨_, _, -, -, hrecord⟩ | ⟨_, hfinish, -⟩ | ⟨_, _, hfail, hsame⟩
    · exact absurd (hrecord.symm.trans hstep) (by simp)
    · exact absurd (hfinish.symm.trans hstep) (by simp)
    · cases hfail.symm.trans hstep
      exact hsame

theorem Sweep.toList_of_ends {stream : ByteStream} {blocks : List DataBlock} {last : Sweep}
    (h : Ends last (start stream blocks).run) :
    last.map.statements.toList = addressed 0 (statementsIn blocks stream.image) := by
  obtain ⟨-, hmap, -⟩ := takes_run (start stream blocks) (forced_start stream blocks) rfl
  have hroom : extent (statementsIn blocks stream.image) ≤ memorySize :=
    (extent_tiles_le _ _ _).trans (List.length_take_le _ _)
  rw [← h.map_eq, hmap]
  exact Disassembly.toList_ofStatements hroom

/-- **Nothing is left out in silence.**  A sweep that succeeds has decoded all bytes in front of the
first end of its input and warns of nothing, or it has filled memory, more bytes follow in front of
that end, and it gives one warning.  A sweep that fails gives none.  In every case each step that
decodes a statement reports it, and so the statements that were found before the sweep stopped are
reported once each, in the order of their addresses. -/
theorem no_silent_truncation (stream : ByteStream) (blocks : List DataBlock) :
    (∀ found, (linearSweep stream blocks).result = .ok found →
      (found.stop = stream.beforeEnd.length ∧ (linearSweep stream blocks).warnings = []) ∨
      (found.stop = memorySize ∧ memorySize < stream.beforeEnd.length ∧
        (linearSweep stream blocks).warnings =
          ["input continues past address 0xffff, ignoring the rest"])) ∧
    (∀ failure, (linearSweep stream blocks).result = .error failure →
      (linearSweep stream blocks).warnings = []) ∧
    ∃ count last, Sweep.Steps (Sweep.start stream blocks) count last ∧
      Sweep.Ends last (Sweep.start stream blocks).run ∧
      (linearSweep stream blocks).eventsAt .trace =
        last.map.statements.toList.map (fun entry => .decoded entry.1 entry.2) ∧
      last.map.statements.toList.length = count ∧
      last.map.statements.toList.Pairwise (fun first second => first.1 < second.1) := by
  refine ⟨fun _ => warnings_of_ok, fun _ => warnings_of_error, ?_⟩
  obtain ⟨count, last, hsteps, hends⟩ := Sweep.exists_steps_of_run (Sweep.start stream blocks)
  obtain ⟨statements, hcount, htook⟩ := Sweep.Took.of_steps hsteps
  refine ⟨count, last, hsteps, hends, ?_, ?_, MemoryMap.increasing_toList _⟩
  · rw [eventsAt_trace, Sweep.toList_of_ends hends]
    rfl
  · have hroom : extent statements ≤ memorySize := by
      rw [← htook.position_eq]
      exact htook.knows.position_le
    rw [htook.map_eq, Disassembly.toList_ofStatements hroom, ← List.length_map Prod.snd,
      map_snd_addressed, hcount]

end Disassembler8080
