/-
# How a sweep of a stream ends

A sweep reads a stream byte by byte and stops at whatever it meets first: the end of the input, a
failure, or the end of memory.  This file shows that all of it is decided by two things, the ready
bytes of the stream and the event behind them: a step takes the statement in front of the window,
and a run takes the whole cut of the window.

The induction is on the cut.  What a step preserves is that the fetch is ahead by the sizes of the
statements taken (`Fetch.Ahead`), so that the window shrinks as the bytes do that are still to be
cut, and that the map forces the same addresses.

Main statements:

* `Sweep.step_of_front?_some`, `Sweep.step_of_front?_none` and `Sweep.step_of_window_nil`: all that
  a step can do.
* `Sweep.goesOn`: how a sweep goes on, by the cut of its window.
* `Sweep.takes_run`: a run takes the whole cut.
* `exists_statements_of_result`: what a sweep that succeeds has found.
* `result_linearSweep`: the outcome of a sweep on every stream.
-/
import Disassembler8080.Proofs.Contents
import Disassembler8080.Proofs.Supply

namespace Disassembler8080

open Tiling

/-! ## 1. What stops a sweep behind its last statement -/

/-- The failure that a fetch comes to when its window has been used up: that of the stream, if the
window ends with the ready bytes. -/
def Fetch.ending? (fetch : Fetch) : Option Failure :=
  match fetch.stream.ready.drop fetch.window.length, fetch.stream.failure? with
  | [], some text => some (.inputOutput text)
  | _, _ => none

/-- Fetching bytes of the window changes nothing about what comes behind it. -/
theorem Fetch.Ahead.ending?_eq {fetch later : Fetch} {count : Nat}
    (h : Fetch.Ahead fetch count later) : later.ending? = fetch.ending? := by
  have hle := h.le_length
  have hlength : count + later.window.length = fetch.window.length := by
    rw [h.window_eq, List.length_drop]
    omega
  rw [Fetch.ending?, Fetch.ending?, h.ready_eq, List.drop_drop, hlength, h.failure?_eq]

namespace Sweep

/-! ## 2. Steps -/

variable {sweep : Sweep}

/-- **A step takes the statement in front of the window** and records it. -/
theorem step_of_front?_some {forced : Bool} {statement : Statement}
    (hforced : (sweep.map.location (UInt16.ofNat sweep.fetch.position)).forced = forced)
    (h : Statement.front? forced sweep.fetch.window = some statement) :
    ∃ later, sweep.step =
        .proceed (sweep.record (UInt16.ofNat sweep.fetch.position) statement later) ∧
      Fetch.Ahead sweep.fetch statement.size later := by
  cases hwindow : sweep.fetch.window with
  | nil => exact absurd h (by simp [hwindow, Statement.front?])
  | cons first rest =>
    obtain ⟨later, hleading, hahead⟩ := Fetch.leading_of_window_cons hwindow
    have hrest : later.window = rest := by
      rw [hahead.window_eq, hwindow, List.drop_one, List.tail_cons]
    rw [hwindow, ← hrest] at h
    obtain ⟨latest, hread, hmore⟩ :=
      Fetch.readStatement_of_front?_some h (UInt16.ofNat sweep.fetch.position)
    refine ⟨latest, ?_, ?_⟩
    · simp only [step, hleading, hforced, hread]
    · have hpos := statement.size_pos
      have hsum := hahead.trans hmore
      rwa [show 1 + (statement.size - 1) = statement.size by omega] at hsum

/-- Where the window is too short for the next statement, a step fails with what the shortage is
due to. -/
theorem step_of_front?_none {forced : Bool} {first : UInt8} {rest : List UInt8}
    (hforced : (sweep.map.location (UInt16.ofNat sweep.fetch.position)).forced = forced)
    (hwindow : sweep.fetch.window = first :: rest)
    (h : Statement.front? forced (first :: rest) = none) :
    ∃ last, sweep.step =
        .fail (sweep.fetch.shortage (UInt16.ofNat sweep.fetch.position)) last ∧
      last.map = sweep.map := by
  obtain ⟨later, hleading, hahead⟩ := Fetch.leading_of_window_cons hwindow
  have hrest : later.window = rest := by
    rw [hahead.window_eq, hwindow, List.drop_one, List.tail_cons]
  rw [← hrest] at h
  obtain ⟨last, hread⟩ :=
    Fetch.readStatement_of_front?_none h (UInt16.ofNat sweep.fetch.position)
  rw [hahead.shortage_eq] at hread
  exact ⟨{ sweep with fetch := last }, by simp only [step, hleading, hforced, hread], rfl⟩

/-- Where the window is used up, a step ends the sweep. -/
theorem step_of_window_nil (h : sweep.fetch.window = []) :
    ∃ last, last.map = sweep.map ∧ last.fetch.position = sweep.fetch.position ∧
      sweep.step =
        match sweep.fetch.ending? with
        | some failure => .fail failure last
        | none => .finish last := by
  have hleading := Fetch.leading_of_window_nil h
  have hposition := sweep.fetch.position_leading
  unfold Fetch.ending?
  rw [h, List.length_nil, List.drop_zero]
  rcases hfetch : sweep.fetch.leading with ⟨answer, rest⟩
  rw [hfetch] at hleading hposition
  cases hready : sweep.fetch.stream.ready with
  | cons first bytes =>
    rw [hready] at hleading
    cases hleading
    refine ⟨{ sweep with fetch := rest, events := .surplusInput :: sweep.events }, rfl,
      hposition, ?_⟩
    rw [step, hfetch]
    rfl
  | nil =>
    rw [hready] at hleading
    cases hfailure : sweep.fetch.stream.failure? with
    | none =>
      rw [hfailure] at hleading
      cases hleading
      exact ⟨{ sweep with fetch := rest }, rfl, hposition, by rw [step, hfetch]⟩
    | some text =>
      rw [hfailure] at hleading
      cases hleading
      exact ⟨{ sweep with fetch := rest }, rfl, hposition, by rw [step, hfetch]⟩

/-! ## 3. Runs -/

theorem run_of_proceed {next : Sweep} (h : sweep.step = .proceed next) : sweep.run = next.run := by
  rw [run_eq, h]

theorem run_of_finish {last : Sweep} (h : sweep.step = .finish last) :
    sweep.run = ⟨none, last⟩ := by
  rw [run_eq, h]

theorem run_of_fail {failure : Failure} {last : Sweep} (h : sweep.step = .fail failure last) :
    sweep.run = ⟨some failure, last⟩ := by
  rw [run_eq, h]

/-- The failure that a sweep comes to that takes a cut of its window: where the cut stops before the
window does, the one that the shortage is due to, and otherwise the one behind the window. -/
def stopping? (sweep : Sweep) (cut : List Statement) : Option Failure :=
  if extent cut = sweep.fetch.window.length then sweep.fetch.ending?
  else some (sweep.fetch.shortage (UInt16.ofNat (sweep.fetch.position + extent cut)))

/-- How a sweep ends that takes a cut of its window.  Its last position is of use only where the
whole window was taken. -/
structure Takes (sweep : Sweep) (cut : List Statement) (ending : Ending) : Prop where
  failure_eq : ending.failure = sweep.stopping? cut
  map_eq : ending.last.map = sweep.map.enterAll (addressed sweep.fetch.position cut)
  position_eq : extent cut = sweep.fetch.window.length →
    ending.last.fetch.position = sweep.fetch.position + extent cut

/-- What a sweep takes after it has recorded a statement, it takes together with that statement. -/
theorem Takes.cons {statement : Statement} {later : Fetch} {others : List Statement}
    {ending : Ending} (hahead : Fetch.Ahead sweep.fetch statement.size later)
    (h : Takes (sweep.record (UInt16.ofNat sweep.fetch.position) statement later) others ending) :
    Takes sweep (statement :: others) ending := by
  have hlength : later.window.length = sweep.fetch.window.length - statement.size := by
    rw [hahead.window_eq, List.length_drop]
  have hle := hahead.le_length
  have hend : sweep.fetch.position + extent (statement :: others) =
      later.position + extent others := by
    rw [hahead.position_eq, extent_cons, Nat.add_assoc]
  have hwhole : extent (statement :: others) = sweep.fetch.window.length ↔
      extent others = later.window.length := by
    rw [extent_cons, hlength]
    omega
  constructor
  · have hfailure := h.failure_eq
    simp only [stopping?, record, hahead.ending?_eq, hahead.shortage_eq] at hfailure
    simp only [stopping?, hwhole, hend]
    exact hfailure
  · rw [addressed, ← hahead.position_eq]
    exact h.map_eq
  · intro heq
    rw [hend]
    exact h.position_eq (hwhole.mp heq)

theorem takes_of_window_nil (hwindow : sweep.fetch.window = []) : Takes sweep [] sweep.run := by
  obtain ⟨last, hmap, hposition, hstep⟩ := step_of_window_nil hwindow
  have hwhole : extent [] = sweep.fetch.window.length := by
    rw [hwindow]
    rfl
  have hstopping : sweep.stopping? [] = sweep.fetch.ending? := if_pos hwhole
  cases hending : sweep.fetch.ending? with
  | none =>
    rw [hending] at hstep hstopping
    rw [run_of_finish hstep]
    exact ⟨hstopping.symm, hmap, fun _ => hposition⟩
  | some failure =>
    rw [hending] at hstep hstopping
    rw [run_of_fail hstep]
    exact ⟨hstopping.symm, hmap, fun _ => hposition⟩

/-- A run whose window is too short for the next statement takes nothing. -/
theorem takes_of_front?_none {forced : Bool} {first : UInt8} {rest : List UInt8}
    (hforced : (sweep.map.location (UInt16.ofNat sweep.fetch.position)).forced = forced)
    (hwindow : sweep.fetch.window = first :: rest)
    (hfront : Statement.front? forced (first :: rest) = none) : Takes sweep [] sweep.run := by
  obtain ⟨last, hstep, hmap⟩ := step_of_front?_none hforced hwindow hfront
  have hpart : extent [] ≠ sweep.fetch.window.length := by
    rw [hwindow, extent_nil, List.length_cons]
    omega
  rw [run_of_fail hstep]
  refine ⟨?_, hmap, fun hwhole => absurd hwhole hpart⟩
  rw [stopping?, if_neg hpart]
  rfl

/-- How a sweep goes on whose window is still to be cut: the window is used up, or it is too short for
the next statement, or the first statement of the cut is recorded and the others are still to come. -/
inductive GoesOn (sweep : Sweep) (forced : Address → Bool) : List Statement → Prop
  | usedUp (hwindow : sweep.fetch.window = []) : GoesOn sweep forced []
  | tooShort {first : UInt8} {rest : List UInt8} (hwindow : sweep.fetch.window = first :: rest)
    (hfront : Statement.front? (forced (UInt16.ofNat sweep.fetch.position)) (first :: rest) = none) :
    GoesOn sweep forced []
  | takes {statement : Statement} {others : List Statement} {later : Fetch}
    (hstep : sweep.step =
      .proceed (sweep.record (UInt16.ofNat sweep.fetch.position) statement later))
    (hahead : Fetch.Ahead sweep.fetch statement.size later)
    (hforced : ∀ address, ((sweep.record (UInt16.ofNat sweep.fetch.position) statement
      later).map.location address).forced = forced address)
    (hothers : tiles forced later.position later.window = others) :
    GoesOn sweep forced (statement :: others)

/-- A sweep goes on by the cut of its window. -/
theorem goesOn (sweep : Sweep) {forced : Address → Bool} {cut : List Statement}
    (hforced : ∀ address, (sweep.map.location address).forced = forced address)
    (hcut : tiles forced sweep.fetch.position sweep.fetch.window = cut) :
    GoesOn sweep forced cut := by
  cases hfront : Statement.front? (forced (UInt16.ofNat sweep.fetch.position))
      sweep.fetch.window with
  | none =>
    rw [tiles_of_front?_none hfront] at hcut
    subst hcut
    cases hwindow : sweep.fetch.window with
    | nil => exact .usedUp hwindow
    | cons first rest =>
      rw [hwindow] at hfront
      exact .tooShort hwindow hfront
  | some found =>
    obtain ⟨later, hstep, hahead⟩ := step_of_front?_some (hforced _) hfront
    rw [tiles_of_front?_some hfront, ← hahead.position_eq, ← hahead.window_eq] at hcut
    subst hcut
    refine .takes hstep hahead (fun address => ?_) rfl
    -- recording a statement forces nothing
    rw [location_record]
    exact hforced address

/-- **A run takes the whole cut of its window.** -/
theorem takes_run (sweep : Sweep) {forced : Address → Bool} {cut : List Statement}
    (hforced : ∀ address, (sweep.map.location address).forced = forced address)
    (hcut : tiles forced sweep.fetch.position sweep.fetch.window = cut) :
    Takes sweep cut sweep.run := by
  induction cut generalizing sweep with
  | nil =>
    cases sweep.goesOn hforced hcut with
    | usedUp hwindow => exact takes_of_window_nil hwindow
    | tooShort hwindow hfront => exact takes_of_front?_none (hforced _) hwindow hfront
  | cons statement others ih =>
    cases sweep.goesOn hforced hcut with
    | takes hstep hahead hlater hothers =>
      rw [run_of_proceed hstep]
      exact Takes.cons hahead (ih _ hlater hothers)

/-- Before a sweep, exactly the addresses of the blocks are forced. -/
theorem forced_start (stream : ByteStream) (blocks : List DataBlock) (address : Address) :
    ((start stream blocks).map.location address).forced = DataBlock.covers blocks address := by
  change ((DataBlock.applyAll blocks .blank).location address).forced = _
  rw [DataBlock.location_applyAll_blank]

end Sweep

/-! ## 4. Outcomes -/

/-- The bytes of a stream that come to stand in memory: its ready bytes, as far as there is room. -/
def ByteStream.image (stream : ByteStream) : List UInt8 := stream.ready.take memorySize

/-- The statements that a memory image is cut into if blocks of it are data. -/
def statementsIn (blocks : List DataBlock) (image : List UInt8) : List Statement :=
  tiles (DataBlock.covers blocks) 0 image

/-- The result of a sweep by the cut of the memory image. -/
theorem result_eq_cut (stream : ByteStream) (blocks : List DataBlock) :
    (linearSweep stream blocks).result =
      match (Sweep.start stream blocks).stopping? (statementsIn blocks stream.image) with
      | some failure => .error failure
      | none => .ok (Disassembly.ofStatements blocks (statementsIn blocks stream.image)) := by
  obtain ⟨hfailure, hmap, hposition⟩ :=
    Sweep.takes_run (Sweep.start stream blocks) (Sweep.forced_start stream blocks) rfl
  change _ = (Sweep.start stream blocks).stopping? (statementsIn blocks stream.image) at hfailure
  change _ = (DataBlock.applyAll blocks .blank).enterAll
    (addressed 0 (statementsIn blocks stream.image)) at hmap
  rw [← hfailure]
  unfold linearSweep
  rcases hrun : (Sweep.start stream blocks).run with ⟨failure?, last⟩
  rw [hrun] at hfailure hmap hposition
  cases failure? with
  | some failure => rfl
  | none =>
    -- without a failure the whole window was taken, so the position is where the cut ends
    have hwhole : extent (statementsIn blocks stream.image) = stream.image.length := by
      rw [Sweep.stopping?] at hfailure
      split at hfailure
      · assumption
      · exact absurd hfailure (by simp)
    have hstop : last.fetch.position = 0 + extent (statementsIn blocks stream.image) :=
      hposition hwhole
    rw [Nat.zero_add] at hstop
    simp only [Disassembly.ofStatements, ← hstop, ← hmap]

/-- **What a sweep that succeeds has found**: a row of statements that fit their addresses and
memory, and that encode the bytes in front of the stop. -/
theorem exists_statements_of_result {stream : ByteStream} {blocks : List DataBlock}
    {disassembly : Disassembly} (h : (linearSweep stream blocks).result = .ok disassembly) :
    ∃ statements, disassembly = .ofStatements blocks statements ∧
      Fitting (DataBlock.covers blocks) 0 statements ∧ extent statements ≤ memorySize ∧
      statements.flatMap Statement.encode = stream.bytes.take (extent statements) := by
  rw [result_eq_cut] at h
  split at h
  · exact absurd h (by simp)
  · cases h
    have hle := extent_tiles_le (DataBlock.covers blocks) 0 stream.image
    have hcut := flatMap_encode_tiles (DataBlock.covers blocks) 0 stream.image
    have hlength : stream.image.length ≤ memorySize := List.length_take_le _ _
    have hstart : stream.image <+: stream.bytes :=
      (List.take_prefix _ _).trans stream.ready_prefix_bytes
    refine ⟨statementsIn blocks stream.image, rfl, fitting_tiles _ _ _,
      Nat.le_trans hle hlength, ?_⟩
    obtain ⟨rest, hrest⟩ := hstart
    rw [statementsIn, hcut, ← hrest, List.take_append_of_le_length hle]

/-- A sweep of bytes that are all cut into statements, and that memory has room for, succeeds. -/
theorem result_of_whole_cut {bytes : List UInt8} {blocks : List DataBlock}
    {statements : List Statement} (hcut : statementsIn blocks bytes = statements)
    (hwhole : extent statements = bytes.length) (hroom : bytes.length ≤ memorySize) :
    (linearSweep (.ofBytes bytes) blocks).result = .ok (.ofStatements blocks statements) := by
  have himage : (ByteStream.ofBytes bytes).image = bytes := by
    rw [ByteStream.image, ByteStream.ready_ofBytes, List.take_of_length_le hroom]
  have hending : Fetch.ending? { stream := .ofBytes bytes } = none := by
    rw [Fetch.ending?, ByteStream.failure?_ofBytes]
    split <;> simp_all
  have hwindow : (Sweep.start (.ofBytes bytes) blocks).fetch.window = bytes := himage
  rw [result_eq_cut, himage, hcut, Sweep.stopping?, hwindow, if_pos hwhole]
  change (match Fetch.ending? { stream := .ofBytes bytes } with
    | some failure => Except.error failure
    | none => .ok (Disassembly.ofStatements blocks statements)) = _
  rw [hending]

/-- How far a sweep gets, or why it fails, by the ready bytes of a stream and the failure behind
them, if there is one.  Where statements no longer fit is found by counting their sizes. -/
def verdict (blocks : List DataBlock) (bytes : List UInt8) (failure? : Option String) :
    Except Failure Nat :=
  let boundary := lastBoundary (DataBlock.covers blocks) 0 (bytes.take memorySize)
  if bytes.length < memorySize then
    match failure? with
    | some text => .error (.inputOutput text)
    | none =>
      if boundary = bytes.length then .ok bytes.length
      else .error (.cutShort (UInt16.ofNat boundary))
  else if boundary < memorySize then .error (.pastMemory (UInt16.ofNat boundary))
  else
    match failure? with
    | some text => if bytes.length = memorySize then .error (.inputOutput text) else .ok memorySize
    | none => .ok memorySize

/-- A stream whose bytes all have room stops a sweep as it ends itself. -/
theorem stopping?_of_length_lt {stream : ByteStream} {blocks : List DataBlock}
    {cut : List Statement} (h : stream.ready.length < memorySize) :
    (Sweep.start stream blocks).stopping? cut =
      match stream.failure? with
      | some text => some (.inputOutput text)
      | none =>
        if extent cut = stream.ready.length then none
        else some (.cutShort (UInt16.ofNat (extent cut))) := by
  have hwindow : (Sweep.start stream blocks).fetch.window = stream.ready :=
    List.take_of_length_le (Nat.le_of_lt h)
  have hshort : 0 + stream.ready.length < memorySize := by omega
  unfold Sweep.stopping? Fetch.ending? Fetch.shortage
  rw [hwindow]
  simp only [Sweep.start, List.drop_length, Nat.zero_add, if_pos h]
  cases stream.failure? with
  | none => rfl
  | some text => split <;> rfl

/-- A sweep of bytes that memory has room for, and that end inside a statement, is cut short in
that statement. -/
theorem result_of_part_cut {bytes : List UInt8} {blocks : List DataBlock}
    {statements : List Statement} (hcut : statementsIn blocks bytes = statements)
    (hpart : extent statements ≠ bytes.length) (hroom : bytes.length < memorySize) :
    (linearSweep (.ofBytes bytes) blocks).result =
      .error (.cutShort (UInt16.ofNat (extent statements))) := by
  have himage : (ByteStream.ofBytes bytes).image = bytes := by
    rw [ByteStream.image, ByteStream.ready_ofBytes, List.take_of_length_le (Nat.le_of_lt hroom)]
  have hready : (ByteStream.ofBytes bytes).ready.length < memorySize := by
    rwa [ByteStream.ready_ofBytes]
  rw [result_eq_cut, himage, hcut, stopping?_of_length_lt hready, ByteStream.failure?_ofBytes,
    ByteStream.ready_ofBytes]
  simp only [if_neg hpart]

/-- A stream whose bytes fill memory stops a sweep only if the last statement runs past the end of
memory, or if it fails just there. -/
theorem stopping?_of_le_length {stream : ByteStream} {blocks : List DataBlock}
    {cut : List Statement} (h : memorySize ≤ stream.ready.length) :
    (Sweep.start stream blocks).stopping? cut =
      if extent cut = memorySize then
        match stream.failure? with
        | some text =>
          if stream.ready.length = memorySize then some (.inputOutput text) else none
        | none => none
      else some (.pastMemory (UInt16.ofNat (extent cut))) := by
  have hlength : (Sweep.start stream blocks).fetch.window.length = memorySize :=
    List.length_take_of_le h
  have hfull : ¬stream.ready.length < memorySize := by omega
  unfold Sweep.stopping? Fetch.ending? Fetch.shortage
  rw [hlength]
  simp only [Sweep.start, Nat.zero_add, if_neg hfull]
  split
  · cases stream.failure? with
    | none => split <;> simp_all
    | some text =>
      by_cases hexact : stream.ready.length = memorySize
      · have hdrop : stream.ready.drop memorySize = [] := by rw [← hexact, List.drop_length]
        simp only [hdrop, if_pos hexact]
      · simp only [if_neg hexact]
        cases hdrop : stream.ready.drop memorySize with
        | nil =>
          rw [List.drop_eq_nil_iff] at hdrop
          exact absurd (Nat.le_antisymm hdrop h) hexact
        | cons first rest => rfl
  · rfl

/-- The verdict on a stream is what stops the sweep of it, or where the cut ends. -/
theorem verdict_eq (stream : ByteStream) (blocks : List DataBlock) :
    verdict blocks stream.ready stream.failure? =
      match (Sweep.start stream blocks).stopping? (statementsIn blocks stream.image) with
      | some failure => .error failure
      | none => .ok (extent (statementsIn blocks stream.image)) := by
  have hcut : extent (statementsIn blocks stream.image) ≤ stream.image.length :=
    extent_tiles_le (DataBlock.covers blocks) 0 stream.image
  have hboundary : lastBoundary (DataBlock.covers blocks) 0 (stream.ready.take memorySize) =
      extent (statementsIn blocks stream.image) := by
    rw [lastBoundary_eq, Nat.zero_add]
    rfl
  unfold verdict
  simp only [hboundary]
  by_cases hroom : stream.ready.length < memorySize
  · rw [stopping?_of_length_lt hroom, if_pos hroom]
    cases stream.failure? with
    | some text => rfl
    | none =>
      by_cases hwhole : extent (statementsIn blocks stream.image) = stream.ready.length
      · simp only [hwhole, if_true]
      · simp only [if_neg hwhole]
  · have hlength : stream.image.length = memorySize :=
      List.length_take_of_le (Nat.le_of_not_lt hroom)
    rw [stopping?_of_le_length (Nat.le_of_not_lt hroom), if_neg hroom]
    by_cases hwhole : extent (statementsIn blocks stream.image) = memorySize
    · rw [if_pos hwhole, if_neg (by omega), hwhole]
      cases stream.failure? with
      | none => rfl
      | some text =>
        by_cases hexact : stream.ready.length = memorySize
        · simp only [if_pos hexact]
        · simp only [if_neg hexact]
    · rw [if_neg hwhole, if_pos (by omega)]

/-- The outcome of a sweep is the verdict on its stream. -/
theorem result_eq_verdict (stream : ByteStream) (blocks : List DataBlock) :
    (linearSweep stream blocks).result =
      (verdict blocks stream.ready stream.failure?).map fun stop =>
        { map := (Disassembly.ofStatements blocks (statementsIn blocks stream.image)).map
          stop := stop } := by
  rw [result_eq_cut, verdict_eq]
  cases (Sweep.start stream blocks).stopping? (statementsIn blocks stream.image) with
  | none => rfl
  | some failure => rfl

/-- How bytes are cut into pieces does not matter to a sweep. -/
theorem result_eq_of_dataOnly {stream : ByteStream} (h : stream.DataOnly)
    (blocks : List DataBlock) :
    (linearSweep stream blocks).result = (linearSweep (.ofBytes stream.bytes) blocks).result := by
  rw [result_eq_verdict, result_eq_verdict, ByteStream.image, ByteStream.image, h.ready_eq,
    h.failure?_eq, ByteStream.ready_ofBytes, ByteStream.failure?_ofBytes]

/-- The verdict is an overrun exactly if sizes stop fitting before the bytes that memory has room
for are used up, and no failure of the stream comes first. -/
theorem verdict_isOverrun_iff (blocks : List DataBlock) (bytes : List UInt8)
    (failure? : Option String) :
    (∃ failure, verdict blocks bytes failure? = .error failure ∧ failure.isOverrun = true) ↔
      lastBoundary (DataBlock.covers blocks) 0 (bytes.take memorySize) <
          min bytes.length memorySize ∧
        (memorySize ≤ bytes.length ∨ failure? = none) := by
  have hle : lastBoundary (DataBlock.covers blocks) 0 (bytes.take memorySize) ≤
      min bytes.length memorySize := by
    have hcut := extent_tiles_le (DataBlock.covers blocks) 0 (bytes.take memorySize)
    rw [List.length_take] at hcut
    rw [lastBoundary_eq]
    omega
  unfold verdict
  generalize lastBoundary (DataBlock.covers blocks) 0 (bytes.take memorySize) = boundary at hle ⊢
  constructor
  · rintro ⟨failure, hfailure, hoverrun⟩
    simp only at hfailure
    split at hfailure
    · cases failure? with
      | some text =>
        cases hfailure
        exact absurd hoverrun (by simp [Failure.isOverrun])
      | none =>
        simp only at hfailure
        split at hfailure
        · exact absurd hfailure (by simp)
        · exact ⟨by omega, Or.inr rfl⟩
    · split at hfailure
      · exact ⟨by omega, Or.inl (by omega)⟩
      · cases failure? with
        | none => exact absurd hfailure (by simp)
        | some text =>
          simp only at hfailure
          split at hfailure
          · cases hfailure
            exact absurd hoverrun (by simp [Failure.isOverrun])
          · exact absurd hfailure (by simp)
  · rintro ⟨hboundary, hevent⟩
    by_cases hroom : bytes.length < memorySize
    · have hnone : failure? = none := hevent.resolve_left (by omega)
      have hne : boundary ≠ bytes.length := by omega
      subst hnone
      exact ⟨.cutShort (UInt16.ofNat boundary), by simp only [if_pos hroom, if_neg hne], rfl⟩
    · have hlt : boundary < memorySize := by omega
      exact ⟨.pastMemory (UInt16.ofNat boundary), by simp only [if_neg hroom, if_pos hlt], rfl⟩

/-- **The outcome of a sweep on every stream.**  Where the sizes of statements lead decides between
success and an overrun, the stream's own failure is met only before memory is full or exactly there,
and what is found depends on nothing but the blocks and the bytes that memory has room for. -/
theorem result_linearSweep (stream : ByteStream) (blocks : List DataBlock) :
    (linearSweep stream blocks).result =
        (verdict blocks stream.ready stream.failure?).map (fun stop =>
          { map := (DataBlock.applyAll blocks .blank).enterAll
              (addressed 0 (statementsIn blocks (stream.ready.take memorySize)))
            stop := stop }) ∧
      ((∃ failure, (linearSweep stream blocks).result = .error failure ∧
          failure.isOverrun = true) ↔
        lastBoundary (DataBlock.covers blocks) 0 (stream.ready.take memorySize) <
            min stream.ready.length memorySize ∧
          (memorySize ≤ stream.ready.length ∨ stream.failure? = none)) := by
  have hresult := result_eq_verdict stream blocks
  refine ⟨hresult, ?_⟩
  rw [hresult, ← verdict_isOverrun_iff]
  cases verdict blocks stream.ready stream.failure? with
  | error failure =>
    constructor
    · rintro ⟨same, hsame, hoverrun⟩
      cases hsame
      exact ⟨failure, rfl, hoverrun⟩
    · rintro ⟨same, hsame, hoverrun⟩
      cases hsame
      exact ⟨failure, rfl, hoverrun⟩
  | ok stop =>
    constructor
    · rintro ⟨failure, hfailure, -⟩
      exact absurd hfailure (by simp [Except.map])
    · rintro ⟨failure, hfailure, -⟩
      exact absurd hfailure (by simp)

end Disassembler8080
