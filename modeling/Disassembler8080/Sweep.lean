/-
# The linear sweep

A sweep decodes a stream from address 0 on, statement after statement.  A byte at a forced address
and a byte that begins no documented instruction become data; any other byte begins the instruction
of its form and is followed by the operand that the form asks for.  Every statement is placed in
the memory map, and the address that it refers to is marked.

A sweep is a state with a `step`, and `run` repeats the step until the input ends, memory is full
or something fails.  Each step takes a byte at least, so there are at most as many as memory has
bytes.

Main statements: `location_record` (what a decoded statement adds to the map),
`position_lt_of_step` (progress) and `run_eq` (one step of a run).
-/
import Disassembler8080.Disassembly
import Disassembler8080.Fetch
import Disassembler8080.LogEvent

namespace Disassembler8080

/-! ## 1. Reading one statement -/

namespace Fetch

/-- What is reported about a request for a first byte: that the input goes on although memory is
full, each time it is noticed. -/
def Leading.events : Leading → List LogEvent
  | .surplus => [.surplusInput]
  | _ => []

/-- Reads the operand of the statement at an address. -/
def readOperand (fetch : Fetch) (statement : Address) :
    OperandWidth → Except Failure Operand × Fetch
  | .none => (.ok .none, fetch)
  | .byte =>
    match fetch.operand statement with
    | (.ok value, rest) => (.ok (.byte value), rest)
    | (.error failure, rest) => (.error failure, rest)
  | .word =>
    match fetch.operand statement with
    | (.error failure, rest) => (.error failure, rest)
    | (.ok low, rest) =>
      match rest.operand statement with
      | (.error failure, rest) => (.error failure, rest)
      | (.ok high, rest) => (.ok (.word (Operand.wordOfBytes low high)), rest)

/-- Reads the rest of the statement that begins with a byte at an address. -/
def readStatement (fetch : Fetch) (forced : Bool) (address : Address) (first : UInt8) :
    Except Failure Statement × Fetch :=
  match forced, InstructionForm.ofOpcode? first with
  | false, some form =>
    match fetch.readOperand address form.width with
    | (.ok operand, rest) => (.ok (.instruction form operand), rest)
    | (.error failure, rest) => (.error failure, rest)
  | _, _ => (.ok (.data first), fetch)

theorem le_position_readOperand (fetch : Fetch) (statement : Address) (width : OperandWidth) :
    fetch.position ≤ (fetch.readOperand statement width).2.position := by
  have hfirst := fetch.le_position_operand statement
  cases width with
  | none => exact Nat.le_refl _
  | byte =>
    simp only [readOperand]
    split <;> simp_all
  | word =>
    simp only [readOperand]
    split
    · simp_all
    · rename_i low rest heq
      have hsecond := rest.le_position_operand statement
      rw [heq] at hfirst
      split <;> rename_i heq' <;> rw [heq'] at hsecond <;> exact Nat.le_trans hfirst hsecond

theorem le_position_readStatement (fetch : Fetch) (forced : Bool) (address : Address)
    (first : UInt8) :
    fetch.position ≤ (fetch.readStatement forced address first).2.position := by
  unfold readStatement
  split
  · rename_i form _
    have h := fetch.le_position_readOperand address form.width
    split <;> simp_all
  · exact Nat.le_refl _

end Fetch

/-! ## 2. Steps -/

/-- A sweep under way: what has been found, what is still to be read, and what has been reported,
the latest event first. -/
structure Sweep where
  map : MemoryMap
  fetch : Fetch
  events : List LogEvent := []

namespace Sweep

/-- What a step leads to. -/
inductive Step where
  /-- A statement was decoded. -/
  | proceed (next : Sweep)
  /-- There is nothing more to decode. -/
  | finish (last : Sweep)
  | fail (failure : Failure) (last : Sweep)

/-- Puts a decoded statement into the map and marks the address that it refers to. -/
def record (sweep : Sweep) (address : Address) (statement : Statement) (rest : Fetch) : Sweep where
  map := (sweep.map.refer? statement.target?).place address statement
  fetch := rest
  events := .decoded address statement :: sweep.events

/-- What recording a statement does to each address: the statement stands at its own, its target is
referenced, and nothing else changes. -/
theorem location_record (sweep : Sweep) (address : Address) (statement : Statement) (rest : Fetch)
    (other : Address) :
    (sweep.record address statement rest).map.location other =
      { sweep.map.location other with
        statement :=
          if address = other then some statement else (sweep.map.location other).statement
        referenced :=
          (sweep.map.location other).referenced || statement.target? == some other } := by
  unfold record
  rw [MemoryMap.location_place]
  cases h : statement.target? with
  | none =>
    simp only [MemoryMap.refer?]
    split <;> simp
  | some target =>
    simp only [MemoryMap.refer?, MemoryMap.location_refer]
    split <;> simp [Bool.or_comm]

/-- Decodes one statement. -/
def step (sweep : Sweep) : Step :=
  match sweep.fetch.leading with
  | (.byte address first, rest) =>
    match rest.readStatement (sweep.map.location address).forced address first with
    | (.ok statement, rest) => .proceed (sweep.record address statement rest)
    | (.error failure, rest) => .fail failure { sweep with fetch := rest }
  | (.ended, rest) => .finish { sweep with fetch := rest }
  | (.surplus, rest) =>
    .finish { sweep with fetch := rest, events := Fetch.Leading.surplus.events ++ sweep.events }
  | (.failed text, rest) => .fail (.inputOutput text) { sweep with fetch := rest }

/-- The bytes that memory still has room for. -/
def room (sweep : Sweep) : Nat := memorySize - sweep.fetch.position

/-- A statement takes a byte at least. -/
theorem position_lt_of_step {sweep next : Sweep} (h : sweep.step = .proceed next) :
    sweep.fetch.position < next.fetch.position ∧ sweep.fetch.position < memorySize := by
  unfold step at h
  split at h
  · rename_i address first rest heq
    have hlead := sweep.fetch.position_leading
    have hroom : sweep.fetch.position < memorySize :=
      Fetch.position_lt_of_leading_byte (congrArg Prod.fst heq)
    rw [heq] at hlead
    have hread := rest.le_position_readStatement (sweep.map.location address).forced address first
    split at h
    · rename_i heq'
      rw [heq'] at hread
      cases h
      simp only [record] at hread hlead ⊢
      omega
    · cases h
  · cases h
  · cases h
  · cases h

theorem room_lt_of_step {sweep next : Sweep} (h : sweep.step = .proceed next) :
    next.room < sweep.room := by
  have := position_lt_of_step h
  simp only [room]
  omega

/-! ## 3. Runs -/

/-- How a sweep ended. -/
structure Ending where
  /-- The failure that stopped the sweep, if there was one. -/
  failure : Option Failure
  last : Sweep

/-- Decodes until nothing is left or something fails. -/
def run (sweep : Sweep) : Ending :=
  match _h : sweep.step with
  | .proceed next => run next
  | .finish last => ⟨none, last⟩
  | .fail failure last => ⟨some failure, last⟩
termination_by sweep.room
decreasing_by exact room_lt_of_step (by assumption)

/-- A run is a step and the run from there on. -/
theorem run_eq (sweep : Sweep) :
    sweep.run =
      match sweep.step with
      | .proceed next => next.run
      | .finish last => ⟨none, last⟩
      | .fail failure last => ⟨some failure, last⟩ := by
  rw [run]
  split <;> simp_all

/-- The sweep of a stream, with all data blocks applied to blank memory and nothing read yet. -/
def start (stream : ByteStream) (blocks : List DataBlock) : Sweep where
  map := blocks.foldl (fun map block => block.apply map) .blank
  fetch := { stream := stream }
  events := (blocks.map LogEvent.forcing).reverse

end Sweep

/-! ## 4. Disassembling -/

/-- A disassembly or the reason why there is none, and what was reported on the way. -/
structure SweepReport where
  result : Except Failure Disassembly
  events : List LogEvent

/-- Decodes a stream from address 0 until it ends or memory is full.  The addresses in the blocks
become data bytes. -/
def linearSweep (stream : ByteStream) (blocks : List DataBlock) : SweepReport :=
  match (Sweep.start stream blocks).run with
  | ⟨some failure, last⟩ => ⟨.error failure, last.events.reverse⟩
  | ⟨none, last⟩ =>
    ⟨.ok ⟨last.map, last.fetch.position⟩,
      (LogEvent.finished last.fetch.position :: last.events).reverse⟩

end Disassembler8080
