/-
# What a sweep knows on the way

The results about sweeps speak of what is there at the end.  Behind them stands what holds after
every step: the statements found so far stand in a row that ends where the next byte will be
fetched, each is the one that the blocks and the bytes ask for, and the marks are those of the
statements and the blocks, with nothing more.

A step reads the map, to see whether the byte is forced, and then writes to it twice: the reference,
which may be to any address, the one under way included, and the statement.  Neither write touches
what a later step reads, which is why the forced addresses stay those of the blocks.

Main statements:

* `Sweep.step_cases`: all that a step can do.
* `Sweep.Took.push`: what a step preserves.
* `Sweep.Took.of_steps`: what any number of steps preserves.
* `Sweep.knows_on_the_way`: what a sweep knows after each step, and that it comes to an end.
-/
import Disassembler8080.Proofs.Coverage

namespace Disassembler8080

open Tiling

/-! ## 1. What a statement should be -/

/-- Whether a statement at an address is what data blocks and the bytes in memory ask for.  It is
the byte there if a block contains the address or the byte begins no documented instruction, and
otherwise the instruction of that byte with the bytes behind it as its operand, the low one
first. -/
def Statement.Reads (blocks : List DataBlock) (bytes : List UInt8) (address : Address) :
    Statement → Prop
  | .data value =>
    bytes[address.toNat]? = some value ∧
      ((∃ block ∈ blocks, block.contains address = true) ∨
        InstructionForm.ofOpcode? value = none)
  | .instruction form operand =>
    (∃ opcode, bytes[address.toNat]? = some opcode ∧
      (¬ ∃ block ∈ blocks, block.contains address = true) ∧
      InstructionForm.ofOpcode? opcode = some form) ∧
    match form.width with
    | .none => operand = .none
    | .byte => ∃ value, bytes[address.toNat + 1]? = some value ∧ operand = .byte value
    | .word => ∃ low high target, bytes[address.toNat + 1]? = some low ∧
        bytes[address.toNat + 2]? = some high ∧
        (target : Address).toNat = low.toNat + 256 * high.toNat ∧ operand = .word target

/-- A well-formed statement that suits its address and encodes the bytes there is what is asked
for. -/
theorem Statement.reads_of_encode {blocks : List DataBlock} {bytes : List UInt8}
    {address : Address} {statement : Statement} (hwell : statement.WellFormed)
    (hsuits : statement.Suits (DataBlock.covers blocks address))
    (hencode : statement.encode <+: bytes.drop address.toNat) :
    statement.Reads blocks bytes address := by
  have hbyte : ∀ offset value, statement.encode[offset]? = some value →
      bytes[address.toNat + offset]? = some value := by
    intro offset value hvalue
    obtain ⟨rest, hrest⟩ := hencode
    obtain ⟨hlt, -⟩ := List.getElem?_eq_some_iff.mp hvalue
    rw [← List.getElem?_drop, ← hrest, List.getElem?_append_left hlt, hvalue]
  cases statement with
  | data value =>
    refine ⟨hbyte 0 value rfl, hsuits.imp_left fun hcovers => ?_⟩
    exact List.any_eq_true.mp hcovers
  | instruction form operand =>
    obtain ⟨hform, hwidth⟩ := hwell
    refine ⟨⟨form.opcode, hbyte 0 _ rfl, ?_, hform⟩, ?_⟩
    · rw [← List.any_eq_true]
      exact Bool.eq_false_iff.mp hsuits
    · rw [← hwidth]
      cases operand with
      | none => rfl
      | byte value => exact ⟨value, hbyte 1 value rfl, rfl⟩
      | word target =>
        have hjoined : Operand.wordOfBytes target.toUInt8 (target >>> 8).toUInt8 = target :=
          Operand.wordOfBytes_of_encode rfl
        have hword := Operand.toNat_wordOfBytes target.toUInt8 (target >>> 8).toUInt8
        rw [hjoined] at hword
        exact ⟨_, _, target, hbyte 1 _ rfl, hbyte 2 _ rfl, by omega, rfl⟩

/-! ## 2. What a map should hold -/

/-- What the map of a sweep should hold, of a stream and with data blocks, when the next byte will
be fetched at a position. -/
structure Knows (stream : ByteStream) (blocks : List DataBlock) (map : MemoryMap)
    (position : Nat) : Prop where
  position_le : position ≤ memorySize
  /-- The statements stand in a row from address 0 on, each where the one before it ends, and the
  last one ends at the position. -/
  row : ∃ statements, map.statements.toList = addressed 0 statements ∧ extent statements = position
  /-- None starts at the position or behind it, or reaches beyond it. -/
  within : ∀ address statement, (map.location address).statement = some statement →
    address.toNat + statement.size ≤ position
  /-- None starts inside another one. -/
  apart : ∀ address statement, (map.location address).statement = some statement →
    ∀ other : Address, address.toNat < other.toNat → other.toNat < address.toNat + statement.size →
      (map.location other).statement = none
  reads : ∀ address statement, (map.location address).statement = some statement →
    statement.Reads blocks stream.image address
  /-- Referenced are the targets of the statements and the addresses where decoding resumes. -/
  referenced_iff : ∀ address, (map.location address).referenced = true ↔
    (∃ place statement, (map.location place).statement = some statement ∧
      statement.target? = some address) ∨
    ∃ block ∈ blocks, block.resume? = some address
  forced_iff : ∀ address, (map.location address).forced = true ↔
    ∃ block ∈ blocks, block.contains address = true
  labelled_eq : ∀ address, (map.location address).labelled = false

theorem Tiling.not_mem_addressed_inside {statements : List Statement} {place other : Address}
    {statement inner : Statement} (hroom : extent statements ≤ memorySize)
    (hmem : (place, statement) ∈ addressed 0 statements) (hlt : place.toNat < other.toNat)
    (hend : other.toNat < place.toNat + statement.size) :
    (other, inner) ∉ addressed 0 statements := by
  obtain ⟨before, after, rfl, hplace⟩ := (mem_addressed_zero_iff hroom).mp hmem
  rw [extent_append, extent_cons] at hroom
  rw [addressed_append, addressed, List.mem_append, List.mem_cons]
  rintro (hbefore | hself | hafter)
  · have hbounds := bounds_of_mem_addressed (by omega) hbefore
    have hsize := inner.size_pos
    omega
  · cases hself
    rw [UInt16.toNat_ofNat'] at hlt hend
    omega
  · have hbounds := bounds_of_mem_addressed (by omega) hafter
    omega

/-- A row of fitting statements whose encoding begins the image of a stream is what the map should
hold. -/
theorem knows_ofStatements {stream : ByteStream} {blocks : List DataBlock}
    {statements : List Statement} (hfitting : Fitting (DataBlock.covers blocks) 0 statements)
    (hencode : statements.flatMap Statement.encode <+: stream.image) :
    Knows stream blocks (Disassembly.ofStatements blocks statements).map (extent statements) := by
  have hroom : extent statements ≤ memorySize := by
    rw [← length_flatMap_encode hfitting]
    exact hencode.length_le.trans (List.length_take_le _ _)
  have hzero : 0 + extent statements ≤ memorySize := by omega
  constructor
  · exact hroom
  · exact ⟨statements, Disassembly.toList_ofStatements hroom, rfl⟩
  · intro address statement hstatement
    rw [Disassembly.statement_ofStatements_iff hroom] at hstatement
    have hbounds := bounds_of_mem_addressed hzero hstatement
    omega
  · intro address statement hstatement other hlt hend
    rw [Disassembly.statement_ofStatements_iff hroom] at hstatement
    refine Option.eq_none_iff_forall_ne_some.mpr fun inner hinner => ?_
    rw [Disassembly.statement_ofStatements_iff hroom] at hinner
    exact not_mem_addressed_inside hroom hstatement hlt hend hinner
  · intro address statement hstatement
    rw [Disassembly.statement_ofStatements_iff hroom] at hstatement
    obtain ⟨hwell, hsuits⟩ := hfitting _ hstatement
    refine Statement.reads_of_encode hwell hsuits ?_
    obtain ⟨before, after, rfl, hplace⟩ := (mem_addressed_zero_iff hroom).mp hstatement
    obtain ⟨rest, hrest⟩ := hencode
    have hle : extent before ≤
        ((before ++ statement :: after).flatMap Statement.encode).length := by
      rw [length_flatMap_encode hfitting, extent_append]
      exact Nat.le_add_right _ _
    rw [hplace, ← hrest, List.drop_append_of_le_length hle, drop_flatMap_encode hfitting,
      List.flatMap_cons, List.append_assoc]
    exact List.prefix_append _ _
  · intro address
    rw [Disassembly.referenced_ofStatements_iff]
    refine or_congr_left ?_
    simp only [Disassembly.statement_ofStatements_iff hroom]
    constructor
    · rintro ⟨statement, hmem, htarget⟩
      obtain ⟨⟨place, _⟩, hentry, rfl⟩ := (mem_iff_exists_addressed 0).mp hmem
      exact ⟨place, _, hentry, htarget⟩
    · rintro ⟨place, statement, hentry, htarget⟩
      exact ⟨statement, snd_mem_of_mem_addressed hentry, htarget⟩
  · intro address
    rw [Disassembly.forced_ofStatements]
    exact List.any_eq_true
  · exact Disassembly.labelled_ofStatements

namespace Sweep

/-! ## 3. Steps -/

/-- **All that a step can do**: record the statement in front of the window, with the fetch moved on
behind it, or end the sweep in one way or the other and leave the map alone. -/
theorem step_cases (sweep : Sweep) :
    (∃ statement later,
      Statement.front? (sweep.map.location (UInt16.ofNat sweep.fetch.position)).forced
        sweep.fetch.window = some statement ∧
      Fetch.Ahead sweep.fetch statement.size later ∧
      sweep.step = .proceed (sweep.record (UInt16.ofNat sweep.fetch.position) statement later)) ∨
    (∃ last, sweep.step = .finish last ∧ last.map = sweep.map ∧
      last.fetch.position = sweep.fetch.position) ∨
    ∃ failure last, sweep.step = .fail failure last ∧ last.map = sweep.map := by
  cases hfront : Statement.front?
      (sweep.map.location (UInt16.ofNat sweep.fetch.position)).forced sweep.fetch.window with
  | some statement =>
    obtain ⟨later, hstep, hahead⟩ := step_of_front?_some rfl hfront
    exact Or.inl ⟨statement, later, rfl, hahead, hstep⟩
  | none =>
    cases hwindow : sweep.fetch.window with
    | nil =>
      obtain ⟨last, hmap, hposition, hstep⟩ := step_of_window_nil hwindow
      cases hending : sweep.fetch.ending? with
      | none =>
        rw [hending] at hstep
        exact Or.inr (Or.inl ⟨last, hstep, hmap, hposition⟩)
      | some failure =>
        rw [hending] at hstep
        exact Or.inr (Or.inr ⟨failure, last, hstep, hmap⟩)
    | cons first rest =>
      rw [hwindow] at hfront
      obtain ⟨last, hstep, hmap⟩ := step_of_front?_none rfl hwindow hfront
      exact Or.inr (Or.inr ⟨_, last, hstep, hmap⟩)

/-- What a sweep has done that has taken a row of statements since its start. -/
structure Took (stream : ByteStream) (blocks : List DataBlock) (statements : List Statement)
    (sweep : Sweep) : Prop where
  map_eq : sweep.map = (Disassembly.ofStatements blocks statements).map
  ahead : Fetch.Ahead (start stream blocks).fetch (extent statements) sweep.fetch
  fitting : Fitting (DataBlock.covers blocks) 0 statements
  encode_prefix : statements.flatMap Statement.encode <+: stream.image

namespace Took

variable {stream : ByteStream} {blocks : List DataBlock} {statements : List Statement}
  {sweep next : Sweep}

theorem nil (stream : ByteStream) (blocks : List DataBlock) :
    Took stream blocks [] (start stream blocks) where
  map_eq := rfl
  ahead := .refl _
  fitting := fitting_nil
  encode_prefix := List.nil_prefix

theorem position_eq (h : Took stream blocks statements sweep) :
    sweep.fetch.position = extent statements :=
  h.ahead.position_eq.trans (Nat.zero_add _)

/-- What is still to be taken is the image of the stream behind the statements. -/
theorem window_eq (h : Took stream blocks statements sweep) :
    sweep.fetch.window = stream.image.drop (extent statements) :=
  h.ahead.window_eq

theorem knows (h : Took stream blocks statements sweep) :
    Knows stream blocks sweep.map sweep.fetch.position := by
  rw [h.map_eq, h.position_eq]
  exact knows_ofStatements h.fitting h.encode_prefix

/-- **What a step preserves**: the statement that it records goes to the end of the row. -/
theorem push (h : Took stream blocks statements sweep) (hstep : sweep.step = .proceed next) :
    ∃ statement, Took stream blocks (statements ++ [statement]) next := by
  rcases step_cases sweep with
    ⟨statement, later, hfront, hahead, hrecord⟩ | ⟨last, hfinish, -⟩ | ⟨failure, last, hfail, -⟩
  · rw [hrecord, Step.proceed.injEq] at hstep
    subst hstep
    rw [h.position_eq, h.map_eq, Disassembly.forced_ofStatements, h.window_eq] at hfront
    obtain ⟨hwell, hsuits, hencode⟩ := (Statement.front?_eq_some_iff _ _ _).mp hfront
    refine ⟨statement, ?_, ?_, ?_, ?_⟩
    · change MemoryMap.enter sweep.map (UInt16.ofNat sweep.fetch.position, statement) = _
      rw [h.map_eq, h.position_eq]
      simp only [Disassembly.ofStatements, MemoryMap.enterAll, addressed_append, Nat.zero_add,
        List.foldl_append]
      rfl
    · have hahead' := h.ahead.trans hahead
      rwa [extent_append, extent_cons, extent_nil, Nat.add_zero]
    · intro entry hentry
      rw [addressed_append, List.mem_append, Nat.zero_add] at hentry
      rcases hentry with hentry | hentry
      · exact h.fitting entry hentry
      · cases List.mem_singleton.mp hentry
        exact ⟨hwell, hsuits⟩
    · obtain ⟨rest, hrest⟩ := h.encode_prefix
      rw [← length_flatMap_encode h.fitting, ← hrest, List.drop_left] at hencode
      rw [List.flatMap_append, List.flatMap_singleton, ← hrest]
      exact (List.prefix_append_right_inj _).mpr hencode
  · rw [hfinish] at hstep
    exact absurd hstep (by simp)
  · rw [hfail] at hstep
    exact absurd hstep (by simp)

end Took

/-! ## 4. Runs -/

/-- A sweep that is a number of steps further on, each of which has decoded a statement. -/
inductive Steps (sweep : Sweep) : Nat → Sweep → Prop where
  | none : Steps sweep 0 sweep
  | more {count : Nat} {later next : Sweep} (steps : Steps sweep count later)
      (step : later.step = .proceed next) : Steps sweep (count + 1) next

theorem Steps.cons {sweep next last : Sweep} {count : Nat} (hstep : sweep.step = .proceed next)
    (h : Steps next count last) : Steps sweep (count + 1) last := by
  induction h with
  | none => exact .more .none hstep
  | more _ step ih => exact .more ih step

theorem Steps.le_position {sweep later : Sweep} {count : Nat} (h : Steps sweep count later) :
    sweep.fetch.position + count ≤ later.fetch.position := by
  induction h with
  | none => exact Nat.le_refl _
  | more _ step ih =>
    have hlt := position_lt_of_step step
    omega

/-- **What any number of steps preserves.** -/
theorem Took.of_steps {stream : ByteStream} {blocks : List DataBlock} {sweep : Sweep} {count : Nat}
    (h : Steps (start stream blocks) count sweep) :
    ∃ statements, statements.length = count ∧ Took stream blocks statements sweep := by
  induction h with
  | none => exact ⟨[], rfl, .nil stream blocks⟩
  | more _ step ih =>
    obtain ⟨statements, hlength, htook⟩ := ih
    obtain ⟨statement, hpush⟩ := htook.push step
    exact ⟨statements ++ [statement], by rw [List.length_append, hlength]; rfl, hpush⟩

/-- A sweep that goes no further, with what its last step makes of it. -/
inductive Ends (sweep : Sweep) : Ending → Prop where
  | finish {last : Sweep} (step : sweep.step = .finish last) : Ends sweep ⟨none, last⟩
  | fail {failure : Failure} {last : Sweep} (step : sweep.step = .fail failure last) :
    Ends sweep ⟨some failure, last⟩

/-- A run is a number of steps and then one that ends the sweep. -/
theorem exists_steps_of_run (sweep : Sweep) :
    ∃ count last, Steps sweep count last ∧ Ends last sweep.run := by
  induction sweep using run.induct with
  | case1 sweep next hstep ih =>
    obtain ⟨count, last, hsteps, hends⟩ := ih
    rw [run_of_proceed hstep]
    exact ⟨count + 1, last, hsteps.cons hstep, hends⟩
  | case2 sweep last hstep =>
    rw [run_of_finish hstep]
    exact ⟨0, sweep, .none, .finish hstep⟩
  | case3 sweep failure last hstep =>
    rw [run_of_fail hstep]
    exact ⟨0, sweep, .none, .fail hstep⟩

/-- A disassembly is what the last step of its sweep has left. -/
theorem exists_steps_of_result {stream : ByteStream} {blocks : List DataBlock}
    {disassembly : Disassembly} (h : (linearSweep stream blocks).result = .ok disassembly) :
    ∃ count sweep, Steps (start stream blocks) count sweep ∧ disassembly.map = sweep.map ∧
      disassembly.stop = sweep.fetch.position := by
  obtain ⟨count, sweep, hsteps, hends⟩ := exists_steps_of_run (start stream blocks)
  unfold linearSweep at h
  generalize (start stream blocks).run = ending at h hends
  cases hends with
  | fail hstep => exact absurd h (by simp)
  | finish hstep =>
    cases h
    rcases step_cases sweep with
      ⟨statement, later, -, -, hrecord⟩ | ⟨last, hfinish, hmap, hposition⟩ | ⟨_, _, hfail, -⟩
    · exact absurd (hrecord.symm.trans hstep) (by simp)
    · rw [hfinish, Step.finish.injEq] at hstep
      subst hstep
      exact ⟨count, sweep, hsteps, hmap, hposition⟩
    · exact absurd (hfail.symm.trans hstep) (by simp)

/-- **What a sweep knows on the way.**  After every step the statements found so far tile the
addresses up to the position, each is what the blocks and the bytes ask for, and the marks are those
of the statements and of the blocks.  Each step moves the position on, so the sweep comes to an end
after no more steps than memory has bytes.  What it returns is known in the same way. -/
theorem knows_on_the_way (stream : ByteStream) (blocks : List DataBlock) :
    (∀ count sweep, Steps (start stream blocks) count sweep →
      Knows stream blocks sweep.map sweep.fetch.position ∧ count ≤ sweep.fetch.position ∧
        ∀ next, sweep.step = .proceed next → sweep.fetch.position < next.fetch.position) ∧
    (∃ count last, count ≤ memorySize ∧ Steps (start stream blocks) count last ∧
      Ends last (start stream blocks).run) ∧
    ∀ disassembly, (linearSweep stream blocks).result = .ok disassembly →
      Knows stream blocks disassembly.map disassembly.stop := by
  have hknows : ∀ count sweep, Steps (start stream blocks) count sweep →
      Knows stream blocks sweep.map sweep.fetch.position := by
    intro count sweep hsteps
    obtain ⟨statements, -, htook⟩ := Took.of_steps hsteps
    exact htook.knows
  have hcount : ∀ count sweep, Steps (start stream blocks) count sweep →
      count ≤ sweep.fetch.position := by
    intro count sweep hsteps
    exact Nat.le_of_add_left_le hsteps.le_position
  refine ⟨?_, ?_, ?_⟩
  · intro count sweep hsteps
    exact ⟨hknows count sweep hsteps, hcount count sweep hsteps,
      fun next hstep => (position_lt_of_step hstep).1⟩
  · obtain ⟨count, last, hsteps, hends⟩ := exists_steps_of_run (start stream blocks)
    have hle := (hknows count last hsteps).position_le
    exact ⟨count, last, (hcount count last hsteps).trans hle, hsteps, hends⟩
  · intro disassembly hresult
    obtain ⟨count, sweep, hsteps, hmap, hstop⟩ := exists_steps_of_result hresult
    rw [hmap, hstop]
    exact hknows count sweep hsteps

/-- One step into a program whose first statement refers to itself, with a byte of data that is
forced behind it. -/
theorem knows_on_the_way_of_loop :
    let stream : ByteStream := [.data [0xc3, 0x00], .data [0x00, 0x76]]
    let blocks : List DataBlock := [⟨3, 1, by decide, by decide⟩]
    ∃ sweep, Steps (start stream blocks) 1 sweep ∧ sweep.fetch.position = 3 ∧
      Knows stream blocks sweep.map 3 ∧
      sweep.map.location 0 =
        { statement := some (.instruction ⟨0xc3, "jmp", "", .word⟩ (.word 0))
          referenced := true } := by
  intro stream blocks
  have hfront : Statement.front? ((start stream blocks).map.location 0).forced
      (start stream blocks).fetch.window =
        some (.instruction ⟨0xc3, "jmp", "", .word⟩ (.word 0)) := by
    decide
  obtain ⟨later, hstep, hahead⟩ := step_of_front?_some rfl hfront
  have hsteps := Steps.more .none hstep
  have hknows := ((knows_on_the_way stream blocks).1 1 _ hsteps).1
  have hposition : later.position = 3 := hahead.position_eq
  refine ⟨_, hsteps, hposition, ?_, ?_⟩
  · rw [← hposition]
    exact hknows
  · rw [location_record]
    decide

end Sweep

end Disassembler8080
