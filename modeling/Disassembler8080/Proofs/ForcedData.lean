/-
# How far forced bytes stay data

A data block is meant to be kept out of decoding: each of its bytes one unit of data, and a
statement right behind it.  A sweep looks at the mark of an address only where a statement starts,
so it keeps to that inside a block, but an instruction in front of a block may take its first bytes
as operands.

Blocks that overlap or touch act as one, so what counts is the first address of each row of forced
addresses.  Where a statement starts there, everything that is asked of the row holds: the statement
is a byte of data, so the next one starts at the next address, and so on to the end of the row.

Main statements:

* `keepsData_iff`: when a sweep keeps to the blocks, and what has happened where it does not.
* `jump_takes_forced_operand`: a jump in front of a block that it does not keep to.
-/
import Disassembler8080.Proofs.Coverage

namespace Disassembler8080

open Tiling

/-! ## 1. What is asked of data blocks -/

/-- What data blocks ask of a disassembly of bytes: every address of a block starts a byte of data,
that of the input, and a statement starts where decoding resumes behind a block with any bytes in
it.  Only what lies below the stop counts. -/
structure KeepsData (blocks : List DataBlock) (bytes : List UInt8) (disassembly : Disassembly) :
    Prop where
  data_of_covers : ∀ address, DataBlock.covers blocks address = true →
    address.toNat < disassembly.stop →
      ∃ value, bytes[address.toNat]? = some value ∧
        (address, .data value) ∈ disassembly.statements
  startsAt_of_resume : ∀ block ∈ blocks, 0 < block.count.toNat → ∀ address,
    block.resume? = some address → address.toNat < disassembly.stop →
      disassembly.StartsAt address

/-- Whether a row of forced addresses begins at an address: it is forced, and the one in front of it
is not. -/
def DataBlock.Opens (blocks : List DataBlock) (address : Address) : Prop :=
  covers blocks address = true ∧
    ∀ before : Address, before.toNat + 1 = address.toNat → covers blocks before = false

/-- The end of a block with any bytes in it comes behind a forced address. -/
theorem DataBlock.exists_covers_of_resume {blocks : List DataBlock} {block : DataBlock}
    (hblock : block ∈ blocks) (hcount : 0 < block.count.toNat) {address : Address}
    (hresume : block.resume? = some address) :
    ∃ last : Address, last.toNat + 1 = address.toNat ∧ covers blocks last = true := by
  rw [resume?_eq_some_iff] at hresume
  have hlt := address.toNat_lt
  have hlast : (UInt16.ofNat (address.toNat - 1)).toNat = address.toNat - 1 :=
    UInt16.toNat_ofNat_of_lt' (by simp only [UInt16.size]; omega)
  refine ⟨UInt16.ofNat (address.toNat - 1), by omega, ?_⟩
  rw [covers, List.any_eq_true]
  exact ⟨block, hblock, (contains_iff _ _).mpr (by omega)⟩

/-! ## 2. Statements at forced addresses -/

variable {stream : ByteStream} {blocks : List DataBlock} {disassembly : Disassembly}
  {address place : Address} {statement : Statement}

/-- **A statement at a forced address is the byte of data there.** -/
theorem eq_data_of_covers (h : (linearSweep stream blocks).result = .ok disassembly)
    (hmem : (place, statement) ∈ disassembly.statements)
    (hcovers : DataBlock.covers blocks place = true) :
    ∃ value, stream.bytes[place.toNat]? = some value ∧ statement = .data value := by
  have hsuits := suits_of_mem h hmem
  have hencode := encode_prefix_of_mem h hmem
  cases statement with
  | instruction form operand => exact absurd hsuits (by simp [Statement.Suits, hcovers])
  | data value =>
    obtain ⟨rest, hrest⟩ := hencode
    refine ⟨value, ?_, rfl⟩
    rw [← Nat.add_zero place.toNat, ← List.getElem?_drop, ← hrest]
    rfl

theorem size_eq_one_of_covers (h : (linearSweep stream blocks).result = .ok disassembly)
    (hmem : (place, statement) ∈ disassembly.statements)
    (hcovers : DataBlock.covers blocks place = true) : statement.size = 1 := by
  obtain ⟨value, -, rfl⟩ := eq_data_of_covers h hmem hcovers
  rfl

/-- Behind a forced address where a statement starts, another one starts. -/
theorem startsAt_behind_forced (h : (linearSweep stream blocks).result = .ok disassembly)
    (hstarts : disassembly.StartsAt place) (hcovers : DataBlock.covers blocks place = true)
    (hnext : place.toNat + 1 = address.toNat) (hstop : address.toNat < disassembly.stop) :
    disassembly.StartsAt address := by
  obtain ⟨statement, hmem⟩ := hstarts
  refine startsAt_of_next h hmem ?_ hstop
  rw [size_eq_one_of_covers h hmem hcovers, hnext]

/-- What covers an address without starting there takes more than a byte, so it is an instruction
at an address that is not forced. -/
theorem instruction_of_covering (h : (linearSweep stream blocks).result = .ok disassembly)
    (hmem : (place, statement) ∈ disassembly.statements) (hlt : place.toNat < address.toNat)
    (hend : address.toNat < place.toNat + statement.size) :
    (∃ form operand, statement = .instruction form operand) ∧
      DataBlock.covers blocks place = false := by
  have hforced : DataBlock.covers blocks place = false := by
    cases hcovers : DataBlock.covers blocks place with
    | false => rfl
    | true =>
      have hone := size_eq_one_of_covers h hmem hcovers
      omega
  refine ⟨?_, hforced⟩
  cases statement with
  | instruction form operand => exact ⟨form, operand, rfl⟩
  | data value =>
    have hone : (Statement.data value).size = 1 := rfl
    omega

/-- Where a statement starts at the first address of each row of forced addresses, one starts at
each address of the row. -/
theorem startsAt_of_opens (h : (linearSweep stream blocks).result = .ok disassembly)
    (hopens : ∀ address, DataBlock.Opens blocks address → address.toNat < disassembly.stop →
      disassembly.StartsAt address)
    (hcovers : DataBlock.covers blocks address = true) (hstop : address.toNat < disassembly.stop) :
    disassembly.StartsAt address := by
  -- the induction goes back to the first address of the row
  induction hn : address.toNat generalizing address with
  | zero => exact hopens address ⟨hcovers, fun before hbefore => by omega⟩ hstop
  | succ n ih =>
    by_cases hfirst : DataBlock.Opens blocks address
    · exact hopens address hfirst hstop
    · obtain ⟨before, hbefore, hforced⟩ : ∃ before : Address,
          before.toNat + 1 = address.toNat ∧ DataBlock.covers blocks before = true := by
        simpa [DataBlock.Opens, hcovers] using hfirst
      have hstarts := ih hforced (by omega) (by omega)
      exact startsAt_behind_forced h hstarts hforced hbefore hstop

/-! ## 3. When the blocks are kept to -/

/-- **When a sweep keeps to the data blocks.**  It does exactly if a statement starts at the first
address of each row of forced addresses.  In any case a statement at a forced address is the byte of
data there, and a forced address where none starts is an operand byte of an instruction in front of
the row, which takes at most two bytes of it. -/
theorem keepsData_iff {stream : ByteStream} {blocks : List DataBlock} {disassembly : Disassembly}
    (h : (linearSweep stream blocks).result = .ok disassembly) :
    (KeepsData blocks stream.bytes disassembly ↔
      ∀ address, DataBlock.Opens blocks address → address.toNat < disassembly.stop →
        disassembly.StartsAt address) ∧
    (∀ place statement, (place, statement) ∈ disassembly.statements →
      DataBlock.covers blocks place = true →
        ∃ value, stream.bytes[place.toNat]? = some value ∧ statement = .data value) ∧
    (∀ address, DataBlock.covers blocks address = true → address.toNat < disassembly.stop →
      ¬ disassembly.StartsAt address →
        ∃ place form operand, (place, .instruction form operand) ∈ disassembly.statements ∧
          DataBlock.covers blocks place = false ∧ place.toNat < address.toNat ∧
          address.toNat < place.toNat + form.size ∧ address.toNat ≤ place.toNat + 2) := by
  refine ⟨⟨?_, ?_⟩, fun place statement hmem hcovers => eq_data_of_covers h hmem hcovers, ?_⟩
  · intro hkeeps address hopens hstop
    obtain ⟨value, -, hmem⟩ := hkeeps.data_of_covers address hopens.1 hstop
    exact ⟨.data value, hmem⟩
  · intro hopens
    constructor
    · intro address hcovers hstop
      obtain ⟨statement, hmem⟩ := startsAt_of_opens h hopens hcovers hstop
      obtain ⟨value, hvalue, rfl⟩ := eq_data_of_covers h hmem hcovers
      exact ⟨value, hvalue, hmem⟩
    · intro block hblock hcount address hresume hstop
      obtain ⟨last, hlast, hcovers⟩ := DataBlock.exists_covers_of_resume hblock hcount hresume
      have hstarts := startsAt_of_opens h hopens hcovers (by omega)
      exact startsAt_behind_forced h hstarts hcovers hlast hstop
  · intro address hcovers hstop hnone
    obtain ⟨place, statement, hmem, hle, hend⟩ := exists_covering h hstop
    rcases Nat.eq_or_lt_of_le hle with heq | hlt
    · rw [UInt16.toNat_inj] at heq
      exact absurd (heq ▸ ⟨statement, hmem⟩) hnone
    · obtain ⟨⟨form, operand, rfl⟩, hforced⟩ := instruction_of_covering h hmem hlt hend
      have hsize := (Statement.instruction form operand).size_le
      exact ⟨place, form, operand, hmem, hforced, hlt, hend, by omega⟩

/-- Two bytes of data behind an instruction that ends in front of them, the first of which would be
a jump. -/
theorem keepsData_iff_of_even_program :
    let bytes := [0x3e, 0x05, 0xc3, 0x00, 0x76]
    let blocks : List DataBlock := [⟨2, 2, by decide, by decide⟩]
    ∃ disassembly, (linearSweep (.ofBytes bytes) blocks).result = .ok disassembly ∧
      disassembly.stop = 5 ∧ KeepsData blocks (ByteStream.ofBytes bytes).bytes disassembly := by
  intro bytes blocks
  let units : List Statement :=
    [.instruction ⟨0x3e, "mvi", "a,", .byte⟩ (.byte 5), .data 0xc3, .data 0x00,
      .instruction ⟨0x76, "hlt", "", .none⟩ .none]
  have hfitting : Fitting (DataBlock.covers blocks) 0 units :=
    fitting_of_wellFormed (by decide) (by decide)
  have hresult : (linearSweep (.ofBytes bytes) blocks).result = .ok (.ofStatements blocks units) :=
    result_of_fitting hfitting (by decide)
  refine ⟨_, hresult, rfl, (keepsData_iff hresult).1.mpr ?_⟩
  rintro address ⟨hcovers, hfirst⟩ -
  -- the row of forced addresses begins at 2, where the first byte of data stands
  have haddress : address = 2 := by
    simp only [DataBlock.covers, blocks, List.any_cons, List.any_nil, Bool.or_false,
      DataBlock.contains_iff] at hcovers
    have hrow : 2 ≤ address.toNat ∧ address.toNat < 4 := hcovers
    have htwo : address.toNat ≠ 3 := by
      intro hthree
      exact absurd (hfirst 2 (by rw [hthree]; rfl)) (by decide)
    rw [← UInt16.toNat_inj]
    change address.toNat = 2
    omega
  subst haddress
  refine ⟨.data 0xc3, ?_⟩
  rw [Disassembly.statements_ofStatements (by decide)]
  decide

/-- **A jump takes the byte of a block behind it as its operand.**  The byte at address 1 is forced
to be data and decoding should resume at address 2, but the jump at address 0 takes both. -/
theorem jump_takes_forced_operand :
    let bytes := [0xc3, 0x00, 0x00]
    let blocks : List DataBlock := [⟨1, 1, by decide, by decide⟩]
    ∃ disassembly, (linearSweep (.ofBytes bytes) blocks).result = .ok disassembly ∧
      disassembly.statements = [(0, .instruction ⟨0xc3, "jmp", "", .word⟩ (.word 0))] ∧
      disassembly.stop = 3 ∧
      (DataBlock.covers blocks 1 = true ∧ ¬ disassembly.StartsAt 1) ∧
      ((∃ block ∈ blocks, 0 < block.count.toNat ∧ block.resume? = some 2) ∧
        ¬ disassembly.StartsAt 2) ∧
      ¬ KeepsData blocks (ByteStream.ofBytes bytes).bytes disassembly := by
  intro bytes blocks
  let units : List Statement := [.instruction ⟨0xc3, "jmp", "", .word⟩ (.word 0)]
  have hfitting : Fitting (DataBlock.covers blocks) 0 units :=
    fitting_of_wellFormed (by decide) (by decide)
  have hresult : (linearSweep (.ofBytes bytes) blocks).result = .ok (.ofStatements blocks units) :=
    result_of_fitting hfitting (by decide)
  have hunits : (Disassembly.ofStatements blocks units).statements = addressed 0 units :=
    Disassembly.statements_ofStatements (by decide)
  have hstarts : ∀ address, (Disassembly.ofStatements blocks units).StartsAt address →
      address = 0 := by
    rintro address ⟨statement, hmem⟩
    rw [hunits] at hmem
    exact congrArg Prod.fst (List.mem_singleton.mp hmem)
  have hone : ¬ (Disassembly.ofStatements blocks units).StartsAt 1 :=
    fun hat => absurd (hstarts 1 hat) (by decide)
  have htwo : ¬ (Disassembly.ofStatements blocks units).StartsAt 2 :=
    fun hat => absurd (hstarts 2 hat) (by decide)
  refine ⟨_, hresult, hunits, rfl, ⟨by decide, hone⟩, ⟨by decide, htwo⟩, ?_⟩
  intro hkeeps
  obtain ⟨value, -, hmem⟩ := hkeeps.data_of_covers 1 (by decide) (by decide)
  exact hone ⟨_, hmem⟩

end Disassembler8080
