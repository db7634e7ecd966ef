/-
# Data blocks act as a union

A list of data blocks says two things about memory: which addresses are forced to be data, and at
which addresses decoding resumes.  Both are unions over the list, since every block only adds marks.
So the order of the blocks, repetitions and overlaps leave no trace, and one list may stand for
another that is cut up quite differently, as long as the two unions are the same.

They have to be: blocks that differ in one of the unions are told apart by the sweep of an empty
input already.

Main statements:

* `DataBlock.applyAll_blank_eq_iff`: when two lists of blocks leave the same marks.
* `blocks_act_as_union`: when two lists of blocks lead to the same results.
-/
import Disassembler8080.Listing.Delivery
import Disassembler8080.Proofs.Outcome

namespace Disassembler8080

variable {first second : List DataBlock}

/-! ## 1. Blocks with the same unions -/

/-- Blocks that ask for the same: they contain the same addresses, and decoding resumes behind them
at the same addresses. -/
structure AskAlike (first second : List DataBlock) : Prop where
  contains_iff : ∀ address, (∃ block ∈ first, block.contains address = true) ↔
    ∃ block ∈ second, block.contains address = true
  resume_iff : ∀ address, (∃ block ∈ first, block.resume? = some address) ↔
    ∃ block ∈ second, block.resume? = some address

/-- Lists with the same blocks in them ask for the same, in whatever order and however often the
blocks stand there. -/
theorem AskAlike.of_mem_iff (h : ∀ block, block ∈ first ↔ block ∈ second) :
    AskAlike first second where
  contains_iff _ := exists_congr fun block => and_congr_left' (h block)
  resume_iff _ := exists_congr fun block => and_congr_left' (h block)

theorem DataBlock.covers_eq_true_iff (blocks : List DataBlock) (address : Address) :
    covers blocks address = true ↔ ∃ block ∈ blocks, block.contains address = true :=
  List.any_eq_true

/-- Blocks that ask for the same cover the same addresses. -/
theorem AskAlike.covers_eq (h : AskAlike first second) :
    DataBlock.covers first = DataBlock.covers second := by
  funext address
  rw [Bool.eq_iff_iff, DataBlock.covers_eq_true_iff, DataBlock.covers_eq_true_iff]
  exact h.contains_iff address

/-- **Blocks leave the same marks exactly if they ask for the same.** -/
theorem DataBlock.applyAll_blank_eq_iff :
    applyAll first .blank = applyAll second .blank ↔ AskAlike first second := by
  have hresume : ∀ (blocks : List DataBlock) (address : Address),
      (blocks.any fun block => block.resume? == some address) = true ↔
        ∃ block ∈ blocks, block.resume? = some address := by
    intro blocks address
    simp only [List.any_eq_true, beq_iff_eq]
  constructor
  · intro heq
    have hlocation : ∀ address, (applyAll first .blank).location address =
        (applyAll second .blank).location address := fun address => by rw [heq]
    simp only [location_applyAll_blank, Location.mk.injEq, true_and] at hlocation
    constructor
    · intro address
      rw [← covers_eq_true_iff, ← covers_eq_true_iff, (hlocation address).2]
    · intro address
      rw [← hresume, ← hresume, (hlocation address).1]
  · intro h
    refine MemoryMap.ext_location fun address => ?_
    have hreferenced : (first.any fun block => block.resume? == some address) =
        second.any fun block => block.resume? == some address := by
      rw [Bool.eq_iff_iff, hresume, hresume]
      exact h.resume_iff address
    rw [location_applyAll_blank, location_applyAll_blank, h.covers_eq, hreferenced]

/-! ## 2. Sweeps and listings -/

/-- Where a memory image is cut depends on the addresses that are covered. -/
theorem statementsIn_congr (h : DataBlock.covers first = DataBlock.covers second)
    (image : List UInt8) : statementsIn first image = statementsIn second image := by
  rw [statementsIn, statementsIn, h]

theorem verdict_congr (h : DataBlock.covers first = DataBlock.covers second) (bytes : List UInt8)
    (failure? : Option String) :
    verdict first bytes failure? = verdict second bytes failure? := by
  simp only [verdict, h]

/-- The result of a sweep depends on what its blocks ask for and not on how they do so. -/
theorem AskAlike.result_eq (h : AskAlike first second) (stream : ByteStream) :
    (linearSweep stream first).result = (linearSweep stream second).result := by
  have hmap : DataBlock.applyAll first .blank = DataBlock.applyAll second .blank :=
    DataBlock.applyAll_blank_eq_iff.mpr h
  rw [result_eq_verdict, result_eq_verdict, verdict_congr h.covers_eq,
    statementsIn_congr h.covers_eq, Disassembly.ofStatements, hmap]
  rfl

/-- Two lists of blocks that make no difference to the disassembling of a stream. -/
structure ActAlike (stream : ByteStream) (first second : List DataBlock) : Prop where
  /-- The same failure, or the same stop and a map with the same location at every address. -/
  result_eq : (linearSweep stream first).result = (linearSweep stream second).result
  listing_eq : ((linearSweep stream first).result.map fun found => found.render.1) =
    (linearSweep stream second).result.map fun found => found.render.1
  /-- Every writer takes the same and refuses in the same way. -/
  writer_eq : ∀ writer, (disassemble stream first writer).writer =
    (disassemble stream second writer).writer
  failure_eq : ∀ writer, (disassemble stream first writer).failure =
    (disassemble stream second writer).failure

theorem ActAlike.of_result_eq {stream : ByteStream}
    (h : (linearSweep stream first).result = (linearSweep stream second).result) :
    ActAlike stream first second := by
  constructor
  · exact h
  · rw [h]
  · intro writer
    simp only [disassemble, h]
    split <;> rfl
  · intro writer
    simp only [disassemble, h]
    split <;> rfl

/-- The sweep of an empty input finds the marks of the blocks and nothing else. -/
theorem result_of_no_input (blocks : List DataBlock) :
    (linearSweep (.ofBytes []) blocks).result = .ok ⟨DataBlock.applyAll blocks .blank, 0⟩ :=
  result_of_whole_cut (Tiling.tiles_nil _ _) rfl (Nat.zero_le _)

/-- **Data blocks act as a union.**  Two lists of blocks lead to the same result for every stream,
and to the same listing, exactly if the unions of their addresses are the same and so are the sets
of the addresses where decoding resumes.  In particular neither the order of the blocks nor
repetitions matter. -/
theorem blocks_act_as_union (first second : List DataBlock) :
    (AskAlike first second ↔ ∀ stream, ActAlike stream first second) ∧
      ((∀ block, block ∈ first ↔ block ∈ second) → AskAlike first second) := by
  refine ⟨⟨fun h stream => .of_result_eq (h.result_eq stream), ?_⟩, AskAlike.of_mem_iff⟩
  intro hact
  have hempty := (hact (.ofBytes [])).result_eq
  rw [result_of_no_input, result_of_no_input, Except.ok.injEq, Disassembly.mk.injEq] at hempty
  exact DataBlock.applyAll_blank_eq_iff.mp hempty.1

/-- Two blocks that overlap, and the block of all their addresses twice, with an empty one that asks
for the label inside it. -/
theorem blocks_act_as_union_of_overlap :
    let first : List DataBlock := [⟨0, 3, by decide, by decide⟩, ⟨2, 2, by decide, by decide⟩]
    let second : List DataBlock :=
      [⟨0, 4, by decide, by decide⟩, ⟨3, 0, by decide, by decide⟩, ⟨0, 4, by decide, by decide⟩]
    AskAlike first second ∧ ∀ stream, ActAlike stream first second := by
  intro first second
  have hask : AskAlike first second := by
    constructor
    · intro address
      simp only [first, second, List.mem_cons, List.not_mem_nil, or_false, exists_eq_or_imp,
        exists_eq_left, DataBlock.contains_iff]
      change (0 ≤ address.toNat ∧ address.toNat < 3 ∨ 2 ≤ address.toNat ∧ address.toNat < 4) ↔
        (0 ≤ address.toNat ∧ address.toNat < 4 ∨ 3 ≤ address.toNat ∧ address.toNat < 3 ∨
          0 ≤ address.toNat ∧ address.toNat < 4)
      omega
    · intro address
      simp only [first, second, List.mem_cons, List.not_mem_nil, or_false, exists_eq_or_imp,
        exists_eq_left, DataBlock.resume?_eq_some_iff]
      change (3 = address.toNat ∨ 4 = address.toNat) ↔
        (4 = address.toNat ∨ 3 = address.toNat ∨ 4 = address.toNat)
      omega
  exact ⟨hask, (blocks_act_as_union first second).1.mp hask⟩

end Disassembler8080
