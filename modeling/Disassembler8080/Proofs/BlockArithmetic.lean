/-
# Data blocks in words

Two numbers of 64 bits become a block of two words of 32 bits, whose addresses have 16.  Between
these widths there are sums, a difference, a minimum and two narrowings, each with a limit of its
own.  This file says of all of them together that none wraps around or loses a bit: what they give
is what the numbers give.

The first test is the one that can go wrong, and it is made in 64 bits with an eye on the carry.
Once it is passed, all sums are at most the size of memory, which is why 32 bits are enough for
them.  Marking goes up from the start to the last address, and leaves off at the first address
outside the block.  The start of a block at the end of memory is no address, so such a block is
looked for at the last address, and not found there.

Main statement: `block_exact_at_limits`, blocks mean the numbers that they are made of.
-/
import Disassembler8080.DataBlock

namespace Disassembler8080

namespace DataBlock

/-- What a block should be that is made of a start and a count, in natural numbers. -/
structure Means (block : DataBlock) (start count : Nat) : Prop where
  start_eq : block.start.toNat = start
  count_eq : block.count.toNat = count
  /-- The sum of 32 bits with which addresses are compared is the sum. -/
  stop_eq : block.stop.toNat = start + count
  contains_iff : ∀ address, block.contains address = true ↔
    start ≤ address.toNat ∧ address.toNat < start + count
  /-- Decoding resumes at the sum if it is an address, with no bit of it lost, -/
  resume_of_le : start + count ≤ 0xffff →
    ∃ address, block.resume? = some address ∧ address.toNat = start + count
  /-- and nowhere otherwise. -/
  resume_of_lt : 0xffff < start + count → block.resume? = none
  /-- Marking begins at the start as long as that is an address, -/
  firstAddress_eq : block.firstAddress.toNat = min start 0xffff
  /-- and counting up from there in 16 bits reaches the addresses of the block. -/
  counter_eq : ∀ offset < count,
    (block.firstAddress + UInt16.ofNat offset).toNat = start + offset
  /-- Exactly the addresses of the block are forced, exactly the one behind it is referenced, and
  nothing else changes anywhere. -/
  location_apply : ∀ (map : MemoryMap) (address : Address),
    (block.apply map).location address =
      { map.location address with
        referenced := (map.location address).referenced || decide (address.toNat = start + count)
        forced := (map.location address).forced ||
          decide (start ≤ address.toNat ∧ address.toNat < start + count) }

theorem means_self (block : DataBlock) : block.Means block.start.toNat block.count.toNat := by
  have hcontains : ∀ address, block.contains address =
      decide (block.start.toNat ≤ address.toNat ∧
        address.toNat < block.start.toNat + block.count.toNat) := by
    intro address
    rw [Bool.eq_iff_iff, decide_eq_true_eq, contains_iff]
  have hresume : ∀ address : Address, (block.resume? == some address) =
      decide (address.toNat = block.start.toNat + block.count.toNat) := by
    intro address
    rw [Bool.eq_iff_iff, beq_iff_eq, decide_eq_true_eq, resume?_eq_some_iff, eq_comm]
  have hfirst := block.toNat_firstAddress
  have hstop := block.stop_le
  have hsize : memorySize = 0x10000 := rfl
  refine ⟨rfl, rfl, block.toNat_stop, block.contains_iff, ?_, ?_, hfirst, ?_, ?_⟩
  · intro hle
    have haddress : (UInt16.ofNat (block.start.toNat + block.count.toNat)).toNat =
        block.start.toNat + block.count.toNat :=
      UInt16.toNat_ofNat_of_lt' (Nat.lt_succ_of_le hle)
    exact ⟨_, (block.resume?_eq_some_iff _).mpr haddress.symm, haddress⟩
  · intro hlt
    refine Option.eq_none_iff_forall_ne_some.mpr fun address hsome => ?_
    have haddress := (block.resume?_eq_some_iff address).mp hsome
    have hbound := address.toNat_lt
    omega
  · intro offset hoffset
    have hnumber : (UInt16.ofNat offset).toNat = offset :=
      UInt16.toNat_ofNat_of_lt' (show offset < 0x10000 by omega)
    rw [UInt16.toNat_add, hnumber, hfirst, Nat.min_eq_left (by omega)]
    omega
  · intro map address
    rw [DataBlock.location_apply, hresume, hcontains]

end DataBlock

/-- **Blocks are exact at every limit.**  Two numbers of 64 bits make a block exactly if their sum
lies between 1 and the size of memory, and the test that watches the carry in 64 bits finds the
same.  Other numbers are reported as they are.  The block that they make means these numbers: none
of its words of 32 and 16 bits has lost anything, and applying it changes the addresses that the
numbers tell and no others. -/
theorem block_exact_at_limits (start count : UInt64) :
    ((∃ block, DataBlock.ofNumbers start count = .ok block) ↔
      1 ≤ start.toNat + count.toNat ∧ start.toNat + count.toNat ≤ memorySize) ∧
    (endsInMemory start count = true ↔ ∃ block, DataBlock.ofNumbers start count = .ok block) ∧
    (¬ (1 ≤ start.toNat + count.toNat ∧ start.toNat + count.toNat ≤ memorySize) →
      DataBlock.ofNumbers start count = .error (.blockOutsideMemory start count)) ∧
    ∀ block, DataBlock.ofNumbers start count = .ok block →
      block.Means start.toNat count.toNat := by
  have hiff := DataBlock.exists_ofNumbers_iff start count
  refine ⟨hiff, (endsInMemory_iff start count).trans hiff.symm, DataBlock.ofNumbers_of_outside, ?_⟩
  intro block hblock
  obtain ⟨hstart, hcount⟩ := (DataBlock.ofNumbers_eq_ok_iff start count block).mp hblock
  rw [← hstart, ← hcount]
  exact block.means_self

end Disassembler8080
