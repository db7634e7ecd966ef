/-
# Blocks of data

A `DataBlock` is a row of addresses whose bytes are data and are never decoded.  It lies in memory,
but may be empty: an empty block forces nothing and still asks for a label where it stands, as
every block does at the address where decoding resumes.

Blocks are made of two numbers of 64 bits, whose sum can take more than that.  So the last number is
found by a sum and a difference that are checked, and a block is made of words of 32 bits only when
that number is an address.  Applying a block goes up from its start, address by address, and leaves
off at the first one outside.

Main statements: `endsInMemory_iff` and `ofNumbers_eq_ok_iff` (which numbers make a block),
`contains_iff` and `resume?_eq_some_iff` (the addresses of a block and the one after it, in natural
numbers), `location_forceFrom` and `location_apply` (what applying a block does to each address of a
map) and `parse_error` (why two texts make no block).
-/
import Disassembler8080.MemoryMap
import Disassembler8080.Numeral

namespace Disassembler8080

/-! ## 1. Numbers of 64 bits -/

/-- The sum of two numbers unless it takes more than 64 bits.  It then has wrapped around and is
less than each of them. -/
def checkedSum? (first second : UInt64) : Option UInt64 :=
  if first ≤ first + second then some (first + second) else none

/-- The difference of two numbers unless it would be negative. -/
def checkedDifference? (first second : UInt64) : Option UInt64 :=
  if second ≤ first then some (first - second) else none

/-- The last number of a row of numbers.  An empty row ends with the number before its start, if
there is one. -/
def lastNumber? (start count : UInt64) : Option UInt64 :=
  (checkedSum? start count).bind fun stop => checkedDifference? stop 1

/-- Whether a row of numbers ends with an address. -/
def endsInMemory (start count : UInt64) : Bool :=
  (lastNumber? start count).any (· < 0x10000)

theorem checkedSum?_eq_some_iff (first second sum : UInt64) :
    checkedSum? first second = some sum ↔ sum.toNat = first.toNat + second.toNat := by
  have hfirst := first.toNat_lt
  have hsecond := second.toNat_lt
  have hsum := sum.toNat_lt
  unfold checkedSum?
  rw [Option.ite_none_right_eq_some, Option.some.injEq, ← UInt64.toNat_inj,
    UInt64.le_iff_toNat_le, UInt64.toNat_add]
  omega

theorem checkedDifference?_eq_some_iff (first second difference : UInt64) :
    checkedDifference? first second = some difference ↔
      difference.toNat + second.toNat = first.toNat := by
  have hfirst := first.toNat_lt
  unfold checkedDifference?
  rw [Option.ite_none_right_eq_some, Option.some.injEq, ← UInt64.toNat_inj,
    UInt64.le_iff_toNat_le]
  constructor
  · rintro ⟨hle, hdifference⟩
    rw [UInt64.toNat_sub_of_le _ _ (UInt64.le_iff_toNat_le.mpr hle)] at hdifference
    omega
  · intro heq
    have hle : second.toNat ≤ first.toNat := by omega
    rw [UInt64.toNat_sub_of_le _ _ (UInt64.le_iff_toNat_le.mpr hle)]
    omega

/-- There is a last number exactly if the sum of start and count is one more, in 64 bits. -/
theorem lastNumber?_eq_some_iff (start count last : UInt64) :
    lastNumber? start count = some last ↔
      last.toNat + 1 = start.toNat + count.toNat ∧ last.toNat + 1 < UInt64.size := by
  simp only [lastNumber?, Option.bind_eq_some_iff, checkedSum?_eq_some_iff,
    checkedDifference?_eq_some_iff]
  constructor
  · rintro ⟨stop, hstop, hlast⟩
    have hlt := stop.toNat_lt_size
    change last.toNat + 1 = stop.toNat at hlast
    omega
  · rintro ⟨hsum, hlt⟩
    have hstop : (UInt64.ofNat (last.toNat + 1)).toNat = last.toNat + 1 :=
      UInt64.toNat_ofNat_of_lt' hlt
    exact ⟨UInt64.ofNat (last.toNat + 1), by omega, hstop.symm⟩

/-- **The test in 64 bits** is passed by the numbers whose sum lies between 1 and the size of
memory. -/
theorem endsInMemory_iff (start count : UInt64) :
    endsInMemory start count = true ↔
      1 ≤ start.toNat + count.toNat ∧ start.toNat + count.toNat ≤ memorySize := by
  have hbound : ∀ last : UInt64, last < 0x10000 ↔ last.toNat < memorySize :=
    fun last => UInt64.lt_iff_toNat_lt
  unfold endsInMemory
  rw [Option.any_eq_true]
  simp only [lastNumber?_eq_some_iff, decide_eq_true_eq, hbound]
  constructor
  · rintro ⟨last, ⟨hsum, -⟩, hlast⟩
    omega
  · rintro ⟨hpos, hle⟩
    have hsize : start.toNat + count.toNat < UInt64.size := Nat.lt_of_le_of_lt hle (by decide)
    have hlast : (UInt64.ofNat (start.toNat + count.toNat - 1)).toNat =
        start.toNat + count.toNat - 1 := UInt64.toNat_ofNat_of_lt' (by omega)
    exact ⟨UInt64.ofNat (start.toNat + count.toNat - 1), by omega, by omega⟩

/-- The sum of these wraps around to 1. -/
example : endsInMemory 0xffffffffffffffff 2 = false := by decide

theorem toNat_toUInt32_of_le {number : UInt64} (h : number.toNat ≤ memorySize) :
    number.toUInt32.toNat = number.toNat :=
  Nat.mod_eq_of_lt (Nat.lt_of_le_of_lt h (by decide))

/-! ## 2. Making blocks -/

/-- A row of `count` bytes of data from `start` on.  The address after the last one is at least 1
and at most the size of memory, so that there is a last address unless the block is empty. -/
structure DataBlock where
  start : UInt32
  count : UInt32
  one_le_stop : 1 ≤ start.toNat + count.toNat
  stop_le : start.toNat + count.toNat ≤ memorySize
deriving DecidableEq

namespace DataBlock

/-- The block of `count` bytes from `start` on, if it lies in memory. -/
def ofNumbers (start count : UInt64) : Except Failure DataBlock :=
  if h : endsInMemory start count = true then
    have hsum := (endsInMemory_iff start count).mp h
    have hs : start.toUInt32.toNat = start.toNat := toNat_toUInt32_of_le (by omega)
    have hc : count.toUInt32.toNat = count.toNat := toNat_toUInt32_of_le (by omega)
    .ok ⟨start.toUInt32, count.toUInt32, by rw [hs, hc]; exact hsum.1, by rw [hs, hc]; exact hsum.2⟩
  else .error (.blockOutsideMemory start count)

/-- The block that two texts describe; the start is read first. -/
def parse (start count : String) : Except Failure DataBlock := do
  let start ← Numeral.parse start
  let count ← Numeral.parse count
  ofNumbers start count

/-! ## 3. The addresses of a block -/

/-- The number after the last address of a block. -/
def stop (block : DataBlock) : UInt32 := block.start + block.count

/-- Whether an address lies in a block. -/
def contains (block : DataBlock) (address : Address) : Bool :=
  block.start ≤ address.toUInt32 && address.toUInt32 < block.stop

/-- The address after a block, where decoding resumes, unless the block ends with memory. -/
def resume? (block : DataBlock) : Option Address :=
  if block.stop.toNat < memorySize then some block.stop.toUInt16 else none

/-- The address at which marking begins: the start of the block, or the last address where the start
is the end of memory. -/
def firstAddress (block : DataBlock) : Address := (min block.start 0xffff).toUInt16

/-- Forces addresses from one on upwards, as many as are `left` of memory, and leaves off at the
first one outside the block. -/
def forceFrom (block : DataBlock) (map : MemoryMap) (address : Address) : Nat → MemoryMap
  | 0 => map
  | left + 1 =>
    if block.contains address then block.forceFrom (map.force address) (address + 1) left else map

/-- Marks the addresses of a block as data and asks for a label where decoding resumes. -/
def apply (block : DataBlock) (map : MemoryMap) : MemoryMap :=
  let first := block.firstAddress
  (block.forceFrom map first (memorySize - first.toNat)).refer? block.resume?

/-! ## 4. The same in natural numbers -/

/-- The end of a block does not wrap around. -/
@[simp] theorem toNat_stop (block : DataBlock) :
    block.stop.toNat = block.start.toNat + block.count.toNat := by
  have := block.stop_le
  simp only [memorySize] at this
  rw [stop, UInt32.toNat_add]
  omega

/-- The addresses of a block are those from its start up to its end. -/
theorem contains_iff (block : DataBlock) (address : Address) :
    block.contains address = true ↔
      block.start.toNat ≤ address.toNat ∧
        address.toNat < block.start.toNat + block.count.toNat := by
  simp [contains, UInt32.le_iff_toNat_le, UInt32.lt_iff_toNat_lt]

/-- Decoding resumes at the end of a block if that is an address. -/
theorem resume?_eq_some_iff (block : DataBlock) (address : Address) :
    block.resume? = some address ↔ block.start.toNat + block.count.toNat = address.toNat := by
  have hlt := address.toNat_lt
  unfold resume?
  split
  · rename_i h
    simp only [memorySize, toNat_stop] at h
    simp only [Option.some.injEq, ← UInt16.toNat_inj, UInt32.toNat_toUInt16, toNat_stop]
    rw [Nat.mod_eq_of_lt (by omega)]
  · rename_i h
    simp only [memorySize, toNat_stop] at h
    simp only [reduceCtorEq, false_iff]
    omega

/-- Marking begins at the start, unless that is the end of memory. -/
theorem toNat_firstAddress (block : DataBlock) :
    block.firstAddress.toNat = min block.start.toNat 0xffff := by
  have hmin : (min block.start 0xffff).toNat = min block.start.toNat 0xffff := by
    change (if block.start ≤ 0xffff then block.start else 0xffff).toNat = _
    split
    · rename_i hle
      exact (Nat.min_eq_left (UInt32.le_iff_toNat_le.mp hle)).symm
    · rename_i hlt
      rw [UInt32.le_iff_toNat_le] at hlt
      exact (Nat.min_eq_right (Nat.le_of_not_le hlt)).symm
  rw [firstAddress, UInt32.toNat_toUInt16, hmin]
  omega

/-- **What marking upwards does to each address**: those of the block are forced from the address on
at which it begins. -/
theorem location_forceFrom (block : DataBlock) (map : MemoryMap) {first left : Nat}
    (hleft : first + left = memorySize) (hfirst : block.firstAddress.toNat ≤ first)
    (address : Address) :
    (block.forceFrom map (UInt16.ofNat first) left).location address =
      { map.location address with
        forced := (map.location address).forced ||
          decide (first ≤ address.toNat) && block.contains address } := by
  have hlt := address.toNat_lt
  have hsize : memorySize = 0x10000 := rfl
  induction left generalizing first map with
  | zero =>
    have hnone : decide (first ≤ address.toNat) = false := decide_eq_false (by omega)
    rw [forceFrom, hnone, Bool.false_and, Bool.or_false]
  | succ left ih =>
    have hnumber : (UInt16.ofNat first).toNat = first :=
      UInt16.toNat_ofNat_of_lt' (show first < 0x10000 by omega)
    have hcontains := block.contains_iff (UInt16.ofNat first)
    rw [hnumber] at hcontains
    rw [forceFrom]
    split
    · rename_i hinside
      have hbounds := hcontains.mp hinside
      have hnext : UInt16.ofNat first + 1 = UInt16.ofNat (first + 1) := (UInt16.ofNat_add _ _).symm
      have hmark : (decide (first + 1 ≤ address.toNat) && block.contains address ||
          UInt16.ofNat first == address) =
            (decide (first ≤ address.toNat) && block.contains address) := by
        rw [Bool.eq_iff_iff, Bool.or_eq_true, Bool.and_eq_true, Bool.and_eq_true, beq_iff_eq,
          decide_eq_true_eq, decide_eq_true_eq, contains_iff, ← UInt16.toNat_inj, hnumber]
        omega
      rw [hnext, ih _ (by omega) (by omega), MemoryMap.location_force, ← hmark]
      simp only [Bool.or_assoc, Bool.or_comm (UInt16.ofNat first == address)]
    · rename_i houtside
      -- nothing lies behind an address outside, since marking did not begin in front of the block
      have hbounds := mt hcontains.mpr houtside
      have hnone : (decide (first ≤ address.toNat) && block.contains address) = false := by
        rw [toNat_firstAddress] at hfirst
        rw [Bool.eq_false_iff, Ne, Bool.and_eq_true, decide_eq_true_eq, contains_iff]
        omega
      rw [hnone, Bool.or_false]

/-- What applying a block does to each address: those in the block are forced, the one after it is
referenced, and nothing else changes. -/
theorem location_apply (block : DataBlock) (map : MemoryMap) (address : Address) :
    (block.apply map).location address =
      { map.location address with
        referenced := (map.location address).referenced || block.resume? == some address
        forced := (map.location address).forced || block.contains address } := by
  have hfirst := block.firstAddress.toNat_lt
  have hforced := block.location_forceFrom map (Nat.add_sub_of_le (Nat.le_of_lt hfirst))
    (Nat.le_refl _) address
  have hinside : (decide (block.firstAddress.toNat ≤ address.toNat) && block.contains address) =
      block.contains address := by
    have hstart := block.toNat_firstAddress
    rw [Bool.eq_iff_iff, Bool.and_eq_true, decide_eq_true_eq]
    refine and_iff_right_of_imp fun hcontains => ?_
    rw [contains_iff] at hcontains
    omega
  rw [UInt16.ofNat_toNat, hinside] at hforced
  unfold apply
  cases h : block.resume? with
  | none => simp [MemoryMap.refer?, hforced]
  | some resume => simp [MemoryMap.refer?, MemoryMap.location_refer, hforced, Bool.or_comm]

/-- Which numbers make a block, and that it is the block of those numbers. -/
theorem ofNumbers_eq_ok_iff (start count : UInt64) (block : DataBlock) :
    ofNumbers start count = .ok block ↔
      block.start.toNat = start.toNat ∧ block.count.toNat = count.toNat := by
  unfold ofNumbers
  split
  · rename_i h
    have hsum := (endsInMemory_iff start count).mp h
    have hs : start.toUInt32.toNat = start.toNat := toNat_toUInt32_of_le (by omega)
    have hc : count.toUInt32.toNat = count.toNat := toNat_toUInt32_of_le (by omega)
    obtain ⟨blockStart, blockCount, _, _⟩ := block
    rw [Except.ok.injEq, mk.injEq, ← UInt32.toNat_inj, ← UInt32.toNat_inj, hs, hc]
    exact and_congr eq_comm eq_comm
  · rename_i h
    simp only [reduceCtorEq, false_iff]
    rintro ⟨hs, hc⟩
    exact h ((endsInMemory_iff start count).mpr ⟨hs ▸ hc ▸ block.one_le_stop,
      hs ▸ hc ▸ block.stop_le⟩)

/-- Numbers make a block exactly if their sum is at least 1 and at most the size of memory. -/
theorem exists_ofNumbers_iff (start count : UInt64) :
    (∃ block, ofNumbers start count = .ok block) ↔
      1 ≤ start.toNat + count.toNat ∧ start.toNat + count.toNat ≤ memorySize := by
  constructor
  · rintro ⟨block, hblock⟩
    obtain ⟨hstart, hcount⟩ := (ofNumbers_eq_ok_iff start count block).mp hblock
    rw [← hstart, ← hcount]
    exact ⟨block.one_le_stop, block.stop_le⟩
  · intro h
    exact ⟨_, dif_pos ((endsInMemory_iff start count).mpr h)⟩

/-! ## 5. Numbers and texts that make no block -/

/-- Numbers that make no block lie outside memory. -/
theorem ofNumbers_error {start count : UInt64} {failure : Failure}
    (h : ofNumbers start count = .error failure) : failure = .blockOutsideMemory start count := by
  unfold ofNumbers at h
  split at h
  · cases h
  · cases h
    rfl

theorem ofNumbers_of_outside {start count : UInt64}
    (h : ¬ (1 ≤ start.toNat + count.toNat ∧ start.toNat + count.toNat ≤ memorySize)) :
    ofNumbers start count = .error (.blockOutsideMemory start count) :=
  dif_neg (mt (endsInMemory_iff start count).mp h)

/-- The ways in which two texts make no block, in the order in which they are found. -/
theorem parse_error {start count : String} {failure : Failure}
    (h : parse start count = .error failure) :
    failure = .notANumber start ∨ failure = .notANumber count ∨
      ∃ first size, Numeral.parse start = .ok first ∧ Numeral.parse count = .ok size ∧
        failure = .blockOutsideMemory first size := by
  unfold parse at h
  cases hstart : Numeral.parse start with
  | error cause =>
    rw [hstart] at h
    cases h
    exact Or.inl (Numeral.parse_error hstart)
  | ok first =>
    cases hcount : Numeral.parse count with
    | error cause =>
      rw [hstart, hcount] at h
      cases h
      exact Or.inr (Or.inl (Numeral.parse_error hcount))
    | ok size =>
      rw [hstart, hcount] at h
      exact Or.inr (Or.inr ⟨first, size, rfl, rfl, ofNumbers_error h⟩)

end DataBlock

end Disassembler8080
