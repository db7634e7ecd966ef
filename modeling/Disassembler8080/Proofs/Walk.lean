/-
# Listings as walks through memory

A listing is laid out from the statements that a map holds, in the order of their addresses, and
passes over those that start inside one that it has shown.  It can also be had by a walk through
memory: a counter starts at 0, goes from a statement to its end and from an address without one to
the next address, and stops at the limit of the body.  This file defines the walk and shows that it
visits the statements that the listing shows.

Nothing is asked of the map.  Its statements may overlap or leave gaps, may have operands that do
not fit them, and may lie past the stop.  All that is used is that a statement takes between one
byte and three: so the counter grows with every step, and in 32 bits it does not wrap around.

Main statements:

* `Disassembly.toNat_advance`: the counter is exact.
* `Disassembly.length_walk_le` and `Disassembly.apart_visited`: the walk ends, and the statements
  that it visits do not overlap.
* `Disassembly.shown_eq_visited`: the listing shows what the walk visits.
* `Disassembly.lines_eq_walkedLines`: the lines of the listing, from the walk and a pass over all of
  memory.
-/
import Disassembler8080.Proofs.Placement

namespace Disassembler8080

/-! ## 1. The counter -/

theorem Location.size_pos (location : Location) : 0 < location.size := by
  unfold size
  cases location.statement with
  | none => exact Nat.zero_lt_one
  | some statement => exact statement.size_pos

theorem Location.size_le (location : Location) : location.size ≤ 3 := by
  unfold size
  cases location.statement with
  | none => simp
  | some statement => exact statement.size_le

namespace Disassembly

variable (disassembly : Disassembly)

/-- What a counter of 32 bits points at: its low half is the address. -/
def pointed (counter : UInt32) : Location := disassembly.map.location counter.toUInt16

/-- The counter behind what it points at, with the wrap-around of 32 bits. -/
def advance (counter : UInt32) : UInt32 :=
  counter + UInt32.ofNat (disassembly.pointed counter).size

theorem bodyLimit_lt : disassembly.bodyLimit < memorySize := by
  simp only [bodyLimit, memorySize]
  omega

variable {disassembly}

/-- **The counter is exact**: below the limit of the body it does not wrap around. -/
theorem toNat_advance {counter : UInt32} (h : counter.toNat < disassembly.bodyLimit) :
    (disassembly.advance counter).toNat =
      counter.toNat + (disassembly.pointed counter).size := by
  have hlimit := disassembly.bodyLimit_lt
  have hsize := (disassembly.pointed counter).size_le
  simp only [memorySize] at hlimit
  rw [advance, UInt32.toNat_add, UInt32.toNat_ofNat', Nat.mod_eq_of_lt (a := Location.size _)]
  · exact Nat.mod_eq_of_lt (by omega)
  · omega

/-- A counter in the body is an address. -/
theorem toNat_toUInt16 {counter : UInt32} (h : counter.toNat < disassembly.bodyLimit) :
    counter.toUInt16.toNat = counter.toNat := by
  have hlimit := disassembly.bodyLimit_lt
  simp only [memorySize] at hlimit
  rw [UInt32.toNat_toUInt16]
  exact Nat.mod_eq_of_lt (by omega)

/-! ## 2. The walk -/

variable (disassembly)

/-- The counters of a walk from one of them on. -/
def walkFrom (counter : UInt32) : List UInt32 :=
  if counter.toNat < disassembly.bodyLimit then
    counter :: walkFrom (disassembly.advance counter)
  else []
termination_by disassembly.bodyLimit - counter.toNat
decreasing_by
  have hlimit : counter.toNat < disassembly.bodyLimit := by assumption
  have hnext := toNat_advance hlimit
  have hsize := (disassembly.pointed counter).size_pos
  omega

/-- The walk through memory. -/
def walk : List UInt32 := disassembly.walkFrom 0

/-- The statement at a counter, with its address. -/
def statementAt? (counter : UInt32) : Option (Address × Statement) :=
  (disassembly.pointed counter).statement.map fun statement => (counter.toUInt16, statement)

/-- The statements that the walk visits, in its order. -/
def visited : List (Address × Statement) := disassembly.walk.filterMap disassembly.statementAt?

/-- Whether the walk visits a statement at an address. -/
def visits (address : Address) : Bool := disassembly.visited.any fun entry => entry.1 == address

variable {disassembly} {counter other : UInt32}

theorem walkFrom_of_lt (h : counter.toNat < disassembly.bodyLimit) :
    disassembly.walkFrom counter =
      counter :: disassembly.walkFrom (disassembly.advance counter) := by
  rw [walkFrom, if_pos h]

theorem walkFrom_of_le (h : disassembly.bodyLimit ≤ counter.toNat) :
    disassembly.walkFrom counter = [] := by
  rw [walkFrom, if_neg (Nat.not_lt.mpr h)]

theorem statementAt?_eq_some_iff {entry : Address × Statement} :
    disassembly.statementAt? counter = some entry ↔
      entry.1 = counter.toUInt16 ∧ (disassembly.pointed counter).statement = some entry.2 := by
  obtain ⟨address, statement⟩ := entry
  rw [statementAt?, Option.map_eq_some_iff]
  constructor
  · rintro ⟨_, hstatement, hentry⟩
    cases hentry
    exact ⟨rfl, hstatement⟩
  · rintro ⟨rfl, hstatement⟩
    exact ⟨statement, hstatement, rfl⟩

theorem bounds_of_mem_walkFrom (h : other ∈ disassembly.walkFrom counter) :
    counter.toNat ≤ other.toNat ∧ other.toNat < disassembly.bodyLimit := by
  induction counter using walkFrom.induct disassembly with
  | case1 counter hlimit ih =>
    rw [walkFrom_of_lt hlimit, List.mem_cons] at h
    rcases h with rfl | hrest
    · exact ⟨Nat.le_refl _, hlimit⟩
    · have hnext := toNat_advance hlimit
      have hbounds := ih hrest
      omega
  | case2 counter hlimit =>
    rw [walkFrom_of_le (Nat.not_lt.mp hlimit)] at h
    exact absurd h List.not_mem_nil

/-- A walk takes no more steps than there are addresses before the limit. -/
theorem length_walkFrom_le (counter : UInt32) :
    (disassembly.walkFrom counter).length ≤ disassembly.bodyLimit - counter.toNat := by
  induction counter using walkFrom.induct disassembly with
  | case1 counter hlimit ih =>
    have hnext := toNat_advance hlimit
    have hsize := (disassembly.pointed counter).size_pos
    rw [walkFrom_of_lt hlimit, List.length_cons]
    omega
  | case2 counter hlimit =>
    rw [walkFrom_of_le (Nat.not_lt.mp hlimit)]
    exact Nat.zero_le _

/-- Each counter of a walk is behind what the counters before it point at. -/
theorem apart_walkFrom (counter : UInt32) :
    (disassembly.walkFrom counter).Pairwise fun first second =>
      first.toNat + (disassembly.pointed first).size ≤ second.toNat := by
  induction counter using walkFrom.induct disassembly with
  | case1 counter hlimit ih =>
    rw [walkFrom_of_lt hlimit]
    refine List.Pairwise.cons (fun second hsecond => ?_) ih
    rw [← toNat_advance hlimit]
    exact (bounds_of_mem_walkFrom hsecond).1
  | case2 counter hlimit =>
    rw [walkFrom_of_le (Nat.not_lt.mp hlimit)]
    exact List.Pairwise.nil

variable (disassembly)

/-- **The walk ends**: it has no more steps than the body has addresses. -/
theorem length_walk_le : disassembly.walk.length ≤ disassembly.bodyLimit :=
  disassembly.length_walkFrom_le 0

/-- **The statements that the walk visits do not overlap.** -/
theorem apart_visited :
    disassembly.visited.Pairwise fun first second =>
      first.1.toNat + first.2.size ≤ second.1.toNat := by
  rw [visited, List.pairwise_filterMap]
  refine (disassembly.apart_walkFrom 0).imp_of_mem ?_
  intro counter other hcounter hother hapart first hfirst second hsecond
  obtain ⟨hplace, hstatement⟩ := statementAt?_eq_some_iff.mp hfirst
  obtain ⟨hplace', -⟩ := statementAt?_eq_some_iff.mp hsecond
  rw [hplace, hplace', toNat_toUInt16 (bounds_of_mem_walkFrom hcounter).2,
    toNat_toUInt16 (bounds_of_mem_walkFrom hother).2]
  rwa [Location.size, hstatement] at hapart

theorem increasing_visited : Increasing disassembly.visited := by
  refine disassembly.apart_visited.imp ?_
  intro first second hapart
  have hsize := first.2.size_pos
  rw [UInt16.lt_iff_toNat_lt]
  omega

/-! ## 3. The listing shows what the walk visits -/

section Visits

variable {limit next : Nat} {entries : List (Address × Statement)} {address : Address}
  {statement : Statement}

theorem visitFrom_of_le (h : limit ≤ next) : visitFrom limit next [] entries = [] := by
  induction entries with
  | nil => rfl
  | cons entry rest ih =>
    simp only [visitFrom]
    split
    · exact ih
    · rw [if_neg (by omega)]
      rfl

/-- Where no statement starts, the next address will do as well. -/
theorem visitFrom_succ (h : ∀ entry ∈ entries, entry.1.toNat ≠ next) :
    visitFrom limit next [] entries = visitFrom limit (next + 1) [] entries := by
  induction entries with
  | nil => rfl
  | cons entry rest ih =>
    obtain ⟨hentry, hrest⟩ := List.forall_mem_cons.mp h
    simp only [visitFrom]
    by_cases hlt : entry.1.toNat < next
    · rw [if_pos hlt, if_pos (by omega), ih hrest]
    · have hnext : ¬ entry.1.toNat < next + 1 := by omega
      rw [if_neg hlt, if_neg hnext]

/-- Where a statement starts, it is shown, and then what comes behind it. -/
theorem visitFrom_of_mem (hincreasing : Increasing entries) (hmem : (address, statement) ∈ entries)
    (hlimit : address.toNat < limit) :
    visitFrom limit address.toNat [] entries =
      (address, statement) :: visitFrom limit (address.toNat + statement.size) [] entries := by
  have hsize := statement.size_pos
  induction entries with
  | nil => exact absurd hmem List.not_mem_nil
  | cons entry rest ih =>
    obtain ⟨hless, hrest⟩ := List.pairwise_cons.mp hincreasing
    simp only [visitFrom]
    rcases List.mem_cons.mp hmem with rfl | hbehind
    · have hbehind : address.toNat < address.toNat + statement.size := by omega
      rw [if_neg (Nat.lt_irrefl _), if_pos hlimit, visitFrom_eq, if_pos hbehind]
      rfl
    · have hbefore : entry.1.toNat < address.toNat :=
        UInt16.lt_iff_toNat_lt.mp (hless _ hbehind)
      have hbefore' : entry.1.toNat < address.toNat + statement.size := by omega
      rw [if_pos hbefore, if_pos hbefore', ih hrest hbehind]

end Visits

/-- From every counter on, the listing shows what the walk visits. -/
theorem visitFrom_eq_filterMap_walkFrom (counter : UInt32) :
    visitFrom disassembly.bodyLimit counter.toNat [] disassembly.map.statements.toList =
      (disassembly.walkFrom counter).filterMap disassembly.statementAt? := by
  induction counter using walkFrom.induct disassembly with
  | case1 counter hlimit ih =>
    rw [toNat_advance hlimit] at ih
    rw [walkFrom_of_lt hlimit]
    cases hstatement : (disassembly.pointed counter).statement with
    | none =>
      have hentry : disassembly.statementAt? counter = none := by rw [statementAt?, hstatement]; rfl
      rw [List.filterMap_cons_none hentry, ← ih, Location.size, hstatement]
      refine visitFrom_succ ?_
      rintro ⟨address, statement⟩ hmem heq
      -- an entry at the counter would be the statement there
      rw [← toNat_toUInt16 hlimit, UInt16.toNat_inj] at heq
      rw [MemoryMap.mem_toList_iff, show address = _ from heq] at hmem
      exact absurd (hmem.symm.trans hstatement) (by simp)
    | some statement =>
      have hentry : disassembly.statementAt? counter = some (counter.toUInt16, statement) := by
        rw [statementAt?, hstatement]; rfl
      have hplace := toNat_toUInt16 hlimit
      rw [List.filterMap_cons_some hentry, ← ih, Location.size, hstatement, ← hplace]
      rw [← hplace] at hlimit
      exact visitFrom_of_mem (MemoryMap.increasing_toList _)
        (MemoryMap.mem_toList_iff.mpr hstatement) hlimit
  | case2 counter hlimit =>
    rw [visitFrom_of_le (Nat.not_lt.mp hlimit), walkFrom_of_le (Nat.not_lt.mp hlimit)]
    rfl

/-- **The listing shows what the walk visits.** -/
theorem shown_eq_visited : disassembly.shown = disassembly.visited :=
  disassembly.visitFrom_eq_filterMap_walkFrom 0

/-! ## 4. The lines -/

/-- All addresses in increasing order. -/
def memory : List Address := (List.range memorySize).map UInt16.ofNat

theorem mem_memory (address : Address) : address ∈ memory := by
  refine List.mem_map.mpr ⟨address.toNat, List.mem_range.mpr address.toNat_lt, ?_⟩
  exact UInt16.ofNat_toNat

theorem increasing_memory : memory.Pairwise (· < ·) := by
  rw [memory, List.pairwise_map]
  refine List.pairwise_lt_range.imp_of_mem ?_
  intro first second hfirst hsecond hlt
  rw [List.mem_range] at hfirst hsecond
  rwa [UInt16.lt_iff_toNat_lt, UInt16.toNat_ofNat_of_lt' hfirst, UInt16.toNat_ofNat_of_lt' hsecond]

/-- Whether an address is still to be defined behind the body: something refers to it, the walk does
not visit it, and no earlier listing has labelled it. -/
def isLeft (address : Address) : Bool :=
  (disassembly.map.location address).referenced && !disassembly.visits address &&
    !(disassembly.map.location address).labelled

/-- The lines of a listing as a walk through memory makes them, and after it a pass over all of
memory. -/
def walkedLines : List Line :=
  (disassembly.visited.flatMap fun (address, statement) =>
      if (disassembly.map.location address).referenced then
        [.label address, .statement statement]
      else [.statement statement]) ++
    .blank :: (memory.filter disassembly.isLeft).map .definition ++ [.blank, .finish, .blank]

/-- A label in place stands at the referenced addresses that the walk visits. -/
theorem mem_placed_iff_visits (address : Address) :
    address ∈ disassembly.placed ↔
      ((disassembly.map.location address).referenced && disassembly.visits address) = true := by
  rw [mem_placed_iff, shown_eq_visited, visits, Bool.and_eq_true, List.any_eq_true, and_comm]
  refine and_congr_right fun _ => ⟨?_, ?_⟩
  · rintro ⟨statement, hmem⟩
    exact ⟨_, hmem, beq_self_eq_true address⟩
  · rintro ⟨⟨place, statement⟩, hmem, hplace⟩
    exact ⟨statement, beq_iff_eq.mp hplace ▸ hmem⟩

/-- A definition stands for the addresses that are left. -/
theorem mem_outside_iff_isLeft (address : Address) :
    address ∈ disassembly.outside ↔ disassembly.isLeft address = true := by
  rw [mem_outside, mem_placed_iff_visits, IsReferenced, isLeft]
  cases (disassembly.map.location address).referenced <;> cases disassembly.visits address <;>
    simp

/-- **The definitions are found by a pass over all of memory.** -/
theorem outside_eq_filter : disassembly.outside = memory.filter disassembly.isLeft := by
  refine (increasing_outside disassembly).eq_of_mem_iff (increasing_memory.filter _) ?_
  intro address
  rw [mem_outside_iff_isLeft, List.mem_filter, and_iff_right (mem_memory address)]

/-- **The lines of a listing are those that the walk makes.** -/
theorem lines_eq_walkedLines : disassembly.lines = disassembly.walkedLines := by
  rw [lines_eq, body_eq, shown_eq_visited, behindBody, outside_eq_filter, ← List.append_assoc]
  rfl

end Disassembly

end Disassembler8080
