/-
# What a disassembly made from statements holds

A sweep that succeeds has placed one row of statements from address 0 on, over the marks of the data
blocks.  This file says what such a disassembly holds without saying how it was found: a disassembly
`ofStatements` of a row, and what is known there of each address.

Everything rests on one fact: a row that fits memory has increasing addresses, so no statement is
placed over another, and the map lists the row as it was.

Main statements:

* `MemoryMap.location_enterAll`: what entering a row of statements leaves at each address.
* `MemoryMap.toList_enterAll`: the map lists what was entered in increasing order.
* `Disassembly.statements_ofStatements`: the statements are the row at the sums of its sizes.
* `Disassembly.referenced_ofStatements_iff`: the referenced addresses are the targets of the row and
  the addresses where decoding resumes behind the blocks.
-/
import Disassembler8080.Proofs.Tiling
import Disassembler8080.Sweep
import Mathlib.Data.List.Sort

namespace Disassembler8080

/-! ## 1. Rows with increasing addresses -/

/-- Entries in strictly increasing order of their addresses. -/
def Increasing (entries : List (Address × Statement)) : Prop :=
  entries.Pairwise fun first second => first.1 < second.1

theorem MemoryMap.increasing_toList (map : MemoryMap) : Increasing map.statements.toList :=
  Std.ExtTreeMap.ordered_keys_toList.imp fun h => Std.compare_eq_lt.mp h

namespace Tiling

/-- In a row that fits memory, no address wraps around. -/
theorem toNat_of_mem_addressed {address : Nat} {before after : List Statement}
    {statement : Statement}
    (h : address + extent (before ++ statement :: after) ≤ memorySize) :
    (UInt16.ofNat (address + extent before)).toNat = address + extent before := by
  have hpos := statement.size_pos
  rw [extent_append, extent_cons] at h
  refine UInt16.toNat_ofNat_of_lt' ?_
  simp only [memorySize] at h
  simp only [UInt16.size]
  omega

/-- A statement of a row that fits memory stands inside the row. -/
theorem bounds_of_mem_addressed {address : Nat} {statements : List Statement} {place : Address}
    {statement : Statement} (h : address + extent statements ≤ memorySize)
    (hmem : (place, statement) ∈ addressed address statements) :
    address ≤ place.toNat ∧ place.toNat + statement.size ≤ address + extent statements := by
  obtain ⟨before, after, rfl, rfl⟩ := mem_addressed_iff.mp hmem
  rw [toNat_of_mem_addressed h, extent_append, extent_cons]
  omega

theorem increasing_addressed {address : Nat} {statements : List Statement}
    (h : address + extent statements ≤ memorySize) : Increasing (addressed address statements) := by
  induction statements generalizing address with
  | nil => exact List.Pairwise.nil
  | cons statement rest ih =>
    have hpos := statement.size_pos
    rw [extent_cons, ← Nat.add_assoc] at h
    refine List.Pairwise.cons ?_ (ih h)
    rintro ⟨place, other⟩ hmem
    have hplace := (bounds_of_mem_addressed h hmem).1
    change UInt16.ofNat address < place
    rw [UInt16.lt_iff_toNat_lt, UInt16.toNat_ofNat', Nat.mod_eq_of_lt]
    · omega
    · simp only [memorySize] at h
      omega

theorem any_addressed (address : Nat) (statements : List Statement) (test : Statement → Bool) :
    ((addressed address statements).any fun entry => test entry.2) = statements.any test := by
  induction statements generalizing address with
  | nil => rfl
  | cons statement rest ih => rw [addressed, List.any_cons, List.any_cons, ih]

end Tiling

/-! ## 2. Entering a row into a map -/

namespace MemoryMap

/-- Places a statement and marks the address that it refers to. -/
def enter (map : MemoryMap) (entry : Address × Statement) : MemoryMap :=
  (map.refer? entry.2.target?).place entry.1 entry.2

/-- Enters a row of statements, the first one first. -/
def enterAll (map : MemoryMap) (entries : List (Address × Statement)) : MemoryMap :=
  entries.foldl enter map

/-- What entering a statement does to each address; a sweep does the same when it records one. -/
theorem location_enter (map : MemoryMap) (entry : Address × Statement) (other : Address) :
    (map.enter entry).location other =
      { map.location other with
        statement := if entry.1 = other then some entry.2 else (map.location other).statement
        referenced := (map.location other).referenced || entry.2.target? == some other } :=
  Sweep.location_record ⟨map, ⟨[], 0⟩, []⟩ entry.1 entry.2 ⟨[], 0⟩ other

/-- The statement that a row enters at an address, which of several is the last one. -/
def lastAt? (entries : List (Address × Statement)) (address : Address) : Option Statement :=
  entries.reverse.findSome? fun entry => if entry.1 = address then some entry.2 else none

theorem lastAt?_cons (entry : Address × Statement) (rest : List (Address × Statement))
    (address : Address) :
    lastAt? (entry :: rest) address =
      (lastAt? rest address).or (if entry.1 = address then some entry.2 else none) := by
  simp [lastAt?, List.findSome?_append]

theorem mem_of_lastAt?_eq_some {entries : List (Address × Statement)} {address : Address}
    {statement : Statement} (h : lastAt? entries address = some statement) :
    (address, statement) ∈ entries := by
  obtain ⟨⟨place, other⟩, hmem, hfound⟩ := List.exists_of_findSome?_eq_some h
  rw [Option.ite_none_right_eq_some] at hfound
  obtain ⟨rfl, hother⟩ := hfound
  cases hother
  exact List.mem_reverse.mp hmem

/-- A row with increasing addresses enters each of its statements for good. -/
theorem lastAt?_eq_some_iff {entries : List (Address × Statement)}
    (hincreasing : Increasing entries) (address : Address) (statement : Statement) :
    lastAt? entries address = some statement ↔ (address, statement) ∈ entries := by
  refine ⟨mem_of_lastAt?_eq_some, fun h => ?_⟩
  induction entries with
  | nil => exact absurd h List.not_mem_nil
  | cons entry rest ih =>
    obtain ⟨hless, hrest⟩ := List.pairwise_cons.mp hincreasing
    rw [lastAt?_cons]
    rcases List.mem_cons.mp h with rfl | hmem
    · -- nothing behind the first entry is entered at its address
      have hnone : lastAt? rest address = none := by
        refine Option.eq_none_iff_forall_ne_some.mpr fun other hother => ?_
        exact UInt16.lt_irrefl _ (hless (address, other) (mem_of_lastAt?_eq_some hother))
      rw [hnone, Option.none_or, if_pos rfl]
    · rw [ih hrest hmem, Option.some_or]

/-- **What entering a row leaves at each address**: the last statement that the row has there, or
else the one that was there, and a reference more if a statement of the row refers to it. -/
theorem location_enterAll (map : MemoryMap) (entries : List (Address × Statement))
    (address : Address) :
    (map.enterAll entries).location address =
      { map.location address with
        statement := (lastAt? entries address).or (map.location address).statement
        referenced := (map.location address).referenced ||
          entries.any fun entry => entry.2.target? == some address } := by
  induction entries generalizing map with
  | nil => simp [enterAll, lastAt?]
  | cons entry rest ih =>
    rw [enterAll, List.foldl_cons, ← enterAll, ih, location_enter, lastAt?_cons, List.any_cons]
    split <;> simp [Bool.or_assoc]

/-- **A map without statements lists what is entered in increasing order.** -/
theorem toList_enterAll (map : MemoryMap) (entries : List (Address × Statement))
    (hincreasing : Increasing entries)
    (hempty : ∀ address, (map.location address).statement = none) :
    (map.enterAll entries).statements.toList = entries := by
  refine List.Pairwise.eq_of_mem_iff (increasing_toList _) hincreasing ?_
  rintro ⟨place, statement⟩
  rw [mem_toList_iff, location_enterAll, hempty, Option.or_none, lastAt?_eq_some_iff hincreasing]

end MemoryMap

/-! ## 3. The marks of data blocks -/

namespace DataBlock

/-- Applies blocks one after the other. -/
def applyAll (blocks : List DataBlock) (map : MemoryMap) : MemoryMap :=
  blocks.foldl (fun map block => block.apply map) map

/-- Whether an address lies in one of several blocks. -/
def covers (blocks : List DataBlock) (address : Address) : Bool :=
  blocks.any fun block => block.contains address

/-- What applying blocks does to each address. -/
theorem location_applyAll (blocks : List DataBlock) (map : MemoryMap) (address : Address) :
    (applyAll blocks map).location address =
      { map.location address with
        referenced :=
          (map.location address).referenced || blocks.any fun block => block.resume? == some address
        forced := (map.location address).forced || covers blocks address } := by
  induction blocks generalizing map with
  | nil => simp [applyAll, covers]
  | cons block rest ih =>
    rw [applyAll, List.foldl_cons, ← applyAll, ih, location_apply]
    simp [covers, Bool.or_assoc]

theorem location_applyAll_blank (blocks : List DataBlock) (address : Address) :
    (applyAll blocks .blank).location address =
      { referenced := blocks.any fun block => block.resume? == some address
        forced := covers blocks address } := by
  rw [location_applyAll, MemoryMap.location_blank]
  rfl

end DataBlock

/-! ## 4. The disassembly of a row -/

namespace Disassembly

open Tiling

/-- The disassembly of a row of statements that starts at address 0 and leaves nothing out. -/
def ofStatements (blocks : List DataBlock) (statements : List Statement) : Disassembly where
  map := (DataBlock.applyAll blocks .blank).enterAll (addressed 0 statements)
  stop := extent statements

variable {blocks : List DataBlock} {statements : List Statement}

theorem toList_ofStatements (h : extent statements ≤ memorySize) :
    (ofStatements blocks statements).map.statements.toList = addressed 0 statements := by
  refine MemoryMap.toList_enterAll _ _ (increasing_addressed (by omega)) ?_
  intro address
  rw [DataBlock.location_applyAll_blank]

/-- **The statements are the row**, each at the sum of the sizes before it. -/
theorem statements_ofStatements (h : extent statements ≤ memorySize) :
    (ofStatements blocks statements).statements = addressed 0 statements := by
  have hzero : 0 + extent statements ≤ memorySize := by omega
  rw [Disassembly.statements, toList_ofStatements h, List.filter_eq_self]
  rintro ⟨place, statement⟩ hmem
  have hbounds := bounds_of_mem_addressed hzero hmem
  have hpos := statement.size_pos
  exact decide_eq_true (show place.toNat < extent statements by omega)

/-- **The referenced addresses** are the targets of the row and the addresses where decoding
resumes. -/
theorem referenced_ofStatements_iff (address : Address) :
    ((ofStatements blocks statements).map.location address).referenced = true ↔
      (∃ statement ∈ statements, statement.target? = some address) ∨
        ∃ block ∈ blocks, block.resume? = some address := by
  simp only [ofStatements]
  rw [MemoryMap.location_enterAll, DataBlock.location_applyAll_blank,
    any_addressed 0 statements fun statement => statement.target? == some address]
  simp only [Bool.or_eq_true, List.any_eq_true, beq_iff_eq]
  exact Or.comm

/-- A statement stands at an address exactly if the row has it there. -/
theorem statement_ofStatements_iff (h : extent statements ≤ memorySize) (address : Address)
    (statement : Statement) :
    ((ofStatements blocks statements).map.location address).statement = some statement ↔
      (address, statement) ∈ addressed 0 statements := by
  rw [← MemoryMap.mem_toList_iff, toList_ofStatements h]

theorem forced_ofStatements (address : Address) :
    ((ofStatements blocks statements).map.location address).forced =
      DataBlock.covers blocks address := by
  simp only [ofStatements]
  rw [MemoryMap.location_enterAll, DataBlock.location_applyAll_blank]

/-- No address is labelled before a listing is written. -/
theorem labelled_ofStatements (address : Address) :
    ((ofStatements blocks statements).map.location address).labelled = false := by
  simp only [ofStatements]
  rw [MemoryMap.location_enterAll, DataBlock.location_applyAll_blank]

end Disassembly

end Disassembler8080
