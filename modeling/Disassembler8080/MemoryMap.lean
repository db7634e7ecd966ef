/-
# What is known of each address

A `MemoryMap` gathers what a disassembly finds out: the statement that starts at an address, and
three marks.  An address is *referenced* if some operand or block end names it, *labelled* if a
listing has shown its label in place, and *forced* if the byte there is data whatever its value.
Marks are only ever added.

A map stores the addresses that differ from blank memory.  The maps and sets of the store are
extensional, so two memory maps with the same location at every address are equal.

Main statements: `ext_location`, that equality, and one lemma per operation that gives the location
at every address after it.
-/
import Std.Data.ExtTreeMap
import Std.Data.ExtTreeSet
import Disassembler8080.Statement

namespace Disassembler8080

/-! ## 1. Locations and maps -/

/-- What is known of one address. -/
structure Location where
  statement : Option Statement := none
  referenced : Bool := false
  labelled : Bool := false
  forced : Bool := false
deriving DecidableEq, Repr

/-- The bytes up to the next statement as far as this address tells: one where nothing starts. -/
def Location.size (location : Location) : Nat := (location.statement.map Statement.size).getD 1

/-- What is known of all of memory. -/
structure MemoryMap where
  statements : Std.ExtTreeMap Address Statement := ∅
  referenced : Std.ExtTreeSet Address := ∅
  labelled : Std.ExtTreeSet Address := ∅
  forced : Std.ExtTreeSet Address := ∅

namespace MemoryMap

/-- Memory of which nothing is known. -/
def blank : MemoryMap := {}

/-- What a map knows of an address. -/
def location (map : MemoryMap) (address : Address) : Location where
  statement := map.statements[address]?
  referenced := map.referenced.contains address
  labelled := map.labelled.contains address
  forced := map.forced.contains address

@[simp] theorem location_blank (address : Address) : blank.location address = {} := by
  simp [blank, location]

theorem mem_toList_iff {map : MemoryMap} {address : Address} {statement : Statement} :
    (address, statement) ∈ map.statements.toList ↔
      (map.location address).statement = some statement :=
  Std.ExtTreeMap.mem_toList_iff_getElem?_eq_some

/-- Maps with the same location at every address are equal. -/
theorem ext_location {first second : MemoryMap}
    (h : ∀ address, first.location address = second.location address) : first = second := by
  obtain ⟨statements, referenced, labelled, forced⟩ := first
  obtain ⟨statements', referenced', labelled', forced'⟩ := second
  simp only [location, Location.mk.injEq] at h
  have hs : statements = statements' := Std.ExtTreeMap.ext_getElem? fun address => (h address).1
  have hr : referenced = referenced' := Std.ExtTreeSet.ext_contains fun address => (h address).2.1
  have hl : labelled = labelled' := Std.ExtTreeSet.ext_contains fun address => (h address).2.2.1
  have hf : forced = forced' := Std.ExtTreeSet.ext_contains fun address => (h address).2.2.2
  rw [hs, hr, hl, hf]

/-! ## 2. Operations -/

/-- Puts a statement at an address, in place of one that was there. -/
def place (map : MemoryMap) (address : Address) (statement : Statement) : MemoryMap :=
  { map with statements := map.statements.insert address statement }

/-- Marks an address as referenced. -/
def refer (map : MemoryMap) (address : Address) : MemoryMap :=
  { map with referenced := map.referenced.insert address }

/-- Marks an address as labelled. -/
def markLabelled (map : MemoryMap) (address : Address) : MemoryMap :=
  { map with labelled := map.labelled.insert address }

/-- Forces an address to be data. -/
def force (map : MemoryMap) (address : Address) : MemoryMap :=
  { map with forced := map.forced.insert address }

/-- Marks an address as referenced if there is one. -/
def refer? (map : MemoryMap) : Option Address → MemoryMap
  | some address => map.refer address
  | none => map

/-! ## 3. What each operation changes -/

/-- Placing a statement changes the statement at its address and nothing else. -/
theorem location_place (map : MemoryMap) (target address : Address) (statement : Statement) :
    (map.place target statement).location address =
      if target = address then { map.location address with statement := some statement }
      else map.location address := by
  simp only [place, location, Std.ExtTreeMap.getElem?_insert, Std.LawfulEqCmp.compare_eq_iff_eq]
  split <;> rfl

/-- Referring to an address marks it and changes nothing else. -/
theorem location_refer (map : MemoryMap) (target address : Address) :
    (map.refer target).location address =
      { map.location address with
        referenced := target == address || (map.location address).referenced } := by
  simp [refer, location, Std.ExtTreeSet.contains_insert, Bool.beq_eq_decide_eq]

/-- Labelling an address marks it and changes nothing else. -/
theorem location_markLabelled (map : MemoryMap) (target address : Address) :
    (map.markLabelled target).location address =
      { map.location address with
        labelled := target == address || (map.location address).labelled } := by
  simp [markLabelled, location, Std.ExtTreeSet.contains_insert, Bool.beq_eq_decide_eq]

/-- Forcing an address marks it and changes nothing else. -/
theorem location_force (map : MemoryMap) (target address : Address) :
    (map.force target).location address =
      { map.location address with
        forced := target == address || (map.location address).forced } := by
  simp [force, location, Std.ExtTreeSet.contains_insert, Bool.beq_eq_decide_eq]

/-! ## 4. Summaries -/

/-- The referenced addresses in increasing order. -/
def references (map : MemoryMap) : List Address := map.referenced.toList

/-- A short description of a map: how many statements it holds and how many addresses it refers
to. -/
def summary (map : MemoryMap) : String :=
  "AddressSpace \x7b units: " ++ map.statements.size.repr ++ ", labels: "
    ++ map.referenced.size.repr ++ " \x7d"

end MemoryMap

end Disassembler8080
