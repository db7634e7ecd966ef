/-
# What writing a listing leads to

The writing of a listing marks the addresses that it labels in place, and the definitions behind the
body leave out what is marked.  Both come out of one disassembly that is changed on the way, so what
is written and what is left have to be said together, and for every disassembly: its map may hold
statements that overlap, and labels of earlier listings.

Everything is said by the walk through memory: what the walk visits is what the body shows, and with
the marks from before it decides on each label.

Main statements:

* `MemoryMap.location_markAll`: the marks that lines leave.
* `Disassembly.count_labels`: how many labels an address has.
* `Disassembly.write_eq`: writing to any writer.
* `Disassembly.writesWalk`: writing to a writer that takes everything.
-/
import Disassembler8080.Proofs.Labels
import Disassembler8080.Proofs.Walk

namespace Disassembler8080

/-! ## 1. The marks of several lines -/

namespace MemoryMap

/-- Leaves the marks of lines, the first one first. -/
def markAll (map : MemoryMap) (lines : List Line) : MemoryMap :=
  lines.foldl (fun map line => line.mark map) map

/-- The mark of one line: a label in place marks its address, and no other line leaves a mark. -/
theorem location_mark (map : MemoryMap) (line : Line) (address : Address) :
    (line.mark map).location address =
      { map.location address with
        labelled := (map.location address).labelled || line.label? == some address } := by
  cases line with
  | label target =>
    rw [Line.mark, location_markLabelled, Bool.or_comm]
    rfl
  | _ => simp [Line.mark, Line.label?]

/-- **Lines mark the addresses that they label in place**, and change nothing else. -/
theorem location_markAll (map : MemoryMap) (lines : List Line) (address : Address) :
    (map.markAll lines).location address =
      { map.location address with
        labelled :=
          (map.location address).labelled || (lines.filterMap Line.label?).contains address } := by
  induction lines generalizing map with
  | nil => simp [markAll]
  | cons line rest ih =>
    rw [markAll, List.foldl_cons, ← markAll, ih, location_mark]
    cases hlabel : line.label? with
    | none => simp [List.filterMap_cons_none hlabel]
    | some target =>
      rw [List.filterMap_cons_some hlabel, List.contains_cons, Bool.or_assoc]
      simp [BEq.comm]

end MemoryMap

/-! ## 2. How many labels an address has -/

namespace Disassembly

variable (disassembly : Disassembly)

/-- **How many labels an address has.**  In place and defined together it has one if something
refers to it and if the walk visits it or no earlier listing has labelled it, and none otherwise. -/
theorem count_labels (address : Address) :
    (disassembly.walkedLines.map Line.chars).count (Line.label address).chars +
        (disassembly.walkedLines.map Line.chars).count (Line.definition address).chars =
      if (disassembly.map.location address).referenced &&
          (disassembly.visits address || !(disassembly.map.location address).labelled)
      then 1 else 0 := by
  have hshown : Increasing disassembly.shown := by
    rw [shown_eq_visited]
    exact disassembly.increasing_visited
  rw [← lines_eq_walkedLines, Line.count_chars Line.chars_eq_label_iff,
    Line.count_chars Line.chars_eq_definition_iff, filterMap_label?_lines,
    filterMap_definition?_lines, (increasing_placed disassembly hshown).nodup.count,
    (increasing_outside disassembly).nodup.count]
  simp only [mem_placed_iff_visits, mem_outside_iff_isLeft, isLeft]
  cases (disassembly.map.location address).referenced <;> cases disassembly.visits address <;>
    cases (disassembly.map.location address).labelled <;> rfl

/-! ## 3. Writing a listing -/

/-- Writing a listing is putting its text at once, and marks the labels of the lines taken whole. -/
theorem write_eq (disassembly : Disassembly) (writer : Writer) :
    (disassembly.write writer).writer = (writer.put disassembly.listing.toByteArray).1 ∧
      (disassembly.write writer).failure = (writer.put disassembly.listing.toByteArray).2 ∧
      (disassembly.write writer).disassembly =
        { disassembly with map := disassembly.map.markAll (writer.whole disassembly.lines) } := by
  have hdeliver := Delivery.deliver_eq disassembly.map writer disassembly.lines
  simp only [write, ← Delivery.deliver_append]
  rw [show disassembly.front ++ closing = disassembly.lines from rfl, hdeliver]
  exact ⟨rfl, rfl, rfl⟩

theorem flushFailure_write (disassembly : Disassembly) (writer : Writer) :
    (disassembly.write writer).writer.flushFailure = writer.flushFailure := by
  rw [(disassembly.write_eq writer).1, Writer.flushFailure_put]

/-- Writing without a bound on the room writes all lines and leaves their marks. -/
theorem write_of_room_eq_none {writer : Writer} (h : writer.room = none) :
    (disassembly.write writer).failure = none ∧
      (disassembly.write writer).writer.bytes =
        writer.bytes ++ Text.bytes (String.join (disassembly.lines.map Line.written)) ∧
      (disassembly.write writer).disassembly.map = disassembly.map.markAll disassembly.lines := by
  obtain ⟨hwriter, hfailure, hdisassembly⟩ := disassembly.write_eq writer
  have hfits : ∀ room ∈ writer.room, disassembly.listing.toByteArray.size ≤ room := by simp [h]
  obtain ⟨hbytes, hnone⟩ := Writer.put_of_room_le hfits
  rw [hwriter, hfailure, hdisassembly, Writer.whole_of_room_eq_none h]
  exact ⟨hnone, hbytes, rfl⟩

/-- What writing a listing to a writer that takes everything has to lead to, said by the walk
through memory. -/
structure WritesWalk (disassembly : Disassembly) (writer : Writer) (report : WriteReport) :
    Prop where
  /-- The counter of the walk does not wrap around, and loses nothing as an address. -/
  exact_counter : ∀ counter ∈ disassembly.walk,
    (disassembly.advance counter).toNat = counter.toNat + (disassembly.pointed counter).size ∧
      counter.toUInt16.toNat = counter.toNat
  length_le : disassembly.walk.length ≤ disassembly.bodyLimit
  apart : disassembly.visited.Pairwise fun first second =>
    first.1.toNat + first.2.size ≤ second.1.toNat
  failure_eq : report.failure = none
  bytes_eq : report.writer.bytes =
    writer.bytes ++ Text.bytes (String.join (disassembly.walkedLines.map Line.written))
  /-- No address has two labels, and a referenced one has none only if an earlier listing has
  labelled it and the walk does not visit it. -/
  count_labels_eq : ∀ address,
    (disassembly.walkedLines.map Line.chars).count (Line.label address).chars +
        (disassembly.walkedLines.map Line.chars).count (Line.definition address).chars =
      if (disassembly.map.location address).referenced &&
          (disassembly.visits address || !(disassembly.map.location address).labelled)
      then 1 else 0
  stop_eq : report.disassembly.stop = disassembly.stop
  /-- The referenced addresses that the walk visits are labelled now, and that is all. -/
  location_eq : ∀ address, report.disassembly.map.location address =
    { disassembly.map.location address with
      labelled := (disassembly.map.location address).labelled ||
        ((disassembly.map.location address).referenced && disassembly.visits address) }

/-- **What writing a listing leads to**, whatever the disassembly holds.  The body is what a walk
through memory visits, in 32 bits that never overflow, each statement with its label in front; the
definitions are of the referenced addresses that are neither visited nor labelled before.  Nothing
but the labels in place is marked. -/
theorem writesWalk (disassembly : Disassembly) (writer : Writer) :
    WritesWalk disassembly writer (disassembly.write { writer with room := none }) := by
  have hroom : ({ writer with room := none } : Writer).room = none := rfl
  obtain ⟨hfailure, hbytes, hmap⟩ := disassembly.write_of_room_eq_none hroom
  constructor
  · intro counter hcounter
    have hlimit := (bounds_of_mem_walkFrom hcounter).2
    exact ⟨toNat_advance hlimit, toNat_toUInt16 hlimit⟩
  · exact disassembly.length_walk_le
  · exact disassembly.apart_visited
  · exact hfailure
  · rw [hbytes, lines_eq_walkedLines]
    rfl
  · exact disassembly.count_labels
  · exact disassembly.stop_write _
  · intro address
    have hplaced : disassembly.placed.contains address =
        ((disassembly.map.location address).referenced && disassembly.visits address) := by
      rw [Bool.eq_iff_iff, List.contains_iff_mem, mem_placed_iff_visits]
    rw [hmap, MemoryMap.location_markAll, filterMap_label?_lines, hplaced]

end Disassembly

end Disassembler8080
