/-
# Writers

A `Writer` takes bytes until its room is used up.  The part of them that still fits is kept, and the
rest is refused: with a failure of its own, or by taking nothing.  Whether what was taken arrives is
known only when the writer is flushed.

Room is counted in bytes, and a text can be cut inside a character.  So what a writer has taken are
bytes, and its text is what these can be read as.

Main statements: `bytes_put` (what a writer has taken after a write), `put_snd_eq_none_iff` (bytes
are taken whole exactly if there is room for them) and `put_append` (bytes can be put in two parts).
-/
import Disassembler8080.Text.Bytes

namespace Disassembler8080

/-! ## 1. Writers -/

/-- How a writer without room turns bytes away. -/
inductive Refusal where
  /-- It fails. -/
  | failure (text : String)
  /-- It takes nothing, again and again. -/
  | takesNothing
deriving DecidableEq, Repr

/-- The wording of a refusal. -/
def Refusal.message : Refusal → String
  | .failure text => text
  | .takesNothing => "failed to write whole buffer"

/-- A place to write to, with what it has taken so far. -/
structure Writer where
  taken : ByteArray := .empty
  /-- The number of bytes that can still be taken, if there is a bound. -/
  room : Option Nat := none
  refusal : Refusal := .takesNothing
  /-- The failure that flushing reports, if it does. -/
  flushFailure : Option String := none

namespace Writer

/-- A writer that takes everything. -/
def unbounded : Writer := {}

/-- The bytes that a writer has taken. -/
def bytes (writer : Writer) : List UInt8 := writer.taken.data.toList

/-- The text that a writer has taken. -/
def accepted (writer : Writer) : String := Text.ofBytes writer.taken

/-- Writes bytes.  Gives the failure if they were not taken whole. -/
def put (writer : Writer) (bytes : ByteArray) : Writer × Option String :=
  match writer.room with
  | none => ({ writer with taken := writer.taken ++ bytes }, none)
  | some room =>
    if bytes.size ≤ room then
      ({ writer with taken := writer.taken ++ bytes, room := some (room - bytes.size) }, none)
    else
      ({ writer with taken := writer.taken ++ bytes.extract 0 room, room := some 0 },
        some writer.refusal.message)

/-! ## 2. What a writer takes -/

/-- The bytes that a writer can still take of some. -/
def fitting (writer : Writer) (bytes : List UInt8) : List UInt8 :=
  match writer.room with
  | none => bytes
  | some room => bytes.take room

/-- A writer takes what fits. -/
theorem bytes_put (writer : Writer) (bytes : ByteArray) :
    (writer.put bytes).1.bytes = writer.bytes ++ writer.fitting bytes.data.toList := by
  unfold put fitting Writer.bytes
  split
  · rw [ByteArray.data_append, Array.toList_append]
  · split
    · rename_i hfits
      rw [ByteArray.data_append, Array.toList_append, List.take_of_length_le hfits]
    · rw [ByteArray.data_append, Array.toList_append, ByteArray.data_extract,
        Array.toList_extract, List.extract_eq_take_drop]
      rfl

-- the second character is cut in the middle
example : (put { room := some 3 } "éé".toByteArray).1.bytes = [0xc3, 0xa9, 0xc3] := by decide

/-- Bytes are taken whole exactly if there is room for them. -/
theorem put_snd_eq_none_iff (writer : Writer) (bytes : ByteArray) :
    (writer.put bytes).2 = none ↔ ∀ room ∈ writer.room, bytes.size ≤ room := by
  unfold put
  split
  · simp_all
  · split <;> simp_all

theorem put_snd_of_room_lt {writer : Writer} {room : Nat} {bytes : ByteArray}
    (hroom : writer.room = some room) (h : room < bytes.size) :
    (writer.put bytes).2 = some writer.refusal.message := by
  simp [put, hroom, Nat.not_le.mpr h]

theorem put_of_room_le {writer : Writer} {bytes : ByteArray}
    (h : ∀ room ∈ writer.room, bytes.size ≤ room) :
    (writer.put bytes).1.bytes = writer.bytes ++ bytes.data.toList ∧
      (writer.put bytes).2 = none := by
  refine ⟨?_, (writer.put_snd_eq_none_iff bytes).mpr h⟩
  rw [bytes_put, fitting]
  split
  · rfl
  · rename_i room hroom
    rw [List.take_of_length_le (h room hroom)]

@[simp] theorem taken_put_unbounded (bytes : ByteArray) :
    (Writer.unbounded.put bytes).1.taken = bytes :=
  ByteArray.empty_append

theorem flushFailure_put (writer : Writer) (bytes : ByteArray) :
    (writer.put bytes).1.flushFailure = writer.flushFailure := by
  unfold put
  split
  · rfl
  · split <;> rfl

/-! ## 3. Bytes put one part after the other -/

theorem put_empty (writer : Writer) : writer.put .empty = (writer, none) := by
  obtain ⟨taken, room, refusal, flushFailure⟩ := writer
  cases room <;> simp [put]

/-- Bytes are put by their parts: the second one if the first one was taken whole. -/
theorem put_append (writer : Writer) (first second : ByteArray) :
    writer.put (first ++ second) =
      match writer.put first with
      | (after, none) => after.put second
      | (after, some failure) => (after, some failure) := by
  obtain ⟨taken, room, refusal, flushFailure⟩ := writer
  cases room with
  | none => simp [put, ByteArray.append_assoc]
  | some room =>
    by_cases hfirst : first.size ≤ room
    · have hextract : (first ++ second).extract 0 room =
          first ++ second.extract 0 (room - first.size) := by
        have hall : first.extract 0 room = first := by
          rw [← Nat.max_eq_left hfirst, ByteArray.extract_zero_max_size]
        rw [ByteArray.extract_append, hall, Nat.zero_sub]
      have hwhole : (first ++ second).size ≤ room ↔ second.size ≤ room - first.size := by
        rw [ByteArray.size_append]
        omega
      by_cases hsecond : second.size ≤ room - first.size
      · simp only [put, if_pos hfirst, if_pos hsecond, if_pos (hwhole.mpr hsecond)]
        simp [ByteArray.append_assoc, Nat.sub_sub]
      · simp only [put, if_pos hfirst, if_neg hsecond, if_neg (mt hwhole.mp hsecond), hextract,
          ByteArray.append_assoc]
    · have hwhole : ¬ (first ++ second).size ≤ room := by
        rw [ByteArray.size_append]
        omega
      have hextract : (first ++ second).extract 0 room = first.extract 0 room := by
        have hnone : second.extract (0 - first.size) (room - first.size) = .empty := by
          rw [ByteArray.extract_eq_empty_iff]
          omega
        rw [ByteArray.extract_append, hnone, ByteArray.append_empty]
      simp only [put, if_neg hfirst, if_neg hwhole, hextract]

end Writer

end Disassembler8080
