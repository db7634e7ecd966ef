/-
# Fetching bytes by address

A `Fetch` reads a stream and counts the bytes that it has read, so that each byte has an address:
the first one 0, and each next one the next.  Memory has an end, and a fetch reads no further than
that: a first byte of a statement that would lie past the end is not taken, and an operand byte
there is a failure.

Main statements: `position_leading` and `position_operand` (the position grows by one exactly when
a byte is delivered).
-/
import Disassembler8080.ByteStream
import Disassembler8080.Failure

namespace Disassembler8080

/-- A stream that is read into memory, and the address of its next byte. -/
structure Fetch where
  stream : ByteStream
  position : Nat := 0
deriving DecidableEq, Repr

namespace Fetch

/-! ## 1. The first byte of a statement -/

/-- The answer to a request for the first byte of a statement. -/
inductive Leading where
  /-- The byte and its address. -/
  | byte (address : Address) (value : UInt8)
  /-- The input has ended. -/
  | ended
  /-- Memory is full and the input goes on. -/
  | surplus
  | failed (text : String)
deriving DecidableEq, Repr

/-- Reads the first byte of a statement.  When memory is full, the stream is only looked at, to
learn whether the input goes on. -/
def leading (fetch : Fetch) : Leading × Fetch :=
  if fetch.position < memorySize then
    match fetch.stream.next with
    | (.byte value, rest) => (.byte (UInt16.ofNat fetch.position) value, ⟨rest, fetch.position + 1⟩)
    | (.ended, rest) => (.ended, { fetch with stream := rest })
    | (.failed text, rest) => (.failed text, { fetch with stream := rest })
  else
    match fetch.stream.peek with
    | (.byte _, rest) => (.surplus, { fetch with stream := rest })
    | (.ended, rest) => (.ended, { fetch with stream := rest })
    | (.failed text, rest) => (.failed text, { fetch with stream := rest })

/-- A first byte moves the position on by one, and any other answer leaves it. -/
theorem position_leading (fetch : Fetch) :
    fetch.leading.2.position =
      match fetch.leading.1 with
      | .byte _ _ => fetch.position + 1
      | _ => fetch.position := by
  unfold leading
  split
  · split <;> rfl
  · split <;> rfl

/-- A first byte is read only while there is memory for it. -/
theorem position_lt_of_leading_byte {fetch : Fetch} {address : Address} {value : UInt8}
    (h : fetch.leading.1 = .byte address value) : fetch.position < memorySize := by
  unfold leading at h
  split at h
  · assumption
  · split at h <;> cases h

/-! ## 2. Operand bytes -/

/-- Reads one operand byte of the statement at an address.  When memory is full, the stream is not
even looked at. -/
def operand (fetch : Fetch) (statement : Address) : Except Failure UInt8 × Fetch :=
  if fetch.position < memorySize then
    match fetch.stream.next with
    | (.byte value, rest) => (.ok value, ⟨rest, fetch.position + 1⟩)
    | (.ended, rest) => (.error (.cutShort statement), { fetch with stream := rest })
    | (.failed text, rest) => (.error (.inputOutput text), { fetch with stream := rest })
  else (.error (.pastMemory statement), fetch)

/-- An operand byte moves the position on by one, and a failure leaves it. -/
theorem position_operand (fetch : Fetch) (statement : Address) :
    (fetch.operand statement).2.position =
      match (fetch.operand statement).1 with
      | .ok _ => fetch.position + 1
      | .error _ => fetch.position := by
  unfold operand
  split
  · split <;> rfl
  · rfl

theorem le_position_operand (fetch : Fetch) (statement : Address) :
    fetch.position ≤ (fetch.operand statement).2.position := by
  rw [position_operand]
  split
  · exact Nat.le_succ _
  · exact Nat.le_refl _

end Fetch

end Disassembler8080
