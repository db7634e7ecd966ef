/-
# Byte streams

The bytes of a program come from a stream that may deliver them in pieces, may fail, and may
report its end for the moment and go on later, as a terminal does.  A stream is the row of what it
still has to deliver.

Taking a byte and looking for one agree on everything but the byte itself: a failure or a
momentary end is reported once, whichever of the two meets it.

Main statements: `bytes_next` (taking a byte removes the first byte of the stream, and an end or a
failure removes none) and `bytes_peek` (looking removes no byte).
-/

namespace Disassembler8080

/-- One piece of what a stream delivers. -/
inductive Segment where
  /-- Bytes that are ready together; there may be none. -/
  | data (bytes : List UInt8)
  /-- A failure, reported once. -/
  | failure (text : String)
  /-- An end of input, reported once. -/
  | pause
deriving DecidableEq, Repr

/-- What a stream still has to deliver, in order. -/
abbrev ByteStream := List Segment

namespace ByteStream

/-- The answer to a request for a byte. -/
inductive Answer where
  | byte (value : UInt8)
  | ended
  | failed (text : String)
deriving DecidableEq, Repr

/-- Takes the next byte from a stream. -/
def next : ByteStream → Answer × ByteStream
  | [] => (.ended, [])
  | .data [] :: rest => next rest
  | .data (value :: bytes) :: rest => (.byte value, .data bytes :: rest)
  | .failure text :: rest => (.failed text, rest)
  | .pause :: rest => (.ended, rest)

/-- Looks for the next byte of a stream and leaves it there. -/
def peek : ByteStream → Answer × ByteStream
  | [] => (.ended, [])
  | .data [] :: rest => peek rest
  | .data (value :: bytes) :: rest => (.byte value, .data (value :: bytes) :: rest)
  | .failure text :: rest => (.failed text, rest)
  | .pause :: rest => (.ended, rest)

/-- All bytes that a stream will ever deliver. -/
def bytes : ByteStream → List UInt8
  | [] => []
  | .data bytes :: rest => bytes ++ ByteStream.bytes rest
  | _ :: rest => ByteStream.bytes rest

/-- A stream that delivers the given bytes and then ends. -/
def ofBytes (bytes : List UInt8) : ByteStream := [.data bytes]

/-- The bytes of an answer: one or none. -/
def Answer.bytes : Answer → List UInt8
  | .byte value => [value]
  | _ => []

/-- What an answer delivers is taken from the front of the stream, and nothing else is. -/
theorem bytes_next (stream : ByteStream) :
    stream.bytes = stream.next.1.bytes ++ ByteStream.bytes stream.next.2 := by
  fun_induction next stream <;> simp_all [bytes, Answer.bytes]

/-- Looking for a byte takes none. -/
theorem bytes_peek (stream : ByteStream) : stream.bytes = ByteStream.bytes stream.peek.2 := by
  fun_induction peek stream <;> simp_all [bytes]

theorem peek_fst (stream : ByteStream) : stream.peek.1 = stream.next.1 := by
  fun_induction peek stream <;> simp_all [next]

end ByteStream

end Disassembler8080
