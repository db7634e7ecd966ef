/-
# The room that an expression takes

Before an expression is searched for, it is laid out as a graph of states, once to be walked forward
and once to be walked backward.  The room for that is limited, which is noticed above all where
something is repeated many times.
-/
import Disassembler8080.Pattern.Expression
import Disassembler8080.Pattern.Utf8

namespace Disassembler8080.Pattern

/-- The direction in which a graph is walked. -/
inductive Direction where
  | forward
  | backward
deriving DecidableEq, Repr

namespace Storage

/-! ## 1. Measures -/

/-- The largest number of bytes for a graph. -/
def limit : Nat := 10485760

/-- The bytes of a state. -/
def state : Nat := 32

/-- The bytes of an edge that a state keeps besides its own room, with the bytes that lead along
it. -/
def labelledEdge : Nat := 8

/-- The bytes of an edge that a state keeps besides its own room. -/
def edge : Nat := 4

/-- The room that a part of a graph takes. -/
structure Room where
  bytes : Nat
  /-- Whether the part ends in a state that takes more room when something is joined to it. -/
  forks : Bool := false
deriving DecidableEq, Repr

/-- The bytes for joining something to the end of a part. -/
def Room.joint (room : Room) : Nat := if room.forks then edge else 0

/-- One part and then the other. -/
def Room.followedBy (first second : Room) : Room :=
  { second with bytes := first.bytes + first.joint + second.bytes }

/-- So many copies of a part, one after the other.  No copy at all is one state. -/
def Room.copies (room : Room) : Nat → Room
  | 0 => { bytes := state }
  | count + 1 =>
    { room with bytes := room.bytes + count * (room.joint + room.bytes) }

/-! ## 2. Sets -/

/-- The parts behind each first interval of bytes, among parts in order. -/
def branches (rows : List (List Interval)) : List (Interval × List (List Interval)) :=
  ((rows.filterMap List.head?).eraseDups).map fun first =>
    (first, (rows.filter (·.head? == some first)).map List.tail)

/-- All that can follow some bytes, as the rows that are left.  What is left in the same way is laid
out only once. -/
def suffixes : Nat → List (List Interval) → List (List (List Interval))
  | 0, _ => []
  | depth + 1, rows =>
    if (branches rows).isEmpty then []
    else rows :: (branches rows).flatMap fun branch => suffixes depth branch.2

/-- The bytes of a set that is walked forward: states for what can follow, and one at the end. -/
def forwardSet (rows : List (List Interval)) : Nat :=
  (suffixes 4 rows).eraseDups.foldl
    (fun bytes rows => bytes + state + (branches rows).length * labelledEdge) state

/-- The bytes of a set that is walked backward: a state where the rows begin, one where they end,
and one for each beginning of a row. -/
def backwardSet (rows : List (List Interval)) : Nat :=
  let beginnings := (rows.flatMap fun row =>
    (List.range row.length).map fun n => row.take (n + 1)).eraseDups
  state + rows.length * edge + state + beginnings.length * state

/-- The room of one character out of a set. -/
def bytesOf (direction : Direction) (set : CharSet) : Nat :=
  match set.intervals with
  | [⟨first, last⟩] =>
    if first = last then (Utf8.bytes first).length * state else several
  | _ => several
where
  /-- The room if there are several characters or none. -/
  several : Nat :=
    if set.isAscii then 2 * state + set.intervals.length * labelledEdge
    else
      match direction with
      | .forward => forwardSet (Utf8.rowsOf set)
      | .backward => backwardSet (Utf8.rowsOf set)

/-! ## 3. Expressions -/

/-- The room for repeating a part so many times. -/
def repetition (room : Room) (needsCharacter : Bool) : Count → Room
  | ⟨0, none⟩ =>
    if needsCharacter then ⟨state + room.bytes + edge + room.joint, true⟩
    else ⟨room.bytes + room.joint + 3 * state + 4 * edge, false⟩
  | ⟨0, some 1⟩ => ⟨2 * state + room.bytes + 2 * edge + room.joint, false⟩
  | ⟨least, none⟩ =>
    let copies := room.copies least
    ⟨copies.bytes + copies.joint + state + edge, true⟩
  | ⟨least, some 0⟩ => room.copies least
  | ⟨least, some more⟩ =>
    let first := room.copies least
    let optional := state + room.bytes + 2 * edge + room.joint
    ⟨first.bytes + first.joint + state + more * optional, false⟩

end Storage

namespace Expression

open Storage

/-- Whether an expression matches no text without characters, wherever it stands. -/
def needsCharacter : Expression → Bool
  | .empty => false
  | .one set => !set.isEmpty
  | .assertion _ => false
  | .both first second => first.needsCharacter || second.needsCharacter
  | .either left right => left.needsCharacter && right.needsCharacter
  | .repeated body count => count.least != 0 && body.needsCharacter
  | .group body => body.needsCharacter

/-- The room that an expression takes, and the bytes that it takes as one of several in a choice.
In a choice the expressions are joined at both ends. -/
def measure (direction : Direction) : Expression → Room × Nat
  | .empty => alone { bytes := state }
  | .one set => alone { bytes := bytesOf direction set }
  | .assertion _ => alone { bytes := state }
  | .both first second =>
    let first := (first.measure direction).1
    let second := (second.measure direction).1
    match direction with
    | .forward => alone (first.followedBy second)
    | .backward => alone (second.followedBy first)
  | .either left right =>
    let inside := (left.measure direction).2 + (right.measure direction).2
    ({ bytes := 2 * state + inside }, inside)
  | .repeated body count =>
    alone (repetition (body.measure direction).1 body.needsCharacter count)
  | .group body =>
    let room := (body.measure direction).1
    match direction with
    | .forward => alone { bytes := 2 * state + room.bytes + room.joint }
    | .backward => alone room
where
  /-- What is not a choice itself. -/
  alone (room : Room) : Room × Nat := (room, room.bytes + edge + room.joint)

/-- The bytes for what surrounds an expression: what passes over the text in front of a match, the
end of a match and, forward, its marks. -/
def surroundings : Direction → Nat
  | .forward => 6 * state + labelledEdge + 2 * edge
  | .backward => 4 * state + labelledEdge + 2 * edge

/-- Whether there is room for an expression. -/
def fits (direction : Direction) (wanted : Expression) : Bool :=
  let room := (wanted.measure direction).1
  room.bytes + room.joint + surroundings direction ≤ limit

end Expression

end Disassembler8080.Pattern
