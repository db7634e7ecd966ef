/-
# Bytes of characters

The bytes that characters are written in, for whole intervals of them: an interval is cut into
pieces of which each is described by one interval of bytes after the other.
-/
import Disassembler8080.Pattern.CharSet

namespace Disassembler8080.Pattern.Utf8

/-! ## 1. Single characters -/

/-- The bytes of a character, given by its code point. -/
def bytes (n : Nat) : List Nat :=
  if n < 0x80 then [n]
  else if n < 0x800 then [0xc0 + n / 0x40, 0x80 + n % 0x40]
  else if n < 0x10000 then [0xe0 + n / 0x1000, 0x80 + n / 0x40 % 0x40, 0x80 + n % 0x40]
  else
    [0xf0 + n / 0x40000, 0x80 + n / 0x1000 % 0x40, 0x80 + n / 0x40 % 0x40, 0x80 + n % 0x40]

/-! ## 2. Intervals -/

/-- The code points with which a piece begins in any case: those where the bytes become more, and
those at the ends of what is no character. -/
def fixedCuts : List Nat := [0x80, 0x800, 0xd800, 0xe000, 0x10000]

/-- The place where an interval has to be cut so that the last bytes of a block of code points
range over all their values or stand under a single beginning.  The place is the first code point
of the second piece. -/
def blockCut? (i : Interval) (block : Nat) : Option Nat :=
  if i.first / block = i.last / block then none
  else if i.first % block ≠ 0 then some ((i.first / block + 1) * block)
  else if i.last % block ≠ block - 1 then some (i.last / block * block)
  else none

/-- Where an interval has to be cut, if anywhere. -/
def cut? (i : Interval) : Option Nat :=
  (fixedCuts.find? fun n => i.first < n && n ≤ i.last).or
    (if i.last < 0x80 then none else [0x40, 0x1000, 0x40000].findSome? (blockCut? i))

/-- Cuts an interval as often as there is need, and at most so many times in a row. -/
def split : Nat → Interval → List Interval
  | 0, i => [i]
  | times + 1, i =>
    match cut? i with
    | none => [i]
    | some n => split times ⟨i.first, n - 1⟩ ++ split times ⟨n, i.last⟩

/-- The number of cuts in a row that suffices: at the fixed places and at both ends of each kind of
block. -/
def mostCuts : Nat := 16

/-- Whether the code points of a piece are characters. -/
def isValid (i : Interval) : Bool := i.last < 0xd800 || 0xe000 ≤ i.first

/-- The intervals of bytes that describe the pieces of an interval. -/
def byteRows (i : Interval) : List (List Interval) :=
  ((split mostCuts i).filter isValid).map fun piece =>
    List.zipWith Interval.mk (bytes piece.first) (bytes piece.last)

/-- The intervals of bytes that describe a set. -/
def rowsOf (set : CharSet) : List (List Interval) := set.intervals.flatMap byteRows

end Disassembler8080.Pattern.Utf8
