/-
# Hexadecimal text

Two ways of writing a number in base sixteen: with a fixed count of digits, as bytes and
addresses are written, and with at least a given count, as messages write numbers of any size.

Main statement: `length_fixed` (a fixed width is kept whatever the number).
-/

namespace Disassembler8080

/-- Whether the digits above nine are small or capital letters. -/
inductive LetterCase where
  | lower
  | upper
deriving DecidableEq, Repr

namespace Hexadecimal

/-! ## 1. Digits -/

/-- The digit of a number below sixteen. -/
def digit (letters : LetterCase) (value : Fin 16) : Char :=
  match letters with
  | .lower => Nat.digitChar value
  | .upper => (Nat.digitChar value).toUpper

/-! ## 2. A fixed count of digits -/

/-- The lowest `width` digits of `n`, the highest first. -/
def fixed (letters : LetterCase) : Nat → Nat → List Char
  | 0, _ => []
  | width + 1, n => fixed letters width (n / 16) ++ [digit letters (Fin.ofNat 16 n)]

/-- As many digits are written as were asked for. -/
@[simp] theorem length_fixed (letters : LetterCase) (width n : Nat) :
    (fixed letters width n).length = width := by
  induction width generalizing n with
  | zero => rfl
  | succ width ih => simp [fixed, ih]

/-! ## 3. At least a count of digits -/

/-- All digits of `n` in small letters, filled up with zeros in front to at least `width`. -/
def atLeast (width n : Nat) : List Char :=
  List.leftpad width '0' (Nat.toDigits 16 n)

end Hexadecimal

end Disassembler8080
