/-
# Numbers as they are typed

An address or a count on the command line is a number in one of six notations: hexadecimal marked
by `0x`, `0X` or `$` in front or by `h` or `H` behind, octal marked by a zero in front, and decimal.
White space around the number is ignored, and one plus sign may stand directly in front of the
digits.  The number has to fit 64 bits.

Main statements: `parse_error` (the only failure shows the text as it was given) and
`value_of_parse` (what is read is what the digits stand for).
-/
import Disassembler8080.Failure
import Disassembler8080.Text.WhiteSpace

namespace Disassembler8080

/-- The bases in which numbers are typed. -/
inductive Base where
  | octal
  | decimal
  | hexadecimal
deriving DecidableEq, Repr

/-- The number of digits of a base. -/
def Base.radix : Base → Nat
  | .octal => 8
  | .decimal => 10
  | .hexadecimal => 16

/-- A number with the mark of its notation taken off. -/
structure Numeral where
  base : Base
  digits : List Char
deriving DecidableEq, Repr

namespace Numeral

/-! ## 1. Notations -/

/-- Recognises the notation of a text by its mark.  The marks in front are looked for before those
behind, and both before the zero that marks octal; a zero alone is decimal. -/
def ofText (text : List Char) : Numeral :=
  match text with
  | '0' :: 'x' :: digits => ⟨.hexadecimal, digits⟩
  | '0' :: 'X' :: digits => ⟨.hexadecimal, digits⟩
  | '$' :: digits => ⟨.hexadecimal, digits⟩
  | _ =>
    if text.getLast? = some 'h' ∨ text.getLast? = some 'H' then ⟨.hexadecimal, text.dropLast⟩
    else
      match text with
      | '0' :: digit :: digits => ⟨.octal, digit :: digits⟩
      | _ => ⟨.decimal, text⟩

/-! ## 2. Digits -/

/-- The number that a character stands for, whatever the base: ten decimal digits and six letters
of either case. -/
def digitValue? (c : Char) : Option Nat :=
  if '0' ≤ c ∧ c ≤ '9' then some (c.toNat - '0'.toNat)
  else if 'a' ≤ c ∧ c ≤ 'f' then some (c.toNat - 'a'.toNat + 10)
  else if 'A' ≤ c ∧ c ≤ 'F' then some (c.toNat - 'A'.toNat + 10)
  else none

/-- The digit that a character is in a base. -/
def digit? (base : Base) (c : Char) : Option Nat :=
  (digitValue? c).filter (· < base.radix)

/-- Reads digits from the highest on, continuing the number `n`. -/
def digitsFrom? (base : Base) (n : Nat) (digits : List Char) : Option Nat :=
  digits.foldlM (fun n c => (digit? base c).map (n * base.radix + ·)) n

/-- Digits without the plus sign that may stand in front of them. -/
def unsigned : List Char → List Char
  | '+' :: digits => digits
  | digits => digits

/-- The number that a numeral stands for: there has to be a digit, and nothing but digits. -/
def value? (numeral : Numeral) : Option Nat :=
  match unsigned numeral.digits with
  | [] => none
  | digits => digitsFrom? numeral.base 0 digits

/-! ## 3. Texts -/

/-- Reads a number.  The failure shows the text as it was given. -/
def parse (text : String) : Except Failure UInt64 :=
  match (ofText (Text.trim text.toList)).value? with
  | some n => if n < UInt64.size then .ok (UInt64.ofNat n) else .error (.notANumber text)
  | none => .error (.notANumber text)

/-- The only way to fail is with the text as it was given. -/
theorem parse_error {text : String} {failure : Failure} (h : parse text = .error failure) :
    failure = .notANumber text := by
  unfold parse at h
  split at h
  · split at h
    · cases h
    · cases h; rfl
  · cases h; rfl

/-- What is read is what the digits stand for; nothing is lost in 64 bits. -/
theorem value_of_parse {text : String} {n : UInt64} (h : parse text = .ok n) :
    (ofText (Text.trim text.toList)).value? = some n.toNat := by
  unfold parse at h
  split at h
  · rename_i value hvalue
    split at h
    · rename_i hlt
      cases h
      rw [hvalue, UInt64.toNat_ofNat_of_lt' hlt]
    · cases h
  · cases h

end Numeral

end Disassembler8080
