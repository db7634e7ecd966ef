/-
# How often something is repeated

Reads what may stand behind a part of a pattern to repeat it: a question mark, a star, a plus sign,
or counts in braces.  A question mark behind that makes no difference to what is matched.
-/
import Disassembler8080.Pattern.Cursor

namespace Disassembler8080.Pattern

namespace Count

open Reader

/-- The counts that a sign stands for. -/
def ofSign? : Char → Option Count
  | '?' => some ⟨0, some 1⟩
  | '*' => some (atLeast 0)
  | '+' => some (atLeast 1)
  | _ => none

/-- What has been read for a number: the number, or why there is none. -/
abbrev Bound := Except Fault Nat

/-- The number that decimal digits stand for. -/
def ofDigits (digits : List Char) : Nat :=
  digits.foldl (fun n c => n * 10 + (c.toNat - '0'.toNat)) 0

/-- Reads a number, which may have white space around it and has to fit 32 bits.  That there is
none, or a too large one, is a fault only if the number is needed. -/
def bound : Reader Bound := do
  discard (untilDone blank ())
  let start ← here
  let digits ← takeMeant Char.isDigit
  let span : Span := ⟨start, ← here⟩
  discard (untilDone blankMeant ())
  if digits.isEmpty then return .error { cause := .countMissing, span }
  else if ofDigits digits < UInt32.size then return .ok (ofDigits digits)
  else return .error { cause := .countTooLarge, span }
where
  /-- Takes white space. -/
  blank (_ : Unit) : Reader (Option Unit) := do
    if (← current?).any Text.isWhiteSpace then
      discard next
      return some ()
    else return none
  /-- Takes white space, and what means nothing behind it. -/
  blankMeant (_ : Unit) : Reader (Option Unit) := do
    if (← current?).any Text.isWhiteSpace then
      discard nextMeant
      return some ()
    else return none

/-- A number that is needed. -/
def needed (bound : Bound) : Reader Nat := liftM bound

/-- Reads the bounds behind an opening brace. -/
def inBraces (start : Nat) : Reader (Nat × Option Nat) := do
  if (← nextMeant).isNone then refuseFrom .countUnclosed start
  let first ← bound
  match ← current? with
  | none => refuseFrom .countUnclosed start
  | some ',' =>
    match ← nextMeant with
    | none => refuseFrom .countUnclosed start
    | some '}' => return (← needed first, none)
    | some _ =>
      let least ← needed first
      let most ← needed (← bound)
      return (least, some most)
  | some _ =>
    let exact ← needed first
    return (exact, some exact)

/-- Takes a question mark. -/
def preference : Reader Unit := do
  if (← current?) == some '?' then discard next

/-- Reads counts, whose opening brace comes next. -/
def counts : Reader Count := do
  let start ← here
  let (least, most) ← inBraces start
  if (← current?) ≠ some '}' then refuseFrom .countUnclosed start
  discard nextMeant
  preference
  match ofBounds? least most with
  | none => refuseFrom .countReversed start
  | some count => return count

/-- Reads a sign that stands for counts, if one comes next. -/
def read? : Reader (Option (Reader Count)) := do
  match ← current? with
  | some '{' => return some counts
  | c =>
    match c.bind ofSign? with
    | none => return none
    | some count =>
      return some do
        discard next
        preference
        return count

end Count

end Disassembler8080.Pattern
