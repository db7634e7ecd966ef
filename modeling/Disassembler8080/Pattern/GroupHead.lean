/-
# How groups begin

What may stand behind an opening parenthesis: nothing, a name, or flags.  Flags that are followed by
a closing parenthesis make no group but hold from there on.
-/
import Disassembler8080.Pattern.Cursor
import Disassembler8080.Text.Alphabetic

namespace Disassembler8080.Pattern

/-- What begins with a parenthesis. -/
inductive GroupHead where
  /-- Flags that hold from here on, with the place that they take. -/
  | flags (span : Span) (change : FlagChange)
  /-- A group.  The place is that of the parenthesis. -/
  | group (span : Span) (change : FlagChange) (remembered : Bool)
deriving DecidableEq, Repr

namespace GroupHead

open Reader

/-! ## 1. Names -/

/-- Whether a character may be in the name of a group. -/
def isNameChar (isFirst : Bool) (c : Char) : Bool :=
  c == '_' || Text.isAlphabetic c
    || !isFirst && (c == '.' || c == '[' || c == ']' || Text.isNumeric c)

/-- Reads the name of a group up to the angle bracket behind it.  Each name is given once. -/
def name : Reader Unit := do
  let start ← here
  let name ← untilDone letter []
  match ← current? with
  | none => refuseHere .nameUnclosed
  | some _ =>
    let span : Span := ⟨start, ← here⟩
    discard next
    if name.isEmpty then refuse .nameEmpty start start
    else
      match (← get).names.lookup name with
      | some earlier => throw { cause := .nameRepeated, span, related := some earlier }
      | none => modify fun cursor => { cursor with names := (name, span) :: cursor.names }
where
  /-- Takes a character of a name. -/
  letter (taken : List Char) : Reader (Option (List Char)) := do
    match (← current?).filter (· ≠ '>') with
    | none => return none
    | some c =>
      if isNameChar taken.isEmpty c then
        discard next
        return some (c :: taken)
      else refuseNext .nameBadCharacter

/-! ## 2. Flags -/

/-- A flag or the minus sign, and where it stands. -/
structure FlagSign where
  /-- No flag for the minus sign. -/
  flag : Option Flag
  span : Span
deriving DecidableEq, Repr

/-- What signs set flags to: those behind the minus sign are switched off. -/
def changeOf (value : Bool) : List FlagSign → FlagChange
  | [] => []
  | sign :: signs =>
    match sign.flag with
    | none => changeOf false signs
    | some flag => (flag, value) :: changeOf value signs

/-- Reads one sign behind others, unless the flags end here. -/
def flagSign (signs : List FlagSign) : Reader (Option (List FlagSign)) := do
  match (← current?).filter fun c => c ≠ ':' && c ≠ ')' with
  | none => return none
  | some c =>
    let span ← nextSpan
    let flag ← if c = '-' then pure none else some <$> known c
    match signs.find? (·.flag == flag) with
    | some earlier =>
      throw {
        cause := if flag.isNone then .negationRepeated else .flagRepeated
        span, related := some earlier.span }
    | none =>
      if (← next).isNone then refuseHere .flagUnfinished
      else return some ({ flag, span } :: signs)
where
  /-- The flag of a letter. -/
  known (c : Char) : Reader Flag :=
    match Flag.ofLetter? c with
    | some flag => return flag
    | none => refuseNext .flagUnknown

/-- Reads flags up to a colon or a closing parenthesis. -/
def flagChange : Reader FlagChange := do
  let signs ← untilDone flagSign []
  match signs.head? with
  | some { flag := none, span } => refuse .negationDangling span.first span.past
  | _ => return changeOf true signs.reverse

/-! ## 3. All heads -/

/-- Reads the head of a group, whose parenthesis comes next. -/
def read : Reader GroupHead := do
  let span ← nextSpan
  discard nextMeant
  if (← accept "?=") || (← accept "?!") || (← accept "?<=") || (← accept "?<!") then
    refuseFrom .lookAround span.first
  let start ← here
  if (← accept "?P<") || (← accept "?<") then
    name
    return .group span [] true
  else if ← accept "?" then
    if (← current?).isNone then refuse .groupUnclosed span.first span.past
    let change ← flagChange
    let isGroup := (← current?) == some ':'
    discard next
    if isGroup then return .group span change false
    else if change.isEmpty then refuse .repetitionOfNothing start start
    else return .flags ⟨span.first, ← here⟩ change
  else return .group span [] true

end GroupHead

end Disassembler8080.Pattern
