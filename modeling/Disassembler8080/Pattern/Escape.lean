/-
# Escapes

What a backslash begins: a character given by its code point, a class of characters, an anchor, or a
character that would have a meaning without the backslash.
-/
import Disassembler8080.Pattern.Cursor
import Disassembler8080.Numeral

namespace Disassembler8080.Pattern.Escape

open Reader

/-! ## 1. Characters by code point -/

/-- Whether a character is a digit of base sixteen. -/
def isHexDigit (c : Char) : Bool := (Numeral.digitValue? c).isSome

/-- The character whose code point is written in base sixteen. -/
def codePoint? (digits : List Char) : Option Char :=
  let n := digits.foldl (fun n c => n * 16 + (Numeral.digitValue? c).getD 0) 0
  if n.isValidChar then some (Char.ofNat n) else none

/-- How many digits follow a letter that introduces a code point. -/
def digitCount? : Char → Option Nat
  | 'x' => some 2
  | 'u' => some 4
  | 'U' => some 8
  | _ => none

/-- Reads so many digits. -/
def digits : Nat → Reader (List Char)
  | 0 => return []
  | count + 1 => do
    match ← current? with
    | none => refuseHere .escapeUnfinished
    | some c =>
      if isHexDigit c then
        discard nextMeant
        return c :: (← digits count)
      else refuseNext .codePointBadDigit

/-- Reads a code point behind the letter that introduces it: either so many digits, or any number
of digits in braces. -/
def codePoint (start count : Nat) : Reader Letter := do
  match ← nextMeant with
  | none => refuseHere .escapeUnfinished
  | some '{' =>
    let brace ← here
    discard nextMeant
    let digits ← takeMeant isHexDigit
    match ← current? with
    | none => refuseFrom .escapeUnfinished brace
    | some '}' =>
      let past ← here
      discard nextMeant
      if digits.isEmpty then refuseFrom .codePointEmpty brace
      else
        match codePoint? digits with
        | none => refuse .codePointInvalid (brace + 1) past
        | some char => return { char, span := ⟨start, ← here⟩ }
    | some _ => refuseNext .codePointBadDigit
  | some _ =>
    let first ← here
    let digits ← digits count
    match codePoint? digits with
    | none => refuseFrom .codePointInvalid first
    | some char => return { char, span := ⟨start, ← here⟩, byteDigits := count == 2 }

/-! ## 2. Classes -/

/-- The class that a letter names, and whether the characters outside it are meant. -/
def letterClass? : Char → Option (LetterClass × Bool)
  | 'd' => some (.digit, false)
  | 's' => some (.space, false)
  | 'w' => some (.word, false)
  | 'D' => some (.digit, true)
  | 'S' => some (.space, true)
  | 'W' => some (.word, true)
  | _ => none

/-- Reads the name of a property: one character, or a name in braces. -/
def property (start : Nat) : Reader Atom := do
  match ← nextMeant with
  | none => refuseHere .escapeUnfinished
  | some '{' =>
    discard nextMeant
    let name ← takeMeant (· ≠ '}')
    match ← current? with
    | none => refuseHere .escapeUnfinished
    | some _ =>
      discard next
      return .property ⟨start, ← here⟩ name
  | some '\\' => refuseNext .propertyInvalid
  | some c =>
    discard nextMeant
    return .property ⟨start, ← here⟩ [c]

/-! ## 3. Anchors -/

/-- Whether a character may be in the name of a condition on words. -/
def isConditionChar (c : Char) : Bool := c.isAlpha || c == '-'

/-- The condition on words that a name in braces stands for. -/
def wordCondition? (name : List Char) : Option WordCondition :=
  match String.ofList name with
  | "start" => some .start
  | "end" => some .finish
  | "start-half" => some .startHalf
  | "end-half" => some .finishHalf
  | _ => none

/-- Reads the condition in braces that may follow the edge of a word.  A brace with something else
in it is left alone, since it may be a count. -/
def wordCondition (start : Nat) : Reader WordCondition := do
  let opened ← get
  if opened.rest.head? ≠ some '{' then return .edge
  else
    match ← nextMeant with
    | none => refuseFrom .wordEdgeUnfinished start
    | some c =>
      if isConditionChar c then
        let first ← here
        let name ← takeMeant isConditionChar
        if (← current?) ≠ some '}' then refuseFrom .wordEdgeUnclosed opened.position
        else
          match wordCondition? name with
          | none => refuseFrom .wordEdgeUnknown first
          | some condition =>
            discard next
            return condition
      else
        set opened
        return .edge

/-- The anchor that a letter names. -/
def anchor? : Char → Option Anchor
  | 'A' => some .textStart
  | 'z' => some .textEnd
  | 'B' => some (.word .noEdge)
  | '<' => some (.word .start)
  | '>' => some (.word .finish)
  | _ => none

/-! ## 4. All escapes -/

/-- The control character that a letter names. -/
def control? : Char → Option Char
  | 'a' => some '\x07'
  | 'f' => some '\x0c'
  | 't' => some '\t'
  | 'n' => some '\n'
  | 'r' => some '\r'
  | 'v' => some '\x0b'
  | _ => none

/-- Whether a character stands for itself behind a backslash.  Letters and digits do not, and the
angle brackets are anchors. -/
def standsForItself (c : Char) : Bool :=
  c.toNat < 0x80 && !c.isAlphanum && c != '<' && c != '>'

/-- The character that stands behind a backslash. -/
def escaped? (c : Char) : Option Char := if standsForItself c then some c else control? c

/-- Reads an escape, whose backslash comes next. -/
def read : Reader Atom := do
  let start ← here
  match ← next with
  | none => refuseFrom .escapeUnfinished start
  | some c =>
    if c.isDigit then refuse .backReference start ((← here) + 1)
    else if c = 'p' ∨ c = 'P' then property start
    else
      match digitCount? c with
      | some count => return .letter (← codePoint start count)
      | none =>
        discard next
        let span : Span := ⟨start, ← here⟩
        match letterClass? c, escaped? c, anchor? c with
        | some (kind, negated), _, _ => return .letterClass span kind negated
        | none, some char, _ => return .letter { char, span }
        | none, none, some anchor => return .anchor span anchor
        | none, none, none =>
          if c = 'b' then
            let condition ← wordCondition start
            return .anchor ⟨start, ← here⟩ (.word condition)
          else refuseFrom .escapeUnknown start

end Disassembler8080.Pattern.Escape
