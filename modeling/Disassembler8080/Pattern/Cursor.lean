/-
# Reading the text of a pattern

A cursor stands in the text of a pattern: what is still to be read, how much has been read, and
whether white space and comments are passed over.  A reader is a function of the cursor that moves
it on or finds a fault.
-/
import Disassembler8080.Pattern.Tree
import Disassembler8080.Text.WhiteSpace

namespace Disassembler8080.Pattern

/-! ## 1. Cursors -/

/-- A place in the text of a pattern. -/
structure Cursor where
  /-- What is still to be read. -/
  rest : List Char
  /-- How many characters have been read. -/
  position : Nat := 0
  /-- Whether white space and comments mean nothing. -/
  verbose : Bool := false
  /-- The names of groups so far, with their places. -/
  names : List (List Char × Span) := []
deriving DecidableEq, Repr

namespace Cursor

/-- The cursor behind the next character, if there is one. -/
def step (cursor : Cursor) : Cursor :=
  match cursor.rest with
  | [] => cursor
  | _ :: rest => { cursor with rest, position := cursor.position + 1 }

/-- The cursor so many characters further on. -/
def skip (cursor : Cursor) : Nat → Cursor
  | 0 => cursor
  | count + 1 => cursor.step.skip count

/-- How many characters in front of a text are white space or belong to comments.  A comment begins
with a number sign and ends with its line. -/
def blankLength (inComment : Bool) : List Char → Nat
  | [] => 0
  | c :: rest =>
    if inComment then blankLength (c ≠ '\n') rest + 1
    else if Text.isWhiteSpace c then blankLength false rest + 1
    else if c = '#' then blankLength true rest + 1
    else 0

/-- The cursor behind white space and comments, where they mean nothing. -/
def skipBlank (cursor : Cursor) : Cursor :=
  if cursor.verbose then cursor.skip (blankLength false cursor.rest) else cursor

/-- The next character that means something among those of a text: neither white space nor the
number sign of a comment. -/
def firstMeant (inComment : Bool) : List Char → Option Char
  | [] => none
  | c :: rest =>
    if Text.isWhiteSpace c then firstMeant inComment rest
    else if c = '#' ∧ ¬inComment then firstMeant true rest
    else some c

/-- The character after the next one.  Where white space means nothing it is looked past, unless
there is nothing else. -/
def second? (cursor : Cursor) : Option Char :=
  let behind := cursor.rest.drop 1
  if cursor.verbose then (firstMeant false behind).or behind.head? else behind.head?

end Cursor

/-! ## 2. Readers -/

/-- What moves a cursor on, or finds a fault. -/
abbrev Reader := StateT Cursor (Except Fault)

namespace Reader

/-- The next character, which is not taken. -/
def current? : Reader (Option Char) := return (← get).rest.head?

/-- How much has been read. -/
def here : Reader Nat := return (← get).position

/-- Takes a character, and gives the next one. -/
def next : Reader (Option Char) := do
  modify Cursor.step
  current?

/-- Passes over white space and comments, where they mean nothing. -/
def skipBlank : Reader Unit := modify Cursor.skipBlank

/-- Takes a character and what means nothing behind it, and gives the next one. -/
def nextMeant : Reader (Option Char) := do
  modify (·.step.skipBlank)
  current?

/-- Takes a text if it comes next, and tells whether it does. -/
def accept (text : String) : Reader Bool := do
  let cursor ← get
  if text.toList.isPrefixOf cursor.rest then
    set (cursor.skip text.length)
    return true
  else return false

/-- Refuses a part of the pattern. -/
def refuse {α : Type} (cause : Cause) (first past : Nat) : Reader α :=
  throw { cause, span := ⟨first, past⟩ }

/-- Refuses a part of the pattern from a place on up to here. -/
def refuseFrom {α : Type} (cause : Cause) (first : Nat) : Reader α := do
  refuse cause first (← here)

/-- Refuses the pattern here, without a character. -/
def refuseHere {α : Type} (cause : Cause) : Reader α := do
  refuse cause (← here) (← here)

/-- Refuses the next character. -/
def refuseNext {α : Type} (cause : Cause) : Reader α := do
  refuse cause (← here) ((← here) + 1)

/-- Where the next character stands. -/
def nextSpan : Reader Span := return ⟨← here, (← here) + 1⟩

/-- Repeats an action until it gives nothing, at most so many times. -/
def repeatedly {σ : Type} (action : σ → Reader (Option σ)) : Nat → σ → Reader σ
  | 0, state => pure state
  | count + 1, state => do
    match ← action state with
    | none => return state
    | some state => repeatedly action count state

/-- Repeats an action until it gives nothing.  Each time but the last has to take a character, so
that there are no more times than characters. -/
def untilDone {σ : Type} (action : σ → Reader (Option σ)) (state : σ) : Reader σ := do
  repeatedly action ((← get).rest.length + 1) state

/-- Takes the characters that fulfil a condition, with what means nothing between and behind
them. -/
def takeMeant (wanted : Char → Bool) : Reader (List Char) := do
  let taken ← untilDone (σ := List Char)
    (fun taken => do
      match (← current?).filter wanted with
      | none => return none
      | some c =>
        skipOne
        return some (c :: taken)) []
  return taken.reverse
where
  /-- Takes one character and what means nothing behind it. -/
  skipOne : Reader Unit := discard nextMeant

end Reader

end Disassembler8080.Pattern
