/-
# From the text of a pattern to its tree

Reads a whole pattern.  Groups that are open are kept on a stack, each with what stands in front of
it, so that any number of them may stand inside each other.
-/
import Disassembler8080.Pattern.Brackets
import Disassembler8080.Pattern.GroupHead
import Disassembler8080.Pattern.Count

namespace Disassembler8080.Pattern.Outline

open Reader

/-! ## 1. What is under way -/

/-- Parts that stand one after the other, the last one in front, and where the first one begins. -/
structure Branch where
  start : Nat
  parts : List Tree := []

/-- The parts as one, up to a place.  A single part is not wrapped. -/
def Branch.toTree (branch : Branch) (past : Nat) : Tree :=
  match branch.parts with
  | [] => .empty ⟨branch.start, past⟩
  | [part] => part
  | several => .sequence ⟨branch.start, past⟩ several.reverse

/-- One more part. -/
def Branch.add (branch : Branch) (part : Tree) : Branch :=
  { branch with parts := part :: branch.parts }

/-- Branches between which there is a choice: those that are complete, the last one in front, and
the open one. -/
structure Level where
  /-- Where the first branch begins. -/
  start : Nat
  complete : List Tree := []
  branch : Branch

/-- A level that begins at a place. -/
def Level.startingAt (position : Nat) : Level := { start := position, branch := ⟨position, []⟩ }

/-- One more part in the open branch. -/
def Level.add (level : Level) (part : Tree) : Level :=
  { level with branch := level.branch.add part }

/-- The branches as one, up to a place. -/
def Level.toTree (level : Level) (past : Nat) : Tree :=
  let last := level.branch.toTree past
  match level.complete.reverse with
  | [] => last
  | first :: others => .choice ⟨level.start, past⟩ first (others ++ [last])

/-- An open group: the level that it stands in, what its head says, and whether white space means
nothing around it. -/
structure OpenGroup where
  around : Level
  span : Span
  change : FlagChange
  remembered : Bool
  verbose : Bool

/-- What has been read of a pattern: the open groups, the innermost in front, and what stands behind
the head of that one. -/
structure Progress where
  opened : List OpenGroup := []
  level : Level

/-- One more part. -/
def Progress.add (progress : Progress) (part : Tree) : Progress :=
  { progress with level := progress.level.add part }

/-! ## 2. Reading on -/

/-- Switches on and off whether white space means nothing, if a change is about that. -/
def setVerbose (change : FlagChange) : Reader Unit :=
  modify fun cursor =>
    { cursor with verbose := (change.value? .verbose).getD cursor.verbose }

/-- Reads what begins with an opening parenthesis. -/
def openGroup (progress : Progress) : Reader Progress := do
  match ← GroupHead.read with
  | .flags span change =>
    setVerbose change
    return progress.add (.flags span change)
  | .group span change remembered =>
    let verbose := (← get).verbose
    setVerbose change
    let group : OpenGroup := { around := progress.level, span, change, remembered, verbose }
    return { opened := group :: progress.opened, level := Level.startingAt (← here) }

/-- Reads a closing parenthesis. -/
def closeGroup (progress : Progress) : Reader Progress := do
  match progress.opened with
  | [] => refuseNext .groupUnopened
  | group :: opened =>
    let body := progress.level.toTree (← here)
    modify fun cursor => { cursor with verbose := group.verbose }
    discard next
    let span : Span := ⟨group.span.first, ← here⟩
    return { opened, level := group.around.add (.group span group.change group.remembered body) }

/-- Reads the bar between two branches. -/
def closeBranch (progress : Progress) : Reader Progress := do
  let level := progress.level
  let complete := level.branch.toTree (← here) :: level.complete
  discard next
  return { progress with level := { level with complete, branch := ⟨← here, []⟩ } }

/-- Reads how often the last part is repeated.  There has to be one, and flags are none. -/
def repeatLast (progress : Progress) (count : Reader Count) : Reader Progress := do
  let branch := progress.level.branch
  match branch.parts with
  | [] | .flags _ _ :: _ => refuseHere .repetitionOfNothing
  | part :: parts =>
    let count ← count
    let repetition : Tree := .repeated ⟨part.span.first, ← here⟩ part count
    return { progress with
      level := { progress.level with branch := { branch with parts := repetition :: parts } } }

/-- What a character stands for outside of brackets, without a backslash. -/
def plain (char : Char) (span : Span) : Atom :=
  match char with
  | '.' => .dot span
  | '^' => .anchor span .lineStart
  | '$' => .anchor span .lineEnd
  | char => .letter { char, span }

/-- Reads an atom that begins with a character. -/
def atom (c : Char) : Reader Atom := do
  if c = '\\' then Escape.read
  else
    let span ← nextSpan
    discard next
    return plain c span

/-- Reads on, unless the pattern ends. -/
def advance (progress : Progress) : Reader (Option Progress) := do
  skipBlank
  match ← current? with
  | none => return none
  | some '(' => return some (← openGroup progress)
  | some ')' => return some (← closeGroup progress)
  | some '|' => return some (← closeBranch progress)
  | some '[' => return some (progress.add (← Brackets.read))
  | some c =>
    match ← Count.read? with
    | some count => return some (← repeatLast progress count)
    | none => return some (progress.add (.atom (← atom c)))

/-! ## 3. Whole patterns -/

/-- Reads a whole pattern.  All groups have to be closed, and there is a limit to how deep they are
nested. -/
def read : Reader Tree := do
  let progress ← untilDone advance { level := Level.startingAt 0 }
  match progress.opened with
  | group :: _ => refuse .groupUnclosed group.span.first group.span.past
  | [] =>
    let tree := progress.level.toTree (← here)
    match tree.tooDeep? nestingLimit with
    | some span => refuse .nestedTooDeep span.first span.past
    | none => return tree

end Disassembler8080.Pattern.Outline

namespace Disassembler8080.Pattern

/-- The tree of a pattern. -/
def Tree.ofText (pattern : List Char) : Except Fault Tree :=
  (Outline.read.run { rest := pattern }).map Prod.fst

end Disassembler8080.Pattern
