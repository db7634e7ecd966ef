/-
# Sets in brackets

Reads what stands between brackets: characters, ranges, classes, further brackets, and operations
between such.  Brackets that are open are kept on a stack, each with what stands in front of it, so
that any number of them may stand inside each other.
-/
import Disassembler8080.Pattern.Escape

namespace Disassembler8080.Pattern.Brackets

open Reader

/-! ## 1. What is under way -/

/-- Parts that stand one after the other, the last one in front. -/
structure Parts where
  span : Span
  parts : List SetTree := []

/-- No parts, at a place. -/
def Parts.nothing (position : Nat) : Parts := { span := ⟨position, position⟩ }

/-- One more part. -/
def Parts.add (parts : Parts) (part : SetTree) : Parts :=
  { span := ⟨if parts.parts.isEmpty then part.span.first else parts.span.first, part.span.past⟩
    parts := part :: parts.parts }

/-- The parts as one. -/
def Parts.toTree (parts : Parts) : SetTree :=
  match parts.parts with
  | [] => .empty parts.span
  | [part] => part
  | several => .union parts.span several.reverse

/-- Something begun that has to be ended. -/
inductive Open where
  /-- Brackets, with what stands in front of them. -/
  | brackets (inFront : Parts) (span : Span) (negated : Bool)
  /-- An operation, with what it applies to first. -/
  | operation (kind : SetOperation) (left : SetTree)

/-- What has been read of a set: what is open, the innermost in front, and the parts behind that.
When the outermost brackets are closed there is a result. -/
structure Progress where
  opened : List Open := []
  parts : Parts
  result : Option Tree := none

/-- Ends the operation that is open, if one is. -/
def endOperation (opened : List Open) (right : SetTree) : List Open × SetTree :=
  match opened with
  | .operation kind left :: opened =>
    (opened, .operation ⟨left.span.first, right.span.past⟩ kind left right)
  | opened => (opened, right)

/-- Refuses the innermost brackets because they are not closed. -/
def refuseUnclosed {α : Type} : List Open → Reader α
  | [] => refuseHere .setUnclosed
  | .brackets _ span _ :: _ => refuse .setUnclosed span.first span.past
  | .operation _ _ :: opened => refuseUnclosed opened

/-! ## 2. Single parts -/

/-- The set named in front of a text, as in `[:digit:]`, whether it is negated, and how many
characters that takes. -/
def named? (text : List Char) : Option (CharSet × Bool × Nat) := do
  let text ← cutFront ['[', ':'] text
  let negated := text.head? == some '^'
  let text := if negated then text.tail else text
  let name := text.takeWhile (· ≠ ':')
  let _ ← cutFront [':', ']'] (text.dropWhile (· ≠ ':'))
  let set ← CharSet.named? name
  return (set, negated, name.length + if negated then 5 else 4)
where
  /-- A text without another one in front of it. -/
  cutFront (front text : List Char) : Option (List Char) :=
    if front.isPrefixOf text then some (text.drop front.length) else none

/-- Reads an atom: an escape, or a character that stands for itself. -/
def atom : Reader Atom := do
  match ← current? with
  | none => refuseHere .setUnclosed
  | some '\\' => Escape.read
  | some char =>
    let span ← nextSpan
    discard next
    return .letter { char, span }

/-- An atom as a part of a set. -/
def inSet (atom : Atom) : Reader SetTree :=
  match atom.inSet? with
  | some part => return part
  | none => refuse .setBadEscape atom.span.first atom.span.past

/-- An atom as a bound of a range. -/
def bound (atom : Atom) : Reader Letter :=
  match atom.letter? with
  | some letter => return letter
  | none => refuse .rangeBadBound atom.span.first atom.span.past

/-- Reads an atom or a range.  A hyphen in front of a closing bracket or of another hyphen makes no
range. -/
def atomOrRange (opened : List Open) : Reader SetTree := do
  let first ← atom
  skipBlank
  let cursor ← get
  if cursor.rest.isEmpty then refuseUnclosed opened
  else if cursor.rest.head? ≠ some '-' ∨ cursor.second? = some ']' ∨ cursor.second? = some '-' then
    inSet first
  else
    if (← nextMeant).isNone then refuseUnclosed opened
    let last ← atom
    let span : Span := ⟨first.span.first, last.span.past⟩
    let first ← bound first
    let last ← bound last
    if first.char ≤ last.char then return .range span first last
    else refuse .rangeReversed span.first span.past

/-! ## 3. Brackets -/

/-- Reads what stands at the front of brackets: the mark that negates them, hyphens, and a closing
bracket that stands for itself because there is nothing before it. -/
def openBrackets (progress : Progress) : Reader Progress := do
  let start ← here
  if (← nextMeant).isNone then refuseFrom .setUnclosed start
  let negated := (← current?) == some '^'
  if negated then
    if (← nextMeant).isNone then refuseFrom .setUnclosed start
  let hyphens ← untilDone (hyphen start) (Parts.nothing (← here))
  let parts ← closing start hyphens
  return { progress with
    opened := .brackets progress.parts ⟨start, ← here⟩ negated :: progress.opened, parts }
where
  /-- Takes the next character as a part. -/
  takeNext (parts : Parts) (char : Char) : Reader (Parts × Bool) := do
    let span ← nextSpan
    let more := (← nextMeant).isSome
    return (parts.add (.letter { char, span }), more)
  /-- Takes a hyphen. -/
  hyphen (start : Nat) (parts : Parts) : Reader (Option Parts) := do
    if (← current?) ≠ some '-' then return none
    else
      let (parts, more) ← takeNext parts '-'
      if more then return some parts else refuse .setUnclosed start start
  /-- Takes a closing bracket that has nothing before it. -/
  closing (start : Nat) (parts : Parts) : Reader Parts := do
    if !parts.parts.isEmpty || (← current?) ≠ some ']' then return parts
    else
      let (parts, more) ← takeNext parts ']'
      if more then return parts else refuseFrom .setUnclosed start

/-- Closes the innermost brackets. -/
def closeBrackets (progress : Progress) : Reader Progress := do
  let (opened, body) := endOperation progress.opened progress.parts.toTree
  match opened with
  | .brackets inFront span negated :: opened =>
    discard next
    let span : Span := ⟨span.first, ← here⟩
    if opened.isEmpty then
      return { opened, parts := inFront, result := some (.brackets span negated body) }
    else return { opened, parts := inFront.add (.brackets span negated body) }
  | _ => refuseHere .setUnclosed

/-- Begins an operation, whose sign is two characters long. -/
def beginOperation (progress : Progress) (kind : SetOperation) : Reader Progress := do
  modify (·.skip 2)
  let (opened, left) := endOperation progress.opened progress.parts.toTree
  return { progress with
    opened := .operation kind left :: opened, parts := Parts.nothing (← here) }

/-- The operation whose sign stands in front of a text. -/
def operation? : List Char → Option SetOperation
  | '&' :: '&' :: _ => some .intersection
  | '-' :: '-' :: _ => some .difference
  | '~' :: '~' :: _ => some .symmetricDifference
  | _ => none

/-- Reads on, unless the set is complete. -/
def advance (progress : Progress) : Reader (Option Progress) := do
  if progress.result.isSome then return none
  else
    skipBlank
    let rest := (← get).rest
    match rest.head?, operation? rest with
    | none, _ => refuseUnclosed progress.opened
    | some '[', _ =>
      match if progress.opened.isEmpty then none else named? rest with
      | some (set, negated, length) =>
        let start ← here
        modify (·.skip length)
        let part : SetTree := .named ⟨start, ← here⟩ set negated
        return some { progress with parts := progress.parts.add part }
      | none => return some (← openBrackets progress)
    | some ']', _ => return some (← closeBrackets progress)
    | _, some kind => return some (← beginOperation progress kind)
    | _, none =>
      let part ← atomOrRange progress.opened
      return some { progress with parts := progress.parts.add part }

/-- Reads a set, whose opening bracket comes next. -/
def read : Reader Tree := do
  let progress ← untilDone advance { parts := Parts.nothing (← here) }
  match progress.result with
  | some tree => return tree
  | none => refuseUnclosed progress.opened

end Disassembler8080.Pattern.Brackets
