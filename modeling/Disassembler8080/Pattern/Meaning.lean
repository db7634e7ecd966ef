/-
# What a pattern means

Turns the tree of a pattern into an expression.  On the way the flags are followed: one that is set
holds up to the end of the group around it.  What could only be matched with tables of the
characters of all scripts is refused, as is what could match a part of the bytes of a character.

Main statement: `Gathered.contains_combine` (what two sets in brackets put together hold).
-/
import Disassembler8080.Pattern.Tree

namespace Disassembler8080.Pattern

/-! ## 1. Modes -/

/-- How characters and places are matched. -/
structure Modes where
  anyCase : Bool := false
  multiLine : Bool := false
  dotAll : Bool := false
  scripts : Bool := true
  anyLineEnd : Bool := false
deriving DecidableEq, Repr

/-- Modes with the changes that flags make.  Two of the flags make none. -/
def Modes.apply (modes : Modes) (change : FlagChange) : Modes :=
  { anyCase := (change.value? .anyCase).getD modes.anyCase
    multiLine := (change.value? .multiLine).getD modes.multiLine
    dotAll := (change.value? .dotAll).getD modes.dotAll
    scripts := (change.value? .scripts).getD modes.scripts
    anyLineEnd := (change.value? .anyLineEnd).getD modes.anyLineEnd }

/-- Refuses a part of a pattern. -/
def refuseAt {α : Type} (cause : Cause) (span : Span) : Except Fault α := .error { cause, span }

/-! ## 2. Sets -/

/-- A set of which it may be known that it holds each letter in both cases or in none. -/
structure Gathered where
  set : CharSet
  caseClosed : Bool
deriving DecidableEq, Repr

namespace Gathered

/-- No characters, which holds no letter in one case only. -/
def nothing : Gathered := ⟨.none, true⟩

/-- A set of which nothing more is known. -/
def ofSet (set : CharSet) : Gathered := ⟨set, set.isEmpty⟩

/-- One more interval. -/
def insert (a : Gathered) (i : Interval) : Gathered := ⟨a.set.insert i, false⟩

/-- The characters of both. -/
def union (a b : Gathered) : Gathered :=
  if b.set.isEmpty || a.set == b.set then a
  else ⟨a.set.union b.set, a.caseClosed && b.caseClosed⟩

/-- The characters that both hold. -/
def intersection (a b : Gathered) : Gathered :=
  if a.set.isEmpty then a
  else if b.set.isEmpty then nothing
  else ⟨a.set.intersection b.set, a.caseClosed && b.caseClosed⟩

/-- The characters of one that the other does not hold. -/
def difference (a b : Gathered) : Gathered :=
  if a.set.isEmpty || b.set.isEmpty then a
  else ⟨a.set.difference b.set, a.caseClosed && b.caseClosed⟩

/-- Two sets put together. -/
def combine (kind : SetOperation) (a b : Gathered) : Gathered :=
  match kind with
  | .intersection => a.intersection b
  | .difference => a.difference b
  | .symmetricDifference => (a.union b).difference (a.intersection b)

/-- The characters that it does not hold. -/
def complement (a : Gathered) : Gathered := ⟨a.set.complement, a.set.isEmpty || a.caseClosed⟩

/-- Adds the other case of all letters, if the case is to make no difference.  Only that of the
letters of ASCII is known. -/
def fold (modes : Modes) (span : Span) (a : Gathered) : Except Fault Gathered :=
  if !modes.anyCase || a.caseClosed || a.set.isEmpty then .ok a
  else if modes.scripts then refuseAt .scriptCaseMissing span
  else .ok ⟨a.set.withOtherCase, true⟩

/-- Takes the complement of what is negated.  Where characters are told apart by single bytes a
complement would hold bytes that are no characters. -/
def negate (modes : Modes) (span : Span) (negated : Bool) (a : Gathered) : Except Fault Gathered :=
  if !negated then .ok a
  else if modes.scripts then .ok a.complement
  else refuseAt .brokenText span

theorem contains_union (a b : Gathered) (c : Char) :
    (a.union b).set.contains c = (a.set.contains c || b.set.contains c) := by
  unfold union
  split
  · next h =>
    rcases Bool.or_eq_true_iff.mp h with hempty | hsame
    · rw [CharSet.contains_of_isEmpty hempty, Bool.or_false]
    · rw [← beq_iff_eq.mp hsame, Bool.or_self]
  · exact CharSet.contains_union a.set b.set c

theorem contains_intersection (a b : Gathered) (c : Char) :
    (a.intersection b).set.contains c = (a.set.contains c && b.set.contains c) := by
  unfold intersection
  split
  · next h => rw [CharSet.contains_of_isEmpty h, Bool.false_and]
  · split
    · next h => rw [CharSet.contains_of_isEmpty h, Bool.and_false, nothing, CharSet.contains_none]
    · exact CharSet.contains_intersection a.set b.set c

theorem contains_difference (a b : Gathered) (c : Char) :
    (a.difference b).set.contains c = (a.set.contains c && !b.set.contains c) := by
  unfold difference
  split
  · next h =>
    rcases Bool.or_eq_true_iff.mp h with hempty | hempty
    · rw [CharSet.contains_of_isEmpty hempty, Bool.false_and]
    · rw [CharSet.contains_of_isEmpty hempty, Bool.not_false, Bool.and_true]
  · exact CharSet.contains_difference a.set b.set c

/-- **Two sets put together** hold what both hold, what the first one alone holds, or what exactly
one of them holds.  None of the shortcuts for empty and equal sets changes that. -/
theorem contains_combine (kind : SetOperation) (a b : Gathered) (c : Char) :
    (a.combine kind b).set.contains c =
      match kind with
      | .intersection => a.set.contains c && b.set.contains c
      | .difference => a.set.contains c && !b.set.contains c
      | .symmetricDifference => a.set.contains c ^^ b.set.contains c := by
  cases kind with
  | intersection => exact contains_intersection a b c
  | difference => exact contains_difference a b c
  | symmetricDifference =>
    rw [combine, contains_difference, contains_union, contains_intersection]
    cases a.set.contains c <;> cases b.set.contains c <;> rfl

end Gathered

/-- The interval of a single character. -/
def Interval.single (c : Char) : Interval := ⟨c.toNat, c.toNat⟩

/-- The character that a letter stands for.  Two digits that stand for a byte beyond ASCII are no
character by themselves. -/
def Letter.char? (modes : Modes) (letter : Letter) : Except Fault Char :=
  if !modes.scripts && letter.byteDigits && 0x7f < letter.char.toNat then
    refuseAt .brokenText letter.span
  else .ok letter.char

/-- The character that a letter stands for in a set. -/
def Letter.charInSet? (modes : Modes) (letter : Letter) : Except Fault Char := do
  let char ← letter.char? modes
  if !modes.scripts && 0x7f < char.toNat then refuseAt .scriptsNotAllowed letter.span
  else return char

/-- The characters of a class. -/
def LetterClass.meaning (modes : Modes) (span : Span) (kind : LetterClass) (negated : Bool) :
    Except Fault CharSet :=
  if modes.scripts then refuseAt .scriptClassMissing span
  else if negated then refuseAt .brokenText span
  else .ok kind.asciiSet

/-- The name of a property without what makes no difference in it: case, spaces, hyphens and
underscores, characters beyond ASCII, and `is` in front. -/
def propertyKey (name : List Char) : List Char :=
  let small := name.map Char.toLower
  let body := if ['i', 's'].isPrefixOf small then small.drop 2 else small
  body.filter fun c => c.toNat < 0x80 && c != ' ' && c != '_' && c != '-'

/-- Why the characters with a property are not known.  Three names are those of categories, whose
values are not known; all others are not known themselves. -/
def propertyCause (name : List Char) : Cause :=
  if name.contains ':' || name.contains '=' then .propertyUnknown
  else if [['c', 'f'], ['s', 'c'], ['l', 'c']].contains (propertyKey name) then
    .propertyValueUnknown
  else .propertyUnknown

/-- Refuses a property. -/
def propertyMeaning {α : Type} (modes : Modes) (span : Span) (name : List Char) : Except Fault α :=
  refuseAt (if modes.scripts then propertyCause name else .scriptsNotAllowed) span

mutual

/-- The characters of a part of a set, together with those before it. -/
def SetTree.meaning (modes : Modes) (before : Gathered) : SetTree → Except Fault Gathered
  | .empty _ => .ok before
  | .letter character => do
    let c ← character.charInSet? modes
    return before.insert (.single c)
  | .range _ first last => do
    let first ← first.charInSet? modes
    let last ← last.charInSet? modes
    return before.insert ⟨first.toNat, last.toNat⟩
  | .letterClass span kind negated => do
    let set ← kind.meaning modes span negated
    return before.union ⟨set, true⟩
  | .property span name => propertyMeaning modes span name
  | .named span set negated => do
    let named ← (Gathered.ofSet set).fold modes span
    let named ← named.negate modes span negated
    return before.union named
  | .brackets span negated body => do
    let inside ← body.meaning modes .nothing
    let inside ← inside.fold modes span
    let inside ← inside.negate modes span negated
    return before.union inside
  | .union _ parts => SetTree.meanings modes before parts
  | .operation _ kind left right => do
    let first ← left.meaning modes .nothing
    let second ← right.meaning modes .nothing
    let second ← second.fold modes right.span
    let first ← first.fold modes left.span
    return before.union (first.combine kind second)

/-- The characters of some parts of a set, together with those before them. -/
def SetTree.meanings (modes : Modes) (before : Gathered) :
    List SetTree → Except Fault Gathered
  | [] => .ok before
  | part :: rest => do
    let before ← part.meaning modes before
    SetTree.meanings modes before rest

end

/-! ## 3. Atoms -/

/-- The characters that a dot stands for. -/
def dotSet (modes : Modes) : CharSet :=
  if modes.dotAll then .all
  else if modes.anyLineEnd then (CharSet.all.remove (.single '\n')).remove (.single '\r')
  else CharSet.all.remove (.single '\n')

/-- The condition that an anchor stands for. -/
def Anchor.meaning (modes : Modes) : Anchor → Assertion
  | .lineStart =>
    if !modes.multiLine then .textStart
    else if modes.anyLineEnd then .anyLineStart
    else .lineStart
  | .lineEnd =>
    if !modes.multiLine then .textEnd
    else if modes.anyLineEnd then .anyLineEnd
    else .lineEnd
  | .textStart => .textStart
  | .textEnd => .textEnd
  | .word condition => if modes.scripts then .scriptWord condition else .word condition

/-- The characters that a letter stands for by itself. -/
def Letter.meaning (modes : Modes) (letter : Letter) : Except Fault CharSet := do
  let c ← letter.char? modes
  let set : CharSet := ⟨[.single c]⟩
  if !modes.anyCase then return set
  else if modes.scripts then refuseAt .scriptCaseMissing letter.span
  else return set.withOtherCase

/-- What an atom stands for. -/
def Atom.meaning (modes : Modes) : Atom → Except Fault Expression
  | .letter character => return .one (← character.meaning modes)
  | .dot span => if modes.scripts then return .one (dotSet modes) else refuseAt .brokenText span
  | .anchor _ kind => return .assertion (kind.meaning modes)
  | .letterClass span kind negated => return .one (← kind.meaning modes span negated)
  | .property span name => propertyMeaning modes span name

/-! ## 4. Patterns -/

mutual

/-- What a tree stands for, and the modes that hold behind it. -/
def Tree.meaning (modes : Modes) : Tree → Except Fault (Expression × Modes)
  | .empty _ => return (.empty, modes)
  | .atom part => return (← part.meaning modes, modes)
  | .flags _ change => return (.empty, modes.apply change)
  | .brackets span negated body => do
    let set ← (SetTree.brackets span negated body).meaning modes .nothing
    return (.one set.set, modes)
  | .repeated _ body count => do
    let (body, modes) ← body.meaning modes
    return (body.times count, modes)
  | .group _ change remembered body => do
    let (body, _) ← body.meaning (modes.apply change)
    return (if remembered then .group body else body, modes)
  | .sequence _ parts => do
    let (parts, modes) ← Tree.meanings modes parts
    return (.sequence parts, modes)
  | .choice _ first others => do
    let (first, modes) ← first.meaning modes
    let (others, modes) ← Tree.meanings modes others
    return (.choice first others, modes)

/-- What some trees stand for, and the modes that hold behind them. -/
def Tree.meanings (modes : Modes) : List Tree → Except Fault (List Expression × Modes)
  | [] => return ([], modes)
  | part :: rest => do
    let (part, modes) ← part.meaning modes
    let (rest, modes) ← Tree.meanings modes rest
    return (part :: rest, modes)

end

end Disassembler8080.Pattern
