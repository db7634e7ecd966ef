/-
# Expressions and where they match

An expression describes texts: a character out of a set, a condition on the place where a match
stands, and sequences, choices and repetitions of such.  It is matched by walking over the text once
and keeping what is still to be matched: after each character an expression leaves behind the
expressions for the rest.
-/
import Disassembler8080.Pattern.CharSet

namespace Disassembler8080.Pattern

/-! ## 1. Expressions -/

/-- Conditions on the words around a place. -/
inductive WordCondition where
  /-- A word begins or ends here. -/
  | edge
  /-- No word begins or ends here. -/
  | noEdge
  /-- A word begins here. -/
  | start
  /-- A word ends here. -/
  | finish
  /-- There is no word in front of this place. -/
  | startHalf
  /-- There is no word behind this place. -/
  | finishHalf
deriving DecidableEq, Repr

/-- Conditions on the place where a match stands. -/
inductive Assertion where
  | textStart
  | textEnd
  /-- Lines end with a line feed. -/
  | lineStart
  | lineEnd
  /-- Lines end with a carriage return, a line feed or both. -/
  | anyLineStart
  | anyLineEnd
  /-- Words consist of letters, digits and underscores of ASCII. -/
  | word (condition : WordCondition)
  /-- Words consist of letters and the like of all scripts. -/
  | scriptWord (condition : WordCondition)
deriving DecidableEq, Repr

/-- How often something may be repeated: at least so many times and, if there is a limit, so many
times more. -/
structure Count where
  least : Nat
  more : Option Nat
deriving DecidableEq, Repr

namespace Count

/-- Exactly so many times. -/
def exactly (n : Nat) : Count := ⟨n, some 0⟩

/-- So many times or more. -/
def atLeast (n : Nat) : Count := ⟨n, none⟩

/-- The count with two bounds, which must not be in the wrong order.  There need not be an upper
one. -/
def ofBounds? (least : Nat) : Option Nat → Option Count
  | none => some (atLeast least)
  | some most => if least ≤ most then some ⟨least, some (most - least)⟩ else none

/-- The count for all the other times once there has been one, unless that was the last. -/
def afterOne? : Count → Option Count
  | ⟨least + 1, more⟩ => some ⟨least, more⟩
  | ⟨0, none⟩ => some ⟨0, none⟩
  | ⟨0, some 0⟩ => none
  | ⟨0, some (more + 1)⟩ => some ⟨0, some more⟩

/-- The count with the same upper bound that asks for nothing. -/
def fromNone (count : Count) : Count := ⟨0, count.more.map (count.least + ·)⟩

/-- The count in which one time stands for all. -/
def atMostOnce (count : Count) : Count :=
  if 0 < count.least then exactly 1 else ⟨0, some (min (count.more.getD 1) 1)⟩

end Count

/-- What a text has to be like. -/
inductive Expression where
  /-- The text without characters. -/
  | empty
  /-- One character out of a set. -/
  | one (set : CharSet)
  /-- No character, at a place that fulfils a condition. -/
  | assertion (condition : Assertion)
  /-- One expression and then the other. -/
  | both (first second : Expression)
  /-- One of two expressions. -/
  | either (left right : Expression)
  /-- An expression so many times. -/
  | repeated (body : Expression) (count : Count)
  /-- An expression whose match is remembered. -/
  | group (body : Expression)
deriving DecidableEq, Repr

/-! ## 2. Places -/

/-- A place in a text: the characters in front of it and behind it. -/
structure Place where
  before : Option Char
  after : Option Char
deriving DecidableEq, Repr

/-- Whether a character of ASCII that belongs to words is there. -/
def isWordChar (c : Option Char) : Bool := c.any CharSet.word.contains

/-- Whether a condition on words holds between two characters, each either of a word or not. -/
def WordCondition.holds (condition : WordCondition) (before after : Bool) : Bool :=
  match condition with
  | .edge => before != after
  | .noEdge => before == after
  | .start => !before && after
  | .finish => before && !after
  | .startHalf => !before
  | .finishHalf => !after

/-- Whether a condition holds at a place.  The words of all scripts are not known here, so that
conditions about them hold nowhere. -/
def Assertion.holds (assertion : Assertion) (place : Place) : Bool :=
  match assertion with
  | .textStart => place.before.isNone
  | .textEnd => place.after.isNone
  | .lineStart => place.before.all (· == '\n')
  | .lineEnd => place.after.all (· == '\n')
  | .anyLineStart =>
    place.before.all (· == '\n') || (place.before == some '\r' && place.after != some '\n')
  | .anyLineEnd =>
    place.after.all (· == '\r') || (place.after == some '\n' && place.before != some '\r')
  | .word condition => condition.holds (isWordChar place.before) (isWordChar place.after)
  | .scriptWord _ => false

/-! ## 3. Matching -/

namespace Expression

/-- Whether an expression matches at a place without a character. -/
def emptyAt (place : Place) : Expression → Bool
  | .empty => true
  | .one _ => false
  | .assertion condition => condition.holds place
  | .both first second => first.emptyAt place && second.emptyAt place
  | .either left right => left.emptyAt place || right.emptyAt place
  | .repeated body count => count.least == 0 || body.emptyAt place
  | .group body => body.emptyAt place

/-- An expression and then another one; nothing has to be matched for `empty`. -/
def before (first second : Expression) : Expression :=
  if first = .empty then second else .both first second

/-- What is left to be matched once an expression has taken the character `c`, which stands behind
the character `previous`.  A repetition may have passed over any number of empty matches first, so
after one there is nothing left that it must repeat. -/
def remainders (previous : Option Char) (c : Char) : Expression → List Expression
  | .empty => []
  | .one set => if set.contains c then [.empty] else []
  | .assertion _ => []
  | .both first second =>
    (first.remainders previous c).map (·.before second)
      ++ if first.emptyAt ⟨previous, some c⟩ then second.remainders previous c else []
  | .either left right => left.remainders previous c ++ right.remainders previous c
  | .repeated body count =>
    let count := if body.emptyAt ⟨previous, some c⟩ then count.fromNone else count
    match count.afterOne? with
    | none => []
    | some others => (body.remainders previous c).map (·.before (.repeated body others))
  | .group body => body.remainders previous c

/-- Whether one of the expressions under way matches behind the character `previous`, or `wanted`
matches there or further on. -/
def occursFrom (wanted : Expression) : Option Char → List Expression → List Char → Bool
  | previous, underWay, [] => (wanted :: underWay).any (·.emptyAt ⟨previous, none⟩)
  | previous, underWay, c :: text =>
    (wanted :: underWay).any (·.emptyAt ⟨previous, some c⟩)
      || occursFrom wanted (some c)
        ((wanted :: underWay).flatMap (·.remainders previous c)).eraseDups text

/-- Whether an expression matches a part of a text. -/
def occursIn (wanted : Expression) (text : List Char) : Bool := wanted.occursFrom none [] text

/-! ## 4. Building expressions -/

/-- Expressions one after the other. -/
def sequence (parts : List Expression) : Expression :=
  match parts.filter (· ≠ .empty) with
  | [] => .empty
  | first :: rest => (first :: rest).dropLast.foldr .both ((first :: rest).getLast (by simp))

/-- The set of an expression that is one character. -/
def set? : Expression → Option CharSet
  | .one set => some set
  | _ => none

/-- One of some expressions, of which there is at least one.  A choice between characters is one
character out of a larger set. -/
def choice (first : Expression) (others : List Expression) : Expression :=
  match (first :: others).mapM set? with
  | some sets => .one (sets.foldl CharSet.union .none)
  | none => (first :: others).dropLast.foldr .either ((first :: others).getLast (by simp))

/-- Whether an expression matches nothing but the text without characters. -/
def isWidthless : Expression → Bool
  | .empty => true
  | .one _ => false
  | .assertion _ => true
  | .both first second => first.isWidthless && second.isWidthless
  | .either left right => left.isWidthless && right.isWidthless
  | .repeated body _ => body.isWidthless
  | .group body => body.isWidthless

/-- An expression so many times.  Of what takes no character once is as good as many times. -/
def times (body : Expression) (count : Count) : Expression :=
  match if body.isWidthless then count.atMostOnce else count with
  | ⟨0, some 0⟩ => .empty
  | ⟨1, some 0⟩ => body
  | count => .repeated body count

/-- Whether an expression asks about the words of all scripts. -/
def needsScripts : Expression → Bool
  | .empty => false
  | .one _ => false
  | .assertion (.scriptWord _) => true
  | .assertion _ => false
  | .both first second => first.needsScripts || second.needsScripts
  | .either left right => left.needsScripts || right.needsScripts
  | .repeated body _ => body.needsScripts
  | .group body => body.needsScripts

end Expression

end Disassembler8080.Pattern
