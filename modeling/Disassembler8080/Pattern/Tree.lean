/-
# What a pattern consists of

The tree of a pattern says how its text is put together, before anything is said about what it
means.  Every part knows where it stands.
-/
import Disassembler8080.Pattern.Expression
import Disassembler8080.Pattern.Fault

namespace Disassembler8080.Pattern

/-! ## 1. Flags -/

/-- What can be switched on and off inside a pattern. -/
inductive Flag where
  /-- Letters match in either case. -/
  | anyCase
  /-- The anchors of a text also hold at its lines. -/
  | multiLine
  /-- A dot also matches a line feed. -/
  | dotAll
  /-- Repetitions prefer few matches to many. -/
  | lazy
  /-- Characters of all scripts are told apart, and not just those of ASCII. -/
  | scripts
  /-- Lines may end with a carriage return. -/
  | anyLineEnd
  /-- White space and comments in the pattern mean nothing. -/
  | verbose
deriving DecidableEq, Repr

/-- The flag that a letter stands for. -/
def Flag.ofLetter? : Char → Option Flag
  | 'i' => some .anyCase
  | 'm' => some .multiLine
  | 's' => some .dotAll
  | 'U' => some .lazy
  | 'u' => some .scripts
  | 'R' => some .anyLineEnd
  | 'x' => some .verbose
  | _ => none

/-- Flags together with what they are set to. -/
abbrev FlagChange := List (Flag × Bool)

/-- What a flag is set to, if anything.  Of two changes the first one counts. -/
def FlagChange.value? (change : FlagChange) (flag : Flag) : Option Bool :=
  (change.find? (·.1 == flag)).map Prod.snd

/-! ## 2. Parts without parts -/

/-- A character that stands for itself. -/
structure Letter where
  char : Char
  span : Span
  /-- Whether it is written by two digits that may also stand for a byte. -/
  byteDigits : Bool := false
deriving DecidableEq, Repr

/-- The places that an anchor may ask for. -/
inductive Anchor where
  | lineStart
  | lineEnd
  | textStart
  | textEnd
  | word (condition : WordCondition)
deriving DecidableEq, Repr

/-- The classes of characters that a single letter names. -/
inductive LetterClass where
  | digit
  | space
  | word
deriving DecidableEq, Repr

/-- The characters of ASCII in a class. -/
def LetterClass.asciiSet : LetterClass → CharSet
  | .digit => .digit
  | .space => .space
  | .word => .word

/-- A part of a pattern that has no parts itself. -/
inductive Atom where
  | letter (character : Letter)
  | dot (span : Span)
  | anchor (span : Span) (kind : Anchor)
  | letterClass (span : Span) (kind : LetterClass) (negated : Bool)
  /-- The characters with a property, which is given as it is written. -/
  | property (span : Span) (name : List Char)
deriving DecidableEq, Repr

/-- Where an atom stands. -/
def Atom.span : Atom → Span
  | .letter character => character.span
  | .dot span => span
  | .anchor span _ => span
  | .letterClass span _ _ => span
  | .property span _ => span

/-! ## 3. Sets -/

/-- How two sets are put together. -/
inductive SetOperation where
  | intersection
  | difference
  | symmetricDifference
deriving DecidableEq, Repr

/-- What stands in brackets. -/
inductive SetTree where
  /-- Nothing. -/
  | empty (span : Span)
  | letter (character : Letter)
  | range (span : Span) (first last : Letter)
  | letterClass (span : Span) (kind : LetterClass) (negated : Bool)
  | property (span : Span) (name : List Char)
  | named (span : Span) (set : CharSet) (negated : Bool)
  | brackets (span : Span) (negated : Bool) (body : SetTree)
  /-- Several parts one after the other. -/
  | union (span : Span) (parts : List SetTree)
  | operation (span : Span) (kind : SetOperation) (left right : SetTree)

/-- Where a part of a set stands. -/
def SetTree.span : SetTree → Span
  | .empty span => span
  | .letter character => character.span
  | .range span _ _ => span
  | .letterClass span _ _ => span
  | .property span _ => span
  | .named span _ _ => span
  | .brackets span _ _ => span
  | .union span _ => span
  | .operation span _ _ _ => span

/-- An atom as a part of a set, which only some can be. -/
def Atom.inSet? : Atom → Option SetTree
  | .letter character => some (.letter character)
  | .letterClass span kind negated => some (.letterClass span kind negated)
  | .property span name => some (.property span name)
  | .dot _ => none
  | .anchor _ _ => none

/-- An atom as a bound of a range, which only a character can be. -/
def Atom.letter? : Atom → Option Letter
  | .letter character => some character
  | _ => none

/-! ## 4. Patterns -/

/-- A part of a pattern. -/
inductive Tree where
  /-- Nothing. -/
  | empty (span : Span)
  | atom (part : Atom)
  | flags (span : Span) (change : FlagChange)
  | brackets (span : Span) (negated : Bool) (body : SetTree)
  | repeated (span : Span) (body : Tree) (count : Count)
  /-- A group, which may change flags and whose match may be remembered. -/
  | group (span : Span) (change : FlagChange) (remembered : Bool) (body : Tree)
  | sequence (span : Span) (parts : List Tree)
  | choice (span : Span) (first : Tree) (others : List Tree)

/-- Where a part of a pattern stands. -/
def Tree.span : Tree → Span
  | .empty span => span
  | .atom part => part.span
  | .flags span _ => span
  | .brackets span _ _ => span
  | .repeated span _ _ => span
  | .group span _ _ _ => span
  | .sequence span _ => span
  | .choice span _ _ => span

/-! ## 5. Depth -/

mutual

/-- The first part of a set that is nested deeper than there is room for. -/
def SetTree.tooDeep? (room : Nat) : SetTree → Option Span
  | .brackets span _ body =>
    match room with
    | 0 => some span
    | room + 1 => body.tooDeep? room
  | .union span parts =>
    match room with
    | 0 => some span
    | room + 1 => SetTree.anyTooDeep? room parts
  | .operation span _ left right =>
    match room with
    | 0 => some span
    | room + 1 => (left.tooDeep? room).or (right.tooDeep? room)
  | _ => none

/-- The first part of some sets that is nested deeper than there is room for. -/
def SetTree.anyTooDeep? (room : Nat) : List SetTree → Option Span
  | [] => none
  | part :: rest => (part.tooDeep? room).or (SetTree.anyTooDeep? room rest)

end

mutual

/-- The first part of a pattern that is nested deeper than there is room for. -/
def Tree.tooDeep? (room : Nat) : Tree → Option Span
  | .brackets span _ body =>
    match room with
    | 0 => some span
    | room + 1 => body.tooDeep? room
  | .repeated span body _ =>
    match room with
    | 0 => some span
    | room + 1 => body.tooDeep? room
  | .group span _ _ body =>
    match room with
    | 0 => some span
    | room + 1 => body.tooDeep? room
  | .sequence span parts =>
    match room with
    | 0 => some span
    | room + 1 => Tree.anyTooDeep? room parts
  | .choice span first others =>
    match room with
    | 0 => some span
    | room + 1 => (first.tooDeep? room).or (Tree.anyTooDeep? room others)
  | _ => none

/-- The first part of some patterns that is nested deeper than there is room for. -/
def Tree.anyTooDeep? (room : Nat) : List Tree → Option Span
  | [] => none
  | part :: rest => (part.tooDeep? room).or (Tree.anyTooDeep? room rest)

end

end Disassembler8080.Pattern
