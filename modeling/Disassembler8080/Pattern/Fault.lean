/-
# Faults in the text of a pattern

A fault is a cause together with the part of the pattern that it is about.  It is shown as a
picture: the pattern, carets under the part, and the cause in words.  A pattern of several lines is
shown with the numbers of its lines between two rules.
-/

namespace Disassembler8080.Pattern

/-! ## 1. Causes -/

/-- A part of a pattern, as the numbers of characters in front of it and up to its end. -/
structure Span where
  first : Nat
  past : Nat
deriving DecidableEq, Repr

/-- How many parentheses and brackets may stand inside each other. -/
def nestingLimit : Nat := 250

/-- Why a text is no pattern. -/
inductive Cause where
  -- escapes
  | escapeUnfinished
  | escapeUnknown
  | backReference
  | codePointEmpty
  | codePointInvalid
  | codePointBadDigit
  | propertyInvalid
  -- sets
  | setUnclosed
  | setBadEscape
  | rangeBadBound
  | rangeReversed
  -- groups
  | groupUnclosed
  | groupUnopened
  | lookAround
  | nameEmpty
  | nameBadCharacter
  | nameUnclosed
  | nameRepeated
  | flagUnknown
  | flagRepeated
  | flagUnfinished
  | negationRepeated
  | negationDangling
  | nestedTooDeep
  -- repetitions
  | repetitionOfNothing
  | countUnclosed
  | countMissing
  | countTooLarge
  | countReversed
  | wordEdgeUnclosed
  | wordEdgeUnknown
  | wordEdgeUnfinished
  -- what a pattern asks for
  | scriptsNotAllowed
  | brokenText
  | propertyUnknown
  | propertyValueUnknown
  | scriptClassMissing
  | scriptCaseMissing
deriving DecidableEq, Repr

/-- A cause in words. -/
def Cause.message : Cause → String
  | .escapeUnfinished => "incomplete escape sequence, reached end of pattern prematurely"
  | .escapeUnknown => "unrecognized escape sequence"
  | .backReference => "backreferences are not supported"
  | .codePointEmpty => "hexadecimal literal empty"
  | .codePointInvalid => "hexadecimal literal is not a Unicode scalar value"
  | .codePointBadDigit => "invalid hexadecimal digit"
  | .propertyInvalid => "invalid Unicode character class"
  | .setUnclosed => "unclosed character class"
  | .setBadEscape => "invalid escape sequence found in character class"
  | .rangeBadBound => "invalid range boundary, must be a literal"
  | .rangeReversed => "invalid character class range, the start must be <= the end"
  | .groupUnclosed => "unclosed group"
  | .groupUnopened => "unopened group"
  | .lookAround => "look-around, including look-ahead and look-behind, is not supported"
  | .nameEmpty => "empty capture group name"
  | .nameBadCharacter => "invalid capture group character"
  | .nameUnclosed => "unclosed capture group name"
  | .nameRepeated => "duplicate capture group name"
  | .flagUnknown => "unrecognized flag"
  | .flagRepeated => "duplicate flag"
  | .flagUnfinished => "expected flag but got end of regex"
  | .negationRepeated => "flag negation operator repeated"
  | .negationDangling => "dangling flag negation operator"
  | .nestedTooDeep =>
    "exceed the maximum number of nested parentheses/brackets (" ++ toString nestingLimit ++ ")"
  | .repetitionOfNothing => "repetition operator missing expression"
  | .countUnclosed => "unclosed counted repetition"
  | .countMissing => "repetition quantifier expects a valid decimal"
  | .countTooLarge => "decimal literal invalid"
  | .countReversed => "invalid repetition count range, the start must be <= the end"
  | .wordEdgeUnclosed =>
    "special word boundary assertion is either unclosed or contains an invalid character"
  | .wordEdgeUnknown =>
    "unrecognized special word boundary assertion, " ++
      "valid choices are: start, end, start-half or end-half"
  | .wordEdgeUnfinished =>
    "found either the beginning of a special word boundary or a bounded repetition on a " ++
      "\\b with an opening brace, but no closing brace"
  | .scriptsNotAllowed => "Unicode not allowed here"
  | .brokenText => "pattern can match invalid UTF-8"
  | .propertyUnknown => "Unicode property not found"
  | .propertyValueUnknown => "Unicode property value not found"
  | .scriptClassMissing =>
    "Unicode-aware Perl class not found (make sure the unicode-perl feature is enabled)"
  | .scriptCaseMissing =>
    "Unicode-aware case insensitivity matching is not available " ++
      "(make sure the unicode-case feature is enabled)"

/-- What is wrong with a pattern, and where.  Where something stands twice, the first place is
related. -/
structure Fault where
  cause : Cause
  span : Span
  related : Option Span := none
deriving DecidableEq, Repr

/-! ## 2. Lines and columns -/

/-- A line and a column, both counted from zero. -/
structure Location where
  line : Nat
  column : Nat
deriving DecidableEq, Repr

/-- Where the character number `position` of a text stands. -/
def location (text : List Char) (position : Nat) : Location :=
  (text.take position).foldl
    (fun place c => if c = '\n' then ⟨place.line + 1, 0⟩ else ⟨place.line, place.column + 1⟩) ⟨0, 0⟩

/-- The pieces of a text between line feeds, without the carriage return that may stand in front of
one.  After the last line feed there is a line only if something stands there. -/
def lines : List (List Char) → List (List Char)
  | [] => []
  | [last] => if last.isEmpty then [] else [last]
  | line :: rest => (if line.getLast? = some '\r' then line.dropLast else line) :: lines rest

/-! ## 3. Pictures -/

/-- Carets under the columns from one to another, and one caret where there are none. -/
def carets (first past : Nat) : List Char := List.replicate (max 1 (past - first)) '^'

/-- Carets under parts of a line, continuing a row of marks. -/
def underline (marks : List Char) (part : Nat × Nat) : List Char :=
  marks ++ List.replicate (part.1 - marks.length) ' ' ++ carets part.1 part.2

namespace Fault

/-- The parts that a fault is about, the first one in front. -/
def spans (fault : Fault) : List Span :=
  match fault.related with
  | none => [fault.span]
  | some other =>
    if fault.span.first < other.first ∨
        fault.span.first = other.first ∧ fault.span.past ≤ other.past then
      [fault.span, other]
    else [other, fault.span]

/-- The marks under a line, if a part of the line is meant.  A part that runs over several lines has
no marks. -/
def marks (fault : Fault) (pattern : List Char) (line : Nat) : Option (List Char) :=
  let parts := fault.spans.filterMap fun span =>
    let first := location pattern span.first
    let past := location pattern span.past
    if first.line = line ∧ past.line = line then some (first.column, past.column) else none
  if parts.isEmpty then none else some (parts.foldl underline [])

/-- Where a part stands that runs over several lines. -/
def extent? (pattern : List Char) (span : Span) : Option (List Char) :=
  let first := location pattern span.first
  let past := location pattern span.past
  if first.line = past.line then none
  else
    some ("on line " ++ toString (first.line + 1) ++ " (column " ++ toString (first.column + 1) ++
      ") through line " ++ toString (past.line + 1) ++ " (column " ++ toString past.column ++
      ")").toList

/-- The lines of a pattern with the marks under them.  Each line has its margin in front, and the
marks are as far to the right. -/
def drawing (fault : Fault) (pattern : List Char) (margin : Nat → List Char) :
    List (List Char) :=
  (lines (List.splitOn '\n' pattern)).zipIdx.flatMap fun (line, number) =>
    (margin number ++ line) ::
      ((fault.marks pattern number).map
        (List.replicate (margin number).length ' ' ++ ·)).toList

/-- The number of a line in front of it, as wide as the number of the last line.  That a line may
begin behind the last line feed is allowed for. -/
def numbered (pattern : List Char) (number : Nat) : List Char :=
  let count := (lines (List.splitOn '\n' pattern)).length
    + if pattern.getLast? = some '\n' then 1 else 0
  if count ≤ 1 then List.replicate 4 ' '
  else List.leftpad (toString count).length ' ' (toString (number + 1)).toList ++ [':', ' ']

/-- The rule between which the lines of a long pattern are shown. -/
def rule : List Char := List.replicate 79 '~'

/-- A fault in words and as a picture. -/
def describe (fault : Fault) (pattern : List Char) : String :=
  let drawn := fault.drawing pattern (numbered pattern)
  let picture :=
    if '\n' ∈ pattern then
      [rule] ++ drawn ++ [rule] ++ fault.spans.filterMap (extent? pattern)
    else drawn
  "\n".intercalate
    (["regex parse error:"] ++ picture.map String.ofList ++ ["error: " ++ fault.cause.message])

end Fault

end Disassembler8080.Pattern
