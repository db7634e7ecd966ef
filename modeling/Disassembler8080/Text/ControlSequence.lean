/-
# Texts without control sequences

A terminal takes some characters as commands: most control characters, and sequences that begin with
the escape character.  Where a text is to be plain they are left out, and only white space is kept
of the control characters.

Main statements: `plain_eq_self` (a text without control characters is left alone) and
`escape_not_mem_plain` (no escape character is kept).
-/

namespace Disassembler8080.Text.ControlSequence

/-! ## 1. The parts of a sequence -/

/-- Where in a sequence a text is. -/
inductive Stage where
  /-- In no sequence. -/
  | ground
  /-- Behind the escape character. -/
  | escape
  /-- Behind an escape character and further marks. -/
  | escapeMarks
  /-- Among the parameters of a control sequence. -/
  | parameters
  /-- At the beginning of a device string. -/
  | deviceStart
  /-- Among the parameters of a device string. -/
  | deviceParameters
  /-- Among the marks of a device string. -/
  | deviceMarks
  /-- In a string that ends with the string terminator. -/
  | terminated
  /-- In a string that is for the operating system, which ends with a bell. -/
  | forSystem
deriving DecidableEq, Repr

/-- The escape character. -/
def escapeChar : Char := '\x1b'

/-- Whether a character is white space of ASCII other than the vertical tab, which may stand in a
plain text. -/
def isBlank (c : Char) : Bool :=
  c == ' ' || c == '\t' || c == '\n' || c == '\x0c' || c == '\r'

/-- Whether a character is a control character of ASCII. -/
def isControl (c : Char) : Bool := c.toNat < 0x20 || c.toNat == 0x7f

/-- Whether one of the bytes of a character is the string terminator, which in a text can only be
one of those behind the first. -/
def holdsTerminator (c : Char) : Bool :=
  let n := c.toNat
  let isTerminator (bits : Nat) : Bool := bits % 0x40 == 0x1c
  0x80 ≤ n && (isTerminator n || 0x800 ≤ n && isTerminator (n / 0x40)
    || 0x10000 ≤ n && isTerminator (n / 0x1000))

/-- Whether a character lies between two others. -/
def isBetween (first last c : Char) : Bool := first ≤ c && c ≤ last

/-- The stage behind a character that is not the escape character, and whether the character
belongs to the plain text.  White space in a sequence breaks it off, but not in a string. -/
def advance (stage : Stage) (c : Char) : Stage × Bool :=
  match stage with
  | .ground => (.ground, isBlank c || !isControl c)
  | .escape =>
    if isBetween '\t' '\r' c && isBlank c then (.ground, true)
    else if c == '\x18' || c == '\x1a' then (.ground, false)
    else if isBetween ' ' '/' c then (.escapeMarks, false)
    else if c == '[' then (.parameters, false)
    else if c == ']' then (.forSystem, false)
    else if c == 'P' then (.deviceStart, false)
    else if c == 'X' || c == '^' || c == '_' then (.terminated, false)
    else if isBetween '0' '~' c then (.ground, false)
    else (.escape, false)
  | .escapeMarks =>
    if isBetween '\t' '\r' c && isBlank c then (.ground, true)
    else if c == '\x18' || c == '\x1a' then (.ground, false)
    else if isBetween '0' '~' c then (.ground, false)
    else (.escapeMarks, false)
  | .parameters =>
    if isBetween '\t' '\r' c && isBlank c then (.ground, true)
    else if c == '\x18' || c == '\x1a' then (.ground, false)
    else if isBetween '@' '~' c then (.ground, false)
    else (.parameters, false)
  | .deviceStart =>
    if c == '\x18' || c == '\x1a' then (.ground, false)
    else if isBetween ' ' '/' c then (.deviceMarks, false)
    else if isBetween '0' '?' c then (.deviceParameters, false)
    else if isBetween '@' '~' c then (.terminated, false)
    else (.deviceStart, false)
  | .deviceParameters =>
    if c == '\x18' || c == '\x1a' then (.ground, false)
    else if isBetween ' ' '/' c then (.deviceMarks, false)
    else if isBetween '<' '~' c then (.terminated, false)
    else (.deviceParameters, false)
  | .deviceMarks =>
    if c == '\x18' || c == '\x1a' then (.ground, false)
    else if isBetween '0' '~' c then (.terminated, false)
    else (.deviceMarks, false)
  | .terminated =>
    (if c == '\x18' || c == '\x1a' || holdsTerminator c then .ground else .terminated, false)
  | .forSystem =>
    (if c == '\x18' || c == '\x1a' || c == '\x07' then .ground else .forSystem, false)

/-! ## 2. Plain texts -/

/-- What is plain in a text that goes on at a stage.  The escape character begins a sequence
wherever it stands. -/
def plainFrom : Stage → List Char → List Char
  | _, [] => []
  | stage, c :: text =>
    if c = escapeChar then plainFrom .escape text
    else
      let (stage, isPlain) := advance stage c
      if isPlain then c :: plainFrom stage text else plainFrom stage text

/-- A text without control sequences. -/
def plain (text : List Char) : List Char := plainFrom .ground text

theorem advance_ground {c : Char} (h : isControl c = false) :
    advance .ground c = (.ground, true) := by
  simp [advance, h]

/-- A text without control characters is left alone. -/
theorem plain_eq_self {text : List Char} (h : ∀ c ∈ text, isControl c = false) :
    plain text = text := by
  unfold plain
  induction text with
  | nil => rfl
  | cons c rest ih =>
    have hc := h c List.mem_cons_self
    have hescape : c ≠ escapeChar := by
      rintro rfl
      exact absurd hc (by decide)
    rw [plainFrom, if_neg hescape, advance_ground hc]
    simp [ih fun d hd => h d (List.mem_cons_of_mem c hd)]

theorem escape_not_mem_plainFrom (stage : Stage) (text : List Char) :
    escapeChar ∉ plainFrom stage text := by
  induction text generalizing stage with
  | nil => simp [plainFrom]
  | cons c rest ih =>
    unfold plainFrom
    split
    · exact ih _
    · next hc =>
      dsimp only
      split
      · simp [ih, Ne.symm hc]
      · exact ih _

/-- No escape character is kept. -/
theorem escape_not_mem_plain (text : List Char) : escapeChar ∉ plain text :=
  escape_not_mem_plainFrom .ground text

end Disassembler8080.Text.ControlSequence
