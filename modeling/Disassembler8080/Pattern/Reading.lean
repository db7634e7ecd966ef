/-
# Reading a pattern

A text is a pattern if it can be read, if what it says can be matched, and if there is room for it.
What is wrong with the text itself is noticed first, then what it asks for, and the room last.
-/
import Disassembler8080.Pattern.Outline
import Disassembler8080.Pattern.Meaning
import Disassembler8080.Pattern.Storage

namespace Disassembler8080

namespace Pattern

/-- Why a text is not accepted as a pattern. -/
inductive Refusal where
  /-- Something is wrong in a part of the pattern. -/
  | faulty (pattern : List Char) (fault : Fault)
  /-- There is no room for the expression. -/
  | tooLarge
  /-- The expression asks about the words of all scripts, of which there is no table. -/
  | noWordTable
deriving DecidableEq, Repr

/-- A refusal in words. -/
def Refusal.message : Refusal → String
  | .faulty pattern fault => fault.describe pattern
  | .tooLarge => "Compiled regex exceeds size limit of " ++ toString Storage.limit ++ " bytes."
  | .noWordTable => "error building NFA"

/-- Checks that there is room for an expression, and that all of it can be matched. -/
def Expression.check (expression : Expression) : Except Refusal Expression :=
  if !expression.fits .forward then .error .tooLarge
  else if expression.needsScripts then .error .noWordTable
  else if !expression.fits .backward then .error .tooLarge
  else .ok expression

/-- The expression that a text stands for. -/
def Expression.ofText (pattern : List Char) : Except Refusal Expression := do
  let tree ← (Tree.ofText pattern).mapError (.faulty pattern)
  let (expression, _) ← (tree.meaning {}).mapError (.faulty pattern)
  expression.check

end Pattern

end Disassembler8080
