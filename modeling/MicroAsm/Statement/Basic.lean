/-
  A statement is a code line cut in two: the mnemonic and its operand field.
-/
import MicroAsm.Text.Basic

namespace MicroAsm

/-- A mnemonic and the text after it. -/
structure Statement where
  mnemonic : Text
  /-- Starts with no blank; blanks at its end are kept. -/
  operands : Text
deriving DecidableEq

namespace Statement

/-- Characters a mnemonic is made of. -/
def isWordChar (c : Char) : Bool := !Text.isBlank c

/-- Cuts a line after its first run of characters other than blanks.  A line of
    blanks is no statement. -/
def split? (line : Text) : Option Statement :=
  match Text.trimStart line with
  | [] => none
  | stripped =>
    some ⟨stripped.takeWhile isWordChar, Text.trimStart (stripped.dropWhile isWordChar)⟩

end Statement

end MicroAsm
