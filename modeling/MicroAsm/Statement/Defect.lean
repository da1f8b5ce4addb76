/-
  What can be wrong with a code line, and the wording of it.
-/
import MicroAsm.Text.Basic

namespace MicroAsm

/-- An operand that a mnemonic needs and a line lacks. -/
inductive Expected where
  | register
  | separator
  | immediateAfterSeparator
  | immediate
deriving DecidableEq

/-- How messages name a missing operand. -/
def Expected.description : Expected → String
  | register => "a register `r0`..`r7`"
  | separator => "`,` and an immediate after the register"
  | immediateAfterSeparator => "an immediate after `,`"
  | immediate => "an immediate"

/-- Why a line is no instruction. -/
inductive Defect where
  | noMnemonic
  | unknownMnemonic (mnemonic : Text)
  | missingOperand (mnemonic : Text) (expected : Expected)
  /-- The register's digits, as written, name none of the eight. -/
  | noSuchRegister (mnemonic digits : Text)
  | malformedImmediate (mnemonic literal : Text)
  | trailingText (mnemonic rest : Text)
deriving DecidableEq

/-- The wording of a defect. -/
def Defect.message : Defect → String
  | noMnemonic => "no mnemonic"
  | unknownMnemonic mnemonic => s!"unknown mnemonic `{String.ofList mnemonic}`"
  | missingOperand mnemonic expected =>
    s!"`{String.ofList mnemonic}` expects {expected.description}"
  | noSuchRegister mnemonic digits =>
    s!"`{String.ofList mnemonic}`: register `r{String.ofList digits}` does not exist (r0 to r7)"
  | malformedImmediate mnemonic literal =>
    s!"`{String.ofList mnemonic}`: malformed immediate `{String.ofList literal}`"
  | trailingText mnemonic rest =>
    s!"`{String.ofList mnemonic}`: unexpected `{String.ofList rest}` after operands"

end MicroAsm
