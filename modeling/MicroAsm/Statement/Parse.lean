/-
  From a code line to an instruction.  The leftmost defect of a line is the one
  reported: first the mnemonic, then the register, the separator, the immediate,
  and last the trailing text.
-/
import MicroAsm.Machine.Instruction
import MicroAsm.Statement.Basic
import MicroAsm.Statement.Defect
import MicroAsm.Statement.Literal
import MicroAsm.Statement.Operands

namespace MicroAsm

namespace OperandField

/-- The register of a field. -/
def resolveRegister (mnemonic : Text) (field : OperandField) : Except Defect Register :=
  match field.register with
  | none => .error (.missingOperand mnemonic .register)
  | some digits =>
    match (Text.ofDigits? 10 digits).bind Register.ofNat? with
    | none => .error (.noSuchRegister mnemonic digits)
    | some register => .ok register

/-- The separator of a field. -/
def resolveSeparator (mnemonic : Text) (field : OperandField) : Except Defect Unit :=
  if field.separator then .ok () else .error (.missingOperand mnemonic .separator)

/-- The immediate of a field; `expected` says what is missing when there is none. -/
def resolveImmediate (mnemonic : Text) (expected : Expected) (field : OperandField) :
    Except Defect UInt8 :=
  match field.literal with
  | none => .error (.missingOperand mnemonic expected)
  | some literal =>
    match Literal.value? literal with
    | none => .error (.malformedImmediate mnemonic literal)
    | some value => .ok (Literal.lowByte value)

/-- The end of a field, where nothing may be left. -/
def resolveEnd (mnemonic : Text) (field : OperandField) : Except Defect Unit :=
  match field.trailing with
  | none => .ok ()
  | some rest => .error (.trailingText mnemonic rest)

/-- The operands a format takes from a field. -/
def resolve (mnemonic : Text) (format : Format) (field : OperandField) :
    Except Defect Operands := do
  let operands ← match format with
    | .implied => pure .none
    | .register => do
      let register ← field.resolveRegister mnemonic
      pure (.register register)
    | .registerImmediate => do
      let register ← field.resolveRegister mnemonic
      field.resolveSeparator mnemonic
      let value ← field.resolveImmediate mnemonic .immediateAfterSeparator
      pure (.registerImmediate register value)
    | .immediate => do
      let value ← field.resolveImmediate mnemonic .immediate
      pure (.immediate value)
  field.resolveEnd mnemonic
  return operands

end OperandField

/-- The instruction a code line names. -/
def Instruction.parse (line : Text) : Except Defect Instruction :=
  match Statement.split? line with
  | none => .error .noMnemonic
  | some statement =>
    match Operation.ofMnemonic? statement.mnemonic with
    | none => .error (.unknownMnemonic statement.mnemonic)
    | some operation => do
      let field := OperandField.scan operation.format statement.operands
      let operands ← field.resolve operation.mnemonic operation.format
      return ⟨operation, operands⟩

end MicroAsm
