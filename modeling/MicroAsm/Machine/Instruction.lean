/-
  Instructions and their bytes.

      bit                     7 6    5 4 3      2 1 0
      register formats        tag  | register | opcode
      the other formats       tag  | opcode

  An immediate is a second byte.  `Instruction.text` is the canonical source line
  of an instruction.
-/
import MicroAsm.Machine.Operation

namespace MicroAsm

/-- One of the eight registers `r0` to `r7`. -/
abbrev Register := Fin 8

namespace Register

/-- The register with index `n`. -/
def ofNat? (n : Nat) : Option Register := if h : n < 8 then some ⟨n, h⟩ else none

theorem ofNat?_eq_some_iff {n : Nat} {r : Register} : ofNat? n = some r ↔ r.val = n := by
  unfold ofNat?
  split
  · simp only [Option.some.injEq, Fin.ext_iff]
    exact eq_comm
  · simp only [reduceCtorEq, false_iff]
    have := r.isLt
    omega

theorem ofNat?_eq_none_iff {n : Nat} : ofNat? n = none ↔ 7 < n := by
  unfold ofNat?
  split <;> simp only [reduceCtorEq, false_iff, true_iff] <;> omega

/-- How source text names a register. -/
def name (r : Register) : Text := 'r' :: Text.decimal r.val

end Register

/-- The operands of an instruction. -/
inductive Operands where
  | none
  | register (register : Register)
  | registerImmediate (register : Register) (value : UInt8)
  | immediate (value : UInt8)
deriving DecidableEq

namespace Operands

/-- The format these operands belong to. -/
def format : Operands → Format
  | none => .implied
  | register _ => .register
  | registerImmediate _ _ => .registerImmediate
  | immediate _ => .immediate

/-- The register among the operands. -/
def register? : Operands → Option Register
  | register r | registerImmediate r _ => some r
  | none | immediate _ => Option.none

/-- The immediate among the operands. -/
def immediate? : Operands → Option UInt8
  | registerImmediate _ value | immediate value => some value
  | none | register _ => Option.none

end Operands

/-! ## Bytes -/

/-- The first byte of an instruction.  Each field keeps the low bits that fit it. -/
def leadByte (format : Format) (opcode register : Nat) : UInt8 :=
  UInt8.ofNat <| 64 * format.tag +
    if format.takesRegister then 8 * (register % 8) + opcode % 8 else opcode % 64

/-- The bytes of opcode and operands. -/
def encodeOpcode (opcode : Nat) (operands : Operands) : List UInt8 :=
  let register := match operands.register? with
    | some r => r.val
    | none => 0
  leadByte operands.format opcode register :: operands.immediate?.toList

theorem length_encodeOpcode (opcode : Nat) (operands : Operands) :
    (encodeOpcode opcode operands).length = operands.format.size := by
  cases operands <;> rfl

/-- The byte of `halt`; unused memory holds it. -/
def fillByte : UInt8 := leadByte Operation.halt.format Operation.halt.opcode 0

example : fillByte = 0x3E := by decide

/-- Bytes as two upper-case digits each, one space between them. -/
def bytesText (bytes : List UInt8) : Text :=
  [' '].intercalate (bytes.map fun byte => Text.hexUpper 2 byte.toNat)

/-! ## Instructions -/

/-- An operation with its operands. -/
structure Instruction where
  operation : Operation
  operands : Operands
deriving DecidableEq

namespace Instruction

/-- The bytes as they stand in memory. -/
def bytes (i : Instruction) : List UInt8 := encodeOpcode i.operation.opcode i.operands

/-- Bytes the operation occupies. -/
def size (i : Instruction) : Nat := i.operation.format.size

theorem size_pos (i : Instruction) : 0 < i.size := i.operation.format.size_pos

/-- The canonical source line. -/
def text (i : Instruction) : Text :=
  i.operation.mnemonic ++
    match i.operands with
    | .none => []
    | .register r => ' ' :: r.name
    | .registerImmediate r value => ' ' :: r.name ++ [',', ' '] ++ Text.decimal value.toNat
    | .immediate value => ' ' :: Text.decimal value.toNat

end Instruction

end MicroAsm
