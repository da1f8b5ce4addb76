/-
  Reading instructions back from bytes.

  `decode` reads one instruction off the front of a byte list.  `walk` reads
  instruction after instruction, each with its address, and ends at the first byte
  that starts none.
-/
import MicroAsm.Machine.Instruction

namespace MicroAsm

/-- Why a byte list starts with no instruction. -/
inductive DecodeError where
  | empty
  /-- The immediate byte is missing. -/
  | truncated (format : Format)
  | unknownOpcode (format : Format) (opcode : Nat)
deriving DecidableEq

/-- The wording of a decoding error. -/
def DecodeError.message : DecodeError → Text
  | empty => "no bytes to decode".toList
  | truncated format => format.name ++ " instruction is missing its immediate byte".toList
  | unknownOpcode format opcode =>
    "no ".toList ++ format.name ++ " instruction with opcode 0x".toList ++ Text.hexLower 2 opcode

/-! ## Fields of the first byte -/

/-- The format in the two high bits. -/
def formatField (byte : UInt8) : Format := Format.ofTag (byte.toNat / 64)

/-- The opcode below the tag, or below the register where there is one. -/
def opcodeField (byte : UInt8) : Nat :=
  if (formatField byte).takesRegister then byte.toNat % 8 else byte.toNat % 64

/-- The register in the three middle bits. -/
def registerField (byte : UInt8) : Register := ⟨byte.toNat / 8 % 8, Nat.mod_lt _ (by decide)⟩

/-! ## Decoding -/

/-- Operands of `format`, read from the first byte and the bytes after it. -/
def decodeOperands (format : Format) (first : UInt8) (rest : List UInt8) : Option Operands :=
  match format with
  | .implied => some .none
  | .register => some (.register (registerField first))
  | .registerImmediate => rest.head?.map (.registerImmediate (registerField first))
  | .immediate => rest.head?.map .immediate

/-- The instruction at the start of a byte list. -/
def decode : List UInt8 → Except DecodeError Instruction
  | [] => .error .empty
  | first :: rest =>
    let format := formatField first
    let opcode := opcodeField first
    match Operation.ofCode? format opcode with
    | none => .error (.unknownOpcode format opcode)
    | some operation =>
      match decodeOperands format first rest with
      | none => .error (.truncated format)
      | some operands => .ok ⟨operation, operands⟩

/-- Decodes `bytes` from front to back, the first of them standing at `address`. -/
def walkFrom (address : Nat) (bytes : List UInt8) :
    List (Nat × Except DecodeError Instruction) :=
  match bytes with
  | [] => []
  | first :: rest =>
    match decode (first :: rest) with
    | .error e => [(address, .error e)]
    | .ok i => (address, .ok i) :: walkFrom (address + i.size) ((first :: rest).drop i.size)
termination_by bytes.length
decreasing_by
  have := i.size_pos
  simp only [List.length_drop, List.length_cons]
  omega

/-- Decodes `bytes` from front to back, from address 0. -/
def walk (bytes : List UInt8) : List (Nat × Except DecodeError Instruction) := walkFrom 0 bytes

end MicroAsm
