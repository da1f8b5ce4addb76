/-
  The four instruction formats.  The two high bits of an instruction's first byte
  are its format's tag; the formats with an immediate take a second byte.
-/
import MicroAsm.Text.Numeral

namespace MicroAsm

/-- What follows the opcode of an instruction. -/
inductive Format where
  | implied
  | register
  | registerImmediate
  | immediate
deriving DecidableEq

namespace Format

/-- The two-bit tag of a format. -/
def tag : Format → Nat
  | implied => 0
  | register => 1
  | registerImmediate => 2
  | immediate => 3

/-- The format whose tag is the low two bits of `n`. -/
def ofTag (n : Nat) : Format :=
  match n % 4 with
  | 0 => implied
  | 1 => register
  | 2 => registerImmediate
  | _ => immediate

theorem tag_lt (f : Format) : f.tag < 4 := by cases f <;> decide

theorem ofTag_tag (f : Format) : ofTag f.tag = f := by cases f <;> rfl

theorem tag_ofTag (n : Nat) : (ofTag n).tag = n % 4 := by
  have h : n % 4 = 0 ∨ n % 4 = 1 ∨ n % 4 = 2 ∨ n % 4 = 3 := by omega
  rcases h with h | h | h | h <;> simp only [ofTag, h, tag]

/-- Formats that name a register. -/
def takesRegister : Format → Bool
  | register | registerImmediate => true
  | implied | immediate => false

/-- Formats that carry an immediate byte. -/
def takesImmediate : Format → Bool
  | registerImmediate | immediate => true
  | implied | register => false

/-- Bytes an instruction of this format occupies. -/
def size (f : Format) : Nat := if f.takesImmediate then 2 else 1

theorem size_pos (f : Format) : 0 < f.size := by cases f <;> decide

/-- How messages name a format. -/
def name (f : Format) : Text := "type ".toList ++ Text.decimal f.tag

end Format

end MicroAsm
