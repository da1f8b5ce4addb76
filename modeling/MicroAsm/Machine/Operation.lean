/-
  The operations of the machine.  `Operation.table` is the instruction set; a
  mnemonic names at most one operation, and so do a format and an opcode
  (`nodup_mnemonics`, `nodup_codes`).
-/
import MicroAsm.Machine.Format

namespace MicroAsm

/-- One entry of the instruction set. -/
structure Operation where
  mnemonic : Text
  opcode : Nat
  format : Format
deriving DecidableEq

namespace Operation

/-- Operations of one format, from names and opcodes. -/
def group (format : Format) (names : List (String × Nat)) : List Operation :=
  names.map fun (name, opcode) => ⟨name.toList, opcode, format⟩

/-- The instruction set. -/
def table : List Operation :=
  group .immediate [
    ("page", 0), ("sjump", 1), ("slt", 2), ("seq", 3), ("sgt", 4), ("fill", 5), ("point", 6),
    ("line", 7), ("wait", 8), ("scall", 9), ("pollin", 10), ("0tox", 32), ("xto0", 33)] ++
  group .registerImmediate [
    ("lim", 0), ("char", 1), ("load", 2), ("store", 3), ("sl", 4), ("sr", 5)] ++
  group .register [
    ("push", 0), ("pop", 1), ("add", 2), ("sub", 3), ("and", 4), ("or", 5), ("xor", 6),
    ("mul", 7)] ++
  group .implied [
    ("nop", 0), ("envga", 1), ("tone", 2), ("notone", 3), ("jump", 4), ("jlt", 5), ("jeq", 6),
    ("jgt", 7), ("lcall", 8), ("logo", 9), ("pollblank", 10), ("pollrenderbusy", 11),
    ("ret", 12), ("jbez", 13), ("jbnez", 14), ("halt", 62), ("reset", 63)]

/-- Stops the machine. -/
def halt : Operation := ⟨"halt".toList, 62, .implied⟩

/-- The operation with this mnemonic. -/
def ofMnemonic? (mnemonic : Text) : Option Operation :=
  table.find? fun operation => operation.mnemonic == mnemonic

/-- The operation with this format and opcode. -/
def ofCode? (format : Format) (opcode : Nat) : Option Operation :=
  table.find? fun operation => operation.format == format && operation.opcode == opcode

theorem halt_mem_table : halt ∈ table := by decide

theorem nodup_mnemonics : (table.map mnemonic).Nodup := by decide +kernel

theorem nodup_codes : (table.map fun o => (o.format, o.opcode)).Nodup := by decide +kernel

end Operation

end MicroAsm
