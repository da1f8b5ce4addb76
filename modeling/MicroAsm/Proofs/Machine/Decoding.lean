/-
  Decoding inverts encoding.

  The fields of a first byte are the ones it was packed from, a mnemonic or a code
  names one operation of the table, and so `decode` answers exactly the well-formed
  instructions whose bytes a byte list starts with (`decode_eq_ok_iff`).
-/
import Mathlib.Data.List.Nodup
import MicroAsm.Machine.Disassembly

namespace MicroAsm

/-! ## Look-ups in the instruction set -/

namespace Operation

/-- Looking for a key that no two entries share finds its one entry. -/
theorem find?_eq_some_iff_of_nodup {α β : Type} {key : α → β} {l : List α}
    (h : (l.map key).Nodup) {p : α → Bool} {k : β} (hp : ∀ x, p x = true ↔ key x = k) {a : α} :
    l.find? p = some a ↔ a ∈ l ∧ key a = k := by
  constructor
  · intro hf
    exact ⟨List.mem_of_find?_eq_some hf, (hp a).mp (List.find?_some hf)⟩
  · intro hmem
    obtain ⟨ha, hk⟩ := hmem
    have hsome : (l.find? p).isSome = true := List.find?_isSome.mpr ⟨a, ha, (hp a).mpr hk⟩
    obtain ⟨b, hb⟩ := Option.isSome_iff_exists.mp hsome
    have hkey : key b = key a := ((hp b).mp (List.find?_some hb)).trans hk.symm
    rw [hb, List.inj_on_of_nodup_map h (List.mem_of_find?_eq_some hb) ha hkey]

theorem ofMnemonic?_eq_some_iff {mnemonic : Text} {o : Operation} :
    ofMnemonic? mnemonic = some o ↔ o ∈ table ∧ o.mnemonic = mnemonic :=
  find?_eq_some_iff_of_nodup nodup_mnemonics fun _ => beq_iff_eq

theorem ofCode?_eq_some_iff {format : Format} {opcode : Nat} {o : Operation} :
    ofCode? format opcode = some o ↔ o ∈ table ∧ o.format = format ∧ o.opcode = opcode := by
  rw [← Prod.mk.injEq o.format]
  refine find?_eq_some_iff_of_nodup nodup_codes fun x => ?_
  rw [Bool.and_eq_true, beq_iff_eq, beq_iff_eq, Prod.mk.injEq]

/-- Opcodes fit the bits that their format leaves them. -/
theorem opcode_lt {o : Operation} (h : o ∈ table) :
    o.opcode < if o.format.takesRegister then 8 else 64 := by
  have hall : ∀ o ∈ table, o.opcode < if o.format.takesRegister then 8 else 64 := by
    decide +kernel
  exact hall o h

end Operation

/-! ## The first byte -/

theorem toNat_leadByte (format : Format) (opcode register : Nat) :
    (leadByte format opcode register).toNat = 64 * format.tag +
      if format.takesRegister then 8 * (register % 8) + opcode % 8 else opcode % 64 := by
  rw [leadByte, UInt8.toNat_ofNat']
  have htag := format.tag_lt
  refine Nat.mod_eq_of_lt ?_
  split <;> omega

theorem toNat_leadByte_wide {format : Format} (hf : format.takesRegister = false) {opcode : Nat}
    (h : opcode < 64) (register : Nat) :
    (leadByte format opcode register).toNat = 64 * format.tag + opcode := by
  rw [toNat_leadByte, hf, if_neg (by decide), Nat.mod_eq_of_lt h]

theorem toNat_leadByte_narrow {format : Format} (hf : format.takesRegister = true) {opcode : Nat}
    (h : opcode < 8) (r : Register) :
    (leadByte format opcode r.val).toNat = 64 * format.tag + 8 * r.val + opcode := by
  rw [toNat_leadByte, if_pos hf, Nat.mod_eq_of_lt h, Nat.mod_eq_of_lt r.isLt, Nat.add_assoc]

theorem formatField_leadByte (format : Format) (opcode register : Nat) :
    formatField (leadByte format opcode register) = format := by
  have hdiv : (leadByte format opcode register).toNat / 64 = format.tag := by
    rw [toNat_leadByte]
    split <;> omega
  rw [formatField, hdiv, Format.ofTag_tag]

theorem opcodeField_leadByte {format : Format} {opcode : Nat} (register : Nat)
    (h : opcode < if format.takesRegister then 8 else 64) :
    opcodeField (leadByte format opcode register) = opcode := by
  rw [opcodeField, formatField_leadByte, toNat_leadByte]
  by_cases hf : format.takesRegister = true
  · rw [if_pos hf] at h
    rw [if_pos hf, if_pos hf]
    omega
  · rw [if_neg hf] at h
    rw [if_neg hf, if_neg hf]
    omega

theorem registerField_leadByte {format : Format} (hf : format.takesRegister = true) (opcode : Nat)
    (r : Register) : registerField (leadByte format opcode r.val) = r := by
  have hr := r.isLt
  have hnat := toNat_leadByte format opcode r.val
  rw [if_pos hf] at hnat
  rw [Fin.ext_iff, registerField]
  dsimp only
  omega

/-- A byte is packed from its fields. -/
theorem leadByte_fields (byte : UInt8) :
    leadByte (formatField byte) (opcodeField byte) (registerField byte).val = byte := by
  have hlt := byte.toNat_lt
  have htag : (formatField byte).tag = byte.toNat / 64 := by
    rw [formatField, Format.tag_ofTag]
    omega
  rw [← UInt8.toNat_inj, toNat_leadByte, htag, opcodeField, registerField]
  dsimp only
  split <;> omega

/-! ## Instructions -/

/-- An operation of the instruction set with operands of its format. -/
structure Instruction.WellFormed (i : Instruction) : Prop where
  mem_table : i.operation ∈ Operation.table
  format_eq : i.operands.format = i.operation.format

theorem Instruction.WellFormed.length_bytes {i : Instruction} (h : i.WellFormed) :
    i.bytes.length = i.size := by
  rw [Instruction.bytes, length_encodeOpcode, h.format_eq, Instruction.size]

theorem Instruction.bytes_ne_nil (i : Instruction) : i.bytes ≠ [] := by
  rw [← List.length_pos_iff, Instruction.bytes, length_encodeOpcode]
  exact i.operands.format.size_pos

/-- `halt` as an instruction. -/
def Instruction.halt : Instruction := ⟨Operation.halt, .none⟩

theorem Instruction.wellFormed_halt : Instruction.halt.WellFormed :=
  ⟨Operation.halt_mem_table, rfl⟩

theorem Instruction.bytes_halt : Instruction.halt.bytes = [fillByte] := rfl

/-- Operands are read back from the byte they were packed into and what follows it. -/
theorem decodeOperands_encodeOpcode (opcode : Nat) (operands : Operands) (rest : List UInt8) :
    ∃ first tail, encodeOpcode opcode operands ++ rest = first :: tail ∧
      formatField first = operands.format ∧
      ((opcode < if operands.format.takesRegister then 8 else 64) →
        opcodeField first = opcode) ∧
      decodeOperands operands.format first tail = some operands := by
  refine ⟨_, _, rfl, formatField_leadByte _ _ _, opcodeField_leadByte _, ?_⟩
  cases operands with
  | none => rfl
  | register r =>
    rw [Operands.format, decodeOperands]
    exact congrArg (fun r => some (Operands.register r)) (registerField_leadByte rfl opcode r)
  | registerImmediate r value =>
    rw [Operands.format, decodeOperands]
    exact congrArg (fun r => some (Operands.registerImmediate r value))
      (registerField_leadByte rfl opcode r)
  | immediate value => rfl

theorem Instruction.WellFormed.decode_append {i : Instruction} (h : i.WellFormed)
    (rest : List UInt8) : decode (i.bytes ++ rest) = .ok i := by
  obtain ⟨first, tail, hbytes, hformat, hopcode, hoperands⟩ :=
    decodeOperands_encodeOpcode i.operation.opcode i.operands rest
  have hop : opcodeField first = i.operation.opcode := by
    refine hopcode ?_
    rw [h.format_eq]
    exact Operation.opcode_lt h.mem_table
  have hfind : Operation.ofCode? i.operands.format (opcodeField first) = some i.operation :=
    Operation.ofCode?_eq_some_iff.mpr ⟨h.mem_table, h.format_eq.symm, hop.symm⟩
  rw [Instruction.bytes, hbytes, decode]
  simp only [hformat, hfind, hoperands]

theorem leadByte_of_not_takesRegister {format : Format} (hf : format.takesRegister = false)
    (opcode register : Nat) : leadByte format opcode register = leadByte format opcode 0 := by
  simp [leadByte, hf]

/-- Operands that were read are packed into the byte they were read from. -/
theorem encodeOpcode_of_decodeOperands {first : UInt8} {rest : List UInt8} {operands : Operands}
    (h : decodeOperands (formatField first) first rest = some operands) :
    operands.format = formatField first ∧
      ∃ tail, first :: rest = encodeOpcode (opcodeField first) operands ++ tail := by
  have hfields := leadByte_fields first
  cases hf : formatField first with
  | implied =>
    rw [hf] at h hfields
    rw [leadByte_of_not_takesRegister rfl] at hfields
    obtain rfl : Operands.none = operands := by simpa [decodeOperands] using h
    exact ⟨rfl, rest, congrArg (· :: rest) hfields.symm⟩
  | register =>
    rw [hf] at h hfields
    obtain rfl : Operands.register (registerField first) = operands := by
      simpa [decodeOperands] using h
    exact ⟨rfl, rest, congrArg (· :: rest) hfields.symm⟩
  | registerImmediate =>
    rw [hf] at h hfields
    obtain ⟨value, hv, rfl⟩ := Option.map_eq_some_iff.mp h
    obtain ⟨tail, rfl⟩ := List.head?_eq_some_iff.mp hv
    exact ⟨rfl, tail, congrArg (· :: value :: tail) hfields.symm⟩
  | immediate =>
    rw [hf] at h hfields
    rw [leadByte_of_not_takesRegister rfl] at hfields
    obtain ⟨value, hv, rfl⟩ := Option.map_eq_some_iff.mp h
    obtain ⟨tail, rfl⟩ := List.head?_eq_some_iff.mp hv
    exact ⟨rfl, tail, congrArg (· :: value :: tail) hfields.symm⟩

theorem wellFormed_of_decode {bytes : List UInt8} {i : Instruction} (h : decode bytes = .ok i) :
    i.WellFormed ∧ ∃ rest, bytes = i.bytes ++ rest := by
  cases bytes with
  | nil => exact absurd h (by simp [decode])
  | cons first tail =>
    rw [decode] at h
    split at h
    · exact absurd h (by simp)
    next operation hfind =>
    split at h
    · exact absurd h (by simp)
    next operands hoperands =>
    obtain rfl : Instruction.mk operation operands = i := by simpa using h
    obtain ⟨hmem, hformat, hopcode⟩ := Operation.ofCode?_eq_some_iff.mp hfind
    obtain ⟨hof, hbytes⟩ := encodeOpcode_of_decodeOperands hoperands
    refine ⟨⟨hmem, hof.trans hformat.symm⟩, ?_⟩
    rw [Instruction.bytes, hopcode]
    exact hbytes

/-- A byte list starts with an instruction when it starts with the bytes of that instruction. -/
theorem decode_eq_ok_iff {bytes : List UInt8} {i : Instruction} :
    decode bytes = .ok i ↔ i.WellFormed ∧ ∃ rest, bytes = i.bytes ++ rest := by
  constructor
  · exact wellFormed_of_decode
  · intro hstart
    obtain ⟨hi, rest, rfl⟩ := hstart
    exact hi.decode_append rest

end MicroAsm
