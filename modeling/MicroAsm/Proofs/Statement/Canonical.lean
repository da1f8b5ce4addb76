/-
  Canonical source lines.

  `Instruction.text` writes a line of letters, digits, spaces and commas that has the
  form of a line and names the operands it was written from; so it parses back to its
  instruction (`parse_text`).  Numbers are written in decimal without leading zeros,
  and no numeral but that of zero is taken for an octal one.
-/
import MicroAsm.Proofs.Statement.LineForm

namespace MicroAsm

open Text (Blanks isBlank)

/-! ## Operands -/

theorem registerDigits_decimal (r : Register) : RegisterDigits (Text.decimal r.val) r.val where
  ne_nil := Text.decimal_ne_nil _
  isDigit _ hc := Text.isDigit_of_mem_decimal hc
  value := by rw [Text.decimal, Nat.ofDigitChars_ten_toDigits]
  le_seven := Nat.le_of_lt_succ r.isLt

theorem Literal.value?_decimal_byte (byte : UInt8) :
    value? (Text.decimal byte.toNat) = some (byte.toNat : Int) := by
  refine value?_decimal (Nat.lt_trans byte.toNat_lt ?_)
  decide

/-- A byte is its own residue. -/
theorem Literal.emod_byte (byte : UInt8) : (byte.toNat : Int) % 256 = byte.toNat := by
  have hlt := byte.toNat_lt
  omega

/-- A mnemonic, one space and the operands of its format make a line. -/
theorem lineForm_of_operandForm {o : Operation} (hmem : o ∈ Operation.table) {operands : Text}
    {n : Option Nat} {v : Option Int} (h : OperandForm o.format operands n v) :
    LineForm (o.mnemonic ++ ' ' :: operands) o n v := by
  have hspace : Blanks [' '] := by decide
  have hline : o.mnemonic ++ ' ' :: operands =
      [] ++ (o.mnemonic ++ ([' '] ++ (operands ++ []))) := by simp
  exact ⟨hmem, [], [' '], operands, [], hline, Text.blanks_nil, hspace, Text.blanks_nil,
    by simp, h⟩

namespace Instruction

/-- The text of an instruction names its operation and operands. -/
theorem lineForm_text {i : Instruction} (h : i.WellFormed) :
    ∃ n v, LineForm i.text i.operation n v ∧ i.operands.Names n v := by
  obtain ⟨o, operands⟩ := i
  obtain ⟨hmem, hformat⟩ := h
  dsimp only at hmem hformat ⊢
  cases operands with
  | none =>
    have hform : OperandForm o.format [] none none := hformat ▸ .implied
    have hline : text ⟨o, .none⟩ = [] ++ (o.mnemonic ++ ([] ++ ([] ++ []))) := by simp [text]
    exact ⟨none, none, ⟨hmem, [], [], [], [], hline, Text.blanks_nil, Text.blanks_nil,
      Text.blanks_nil, by simp, hform⟩, rfl, rfl⟩
  | register r =>
    have hform : OperandForm o.format r.name (some r.val) none :=
      hformat ▸ .register (registerDigits_decimal r)
    exact ⟨_, _, lineForm_of_operandForm hmem hform, rfl, rfl⟩
  | registerImmediate r byte =>
    have hform : OperandForm o.format
        ('r' :: (Text.decimal r.val ++ ([] ++ ',' :: ([' '] ++ Text.decimal byte.toNat))))
        (some r.val) (some (byte.toNat : Int)) :=
      hformat ▸ .registerImmediate (registerDigits_decimal r) Text.blanks_nil (by decide)
        (Literal.value?_decimal_byte byte)
    have hline := lineForm_of_operandForm hmem hform
    have htext : text ⟨o, .registerImmediate r byte⟩ = o.mnemonic ++ ' ' ::
        'r' :: (Text.decimal r.val ++ ([] ++ ',' :: ([' '] ++ Text.decimal byte.toNat))) := by
      simp [text, Register.name]
    rw [← htext] at hline
    exact ⟨_, _, hline, rfl, congrArg some (Literal.emod_byte byte).symm⟩
  | immediate byte =>
    have hform : OperandForm o.format (Text.decimal byte.toNat) none (some (byte.toNat : Int)) :=
      hformat ▸ .immediate (Literal.value?_decimal_byte byte)
    exact ⟨_, _, lineForm_of_operandForm hmem hform, rfl,
      congrArg some (Literal.emod_byte byte).symm⟩

/-- Parsing reads an instruction back from its text. -/
theorem parse_text {i : Instruction} (h : i.WellFormed) : parse i.text = .ok i :=
  parse_eq_ok_iff.mpr ⟨h.format_eq, lineForm_text h⟩

/-! ## Characters of the text -/

/-- The text starts with a letter or digit, the first of the mnemonic. -/
theorem exists_text_eq_cons {i : Instruction} (h : i.WellFormed) :
    ∃ c rest, i.text = c :: rest ∧ c.isAlphanum = true := by
  obtain ⟨hne, hword⟩ := Operation.isAlphanum_mnemonic h.mem_table
  obtain ⟨c, mnemonic, hc⟩ := List.exists_cons_of_ne_nil hne
  have hfirst : c.isAlphanum = true := hword c (by simp [hc])
  rw [text, hc, List.cons_append]
  exact ⟨c, _, rfl, hfirst⟩

/-- The text ends in a run of letters and digits: a numeral, or the mnemonic itself. -/
theorem exists_text_eq_append {i : Instruction} (h : i.WellFormed) :
    ∃ front run, i.text = front ++ run ∧ run ≠ [] ∧ ∀ c ∈ run, c.isAlphanum = true := by
  have hdecimal : ∀ n, ∀ c ∈ Text.decimal n, c.isAlphanum = true := by
    intro n c hc
    exact Text.isAlphanum_of_isDigit (Text.isDigit_of_mem_decimal hc)
  obtain ⟨hne, hword⟩ := Operation.isAlphanum_mnemonic h.mem_table
  obtain ⟨o, operands⟩ := i
  cases operands with
  | none => exact ⟨[], o.mnemonic, by simp [text], hne, hword⟩
  | register r =>
    exact ⟨o.mnemonic ++ [' ', 'r'], Text.decimal r.val, by simp [text, Register.name],
      Text.decimal_ne_nil _, hdecimal _⟩
  | registerImmediate r byte =>
    exact ⟨o.mnemonic ++ ' ' :: r.name ++ [',', ' '], Text.decimal byte.toNat, by simp [text],
      Text.decimal_ne_nil _, hdecimal _⟩
  | immediate byte =>
    exact ⟨o.mnemonic ++ [' '], Text.decimal byte.toNat, by simp [text],
      Text.decimal_ne_nil _, hdecimal _⟩

theorem trimStart_text {i : Instruction} (h : i.WellFormed) : Text.trimStart i.text = i.text := by
  obtain ⟨c, rest, htext, hc⟩ := exists_text_eq_cons h
  have hblank : isBlank c = false := Text.isBlank_of_isAlphanum hc
  rw [htext]
  exact Text.trimStart_of_stopsAt (Text.stopsAt_cons.mpr hblank)

theorem trimEnd_text {i : Instruction} (h : i.WellFormed) : Text.trimEnd i.text = i.text := by
  obtain ⟨front, run, htext, hne, hrun⟩ := exists_text_eq_append h
  have hblank : ∀ c ∈ run, isBlank c = false := by
    intro c hc
    exact Text.isBlank_of_isAlphanum (hrun c hc)
  rw [htext]
  exact Text.trimEnd_append_run front hne hblank

/-- The text has no outer blanks. -/
theorem trim_text {i : Instruction} (h : i.WellFormed) : Text.trim i.text = i.text := by
  rw [Text.trim, trimStart_text h, trimEnd_text h]

/-- The text is one line. -/
theorem newline_notMem_text {i : Instruction} (h : i.WellFormed) : '\n' ∉ i.text := by
  have hmnemonic : '\n' ∉ i.operation.mnemonic := by
    intro hmem
    exact absurd ((Operation.isAlphanum_mnemonic h.mem_table).2 _ hmem) (by decide)
  have hdecimal := Text.newline_notMem_decimal
  obtain ⟨o, operands⟩ := i
  cases operands <;> simp_all [text, Register.name]

end Instruction

end MicroAsm
