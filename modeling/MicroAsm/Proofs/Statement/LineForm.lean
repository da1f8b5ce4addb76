/-
  The language of code lines.

  `LineForm line o n v` says what a line is: blanks, the mnemonic of an operation `o`,
  blanks, the operands of its format and blanks again, where the operands name the
  register `n` and a literal of value `v`.  Parsing accepts these lines and no others,
  and gives the instruction with that register and the low byte of that value
  (`parse_eq_ok_iff`); so the bytes of a line are those of `lineBytes`.
-/
import MicroAsm.Proofs.Machine.Decoding
import MicroAsm.Proofs.Outcome
import MicroAsm.Proofs.Statement.Pieces
import MicroAsm.Statement.Parse

namespace MicroAsm

open Text (Blanks StopsAt isBlank)

/-! ## The forms of a line -/

/-- `digits` is a run of decimal digits, leading zeros allowed, for a register's number `n`. -/
structure RegisterDigits (digits : Text) (n : Nat) : Prop where
  ne_nil : digits ≠ []
  isDigit : ∀ c ∈ digits, c.isDigit = true
  value : Nat.ofDigitChars 10 digits 0 = n
  le_seven : n ≤ 7

/-- The operands of a format, with the register number and the literal's value they name. -/
inductive OperandForm : Format → Text → Option Nat → Option Int → Prop where
  | implied : OperandForm .implied [] none none
  | register {digits : Text} {n : Nat} (hr : RegisterDigits digits n) :
      OperandForm .register ('r' :: digits) (some n) none
  | registerImmediate {digits before after literal : Text} {n : Nat} {v : Int}
      (hr : RegisterDigits digits n) (hbefore : Blanks before) (hafter : Blanks after)
      (hv : Literal.value? literal = some v) :
      OperandForm .registerImmediate ('r' :: (digits ++ (before ++ ',' :: (after ++ literal))))
        (some n) (some v)
  | immediate {literal : Text} {v : Int} (hv : Literal.value? literal = some v) :
      OperandForm .immediate literal none (some v)

/-- Blanks, a mnemonic, blanks, its operands, blanks.  Where there are operands, some blank
    stands before them. -/
def LineForm (line : Text) (o : Operation) (n : Option Nat) (v : Option Int) : Prop :=
  o ∈ Operation.table ∧ ∃ before gap operands after,
    line = before ++ (o.mnemonic ++ (gap ++ (operands ++ after))) ∧
      Blanks before ∧ Blanks gap ∧ Blanks after ∧ (operands ≠ [] → gap ≠ []) ∧
      OperandForm o.format operands n v

/-- The bytes of a line, by what it names. -/
def lineBytes (o : Operation) : Option Nat → Option Int → List Nat
  | none, none => [o.opcode]
  | some n, none => [64 + 8 * n + o.opcode]
  | some n, some v => [128 + 8 * n + o.opcode, (v % 256).toNat]
  | none, some v => [192 + o.opcode, (v % 256).toNat]

/-- The register of `operands` has the number `n`, and their immediate is `v` modulo 256. -/
structure Operands.Names (operands : Operands) (n : Option Nat) (v : Option Int) : Prop where
  register : operands.register?.map Fin.val = n
  immediate : operands.immediate?.map (fun byte => (byte.toNat : Int)) = v.map (· % 256)

theorem Literal.toNat_lowByte (v : Int) : ((lowByte v).toNat : Int) = v % 256 := by
  have hlt : (v % 256).toNat < 256 := by omega
  rw [lowByte, UInt8.toNat_ofNat_of_lt' hlt]
  omega

/-- What operands name decides them. -/
theorem Operands.Names.unique {a b : Operands} {n : Option Nat} {v : Option Int}
    (hf : a.format = b.format) (ha : a.Names n v) (hb : b.Names n v) : a = b := by
  have hr : a.register? = b.register? :=
    Option.map_injective (fun _ _ h => Fin.ext h) (ha.register.trans hb.register.symm)
  have hi : a.immediate? = b.immediate? := by
    refine Option.map_injective ?_ (ha.immediate.trans hb.immediate.symm)
    intro x y hxy
    exact UInt8.toNat_inj.mp (Int.ofNat.inj hxy)
  cases a <;> cases b <;> simp_all [Operands.format, Operands.register?, Operands.immediate?]

/-! ## Resolving the pieces -/

namespace OperandField

theorem resolveRegister_eq_ok_iff {mnemonic : Text} {field : OperandField} {r : Register} :
    field.resolveRegister mnemonic = .ok r ↔
      ∃ digits, field.register = some digits ∧ Text.ofDigits? 10 digits = some r.val := by
  unfold resolveRegister
  cases field.register with
  | none => simp
  | some digits =>
    simp only [Option.some.injEq, exists_eq_left']
    cases hn : Text.ofDigits? 10 digits with
    | none => simp
    | some n =>
      rw [Option.bind_some, Option.some.injEq, eq_comm (a := n), ← Register.ofNat?_eq_some_iff]
      cases Register.ofNat? n <;> simp

theorem resolveSeparator_eq_ok_iff {mnemonic : Text} {field : OperandField} {u : Unit} :
    field.resolveSeparator mnemonic = .ok u ↔ field.separator = true := by
  unfold resolveSeparator
  cases field.separator <;> simp

theorem resolveImmediate_eq_ok_iff {mnemonic : Text} {expected : Expected} {field : OperandField}
    {byte : UInt8} : field.resolveImmediate mnemonic expected = .ok byte ↔
      ∃ literal v, field.literal = some literal ∧ Literal.value? literal = some v ∧
        byte = Literal.lowByte v := by
  unfold resolveImmediate
  cases field.literal with
  | none => simp
  | some literal =>
    simp only [Option.some.injEq, exists_and_left, exists_eq_left']
    cases Literal.value? literal with
    | none => simp
    | some v => simp [eq_comm]

theorem resolveEnd_eq_ok_iff {mnemonic : Text} {field : OperandField} {u : Unit} :
    field.resolveEnd mnemonic = .ok u ↔ field.trailing = none := by
  unfold resolveEnd
  cases field.trailing <;> simp

theorem resolve_implied_eq_ok_iff {mnemonic : Text} {field : OperandField} {operands : Operands} :
    field.resolve mnemonic .implied = .ok operands ↔
      field.trailing = none ∧ Operands.none = operands := by
  unfold resolve
  simp only [bind_eq_ok_iff, pure, Except.pure, resolveEnd_eq_ok_iff, Except.ok.injEq,
    exists_eq_left', exists_const]

theorem resolve_register_eq_ok_iff {mnemonic : Text} {field : OperandField}
    {operands : Operands} : field.resolve mnemonic .register = .ok operands ↔
      ∃ r, field.resolveRegister mnemonic = .ok r ∧ field.trailing = none ∧
        Operands.register r = operands := by
  unfold resolve
  simp only [bind_eq_ok_iff, pure, Except.pure, resolveEnd_eq_ok_iff, Except.ok.injEq,
    exists_eq_left', exists_const]

theorem resolve_registerImmediate_eq_ok_iff {mnemonic : Text} {field : OperandField}
    {operands : Operands} : field.resolve mnemonic .registerImmediate = .ok operands ↔
      ∃ r, field.resolveRegister mnemonic = .ok r ∧ field.separator = true ∧
        ∃ byte, field.resolveImmediate mnemonic .immediateAfterSeparator = .ok byte ∧
          field.trailing = none ∧ Operands.registerImmediate r byte = operands := by
  unfold resolve
  simp only [bind_eq_ok_iff, pure, Except.pure, resolveEnd_eq_ok_iff,
    resolveSeparator_eq_ok_iff, Except.ok.injEq, exists_eq_left', exists_const]

theorem resolve_immediate_eq_ok_iff {mnemonic : Text} {field : OperandField}
    {operands : Operands} : field.resolve mnemonic .immediate = .ok operands ↔
      ∃ byte, field.resolveImmediate mnemonic .immediate = .ok byte ∧ field.trailing = none ∧
        Operands.immediate byte = operands := by
  unfold resolve
  simp only [bind_eq_ok_iff, pure, Except.pure, resolveEnd_eq_ok_iff, Except.ok.injEq,
    exists_eq_left', exists_const]

/-! ## Operand fields that are accepted -/

theorem scan_register_eq {t rest : Text} {register : Option Text}
    (h : takeRegister (Text.trimStart t) = (register, rest)) :
    scan .register t = ⟨register, false, none, takeTrailing rest⟩ := by
  rw [scan, h]

theorem scan_registerImmediate_eq {t rest rest' rest'' : Text} {register literal : Option Text}
    (hr : takeRegister (Text.trimStart t) = (register, rest))
    (hs : takeSeparator (Text.trimStart rest) = (true, rest'))
    (hl : takeLiteral (Text.trimStart rest') = (literal, rest'')) :
    scan .registerImmediate t = ⟨register, true, literal, takeTrailing rest''⟩ := by
  simp only [scan, hr, hs, hl, if_true]

theorem scan_immediate_eq {t rest : Text} {literal : Option Text}
    (h : takeLiteral (Text.trimStart t) = (literal, rest)) :
    scan .immediate t = ⟨none, false, literal, takeTrailing rest⟩ := by
  rw [scan, h]

/-- The separator that a scan reports stands behind the register. -/
theorem takeSeparator_of_scan {t rest : Text} {register : Option Text}
    (hr : takeRegister (Text.trimStart t) = (register, rest))
    (h : (scan .registerImmediate t).separator = true) :
    takeSeparator (Text.trimStart rest) = (true, (takeSeparator (Text.trimStart rest)).2) := by
  simp only [scan, hr] at h
  exact Prod.ext h rfl

theorem exists_registerDigits {t digits rest : Text} {r : Register}
    (h : takeRegister t = (some digits, rest)) (hv : Text.ofDigits? 10 digits = some r.val) :
    t = 'r' :: (digits ++ rest) ∧ RegisterDigits digits r.val := by
  obtain ⟨ht, hne, hdigits, -⟩ := takeRegister_eq_some_iff.mp h
  rw [Text.ofDigits?_run hne hdigits, Option.some.injEq] at hv
  exact ⟨ht, hne, hdigits, hv, Nat.le_of_lt_succ r.isLt⟩

/-- What is accepted as operands has the form of operands. -/
theorem operandForm_of_resolve {mnemonic t : Text} {format : Format} {operands : Operands}
    (h : (scan format t).resolve mnemonic format = .ok operands) :
    operands.format = format ∧ ∃ before field after n v, t = before ++ (field ++ after) ∧
      Blanks before ∧ Blanks after ∧ OperandForm format field n v ∧ operands.Names n v := by
  obtain ⟨before, hbefore, ht⟩ := Text.exists_blanks_append_trimStart t
  cases format with
  | implied =>
    obtain ⟨hend, rfl⟩ := resolve_implied_eq_ok_iff.mp h
    have hafter : Blanks t := takeTrailing_eq_none_iff.mp hend
    exact ⟨rfl, [], [], t, none, none, rfl, Text.blanks_nil, hafter, .implied, rfl, rfl⟩
  | register =>
    obtain ⟨r, hr, hend, rfl⟩ := resolve_register_eq_ok_iff.mp h
    obtain ⟨digits, hdigits, hvalue⟩ := resolveRegister_eq_ok_iff.mp hr
    cases htake : takeRegister (Text.trimStart t) with | mk register rest =>
    rw [scan_register_eq htake] at hdigits hend
    subst hdigits
    have hafter : Blanks rest := takeTrailing_eq_none_iff.mp hend
    obtain ⟨htrim, hform⟩ := exists_registerDigits htake hvalue
    rw [htrim] at ht
    exact ⟨rfl, before, 'r' :: digits, rest, _, _, ht, hbefore, hafter, .register hform, rfl, rfl⟩
  | registerImmediate =>
    obtain ⟨r, hr, hsep, byte, hbyte, hend, rfl⟩ := resolve_registerImmediate_eq_ok_iff.mp h
    obtain ⟨digits, hdigits, hvalue⟩ := resolveRegister_eq_ok_iff.mp hr
    obtain ⟨literal, v, hliteral, hv, rfl⟩ := resolveImmediate_eq_ok_iff.mp hbyte
    cases htake : takeRegister (Text.trimStart t) with | mk register rest =>
    have hcomma := takeSeparator_of_scan htake hsep
    generalize (takeSeparator (Text.trimStart rest)).2 = rest' at hcomma
    cases hlit : takeLiteral (Text.trimStart rest') with | mk literal' rest'' =>
    rw [scan_registerImmediate_eq htake hcomma hlit] at hdigits hliteral hend
    subst hdigits hliteral
    obtain ⟨htrim, hform⟩ := exists_registerDigits htake hvalue
    obtain ⟨gap, hgap, hrest⟩ := Text.exists_blanks_append_trimStart rest
    obtain ⟨gap', hgap', hrest'⟩ := Text.exists_blanks_append_trimStart rest'
    obtain ⟨hliteral, -⟩ := takeLiteral_eq_some_iff.mp hlit
    have hafter : Blanks rest'' := takeTrailing_eq_none_iff.mp hend
    have himm : ((Literal.lowByte v).toNat : Int) = v % 256 := Literal.toNat_lowByte v
    refine ⟨rfl, before, _, rest'', _, _, ?_, hbefore, hafter,
      .registerImmediate hform hgap hgap' hv, rfl, congrArg some himm⟩
    rw [htrim, hrest, takeSeparator_eq_true_iff.mp hcomma, hrest', hliteral] at ht
    simpa using ht
  | immediate =>
    obtain ⟨byte, hbyte, hend, rfl⟩ := resolve_immediate_eq_ok_iff.mp h
    obtain ⟨literal, v, hliteral, hv, rfl⟩ := resolveImmediate_eq_ok_iff.mp hbyte
    cases hlit : takeLiteral (Text.trimStart t) with | mk literal' rest =>
    rw [scan_immediate_eq hlit] at hliteral hend
    subst hliteral
    obtain ⟨htrim, -⟩ := takeLiteral_eq_some_iff.mp hlit
    have hafter : Blanks rest := takeTrailing_eq_none_iff.mp hend
    have himm : ((Literal.lowByte v).toNat : Int) = v % 256 := Literal.toNat_lowByte v
    rw [htrim] at ht
    exact ⟨rfl, before, literal, rest, _, _, ht, hbefore, hafter, .immediate hv, rfl,
      congrArg some himm⟩

theorem resolveRegister_of_digits {mnemonic digits : Text} {n : Nat} {field : OperandField}
    (h : RegisterDigits digits n) (hfield : field.register = some digits) :
    field.resolveRegister mnemonic = .ok ⟨n, Nat.lt_succ_of_le h.le_seven⟩ := by
  refine resolveRegister_eq_ok_iff.mpr ⟨digits, hfield, ?_⟩
  rw [Text.ofDigits?_run h.ne_nil h.isDigit, h.value]

theorem resolveImmediate_of_value? {literal : Text} {v : Int}
    (hv : Literal.value? literal = some v) (mnemonic : Text) (expected : Expected)
    (field : OperandField) (hfield : field.literal = some literal) :
    field.resolveImmediate mnemonic expected = .ok (Literal.lowByte v) :=
  resolveImmediate_eq_ok_iff.mpr ⟨literal, v, hfield, hv, rfl⟩

/-- Blanks and a literal in front of blanks are taken up to the blanks behind. -/
theorem takeLiteral_form {gap literal after : Text} {v : Int} (hgap : Blanks gap)
    (hv : Literal.value? literal = some v) (hafter : Blanks after) :
    takeLiteral (Text.trimStart (gap ++ (literal ++ after))) = (some literal, after) := by
  obtain ⟨hne, hchars⟩ := Literal.isLiteralChar_of_value? hv
  have hblank : ∀ c ∈ literal, isBlank c = false := by
    intro c hc
    exact Literal.isBlank_of_isLiteralChar (hchars c hc)
  have hstart : StopsAt isBlank (literal ++ after) := Text.stopsAt_append hne hblank after
  have hstop : StopsAt isLiteralChar after :=
    hafter.stopsAt fun _ => Literal.isBlank_of_isLiteralChar
  rw [Text.trimStart_blanks_append_of_stopsAt hgap hstart]
  exact takeLiteral_eq_some_iff.mpr ⟨rfl, hne, hchars, hstop⟩

/-- Blanks and a register are taken up to where its digits end. -/
theorem takeRegister_form {gap digits rest : Text} {n : Nat} (hgap : Blanks gap)
    (hr : RegisterDigits digits n) (hrest : StopsAt Char.isDigit rest) :
    takeRegister (Text.trimStart (gap ++ 'r' :: (digits ++ rest))) = (some digits, rest) := by
  rw [Text.trimStart_blanks_append_of_stopsAt hgap (Text.stopsAt_cons.mpr (by decide))]
  exact takeRegister_eq_some_iff.mpr ⟨rfl, hr.ne_nil, hr.isDigit, hrest⟩

/-- What has the form of operands is accepted as operands. -/
theorem resolve_of_operandForm (mnemonic : Text) {before field after : Text} {format : Format}
    {n : Option Nat} {v : Option Int} (h : OperandForm format field n v)
    (hbefore : Blanks before) (hafter : Blanks after) :
    ∃ operands, (scan format (before ++ (field ++ after))).resolve mnemonic format = .ok operands ∧
      operands.format = format ∧ operands.Names n v := by
  have hdigit : StopsAt Char.isDigit after := hafter.stopsAt fun _ => Text.isBlank_of_isDigit
  have hend : takeTrailing after = none := takeTrailing_eq_none_iff.mpr hafter
  cases h with
  | implied =>
    have hblank : Blanks (before ++ after) := Text.blanks_append.mpr ⟨hbefore, hafter⟩
    have htrailing : takeTrailing (before ++ after) = none := takeTrailing_eq_none_iff.mpr hblank
    exact ⟨.none, resolve_implied_eq_ok_iff.mpr ⟨htrailing, rfl⟩, rfl, rfl, rfl⟩
  | register hr =>
    have hscan := scan_register_eq (takeRegister_form hbefore hr hdigit)
    rw [hend] at hscan
    rw [List.cons_append, hscan]
    exact ⟨_, resolve_register_eq_ok_iff.mpr ⟨_, resolveRegister_of_digits hr rfl, rfl, rfl⟩,
      rfl, rfl, rfl⟩
  | @registerImmediate digits gap gap' literal n v hr hgap hgap' hv =>
    have hcomma : StopsAt Char.isDigit (gap ++ ',' :: (gap' ++ (literal ++ after))) :=
      hgap.stopsAt_append (fun _ => Text.isBlank_of_isDigit) (Text.stopsAt_cons.mpr (by decide))
    have hsep : takeSeparator (Text.trimStart (gap ++ ',' :: (gap' ++ (literal ++ after)))) =
        (true, gap' ++ (literal ++ after)) := by
      rw [Text.trimStart_blanks_append_of_stopsAt hgap (Text.stopsAt_cons.mpr (by decide))]
      exact takeSeparator_eq_true_iff.mpr rfl
    have hscan := scan_registerImmediate_eq (takeRegister_form hbefore hr hcomma) hsep
      (takeLiteral_form hgap' hv hafter)
    have hassoc : before ++ ('r' :: (digits ++ (gap ++ ',' :: (gap' ++ literal))) ++ after) =
        before ++ 'r' :: (digits ++ (gap ++ ',' :: (gap' ++ (literal ++ after)))) := by
      simp
    rw [hend] at hscan
    rw [hassoc, hscan]
    have himm := resolveImmediate_of_value? hv mnemonic .immediateAfterSeparator
      ⟨some digits, true, some literal, none⟩ rfl
    exact ⟨_, resolve_registerImmediate_eq_ok_iff.mpr ⟨_, resolveRegister_of_digits hr rfl, rfl, _,
      himm, rfl, rfl⟩, rfl, rfl, congrArg some (Literal.toNat_lowByte v)⟩
  | @immediate _ v hv =>
    have hscan := scan_immediate_eq (takeLiteral_form hbefore hv hafter)
    rw [hend] at hscan
    rw [hscan]
    have himm := resolveImmediate_of_value? hv mnemonic .immediate
      ⟨none, false, some field, none⟩ rfl
    exact ⟨_, resolve_immediate_eq_ok_iff.mpr ⟨_, himm, rfl, rfl⟩, rfl, rfl,
      congrArg some (Literal.toNat_lowByte v)⟩

end OperandField

/-! ## Lines that are accepted -/

/-- Mnemonics are words of letters and digits. -/
theorem Operation.isAlphanum_mnemonic {o : Operation} (h : o ∈ table) :
    o.mnemonic ≠ [] ∧ ∀ c ∈ o.mnemonic, c.isAlphanum = true := by
  have hall : ∀ o ∈ table, o.mnemonic ≠ [] ∧ o.mnemonic.all Char.isAlphanum = true := by
    decide +kernel
  obtain ⟨hne, hword⟩ := hall o h
  exact ⟨hne, List.all_eq_true.mp hword⟩

namespace Instruction

theorem parse_of_split? {line : Text} {s : Statement} {o : Operation}
    (hs : Statement.split? line = some s) (ho : Operation.ofMnemonic? s.mnemonic = some o)
    {i : Instruction} : parse line = .ok i ↔ o = i.operation ∧
      (OperandField.scan o.format s.operands).resolve o.mnemonic o.format = .ok i.operands := by
  unfold parse
  simp only [hs, ho, bind_eq_ok_iff, pure, Except.pure, Except.ok.injEq]
  constructor
  · intro hresolve
    obtain ⟨operands, hr, rfl⟩ := hresolve
    exact ⟨rfl, hr⟩
  · intro hresolve
    obtain ⟨rfl, hr⟩ := hresolve
    exact ⟨i.operands, hr, rfl⟩

theorem lineForm_of_parse {line : Text} {i : Instruction} (h : parse line = .ok i) :
    i.WellFormed ∧ ∃ n v, LineForm line i.operation n v ∧ i.operands.Names n v := by
  cases hs : Statement.split? line with
  | none => exact absurd h (by simp [parse, hs])
  | some s =>
    cases ho : Operation.ofMnemonic? s.mnemonic with
    | none => exact absurd h (by simp [parse, hs, ho])
    | some o =>
      obtain ⟨rfl, hr⟩ := (parse_of_split? hs ho).mp h
      obtain ⟨hmem, hmnemonic⟩ := Operation.ofMnemonic?_eq_some_iff.mp ho
      obtain ⟨before, gap, hbefore, hgap, hline, -, -, -, hsep⟩ :=
        Statement.split?_eq_some_iff.mp hs
      obtain ⟨hformat, gap', field, after, n, v, hfield, hgap', hafter, hform, hnames⟩ :=
        OperandField.operandForm_of_resolve hr
      refine ⟨⟨hmem, hformat⟩, n, v, ⟨hmem, before, gap ++ gap', field, after, ?_, hbefore,
        Text.blanks_append.mpr ⟨hgap, hgap'⟩, hafter, ?_, hform⟩, hnames⟩
      · rw [hline, hfield, hmnemonic, List.append_assoc]
      · -- the first cut has a gap before any operands, and blanks only add to it
        intro hne hnil
        obtain ⟨rfl, rfl⟩ := List.append_eq_nil_iff.mp hnil
        rw [hsep rfl] at hfield
        simp [hne] at hfield

theorem parse_of_lineForm {line : Text} {o : Operation} {n : Option Nat} {v : Option Int}
    (h : LineForm line o n v) :
    ∃ operands : Operands, parse line = .ok ⟨o, operands⟩ ∧ operands.format = o.format ∧
      operands.Names n v := by
  obtain ⟨hmem, before, gap, field, after, rfl, hbefore, hgap, hafter, hsep, hform⟩ := h
  obtain ⟨hne, hword⟩ := Operation.isAlphanum_mnemonic hmem
  have htail : StopsAt Statement.isWordChar (gap ++ (field ++ after)) := by
    refine Statement.stopsAt_blanks_append hgap fun hnil => ?_
    rw [not_ne_iff.mp fun hf => hsep hf hnil]
    exact hafter
  have hblank : ∀ c ∈ o.mnemonic, isBlank c = false := by
    intro c hc
    exact Text.isBlank_of_isAlphanum (hword c hc)
  have hs := Statement.split?_append hbefore hne hblank htail
  have ho := Operation.ofMnemonic?_eq_some_iff.mpr ⟨hmem, rfl⟩
  obtain ⟨operands, hr, hformat, hnames⟩ :=
    OperandField.resolve_of_operandForm o.mnemonic hform hgap hafter
  refine ⟨operands, (parse_of_split? hs ho).mpr ⟨rfl, ?_⟩, hformat, hnames⟩
  rw [OperandField.scan_trimStart]
  exact hr

/-- Parsing accepts the lines that have the form of a line, and gives what they name. -/
theorem parse_eq_ok_iff {line : Text} {i : Instruction} : parse line = .ok i ↔
    i.operands.format = i.operation.format ∧
      ∃ n v, LineForm line i.operation n v ∧ i.operands.Names n v := by
  constructor
  · intro h
    obtain ⟨hi, hform⟩ := lineForm_of_parse h
    exact ⟨hi.format_eq, hform⟩
  · intro hline
    obtain ⟨hformat, n, v, hform, hnames⟩ := hline
    obtain ⟨operands, hparse, hf, hn⟩ := parse_of_lineForm hform
    rw [hparse, Operands.Names.unique (hf.trans hformat.symm) hn hnames]

/-- The bytes of an instruction, by what its operands name. -/
theorem WellFormed.toNat_bytes {i : Instruction} (h : i.WellFormed) {n : Option Nat}
    {v : Option Int} (hnames : i.operands.Names n v) :
    i.bytes.map UInt8.toNat = lineBytes i.operation n v := by
  obtain ⟨o, operands⟩ := i
  obtain ⟨hmem, hformat⟩ := h
  obtain ⟨rfl, hv⟩ := hnames
  dsimp only at hmem hformat hv ⊢
  have hlt := Operation.opcode_lt hmem
  rw [← hformat] at hlt
  cases operands with
  | none =>
    obtain rfl : v = none := Option.map_eq_none_iff.mp hv.symm
    show [(leadByte .implied o.opcode 0).toNat] = [o.opcode]
    rw [toNat_leadByte_wide rfl hlt, Format.tag, Nat.mul_zero, Nat.zero_add]
  | register r =>
    obtain rfl : v = none := Option.map_eq_none_iff.mp hv.symm
    show [(leadByte .register o.opcode r.val).toNat] = [64 + 8 * r.val + o.opcode]
    rw [toNat_leadByte_narrow rfl hlt, Format.tag]
  | registerImmediate r byte =>
    obtain ⟨w, rfl, hw⟩ := Option.map_eq_some_iff.mp hv.symm
    show [(leadByte .registerImmediate o.opcode r.val).toNat, byte.toNat] =
      [128 + 8 * r.val + o.opcode, (w % 256).toNat]
    rw [toNat_leadByte_narrow rfl hlt, Format.tag, hw, Int.toNat_natCast]
  | immediate byte =>
    obtain ⟨w, rfl, hw⟩ := Option.map_eq_some_iff.mp hv.symm
    show [(leadByte .immediate o.opcode 0).toNat, byte.toNat] =
      [192 + o.opcode, (w % 256).toNat]
    rw [toNat_leadByte_wide rfl hlt, Format.tag, hw, Int.toNat_natCast]

end Instruction

/-- **Code lines and their bytes.**  A line assembles exactly when it has the form of a
    line, and then to the bytes of what it names. -/
theorem parse_bytes_iff_lineForm (line : Text) (bytes : List Nat) :
    (∃ i, Instruction.parse line = .ok i ∧ i.bytes.map UInt8.toNat = bytes) ↔
      ∃ o n v, LineForm line o n v ∧ lineBytes o n v = bytes := by
  constructor
  · intro hline
    obtain ⟨i, hparse, rfl⟩ := hline
    obtain ⟨hi, n, v, hform, hnames⟩ := Instruction.lineForm_of_parse hparse
    exact ⟨i.operation, n, v, hform, (hi.toNat_bytes hnames).symm⟩
  · intro hline
    obtain ⟨o, n, v, hform, rfl⟩ := hline
    obtain ⟨operands, hparse, hformat, hnames⟩ := Instruction.parse_of_lineForm hform
    have hi : Instruction.WellFormed ⟨o, operands⟩ := ⟨hform.1, hformat⟩
    exact ⟨⟨o, operands⟩, hparse, hi.toNat_bytes hnames⟩

end MicroAsm
