/-
  The defect that is reported.

  Pieces are taken from an operand field first, each of them only if it is there, and
  judged afterwards.  `leftmostDefect?` reads the same text strictly from left to right
  and stops at the first thing that is wrong.  Both come to the same
  (`reports_resolve`), so the defect of a line is its leftmost one; and what stands in
  front of trailing text is a line that is accepted.
-/
import MicroAsm.Proofs.Statement.LineForm

namespace MicroAsm

open Text (Blanks StopsAt isBlank)
open OperandField (isLiteralChar)

/-! ## Reading operands from left to right -/

/-- Whether `r` and a digit stand at the start. -/
def startsWithRegister : Text → Bool
  | 'r' :: c :: _ => c.isDigit
  | _ => false

/-- The digits behind a leading `r`. -/
def leadingDigits (t : Text) : Text := (t.drop 1).takeWhile Char.isDigit

/-- What stands behind these digits. -/
def behindRegister (t : Text) : Text := (t.drop 1).dropWhile Char.isDigit

/-- What stands behind a `,` that only blanks precede, and the blanks after it. -/
def behindSeparator (t : Text) : Text := Text.trimStart ((Text.trimStart t).drop 1)

/-- What stands behind letters, digits and signs. -/
def behindImmediate (t : Text) : Text := t.dropWhile isLiteralChar

/-- No register at the start, or one above `r7`. -/
def registerDefect? (mnemonic t : Text) : Option Defect :=
  if startsWithRegister t = false then some (.missingOperand mnemonic .register)
  else if 7 < Nat.ofDigitChars 10 (leadingDigits t) 0 then
    some (.noSuchRegister mnemonic (leadingDigits t))
  else none

/-- Anything but a `,` as the first character that is no blank. -/
def separatorDefect? (mnemonic t : Text) : Option Defect :=
  if (Text.trimStart t).head? = some ',' then none
  else some (.missingOperand mnemonic .separator)

/-- No letter, digit or sign at the start, or a run of them without a value. -/
def immediateDefect? (mnemonic : Text) (expected : Expected) (t : Text) : Option Defect :=
  if t.takeWhile isLiteralChar = [] then some (.missingOperand mnemonic expected)
  else if Literal.value? (t.takeWhile isLiteralChar) = none then
    some (.malformedImmediate mnemonic (t.takeWhile isLiteralChar))
  else none

/-- Anything but blanks where nothing more is expected. -/
def endDefect? (mnemonic t : Text) : Option Defect :=
  if Blanks t then none else some (.trailingText mnemonic (Text.trim t))

/-- The first defect among the operands of a format. -/
def operandDefect? (mnemonic t : Text) : Format → Option Defect
  | .implied => none
  | .register => registerDefect? mnemonic t
  | .registerImmediate =>
    (registerDefect? mnemonic t).or <|
      (separatorDefect? mnemonic (behindRegister t)).or <|
        immediateDefect? mnemonic .immediateAfterSeparator (behindSeparator (behindRegister t))
  | .immediate => immediateDefect? mnemonic .immediate t

/-- What the operands of a format leave over. -/
def leftOver (t : Text) : Format → Text
  | .implied => t
  | .register => behindRegister t
  | .registerImmediate => behindImmediate (behindSeparator (behindRegister t))
  | .immediate => behindImmediate t

/-- The first defect of an operand field: one of its operands, or what they leave over. -/
def leftmostDefect? (mnemonic t : Text) (format : Format) : Option Defect :=
  (operandDefect? mnemonic t format).or (endDefect? mnemonic (leftOver t format))

/-! ## Outcomes and the defects they report -/

/-- The outcome is this defect, or a success where there is none. -/
def Reports {α : Type} (outcome : Except Defect α) : Option Defect → Prop
  | some d => outcome = .error d
  | none => ∃ a, outcome = .ok a

namespace Reports

variable {α β : Type} {x : Except Defect α} {p q : Option Defect}

theorem error_iff (h : Reports x p) {d : Defect} : x = .error d ↔ p = some d := by
  cases p with
  | none =>
    obtain ⟨a, rfl⟩ := h
    simp
  | some e =>
    obtain rfl : x = .error e := h
    simp

theorem ok_iff (h : Reports x p) : (∃ a, x = .ok a) ↔ p = none := by
  cases p with
  | none => exact ⟨fun _ => rfl, fun _ => h⟩
  | some e =>
    obtain rfl : x = .error e := h
    simp

/-- Of two steps the first reports if it has something to report. -/
theorem bind {f : α → Except Defect β} (hx : Reports x p)
    (hf : p = none → ∀ a, Reports (f a) q) : Reports (x >>= f) (p.or q) := by
  cases p with
  | none =>
    obtain ⟨a, rfl⟩ := hx
    exact hf rfl a
  | some d =>
    obtain rfl : x = .error d := hx
    exact rfl

theorem map {f : α → β} (hx : Reports x p) : Reports (x >>= fun a => pure (f a)) p := by
  have hbind := hx.bind (q := none) fun _ a => (⟨f a, rfl⟩ : Reports (pure (f a)) none)
  rwa [Option.or_none] at hbind

end Reports

/-! ## The pieces and their defects -/

theorem startsWithRegister_iff {t : Text} :
    startsWithRegister t = true ↔ ∃ rest, t = 'r' :: rest ∧ rest.takeWhile Char.isDigit ≠ [] := by
  unfold startsWithRegister
  split
  · next c rest =>
    by_cases hc : c.isDigit = true
    · simp [hc]
    · simp [hc]
  · next hne =>
    simp only [Bool.false_eq_true, false_iff, not_exists, not_and]
    rintro rest rfl hrun
    cases rest with
    | nil => exact hrun rfl
    | cons c rest => exact hne c rest rfl

namespace OperandField

theorem takeRegister_of_starts {t : Text} (h : startsWithRegister t = true) :
    takeRegister t = (some (leadingDigits t), behindRegister t) := by
  obtain ⟨rest, rfl, hrun⟩ := startsWithRegister_iff.mp h
  rw [takeRegister_cons, if_neg hrun]
  rfl

theorem takeRegister_of_not_starts {t : Text} (h : startsWithRegister t = false) :
    takeRegister t = (none, t) := by
  cases t with
  | nil => rfl
  | cons c t =>
    by_cases hc : c = 'r'
    · have hrun : t.takeWhile Char.isDigit = [] := by
        by_contra hne
        rw [startsWithRegister_iff.mpr ⟨t, by rw [hc], hne⟩] at h
        exact absurd h (by decide)
      rw [hc, takeRegister_cons, if_pos hrun]
    · exact takeRegister_of_ne hc t

theorem reports_register (m : Text) {t : Text} {field : OperandField}
    (h : field.register = (takeRegister t).1) :
    Reports (field.resolveRegister m) (registerDefect? m t) := by
  unfold registerDefect? resolveRegister
  rw [h]
  by_cases hstarts : startsWithRegister t = true
  · obtain ⟨-, hne, hdigits, -⟩ := takeRegister_eq_some_iff.mp (takeRegister_of_starts hstarts)
    rw [takeRegister_of_starts hstarts, if_neg (by simp [hstarts])]
    dsimp only
    rw [Text.ofDigits?_run hne hdigits, Option.bind_some]
    by_cases hseven : 7 < Nat.ofDigitChars 10 (leadingDigits t) 0
    · rw [if_pos hseven, Register.ofNat?_eq_none_iff.mpr hseven]
      rfl
    · obtain ⟨r, hr⟩ := Option.ne_none_iff_exists'.mp
        (mt Register.ofNat?_eq_none_iff.mp hseven)
      rw [if_neg hseven, hr]
      exact ⟨r, rfl⟩
  · have hnot : startsWithRegister t = false := by simpa using hstarts
    rw [takeRegister_of_not_starts hnot, if_pos hnot]
    rfl

theorem takeRegister_of_no_defect {m t : Text} (h : registerDefect? m t = none) :
    takeRegister t = (some (leadingDigits t), behindRegister t) := by
  refine takeRegister_of_starts ?_
  by_contra hstarts
  rw [registerDefect?, if_pos (by simpa using hstarts)] at h
  exact absurd h (by simp)

theorem reports_separator (m : Text) {t : Text} {field : OperandField}
    (h : field.separator = (takeSeparator (Text.trimStart t)).1) :
    Reports (field.resolveSeparator m) (separatorDefect? m t) := by
  unfold separatorDefect? resolveSeparator
  rw [h]
  by_cases hcomma : (Text.trimStart t).head? = some ','
  · rw [takeSeparator_of_head? hcomma, if_pos hcomma]
    exact ⟨(), rfl⟩
  · rw [takeSeparator_of_not_head? hcomma, if_neg hcomma]
    rfl

theorem takeSeparator_of_no_defect {m t : Text} (h : separatorDefect? m t = none) :
    takeSeparator (Text.trimStart t) = (true, (Text.trimStart t).drop 1) := by
  refine takeSeparator_of_head? ?_
  by_contra hcomma
  simp [separatorDefect?, hcomma] at h

theorem takeLiteral_of_ne_nil {t : Text} (h : t.takeWhile isLiteralChar ≠ []) :
    takeLiteral t = (some (t.takeWhile isLiteralChar), behindImmediate t) := by
  rw [takeLiteral_eq, if_neg h]
  rfl

theorem takeLiteral_of_nil {t : Text} (h : t.takeWhile isLiteralChar = []) :
    takeLiteral t = (none, t) := by
  rw [takeLiteral_eq, if_pos h]

theorem reports_immediate (m : Text) (expected : Expected) {t : Text} {field : OperandField}
    (h : field.literal = (takeLiteral t).1) :
    Reports (field.resolveImmediate m expected) (immediateDefect? m expected t) := by
  unfold immediateDefect? resolveImmediate
  rw [h]
  by_cases hrun : t.takeWhile isLiteralChar = []
  · rw [takeLiteral_of_nil hrun, if_pos hrun]
    rfl
  · rw [takeLiteral_of_ne_nil hrun, if_neg hrun]
    dsimp only
    cases Literal.value? (t.takeWhile isLiteralChar) with
    | none => exact rfl
    | some v => exact ⟨Literal.lowByte v, rfl⟩

theorem takeLiteral_of_no_defect {m t : Text} {expected : Expected}
    (h : immediateDefect? m expected t = none) :
    takeLiteral t = (some (t.takeWhile isLiteralChar), behindImmediate t) := by
  refine takeLiteral_of_ne_nil ?_
  intro hrun
  simp [immediateDefect?, hrun] at h

theorem reports_end (m : Text) {t : Text} {field : OperandField}
    (h : field.trailing = takeTrailing t) :
    Reports (field.resolveEnd m) (endDefect? m t) := by
  unfold endDefect? resolveEnd
  rw [h]
  by_cases hblank : Blanks t
  · rw [takeTrailing_eq_none_iff.mpr hblank, if_pos hblank]
    exact ⟨(), rfl⟩
  · rw [takeTrailing_of_not_blanks hblank, if_neg hblank]
    rfl

/-- Judging the pieces reports what reading from left to right meets first. -/
theorem reports_resolve (m : Text) (format : Format) {t : Text} (ht : StopsAt isBlank t) :
    Reports ((scan format t).resolve m format) (leftmostDefect? m t format) := by
  have htrim : Text.trimStart t = t := Text.trimStart_of_stopsAt ht
  unfold leftmostDefect?
  cases format with
  | implied => exact (reports_end m rfl).map
  | register =>
    show Reports ((scan .register t).resolveRegister m >>= fun r =>
      (scan .register t).resolveEnd m >>= fun _ => pure (Operands.register r)) _
    refine (reports_register m (t := t) ?_).bind fun hr _ => (reports_end m ?_).map
    · simp only [scan, htrim]
    · simp only [scan, htrim, takeRegister_of_no_defect hr, leftOver]
  | immediate =>
    show Reports ((scan .immediate t).resolveImmediate m .immediate >>= fun v =>
      (scan .immediate t).resolveEnd m >>= fun _ => pure (Operands.immediate v)) _
    refine (reports_immediate m _ (t := t) ?_).bind fun hi _ => (reports_end m ?_).map
    · simp only [scan, htrim]
    · simp only [scan, htrim, takeLiteral_of_no_defect hi, leftOver]
  | registerImmediate =>
    show Reports ((scan .registerImmediate t).resolveRegister m >>= fun r =>
      (scan .registerImmediate t).resolveSeparator m >>= fun _ =>
        (scan .registerImmediate t).resolveImmediate m .immediateAfterSeparator >>= fun v =>
          (scan .registerImmediate t).resolveEnd m >>= fun _ =>
            pure (Operands.registerImmediate r v)) _
    unfold operandDefect?
    rw [Option.or_assoc, Option.or_assoc]
    refine (reports_register m (t := t) ?_).bind fun hr _ =>
      (reports_separator m (t := behindRegister t) ?_).bind fun hs _ =>
        (reports_immediate m _ (t := behindSeparator (behindRegister t)) ?_).bind fun hi _ =>
          (reports_end m ?_).map
    · simp only [scan, htrim]
    · simp only [scan, htrim, takeRegister_of_no_defect hr]
    · simp only [scan, htrim, takeRegister_of_no_defect hr, takeSeparator_of_no_defect hs,
        if_true, behindSeparator]
    · have hl := takeLiteral_of_no_defect hi
      unfold behindSeparator at hl
      simp only [scan, htrim, takeRegister_of_no_defect hr, takeSeparator_of_no_defect hs,
        if_true, hl, leftOver, behindSeparator]

end OperandField

/-! ## What stands in front of trailing text -/

theorem registerDigits_of_no_defect {m t : Text} (h : registerDefect? m t = none) :
    t = 'r' :: (leadingDigits t ++ behindRegister t) ∧
      RegisterDigits (leadingDigits t) (Nat.ofDigitChars 10 (leadingDigits t) 0) := by
  obtain ⟨ht, hne, hdigits, -⟩ :=
    OperandField.takeRegister_eq_some_iff.mp (OperandField.takeRegister_of_no_defect h)
  refine ⟨ht, hne, hdigits, rfl, ?_⟩
  unfold registerDefect? at h
  split_ifs at h with hstarts hseven
  omega

theorem value?_of_no_defect {m t : Text} {expected : Expected}
    (h : immediateDefect? m expected t = none) :
    ∃ v, Literal.value? (t.takeWhile isLiteralChar) = some v := by
  unfold immediateDefect? at h
  split_ifs at h with hrun hvalue
  exact Option.ne_none_iff_exists'.mp hvalue

/-- Operands without a defect have the form of operands. -/
theorem operandForm_of_no_defect {m t : Text} {format : Format}
    (h : operandDefect? m t format = none) :
    ∃ field n v, t = field ++ leftOver t format ∧ OperandForm format field n v := by
  cases format with
  | implied => exact ⟨[], none, none, rfl, .implied⟩
  | register =>
    obtain ⟨ht, hform⟩ := registerDigits_of_no_defect h
    exact ⟨_, _, _, ht, .register hform⟩
  | immediate =>
    obtain ⟨v, hv⟩ := value?_of_no_defect h
    exact ⟨_, _, _, List.takeWhile_append_dropWhile.symm, .immediate hv⟩
  | registerImmediate =>
    obtain ⟨hr, hrest⟩ := Option.or_eq_none_iff.mp h
    obtain ⟨hs, hi⟩ := Option.or_eq_none_iff.mp hrest
    obtain ⟨ht, hform⟩ := registerDigits_of_no_defect hr
    have hcomma :=
      OperandField.takeSeparator_eq_true_iff.mp (OperandField.takeSeparator_of_no_defect hs)
    obtain ⟨v, hv⟩ := value?_of_no_defect hi
    obtain ⟨gap, hgap, hbehind⟩ := Text.exists_blanks_append_trimStart (behindRegister t)
    obtain ⟨gap', hgap', hafter⟩ :=
      Text.exists_blanks_append_trimStart ((Text.trimStart (behindRegister t)).drop 1)
    have hrun : (behindSeparator (behindRegister t)).takeWhile isLiteralChar ++
        leftOver t .registerImmediate = behindSeparator (behindRegister t) :=
      List.takeWhile_append_dropWhile
    refine ⟨_, _, _, ?_, .registerImmediate hform hgap hgap' hv⟩
    calc t = 'r' :: (leadingDigits t ++ (gap ++ ',' ::
          (gap' ++ behindSeparator (behindRegister t)))) := by
            rw [behindSeparator, ← hafter, ← hcomma, ← hbehind, ← ht]
      _ = _ := by simp [hrun]

/-- What can be wrong with an operand: it is missing, or names no register or no value. -/
inductive OperandFault (mnemonic : Text) : Defect → Prop where
  | missing (expected : Expected) : OperandFault mnemonic (.missingOperand mnemonic expected)
  | register (digits : Text) : OperandFault mnemonic (.noSuchRegister mnemonic digits)
  | immediate (literal : Text) : OperandFault mnemonic (.malformedImmediate mnemonic literal)

section OperandFault

variable {m t : Text} {d : Defect}

theorem operandFault_of_registerDefect? (h : registerDefect? m t = some d) : OperandFault m d := by
  unfold registerDefect? at h
  split_ifs at h
  · cases h
    exact .missing _
  · cases h
    exact .register _

theorem operandFault_of_separatorDefect? (h : separatorDefect? m t = some d) :
    OperandFault m d := by
  unfold separatorDefect? at h
  split_ifs at h
  cases h
  exact .missing _

theorem operandFault_of_immediateDefect? {expected : Expected}
    (h : immediateDefect? m expected t = some d) : OperandFault m d := by
  unfold immediateDefect? at h
  split_ifs at h
  · cases h
    exact .missing _
  · cases h
    exact .immediate _

theorem operandFault_of_operandDefect? {format : Format}
    (h : operandDefect? m t format = some d) : OperandFault m d := by
  cases format with
  | implied => exact absurd h (by simp [operandDefect?])
  | register => exact operandFault_of_registerDefect? h
  | immediate => exact operandFault_of_immediateDefect? h
  | registerImmediate =>
    rcases Option.or_eq_some_iff.mp h with hregister | ⟨-, hrest⟩
    · exact operandFault_of_registerDefect? hregister
    · rcases Option.or_eq_some_iff.mp hrest with hseparator | ⟨-, himmediate⟩
      · exact operandFault_of_separatorDefect? hseparator
      · exact operandFault_of_immediateDefect? himmediate

end OperandFault

/-- The leftmost defect is one of an operand, or trailing text. -/
theorem leftmostDefect?_eq_some_cases {m t : Text} {format : Format} {d : Defect}
    (h : leftmostDefect? m t format = some d) :
    OperandFault m d ∨ (operandDefect? m t format = none ∧ ¬ Blanks (leftOver t format) ∧
      d = .trailingText m (Text.trim (leftOver t format))) := by
  rcases Option.or_eq_some_iff.mp h with hd | ⟨hnone, hend⟩
  · exact Or.inl (operandFault_of_operandDefect? hd)
  · unfold endDefect? at hend
    split_ifs at hend with hblank
    exact Or.inr ⟨hnone, hblank, (Option.some.inj hend).symm⟩

/-! ## Lines -/

/-- `word` is the first word of `line`, and `operands` is what stands behind it and the blanks
    after it. -/
structure FirstWord (line word operands : Text) : Prop where
  ne_nil : word ≠ []
  no_blank : ∀ c ∈ word, isBlank c = false
  start : StopsAt isBlank operands
  cut : ∃ before gap, Blanks before ∧ Blanks gap ∧
    line = before ++ (word ++ (gap ++ operands)) ∧ (gap = [] → operands = [])

theorem firstWord_iff {line word operands : Text} :
    FirstWord line word operands ↔ Statement.split? line = some ⟨word, operands⟩ := by
  rw [Statement.split?_eq_some_iff]
  constructor
  · intro h
    obtain ⟨hne, hword, hstart, before, gap, hbefore, hgap, hline, hsep⟩ := h
    exact ⟨before, gap, hbefore, hgap, hline, hne, hword, hstart, hsep⟩
  · intro h
    obtain ⟨before, gap, hbefore, hgap, hline, hne, hword, hstart, hsep⟩ := h
    exact ⟨hne, hword, hstart, before, gap, hbefore, hgap, hline, hsep⟩

theorem exists_firstWord {line : Text} (h : ¬ Blanks line) :
    ∃ word operands, FirstWord line word operands := by
  obtain ⟨s, hs⟩ := Option.ne_none_iff_exists'.mp (mt Statement.split?_eq_none_iff.mp h)
  exact ⟨s.mnemonic, s.operands, firstWord_iff.mpr hs⟩

namespace FirstWord

variable {line word operands : Text}

theorem parse_of_unknown (h : FirstWord line word operands)
    (hword : ∀ o ∈ Operation.table, o.mnemonic ≠ word) :
    Instruction.parse line = .error (.unknownMnemonic word) := by
  have hnone : Operation.ofMnemonic? word = none := by
    by_contra hsome
    obtain ⟨o, ho⟩ := Option.ne_none_iff_exists'.mp hsome
    obtain ⟨hmem, hmnemonic⟩ := Operation.ofMnemonic?_eq_some_iff.mp ho
    exact hword o hmem hmnemonic
  unfold Instruction.parse
  rw [firstWord_iff.mp h]
  dsimp only
  rw [hnone]

/-- Behind a mnemonic, parsing reports the leftmost defect of the operands. -/
theorem reports_parse (h : FirstWord line word operands) {o : Operation}
    (hmem : o ∈ Operation.table) (hword : o.mnemonic = word) :
    Reports (Instruction.parse line) (leftmostDefect? word operands o.format) := by
  have ho : Operation.ofMnemonic? word = some o :=
    Operation.ofMnemonic?_eq_some_iff.mpr ⟨hmem, hword⟩
  unfold Instruction.parse
  rw [firstWord_iff.mp h]
  dsimp only
  rw [ho, ← hword]
  exact (OperandField.reports_resolve o.mnemonic o.format h.start).map

theorem parse_eq_unknownMnemonic_iff (h : FirstWord line word operands) {t : Text} :
    Instruction.parse line = .error (.unknownMnemonic t) ↔
      t = word ∧ ∀ o ∈ Operation.table, o.mnemonic ≠ word := by
  constructor
  · intro hparse
    have hword : ∀ o ∈ Operation.table, o.mnemonic ≠ word := by
      intro o hmem hmnemonic
      have hdefect := (h.reports_parse hmem hmnemonic).error_iff.mp hparse
      rcases leftmostDefect?_eq_some_cases hdefect with hfault | ⟨-, -, htrailing⟩
      · cases hfault
      · cases htrailing
    rw [h.parse_of_unknown hword] at hparse
    obtain rfl : word = t := by simpa using hparse
    exact ⟨rfl, hword⟩
  · rintro ⟨rfl, hword⟩
    exact h.parse_of_unknown hword

/-- Only behind a mnemonic can there be trailing text. -/
theorem exists_operation (h : FirstWord line word operands) {m g : Text}
    (hparse : Instruction.parse line = .error (.trailingText m g)) :
    ∃ o ∈ Operation.table, o.mnemonic = word := by
  by_contra hnone
  rw [h.parse_of_unknown fun o hmem hword => hnone ⟨o, hmem, hword⟩] at hparse
  exact absurd hparse (by simp)

/-- In front of trailing text stands a line that is accepted. -/
theorem exists_accepted_front (h : FirstWord line word operands) {m g : Text}
    (hparse : Instruction.parse line = .error (.trailingText m g)) :
    m = word ∧ g ≠ [] ∧ ∃ front after, line = front ++ (g ++ after) ∧ Blanks after ∧
      ∃ i, Instruction.parse front = .ok i := by
  obtain ⟨o, hmem, rfl⟩ := h.exists_operation hparse
  have hdefect := (h.reports_parse hmem rfl).error_iff.mp hparse
  rcases leftmostDefect?_eq_some_cases hdefect with hfault | ⟨hnone, hblank, htrailing⟩
  · cases hfault
  obtain ⟨rfl, rfl⟩ : m = o.mnemonic ∧ g = Text.trim (leftOver operands o.format) := by
    simpa using htrailing
  obtain ⟨field, n, v, hfield, hform⟩ := operandForm_of_no_defect hnone
  obtain ⟨space, after, hspace, hafter, hleft⟩ :=
    Text.exists_blanks_around_trim (leftOver operands o.format)
  obtain ⟨before, gap, hbefore, hgap, hline, hsep⟩ := h.cut
  -- with operands to leave something over, the line has a gap behind its first word
  have hne : gap ≠ [] := by
    intro hnil
    rw [hsep hnil] at hfield hblank
    rw [(List.append_eq_nil_iff.mp hfield.symm).2] at hblank
    exact hblank Text.blanks_nil
  have hfront : LineForm (before ++ (o.mnemonic ++ (gap ++ (field ++ space)))) o n v :=
    ⟨hmem, before, gap, field, space, rfl, hbefore, hgap, hspace, fun _ => hne, hform⟩
  obtain ⟨result, hresult, -⟩ := Instruction.parse_of_lineForm hfront
  refine ⟨rfl, ?_, _, after, ?_, hafter, ⟨o, result⟩, hresult⟩
  · exact mt Text.trim_eq_nil_iff.mp hblank
  · calc line = before ++ (o.mnemonic ++ (gap ++ (field ++
          (space ++ (Text.trim (leftOver operands o.format) ++ after))))) := by
            rw [← hleft, ← hfield, ← hline]
      _ = _ := by simp

end FirstWord

/-- **The leftmost defect.**  A line that is not blank has a first word.  Parsing refuses the
    word when it is no mnemonic; behind a mnemonic it reports the first defect that reading
    the operands from left to right meets, and accepts the line when there is none.  Trailing
    text stands, in front of blanks only, behind a line that is accepted. -/
theorem parse_reports_leftmost_defect {line : Text} (h : ¬ Blanks line) :
    ∃ word operands, FirstWord line word operands ∧
      (∀ t, Instruction.parse line = .error (.unknownMnemonic t) ↔
        t = word ∧ ∀ o ∈ Operation.table, o.mnemonic ≠ word) ∧
      (∀ o ∈ Operation.table, o.mnemonic = word →
        (∀ d, Instruction.parse line = .error d ↔
          leftmostDefect? word operands o.format = some d) ∧
        ((∃ i, Instruction.parse line = .ok i) ↔
          leftmostDefect? word operands o.format = none)) ∧
      ∀ m g, Instruction.parse line = .error (.trailingText m g) →
        m = word ∧ g ≠ [] ∧ ∃ front after, line = front ++ (g ++ after) ∧ Blanks after ∧
          ∃ i, Instruction.parse front = .ok i := by
  obtain ⟨word, operands, hcut⟩ := exists_firstWord h
  refine ⟨word, operands, hcut, fun t => hcut.parse_eq_unknownMnemonic_iff, ?_,
    fun m g => hcut.exists_accepted_front⟩
  intro o hmem hword
  have hreports := hcut.reports_parse hmem hword
  exact ⟨fun d => hreports.error_iff, hreports.ok_iff⟩

/-- A register and an immediate in order, and something behind them. -/
theorem parse_reports_leftmost_defect_lim :
    ¬ Blanks " lim r2 ,10; x ".toList ∧
      Instruction.parse " lim r2 ,10; x ".toList =
        .error (.trailingText "lim".toList "; x".toList) ∧
      ∃ front after, " lim r2 ,10; x ".toList = front ++ ("; x".toList ++ after) ∧ Blanks after ∧
        ∃ i, Instruction.parse front = .ok i := by
  have hblank : ¬ Blanks " lim r2 ,10; x ".toList := by decide +kernel
  have hparse : Instruction.parse " lim r2 ,10; x ".toList =
      .error (.trailingText "lim".toList "; x".toList) := by decide +kernel
  obtain ⟨word, operands, -, -, -, htrailing⟩ := parse_reports_leftmost_defect hblank
  exact ⟨hblank, hparse, (htrailing _ _ hparse).2.2⟩

end MicroAsm
