/-
  The cuts of a code line: what is found by each scanner is what stands there.  Every
  statement is an `iff` between the scanner's answer and the shape of the text.
-/
import MicroAsm.Proofs.Statement.Literal
import MicroAsm.Statement.Basic

namespace MicroAsm

open Text (Blanks StopsAt isBlank)

/-! ## Mnemonic and operand field -/

namespace Statement

theorem isBlank_of_isWordChar (c : Char) (h : isWordChar c = true) : isBlank c = false := by
  simpa [isWordChar] using h

theorem forall_isWordChar {word : Text} (h : ∀ c ∈ word, isBlank c = false) :
    ∀ c ∈ word, isWordChar c = true := by
  intro c hc
  simp [isWordChar, h c hc]

/-- Splitting skips the blanks in front of a line. -/
theorem split?_trimStart (t : Text) : split? (Text.trimStart t) = split? t := by
  rw [split?, split?, Text.trimStart_trimStart]

theorem split?_of_trimStart {line stripped : Text} (h : Text.trimStart line = stripped)
    (hne : stripped ≠ []) : split? line =
      some ⟨stripped.takeWhile isWordChar, Text.trimStart (stripped.dropWhile isWordChar)⟩ := by
  rw [split?, h]
  split
  · exact absurd rfl hne
  · rfl

theorem split?_eq_none_iff {line : Text} : split? line = none ↔ Blanks line := by
  rw [← Text.trimStart_eq_nil_iff]
  by_cases h : Text.trimStart line = []
  · simp [split?, h]
  · rw [split?_of_trimStart rfl h]
    simp [h]

/-- What follows a word is empty or starts with a blank. -/
theorem stopsAt_isWordChar_iff {t : Text} :
    StopsAt isWordChar t ↔ t = [] ∨ ∃ c rest, t = c :: rest ∧ isBlank c = true := by
  cases t with
  | nil => simp [Text.stopsAt_nil]
  | cons c rest => simp [Text.stopsAt_cons, isWordChar]

/-- Blanks and a word are cut off where the word ends. -/
theorem split?_append {before word tail : Text} (hbefore : Blanks before) (hne : word ≠ [])
    (hword : ∀ c ∈ word, isBlank c = false) (htail : StopsAt isWordChar tail) :
    split? (before ++ (word ++ tail)) = some ⟨word, Text.trimStart tail⟩ := by
  have htrim : Text.trimStart (before ++ (word ++ tail)) = word ++ tail :=
    Text.trimStart_blanks_append_of_stopsAt hbefore (Text.stopsAt_append hne hword _)
  obtain ⟨htake, hdrop⟩ :=
    Text.takeWhile_dropWhile_eq_iff.mpr ⟨rfl, forall_isWordChar hword, htail⟩
  rw [split?_of_trimStart htrim (by simp [hne]), htake, hdrop]

/-- A word may be followed by blanks and, if there are any, by something else. -/
theorem stopsAt_blanks_append {gap t : Text} (hgap : Blanks gap) (h : gap = [] → Blanks t) :
    StopsAt isWordChar (gap ++ t) := by
  cases gap with
  | nil => exact (h rfl).stopsAt isBlank_of_isWordChar
  | cons c gap => simp [Text.stopsAt_cons, isWordChar, hgap c (by simp)]

/-- Where a word ends and no blank starts, nothing is left. -/
theorem eq_nil_of_stopsAt {t : Text} (hword : StopsAt isWordChar t) (hblank : StopsAt isBlank t) :
    t = [] := by
  rcases stopsAt_isWordChar_iff.mp hword with rfl | ⟨c, rest, rfl, hc⟩
  · rfl
  · rw [Text.stopsAt_cons, hc] at hblank
    exact absurd hblank (by decide)

/-- A statement is a word and an operand field that starts with no blank, with blanks
    before and between; the blanks between are needed when there is an operand field. -/
theorem split?_eq_some_iff {line : Text} {s : Statement} : split? line = some s ↔
    ∃ before gap, Blanks before ∧ Blanks gap ∧
      line = before ++ (s.mnemonic ++ (gap ++ s.operands)) ∧
      s.mnemonic ≠ [] ∧ (∀ c ∈ s.mnemonic, isBlank c = false) ∧
      StopsAt isBlank s.operands ∧ (gap = [] → s.operands = []) := by
  constructor
  · intro h
    by_cases hne : Text.trimStart line = []
    · rw [split?_eq_none_iff.mpr (Text.trimStart_eq_nil_iff.mp hne)] at h
      exact absurd h (by simp)
    rw [split?_of_trimStart rfl hne, Option.some.injEq] at h
    obtain ⟨before, hbefore, hline⟩ := Text.exists_blanks_append_trimStart line
    obtain ⟨htrim, hchars, htail⟩ := Text.takeWhile_dropWhile_eq_iff.mp
      ⟨(congrArg mnemonic h : (Text.trimStart line).takeWhile isWordChar = s.mnemonic), rfl⟩
    obtain ⟨gap, hgap, hsplit⟩ :=
      Text.exists_blanks_append_trimStart ((Text.trimStart line).dropWhile isWordChar)
    rw [show Text.trimStart ((Text.trimStart line).dropWhile isWordChar) = s.operands from
      congrArg operands h] at hsplit
    rw [hsplit] at htrim htail
    have hstop : StopsAt isBlank s.operands := by
      rw [← h]
      exact Text.stopsAt_trimStart _
    refine ⟨before, gap, hbefore, hgap, ?_, ?_, ?_, hstop, ?_⟩
    · rw [← htrim]
      exact hline
    · -- an empty word would leave a blank in front, which `trimStart` took
      intro hnil
      rw [hnil, List.nil_append] at htrim
      refine hne (htrim.trans (eq_nil_of_stopsAt htail ?_))
      rw [← htrim]
      exact Text.stopsAt_trimStart line
    · intro c hc
      exact isBlank_of_isWordChar c (hchars c hc)
    · rintro rfl
      exact eq_nil_of_stopsAt htail hstop
  · intro hcut
    obtain ⟨before, gap, hbefore, hgap, rfl, hne, hword, hstop, hsep⟩ := hcut
    have htail : StopsAt isWordChar (gap ++ s.operands) := by
      refine stopsAt_blanks_append hgap ?_
      intro hnil
      rw [hsep hnil]
      exact Text.blanks_nil
    rw [split?_append hbefore hne hword htail,
      Text.trimStart_blanks_append_of_stopsAt hgap hstop]

end Statement

/-! ## Pieces of an operand field -/

namespace OperandField

/-- Behind an `r`, the digits decide whether there is a register. -/
theorem takeRegister_cons (t : Text) : takeRegister ('r' :: t) =
    if t.takeWhile Char.isDigit = [] then (none, 'r' :: t)
    else (some (t.takeWhile Char.isDigit), t.dropWhile Char.isDigit) := by
  unfold takeRegister
  split
  · next rest heq =>
    obtain rfl : t = rest := (List.cons.inj heq).2
    cases t.takeWhile Char.isDigit with
    | nil => rfl
    | cons c digits => rfl
  · next hne => exact absurd rfl (hne t)

theorem takeRegister_of_ne {c : Char} (hc : c ≠ 'r') (t : Text) :
    takeRegister (c :: t) = (none, c :: t) := by
  unfold takeRegister
  split
  · next heq => exact absurd (List.cons.inj heq).1 hc
  · rfl

theorem takeRegister_of_not_head? {t : Text} (h : t.head? ≠ some 'r') :
    takeRegister t = (none, t) := by
  cases t with
  | nil => rfl
  | cons c t => exact takeRegister_of_ne (by simpa using h) t

theorem takeRegister_eq_some_iff {t digits rest : Text} :
    takeRegister t = (some digits, rest) ↔
      t = 'r' :: (digits ++ rest) ∧ digits ≠ [] ∧ (∀ c ∈ digits, c.isDigit = true) ∧
        StopsAt Char.isDigit rest := by
  constructor
  · intro h
    unfold takeRegister at h
    split at h
    · next tail =>
      split at h
      · exact absurd h (by simp)
      next hne =>
      obtain ⟨htake, hdrop⟩ := Prod.mk.injEq .. ▸ h
      obtain ⟨htail, hdigits, hrest⟩ :=
        Text.takeWhile_dropWhile_eq_iff.mp ⟨Option.some.inj htake, hdrop⟩
      refine ⟨by rw [htail], ?_, hdigits, hrest⟩
      rw [← Option.some.inj htake]
      exact hne
    · exact absurd h (by simp)
  · intro hshape
    obtain ⟨rfl, hne, hdigits, hrest⟩ := hshape
    obtain ⟨htake, hdrop⟩ := Text.takeWhile_dropWhile_eq_iff.mpr ⟨rfl, hdigits, hrest⟩
    unfold takeRegister
    split
    · next tail heq =>
      obtain rfl : digits ++ rest = tail := (List.cons.inj heq).2
      rw [htake, hdrop]
      split
      · exact absurd rfl hne
      · rfl
    · next h => exact absurd rfl (h _)

theorem takeSeparator_of_ne {c : Char} (hc : c ≠ ',') (t : Text) :
    takeSeparator (c :: t) = (false, c :: t) := by
  unfold takeSeparator
  split
  · next heq => exact absurd (List.cons.inj heq).1 hc
  · rfl

theorem takeSeparator_of_head? {t : Text} (h : t.head? = some ',') :
    takeSeparator t = (true, t.drop 1) := by
  obtain ⟨rest, rfl⟩ := List.head?_eq_some_iff.mp h
  rfl

theorem takeSeparator_of_not_head? {t : Text} (h : t.head? ≠ some ',') :
    takeSeparator t = (false, t) := by
  cases t with
  | nil => rfl
  | cons c t => exact takeSeparator_of_ne (by simpa using h) t

theorem takeSeparator_eq_true_iff {t rest : Text} :
    takeSeparator t = (true, rest) ↔ t = ',' :: rest := by
  unfold takeSeparator
  split
  · simp
  · next h =>
    refine ⟨fun he => absurd he (by simp), ?_⟩
    rintro rfl
    exact absurd rfl (h rest)

/-- Letters, digits and signs at the front decide whether there is a literal. -/
theorem takeLiteral_eq (t : Text) : takeLiteral t =
    if t.takeWhile isLiteralChar = [] then (none, t)
    else (some (t.takeWhile isLiteralChar), t.dropWhile isLiteralChar) := by
  unfold takeLiteral
  cases t.takeWhile isLiteralChar with
  | nil => rfl
  | cons c literal => rfl

theorem takeLiteral_eq_some_iff {t literal rest : Text} :
    takeLiteral t = (some literal, rest) ↔
      t = literal ++ rest ∧ literal ≠ [] ∧ (∀ c ∈ literal, isLiteralChar c = true) ∧
        StopsAt isLiteralChar rest := by
  constructor
  · intro h
    unfold takeLiteral at h
    split at h
    · exact absurd h (by simp)
    next hne =>
    obtain ⟨htake, hdrop⟩ := Prod.mk.injEq .. ▸ h
    obtain ⟨htail, hchars, hrest⟩ :=
      Text.takeWhile_dropWhile_eq_iff.mp ⟨Option.some.inj htake, hdrop⟩
    refine ⟨htail, ?_, hchars, hrest⟩
    rw [← Option.some.inj htake]
    exact hne
  · intro hshape
    obtain ⟨rfl, hne, hchars, hrest⟩ := hshape
    obtain ⟨htake, hdrop⟩ := Text.takeWhile_dropWhile_eq_iff.mpr ⟨rfl, hchars, hrest⟩
    unfold takeLiteral
    rw [htake, hdrop]
    split
    · exact absurd rfl hne
    · rfl

/-- Blanks in front of a field are of no account. -/
theorem scan_trimStart (format : Format) (t : Text) :
    scan format (Text.trimStart t) = scan format t := by
  cases format <;> simp only [scan, takeTrailing, Text.trim, Text.trimStart_trimStart]

theorem takeTrailing_eq_none_iff {t : Text} : takeTrailing t = none ↔ Blanks t := by
  rw [← Text.trim_eq_nil_iff]
  unfold takeTrailing
  split
  · next h => simp [h]
  · next h => simpa using h

theorem takeTrailing_of_not_blanks {t : Text} (h : ¬ Blanks t) :
    takeTrailing t = some (Text.trim t) := by
  unfold takeTrailing
  split
  · next hnil => exact absurd (Text.trim_eq_nil_iff.mp hnil) h
  · rfl

end OperandField

end MicroAsm
