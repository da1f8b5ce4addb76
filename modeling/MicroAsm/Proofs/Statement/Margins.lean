/-
  Blanks around a code line.

  Blanks behind a text end every piece that a scanner takes, and stay in what it
  leaves; the last scanner trims them.  So a line is parsed alike with and without
  blanks around it, and a line that is no instruction has the same defect
  (`parse_blanks_around`).
-/
import MicroAsm.Proofs.Statement.Pieces
import MicroAsm.Statement.Parse

namespace MicroAsm

open Text (Blanks StopsAt isBlank)

namespace OperandField

variable {w : Text}

/-! ## Scanners in front of blanks -/

theorem takeRegister_append_blanks (hw : Blanks w) (t : Text) :
    takeRegister (t ++ w) = ((takeRegister t).1, (takeRegister t).2 ++ w) := by
  cases t with
  | nil =>
    cases w with
    | nil => rfl
    | cons c w =>
      have hc : c ≠ 'r' := by
        rintro rfl
        exact absurd (hw 'r' (by simp)) (by decide)
      exact takeRegister_of_ne hc w
  | cons c t =>
    by_cases hc : c = 'r'
    · obtain ⟨htake, hdrop⟩ :=
        Text.cut_append_blanks (p := Char.isDigit) hw (fun _ => Text.isBlank_of_isDigit) t
      rw [hc, List.cons_append, takeRegister_cons, takeRegister_cons, htake, hdrop]
      split
      · rfl
      · rfl
    · rw [List.cons_append, takeRegister_of_ne hc, takeRegister_of_ne hc]
      rfl

theorem takeSeparator_append_blanks (hw : Blanks w) (t : Text) :
    takeSeparator (t ++ w) = ((takeSeparator t).1, (takeSeparator t).2 ++ w) := by
  cases t with
  | nil =>
    cases w with
    | nil => rfl
    | cons c w =>
      have hc : c ≠ ',' := by
        rintro rfl
        exact absurd (hw ',' (by simp)) (by decide)
      exact takeSeparator_of_ne hc w
  | cons c t =>
    by_cases hc : c = ','
    · rw [hc]
      rfl
    · rw [List.cons_append, takeSeparator_of_ne hc, takeSeparator_of_ne hc]
      rfl

theorem takeLiteral_append_blanks (hw : Blanks w) (t : Text) :
    takeLiteral (t ++ w) = ((takeLiteral t).1, (takeLiteral t).2 ++ w) := by
  obtain ⟨htake, hdrop⟩ :=
    Text.cut_append_blanks (p := isLiteralChar) hw (fun _ => Literal.isBlank_of_isLiteralChar) t
  unfold takeLiteral
  rw [htake, hdrop]
  cases t.takeWhile isLiteralChar with
  | nil => rfl
  | cons c literal => rfl

theorem takeTrailing_append_blanks (hw : Blanks w) (t : Text) :
    takeTrailing (t ++ w) = takeTrailing t := by
  unfold takeTrailing
  rw [Text.trim_append_blanks hw]

/-- Blanks behind a field are of no account. -/
theorem scan_append_blanks (format : Format) (hw : Blanks w) (t : Text) :
    scan format (t ++ w) = scan format t := by
  obtain ⟨w₁, hw₁, h₁⟩ := Text.exists_trimStart_append_blanks hw t
  cases format with
  | implied => simp only [scan, takeTrailing_append_blanks hw]
  | register =>
    simp only [scan, h₁, takeRegister_append_blanks hw₁, takeTrailing_append_blanks hw₁]
  | immediate =>
    simp only [scan, h₁, takeLiteral_append_blanks hw₁, takeTrailing_append_blanks hw₁]
  | registerImmediate =>
    obtain ⟨w₂, hw₂, h₂⟩ :=
      Text.exists_trimStart_append_blanks hw₁ (takeRegister (Text.trimStart t)).2
    simp only [scan, h₁, takeRegister_append_blanks hw₁, h₂, takeSeparator_append_blanks hw₂]
    generalize takeSeparator (Text.trimStart (takeRegister (Text.trimStart t)).2) = found
    obtain ⟨separator, rest⟩ := found
    cases separator with
    | false => simp [takeTrailing_append_blanks hw₂]
    | true =>
      obtain ⟨w₃, hw₃, h₃⟩ := Text.exists_trimStart_append_blanks hw₂ rest
      simp only [if_true, h₃, takeLiteral_append_blanks hw₃, takeTrailing_append_blanks hw₃]

end OperandField

/-! ## Lines -/

/-- Blanks behind a line go to its operand field. -/
theorem Statement.exists_split?_append_blanks {w : Text} (hw : Blanks w) (t : Text) :
    ∃ w', Blanks w' ∧
      split? (t ++ w) = (split? t).map fun s => { s with operands := s.operands ++ w' } := by
  by_cases ht : Blanks t
  · refine ⟨[], Text.blanks_nil, ?_⟩
    rw [split?_eq_none_iff.mpr (Text.blanks_append.mpr ⟨ht, hw⟩), split?_eq_none_iff.mpr ht]
    rfl
  · have hne : Text.trimStart t ≠ [] := Text.trimStart_eq_nil_iff.not.mpr ht
    obtain ⟨w₁, hw₁, h₁⟩ := Text.exists_trimStart_append_blanks hw t
    obtain ⟨htake, hdrop⟩ := Text.cut_append_blanks hw₁ isBlank_of_isWordChar (Text.trimStart t)
    obtain ⟨w₂, hw₂, h₂⟩ := Text.exists_trimStart_append_blanks hw₁
      ((Text.trimStart t).dropWhile isWordChar)
    refine ⟨w₂, hw₂, ?_⟩
    rw [split?_of_trimStart h₁ (by simp [hne]), split?_of_trimStart rfl hne, htake, hdrop, h₂]
    rfl

namespace Instruction

/-- Parsing skips the blanks in front of a line. -/
theorem parse_blanks_append {w : Text} (hw : Blanks w) (t : Text) : parse (w ++ t) = parse t := by
  unfold parse Statement.split?
  rw [Text.trimStart_blanks_append hw]

/-- Parsing skips the blanks behind a line. -/
theorem parse_append_blanks {w : Text} (hw : Blanks w) (t : Text) : parse (t ++ w) = parse t := by
  obtain ⟨w', hw', hsplit⟩ := Statement.exists_split?_append_blanks hw t
  unfold parse
  rw [hsplit]
  cases Statement.split? t with
  | none => rfl
  | some s => simp only [Option.map_some, OperandField.scan_append_blanks _ hw']

theorem parse_blanks_around {before after : Text} (hbefore : Blanks before) (hafter : Blanks after)
    (t : Text) : parse (before ++ (t ++ after)) = parse t := by
  rw [parse_blanks_append hbefore, parse_append_blanks hafter]

end Instruction

end MicroAsm
