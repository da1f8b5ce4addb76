/-
  Literals: which characters they are made of, and that the decimal numeral of a
  number below the magnitude bound is a literal for that number.
-/
import MicroAsm.Proofs.Text.Digits
import MicroAsm.Statement.Literal
import MicroAsm.Statement.Operands

namespace MicroAsm.Literal

open OperandField (isLiteralChar)

/-- A literal has a value when its digits, after sign and base, have one below the bound. -/
theorem value?_eq_some_iff {t : Text} {v : Int} : value? t = some v ↔
    ∃ m, Text.ofDigits? (takeBase (takeSign t).2).1 (takeBase (takeSign t).2).2 = some m ∧
      m < magnitudeBound ∧ v = if (takeSign t).1 then -(m : Int) else m := by
  unfold value?
  dsimp only
  cases Text.ofDigits? (takeBase (takeSign t).2).1 (takeBase (takeSign t).2).2 with
  | none => simp
  | some m =>
    simp only [Option.some.injEq, exists_eq_left']
    by_cases hm : m < magnitudeBound
    · rw [if_pos hm, Option.some.injEq, eq_comm]
      exact (and_iff_right hm).symm
    · simp [hm]

/-! ## Characters of a literal -/

theorem isLiteralChar_of_isAlphanum {c : Char} (h : c.isAlphanum = true) :
    isLiteralChar c = true := by
  simp [isLiteralChar, h]

theorem isBlank_of_isLiteralChar {c : Char} (h : isLiteralChar c = true) :
    Text.isBlank c = false := by
  simp only [isLiteralChar, Bool.or_eq_true, beq_iff_eq] at h
  rcases h with (h | rfl) | rfl
  · exact Text.isBlank_of_isAlphanum h
  · decide
  · decide

theorem mem_takeSign {t : Text} {c : Char} (hc : c ∈ t) :
    c = '-' ∨ c = '+' ∨ c ∈ (takeSign t).2 := by
  unfold takeSign
  split
  · rcases List.mem_cons.mp hc with h | h
    · exact Or.inl h
    · exact Or.inr (Or.inr h)
  · rcases List.mem_cons.mp hc with h | h
    · exact Or.inr (Or.inl h)
    · exact Or.inr (Or.inr h)
  · exact Or.inr (Or.inr hc)

theorem mem_takeBase {t : Text} {c : Char} (hc : c ∈ t) :
    c = '0' ∨ c = 'x' ∨ c = 'X' ∨ c ∈ (takeBase t).2 := by
  unfold takeBase
  split <;> simp only [List.mem_cons] at hc ⊢ <;> tauto

/-- What has a value is a non-empty run of letters, digits and signs. -/
theorem isLiteralChar_of_value? {t : Text} {v : Int} (h : value? t = some v) :
    t ≠ [] ∧ ∀ c ∈ t, isLiteralChar c = true := by
  obtain ⟨m, hm, -, -⟩ := value?_eq_some_iff.mp h
  refine ⟨?_, ?_⟩
  · rintro rfl
    exact (Text.ofDigits?_eq_some hm).1 rfl
  · intro c hc
    rcases mem_takeSign hc with rfl | rfl | hc
    · decide
    · decide
    rcases mem_takeBase hc with rfl | rfl | rfl | hc
    · decide
    · decide
    · decide
    · exact isLiteralChar_of_isAlphanum (Text.isAlphanum_of_ofDigits? hm c hc)

/-! ## Decimal numerals -/

theorem takeSign_of_isDigit {c : Char} {t : Text} (h : c.isDigit = true) :
    takeSign (c :: t) = (false, c :: t) := by
  unfold takeSign
  split
  · next he => cases he; exact absurd h (by decide)
  · next he => cases he; exact absurd h (by decide)
  · rfl

theorem takeBase_of_ne_zero {c : Char} {t : Text} (h : c ≠ '0') :
    takeBase (c :: t) = (10, c :: t) := by
  unfold takeBase
  split <;> simp_all

/-- The decimal numeral of `n` is a literal for `n`. -/
theorem value?_decimal {n : Nat} (hn : n < magnitudeBound) :
    value? (Text.decimal n) = some (n : Int) := by
  cases ht : Text.decimal n with
  | nil => exact absurd ht (Text.decimal_ne_nil n)
  | cons c t =>
    have hc : c.isDigit = true := Text.isDigit_of_mem_decimal (n := n) (by rw [ht]; simp)
    have hbase : takeBase (c :: t) = (10, c :: t) := by
      by_cases h0 : c = '0'
      · -- a leading zero would select octal, but only the numeral of zero has one
        have hz : n = 0 := Text.eq_zero_of_head?_decimal (by rw [ht, h0]; rfl)
        subst hz
        obtain ⟨rfl, rfl⟩ : c = '0' ∧ t = [] := by simpa [Text.decimal] using ht.symm
        rfl
      · exact takeBase_of_ne_zero h0
    refine value?_eq_some_iff.mpr ⟨n, ?_, hn, ?_⟩
    · rw [takeSign_of_isDigit hc, hbase, ← ht]
      exact Text.ofDigits?_decimal n
    · rw [takeSign_of_isDigit hc]
      rfl

end MicroAsm.Literal
