/-
  Numerals.

  A non-empty run of decimal digits always has a value (`ofDigits?_run`); what has a
  value in any base is letters and digits.  The decimal numeral of a number reads
  back as that number, and starts with `0` for zero only.  A hexadecimal
  numeral reads back too, with any number of leading zeros (`ofDigits?_hexUpper`).
-/
import MicroAsm.Proofs.Text.Blanks
import MicroAsm.Text.Numeral

namespace MicroAsm.Text

/-! ## Single characters -/

theorem isAlphanum_iff {c : Char} : c.isAlphanum = true ↔
    (65 ≤ c.toNat ∧ c.toNat ≤ 90) ∨ (97 ≤ c.toNat ∧ c.toNat ≤ 122) ∨
      (48 ≤ c.toNat ∧ c.toNat ≤ 57) := by
  show (decide (c.val ≥ 'A'.val ∧ c.val ≤ 'Z'.val) ||
    (decide (c.val ≥ 'a'.val) && decide (c.val ≤ 'z'.val)) ||
    (decide (c.val ≥ '0'.val) && decide (c.val ≤ '9'.val))) = true ↔ _
  simp only [Bool.or_eq_true, Bool.and_eq_true, decide_eq_true_eq, UInt32.le_iff_toNat_le,
    or_assoc]
  exact Iff.rfl

theorem isDigit_iff {c : Char} : c.isDigit = true ↔ 48 ≤ c.toNat ∧ c.toNat ≤ 57 :=
  Char.isDigit_iff_toNat

theorem isAlphanum_of_isDigit {c : Char} (h : c.isDigit = true) : c.isAlphanum = true :=
  isAlphanum_iff.mpr (Or.inr (Or.inr (isDigit_iff.mp h)))

/-- No blank stands among the visible ASCII characters. -/
theorem isBlank_of_visible {c : Char} (h : 33 ≤ c.toNat) (h' : c.toNat < 127) :
    isBlank c = false := by
  simp only [isBlank, Bool.or_eq_false_iff, Bool.and_eq_false_iff, decide_eq_false_iff_not,
    beq_eq_false_iff_ne]
  omega

theorem isBlank_of_isAlphanum {c : Char} (h : c.isAlphanum = true) : isBlank c = false := by
  rw [isAlphanum_iff] at h
  exact isBlank_of_visible (by omega) (by omega)

theorem isBlank_of_isDigit {c : Char} (h : c.isDigit = true) : isBlank c = false :=
  isBlank_of_isAlphanum (isAlphanum_of_isDigit h)

/-! ## Reading digits -/

theorem digit?_of_isDigit {c : Char} (h : c.isDigit = true) :
    digit? 10 c = some (c.toNat - 48) := by
  rw [isDigit_iff] at h
  have hlt : c.toNat - 48 < 10 := by omega
  rw [digit?, if_pos (show '0' ≤ c ∧ c ≤ '9' from h), if_pos hlt]

/-- Digits of any base are letters and digits. -/
theorem isAlphanum_of_digit? {base v : Nat} {c : Char} (h : digit? base c = some v) :
    c.isAlphanum = true := by
  rw [isAlphanum_iff]
  unfold digit? at h
  by_cases h1 : '0' ≤ c ∧ c ≤ '9'
  · exact Or.inr (Or.inr h1)
  by_cases h2 : 'a' ≤ c ∧ c ≤ 'z'
  · exact Or.inr (Or.inl h2)
  by_cases h3 : 'A' ≤ c ∧ c ≤ 'Z'
  · exact Or.inl h3
  · rw [if_neg h1, if_neg h2, if_neg h3] at h
    simp at h

theorem ofDigits?_eq_some {base n : Nat} {t : Text} (h : ofDigits? base t = some n) :
    t ≠ [] ∧ t.foldlM (fun value c => (digit? base c).map (base * value + ·)) 0 = some n := by
  unfold ofDigits? at h
  split at h
  · simp at h
  · next hne => exact ⟨by simpa using hne, h⟩

/-- A text with a value in some base holds letters and digits only. -/
theorem isAlphanum_of_ofDigits? {base n : Nat} {t : Text} (h : ofDigits? base t = some n) :
    ∀ c ∈ t, c.isAlphanum = true := by
  have hfold := (ofDigits?_eq_some h).2
  clear h
  -- the value read so far is arbitrary: each step only needs its own digit to exist
  generalize 0 = start at hfold
  induction t generalizing start with
  | nil => simp
  | cons c t ih =>
    rw [List.foldlM_cons] at hfold
    obtain ⟨next, hstep, hrest⟩ := Option.bind_eq_some_iff.mp hfold
    obtain ⟨v, hv, -⟩ := Option.map_eq_some_iff.mp hstep
    intro d hd
    rcases List.mem_cons.mp hd with rfl | hd
    · exact isAlphanum_of_digit? hv
    · exact ih next hrest d hd

theorem foldlM_digit?_run {digits : Text} (h : ∀ c ∈ digits, c.isDigit = true) (start : Nat) :
    digits.foldlM (fun value c => (digit? 10 c).map (10 * value + ·)) start =
      some (Nat.ofDigitChars 10 digits start) := by
  induction digits generalizing start with
  | nil => rfl
  | cons c digits ih =>
    rw [List.foldlM_cons, digit?_of_isDigit (h c (by simp)), Nat.ofDigitChars_cons]
    exact ih (fun d hd => h d (by simp [hd])) _

/-- A run of decimal digits has its positional value. -/
theorem ofDigits?_run {digits : Text} (hne : digits ≠ []) (h : ∀ c ∈ digits, c.isDigit = true) :
    ofDigits? 10 digits = some (Nat.ofDigitChars 10 digits 0) := by
  rw [ofDigits?, if_neg (by simpa using hne)]
  exact foldlM_digit?_run h 0

/-! ## Decimal numerals -/

theorem decimal_ne_nil (n : Nat) : decimal n ≠ [] := Nat.toDigits_ne_nil

theorem isDigit_of_mem_decimal {n : Nat} {c : Char} (hc : c ∈ decimal n) : c.isDigit = true :=
  Nat.isDigit_of_mem_toDigits (by decide) (by decide) hc

/-- A numeral is part of one line. -/
theorem newline_notMem_decimal (n : Nat) : '\n' ∉ decimal n := by
  intro hmem
  exact absurd (isDigit_of_mem_decimal hmem) (by decide)

theorem ofDigits?_decimal (n : Nat) : ofDigits? 10 (decimal n) = some n := by
  rw [ofDigits?_run (decimal_ne_nil n) fun _ hc => isDigit_of_mem_decimal hc, decimal,
    Nat.ofDigitChars_ten_toDigits]

/-- Only the numeral of zero has a leading zero. -/
theorem eq_zero_of_head?_decimal {n : Nat} (h : (decimal n).head? = some '0') : n = 0 := by
  induction n using Nat.strongRecOn with
  | ind n ih =>
    by_cases hn : n < 10
    · rw [decimal, Nat.toDigits_of_lt_base hn] at h
      simpa using h
    · have hq : n / 10 = 0 := by
        refine ih (n / 10) (by omega) ?_
        rw [decimal, Nat.toDigits_of_base_le (by decide) (by omega),
          List.head?_append_of_ne_nil _ Nat.toDigits_ne_nil] at h
        exact h
      omega

/-- A numeral has as many digits as the number needs. -/
theorem length_decimal_le {n width : Nat} (hpos : 0 < width) (h : n < Nat.pow 10 width) :
    (decimal n).length ≤ width := (Nat.length_toDigits_le_iff (by decide) hpos).mpr h

/-! ## Hexadecimal numerals -/

/-- The digits with upper-case letters. -/
def upperDigits : Text := "0123456789ABCDEF".toList

theorem toUpper_digitChar_mem : ∀ d < 16, (Nat.digitChar d).toUpper ∈ upperDigits := by
  decide

theorem toUpper_mem_of_mem_toDigits {n : Nat} {c : Char} (hc : c ∈ Nat.toDigits 16 n) :
    c.toUpper ∈ upperDigits := by
  induction n using Nat.strongRecOn with
  | ind n ih =>
    by_cases hn : n < 16
    · rw [Nat.toDigits_of_lt_base hn] at hc
      obtain rfl : c = Nat.digitChar n := by simpa using hc
      exact toUpper_digitChar_mem n hn
    · rw [Nat.toDigits_of_base_le (by decide) (by omega), List.mem_append] at hc
      rcases hc with hc | hc
      · exact ih (n / 16) (by omega) hc
      · obtain rfl : c = Nat.digitChar (n % 16) := by simpa using hc
        exact toUpper_digitChar_mem (n % 16) (by omega)

theorem mem_upperDigits_of_mem_hexUpper {width n : Nat} {c : Char} (hc : c ∈ hexUpper width n) :
    c ∈ upperDigits := by
  rw [hexUpper, padLeft, List.mem_append] at hc
  rcases hc with hc | hc
  · rw [List.eq_of_mem_replicate hc]
    decide
  · obtain ⟨d, hd, rfl⟩ := List.mem_map.mp hc
    exact toUpper_mem_of_mem_toDigits hd

theorem isAlphanum_of_mem_hexUpper {width n : Nat} {c : Char} (hc : c ∈ hexUpper width n) :
    c.isAlphanum = true := by
  have hall : upperDigits.all Char.isAlphanum = true := by decide
  exact List.all_eq_true.mp hall c (mem_upperDigits_of_mem_hexUpper hc)

theorem newline_notMem_hexUpper (width n : Nat) : '\n' ∉ hexUpper width n := by
  intro hmem
  exact absurd (isAlphanum_of_mem_hexUpper hmem) (by decide)

theorem space_notMem_hexUpper (width n : Nat) : ' ' ∉ hexUpper width n := by
  intro hmem
  exact absurd (isAlphanum_of_mem_hexUpper hmem) (by decide)

/-- A number that needs no more digits has as many as the width says. -/
theorem length_hexUpper {width n : Nat} (hpos : 0 < width) (h : n < Nat.pow 16 width) :
    (hexUpper width n).length = width := by
  have hdigits : (Nat.toDigits 16 n).length ≤ width :=
    (Nat.length_toDigits_le_iff (by decide) hpos).mpr h
  rw [hexUpper, length_padLeft, List.length_map, Nat.max_eq_left hdigits]

/-- A byte has two hexadecimal digits. -/
theorem length_hexUpper_byte (byte : UInt8) : (hexUpper 2 byte.toNat).length = 2 :=
  length_hexUpper (by decide) byte.toNat_lt

theorem hexUpper_ne_nil (width n : Nat) : hexUpper width n ≠ [] := by
  simp [hexUpper, padLeft, Nat.toDigits_ne_nil]

theorem digit?_toUpper_digitChar : ∀ d < 16, digit? 16 (Nat.digitChar d).toUpper = some d := by
  decide

/-- Upper-case digits read back as the number they were written from. -/
theorem foldlM_digit?_toDigits (n : Nat) :
    ((Nat.toDigits 16 n).map Char.toUpper).foldlM
      (fun value c => (digit? 16 c).map (16 * value + ·)) 0 = some n := by
  induction n using Nat.strongRecOn with
  | ind n ih =>
    by_cases hn : n < 16
    · rw [Nat.toDigits_of_lt_base hn]
      simp [digit?_toUpper_digitChar n hn]
    · have hfront := ih (n / 16) (by omega)
      have hlast := digit?_toUpper_digitChar (n % 16) (by omega)
      rw [Nat.toDigits_of_base_le (by decide) (by omega), List.map_append, List.foldlM_append,
        hfront]
      simp only [List.map_cons, List.map_nil, List.foldlM_cons, List.foldlM_nil, hlast,
        Option.map_some, Option.bind_eq_bind, Option.bind_some, Option.pure_def,
        Option.some.injEq]
      omega

/-- Leading zeros count for nothing. -/
theorem foldlM_digit?_zeros (k : Nat) :
    (List.replicate k '0').foldlM (fun value c => (digit? 16 c).map (16 * value + ·)) 0 =
      some 0 := by
  induction k with
  | zero => rfl
  | succ k ih => exact ih

theorem ofDigits?_hexUpper (width n : Nat) : ofDigits? 16 (hexUpper width n) = some n := by
  rw [ofDigits?, if_neg (by simpa using hexUpper_ne_nil width n), hexUpper, padLeft,
    List.foldlM_append, foldlM_digit?_zeros]
  exact foldlM_digit?_toDigits n

end MicroAsm.Text
