/-
  The language of literals.

  `LiteralForm t v` says what a literal is: at most one sign, and then `0`, a decimal numeral
  that starts with another digit, `0` and octal digits, or `0x` and hexadecimal digits, for a
  number of at most 2^63 - 1.  These texts and no others have a value (`value?_eq_some_iff_form`).
  Sign and base are told from the first bytes of a text, and what is left behind them is always
  a text again: no cut falls inside a character (`utf8_takeSign`, `utf8_takeBase`).
-/
import Mathlib.Data.Nat.Digits.Defs
import MicroAsm.Proofs.Statement.Literal
import MicroAsm.Text.Utf8

namespace MicroAsm

/-! ## Bytes of a text -/

namespace Text

theorem utf8EncodeChar_of_ascii {c : Char} (h : c.toNat < 128) :
    String.utf8EncodeChar c = [UInt8.ofNat c.toNat] := if_pos (Nat.le_of_lt_succ h)

/-- Behind ASCII, the first byte of a character is above ASCII too. -/
theorem exists_utf8EncodeChar_eq {c : Char} (h : 128 ≤ c.toNat) :
    ∃ first rest, String.utf8EncodeChar c = first :: rest ∧ 128 ≤ first.toNat := by
  have hv : ¬ c.val.toNat ≤ 127 := Nat.not_le.mpr h
  have hfirst : ∀ n, 128 ≤ n → n < 256 → 128 ≤ (UInt8.ofNat n).toNat := by
    intro n hle hlt
    rwa [UInt8.toNat_ofNat_of_lt' hlt]
  unfold String.utf8EncodeChar
  dsimp only
  rw [if_neg hv]
  split
  · exact ⟨_, _, rfl, hfirst _ (by omega) (by omega)⟩
  · split
    · exact ⟨_, _, rfl, hfirst _ (by omega) (by omega)⟩
    · exact ⟨_, _, rfl, hfirst _ (by omega) (by omega)⟩

theorem toUtf8_cons (c : Char) (t : Text) :
    toUtf8 (c :: t) = String.utf8EncodeChar c ++ toUtf8 t := List.flatMap_cons

theorem toUtf8_cons_ne_nil (c : Char) (t : Text) : toUtf8 (c :: t) ≠ [] := by
  rw [toUtf8_cons]
  exact List.append_ne_nil_of_left_ne_nil String.utf8EncodeChar_ne_nil _

/-- A text starts with an ASCII word when its bytes start with those of the word. -/
theorem toUtf8_prefix_iff (word : Text) (h : ∀ c ∈ word, c.toNat < 128) {t : Text} :
    toUtf8 word <+: toUtf8 t ↔ word <+: t := by
  induction word generalizing t with
  | nil => simp [toUtf8]
  | cons c word ih =>
    have hc : c.toNat < 128 := h c (by simp)
    have hbyte : (UInt8.ofNat c.toNat).toNat = c.toNat :=
      UInt8.toNat_ofNat_of_lt' (Nat.lt_trans hc (by decide))
    rw [toUtf8_cons, utf8EncodeChar_of_ascii hc, List.singleton_append]
    cases t with
    | nil => simp [toUtf8]
    | cons d t =>
      rw [toUtf8_cons, List.cons_prefix_cons]
      by_cases hd : d.toNat < 128
      · have hbyte' : (UInt8.ofNat d.toNat).toNat = d.toNat :=
          UInt8.toNat_ofNat_of_lt' (Nat.lt_trans hd (by decide))
        rw [utf8EncodeChar_of_ascii hd, List.singleton_append, List.cons_prefix_cons,
          ih fun e he => h e (by simp [he]), ← UInt8.toNat_inj, hbyte, hbyte', Char.toNat_inj]
      · obtain ⟨first, rest, hencode, hfirst⟩ := exists_utf8EncodeChar_eq (Nat.not_lt.mp hd)
        rw [hencode, List.cons_append, List.cons_prefix_cons]
        constructor
        · rintro ⟨rfl, -⟩
          omega
        · rintro ⟨rfl, -⟩
          exact absurd hc hd

end Text

namespace Literal

/-! ## The forms of a literal -/

/-- The value of a hexadecimal digit of either case; 16 for any other character. -/
def digitValue (c : Char) : Nat := "0123456789abcdef".toList.idxOf c.toLower

/-- `digits` is a run of digits of `base`, leading zeros allowed, for the number `m`. -/
structure DigitRun (base : Nat) (digits : Text) (m : Nat) : Prop where
  ne_nil : digits ≠ []
  lt_base : ∀ c ∈ digits, digitValue c < base
  value : Nat.ofDigits base (digits.reverse.map digitValue) = m

/-- A literal without a sign, for the number `m`. -/
inductive MagnitudeForm : Text → Nat → Prop where
  | zero : MagnitudeForm ['0'] 0
  | decimal {c : Char} {digits : Text} {m : Nat} (hc : c ≠ '0')
      (h : DigitRun 10 (c :: digits) m) : MagnitudeForm (c :: digits) m
  | octal {digits : Text} {m : Nat} (h : DigitRun 8 digits m) : MagnitudeForm ('0' :: digits) m
  | hexadecimal {x : Char} {digits : Text} {m : Nat} (hx : x = 'x' ∨ x = 'X')
      (h : DigitRun 16 digits m) : MagnitudeForm ('0' :: x :: digits) m

/-- A literal for the value `v`: at most one sign, and a magnitude of at most 2^63 - 1. -/
inductive LiteralForm : Text → Int → Prop where
  | plain {t : Text} {m : Nat} (h : MagnitudeForm t m) (hm : m ≤ 2 ^ 63 - 1) : LiteralForm t m
  | plus {t : Text} {m : Nat} (h : MagnitudeForm t m) (hm : m ≤ 2 ^ 63 - 1) :
      LiteralForm ('+' :: t) m
  | minus {t : Text} {m : Nat} (h : MagnitudeForm t m) (hm : m ≤ 2 ^ 63 - 1) :
      LiteralForm ('-' :: t) (-m)

/-! ## Digits -/

theorem digit?_ascii : ∀ n < 128, ∀ base < 17, Text.digit? base (Char.ofNat n) =
    if digitValue (Char.ofNat n) < base then some (digitValue (Char.ofNat n)) else none := by
  decide +kernel

theorem digitValue_of_not_ascii {c : Char} (h : 128 ≤ c.toNat) : digitValue c = 16 := by
  have hlower : c.toLower = c := by
    unfold Char.toLower
    rw [dif_neg]
    intro hupper
    have : c.toNat ≤ 90 := hupper.2
    omega
  have hmem : c.toLower ∉ "0123456789abcdef".toList := by
    rw [hlower]
    intro hmem
    have hall : ("0123456789abcdef".toList.all fun d => d.toNat < 128) = true := by decide
    have hascii : c.toNat < 128 := by simpa using List.all_eq_true.mp hall c hmem
    omega
  exact List.idxOf_of_notMem hmem

theorem digit?_of_not_ascii {base : Nat} {c : Char} (h : 128 ≤ c.toNat) :
    Text.digit? base c = none := by
  apply Option.eq_none_iff_forall_ne_some.mpr
  intro v hv
  have := Text.isAlphanum_iff.mp (Text.isAlphanum_of_digit? hv)
  omega

/-- A digit is read as its value. -/
theorem digit?_eq {base : Nat} (hbase : base ≤ 16) (c : Char) :
    Text.digit? base c = if digitValue c < base then some (digitValue c) else none := by
  by_cases h : c.toNat < 128
  · have hascii := digit?_ascii c.toNat h base (by omega)
    rwa [Char.ofNat_toNat] at hascii
  · have hvalue := digitValue_of_not_ascii (Nat.not_lt.mp h)
    rw [digit?_of_not_ascii (Nat.not_lt.mp h), if_neg (by omega)]

/-- One digit more makes the value `base` times as much and adds its own. -/
theorem step_eq_some_iff {base : Nat} (hbase : base ≤ 16) {c : Char} {value m : Nat} :
    (Text.digit? base c).map (base * value + ·) = some m ↔
      digitValue c < base ∧ base * value + digitValue c = m := by
  rw [digit?_eq hbase]
  by_cases h : digitValue c < base
  · simp [h]
  · simp [h]

/-- Digits are read from left to right, and the last one counts least. -/
theorem foldlM_digit?_eq_some_iff {base : Nat} (hbase : base ≤ 16) {t : Text} {m : Nat} :
    t.foldlM (fun value c => (Text.digit? base c).map (base * value + ·)) 0 = some m ↔
      (∀ c ∈ t, digitValue c < base) ∧ Nat.ofDigits base (t.reverse.map digitValue) = m := by
  induction t using List.reverseRecOn generalizing m with
  | nil => simp
  | append_singleton t c ih =>
    have hvalue : Nat.ofDigits base ((t ++ [c]).reverse.map digitValue) =
        base * Nat.ofDigits base (t.reverse.map digitValue) + digitValue c := by
      rw [List.reverse_append, List.reverse_singleton, List.singleton_append, List.map_cons,
        Nat.ofDigits_cons, Nat.add_comm]
    rw [List.foldlM_append, Option.bind_eq_bind, Option.bind_eq_some_iff, hvalue]
    simp only [List.foldlM_cons, List.foldlM_nil, bind_pure, ih, step_eq_some_iff hbase,
      List.forall_mem_append, List.forall_mem_singleton]
    constructor
    · rintro ⟨value, ⟨hfront, rfl⟩, hlast, hm⟩
      exact ⟨⟨hfront, hlast⟩, hm⟩
    · rintro ⟨⟨hfront, hlast⟩, hm⟩
      exact ⟨_, ⟨hfront, rfl⟩, hlast, hm⟩

/-- The texts with a value in a base are its runs of digits. -/
theorem ofDigits?_eq_some_iff {base : Nat} (hbase : base ≤ 16) {digits : Text} {m : Nat} :
    Text.ofDigits? base digits = some m ↔ DigitRun base digits m := by
  constructor
  · intro h
    obtain ⟨hne, hfold⟩ := Text.ofDigits?_eq_some h
    obtain ⟨hlt, hvalue⟩ := (foldlM_digit?_eq_some_iff hbase).mp hfold
    exact ⟨hne, hlt, hvalue⟩
  · intro h
    rw [Text.ofDigits?, if_neg (by simpa using h.ne_nil)]
    exact (foldlM_digit?_eq_some_iff hbase).mpr ⟨h.lt_base, h.value⟩

/-! ## Sign and base -/

/-- A run of digits of some base up to 16 starts with no sign. -/
theorem DigitRun.not_sign {base m : Nat} (hbase : base ≤ 16) {c : Char} {digits : Text}
    (h : DigitRun base (c :: digits) m) : c ≠ '-' ∧ c ≠ '+' := by
  have hc : digitValue c < base := h.lt_base c (by simp)
  refine ⟨?_, ?_⟩
  · rintro rfl
    have : digitValue '-' = 16 := by decide
    omega
  · rintro rfl
    have : digitValue '+' = 16 := by decide
    omega

theorem takeBase_hexadecimal {x : Char} (hx : x = 'x' ∨ x = 'X') (digits : Text) :
    takeBase ('0' :: x :: digits) = (16, digits) := by
  rcases hx with rfl | rfl
  · rfl
  · rfl

theorem takeBase_octal {c : Char} (hc : ¬ (c = 'x' ∨ c = 'X')) (digits : Text) :
    takeBase ('0' :: c :: digits) = (8, c :: digits) := by
  rw [not_or] at hc
  unfold takeBase
  split <;> simp_all

/-- The forms of a magnitude are the texts whose digits, behind the mark of their base, have a
    value in this base. -/
theorem magnitudeForm_iff {t : Text} {m : Nat} :
    MagnitudeForm t m ↔ Text.ofDigits? (takeBase t).1 (takeBase t).2 = some m := by
  constructor
  · intro h
    cases h with
    | zero => rfl
    | decimal hc hrun =>
      have hread := (ofDigits?_eq_some_iff (by decide)).mpr hrun
      rwa [takeBase_of_ne_zero hc]
    | @octal digits _ hrun =>
      obtain ⟨c, rest, rfl⟩ := List.exists_cons_of_ne_nil hrun.ne_nil
      have hc : ¬ (c = 'x' ∨ c = 'X') := by
        have hlt : digitValue c < 8 := hrun.lt_base c (by simp)
        rintro (rfl | rfl)
        · exact absurd hlt (by decide)
        · exact absurd hlt (by decide)
      have hread := (ofDigits?_eq_some_iff (by decide)).mpr hrun
      rwa [takeBase_octal hc]
    | hexadecimal hx hrun =>
      have hread := (ofDigits?_eq_some_iff (by decide)).mpr hrun
      rwa [takeBase_hexadecimal hx]
  · intro h
    match t with
    | [] => exact absurd h (by simp [takeBase, Text.ofDigits?_nil])
    | c :: rest =>
    by_cases hc : c = '0'
    · subst hc
      match rest with
      | [] =>
        -- a lone zero selects no base of its own
        obtain rfl : 0 = m := Option.some.inj h
        exact .zero
      | x :: digits =>
      by_cases hx : x = 'x' ∨ x = 'X'
      · rw [takeBase_hexadecimal hx] at h
        exact .hexadecimal hx ((ofDigits?_eq_some_iff (by decide)).mp h)
      · rw [takeBase_octal hx] at h
        exact .octal ((ofDigits?_eq_some_iff (by decide)).mp h)
    · rw [takeBase_of_ne_zero hc] at h
      exact .decimal hc ((ofDigits?_eq_some_iff (by decide)).mp h)

/-- A magnitude starts with no sign. -/
theorem MagnitudeForm.takeSign_eq {t : Text} {m : Nat} (h : MagnitudeForm t m) :
    takeSign t = (false, t) := by
  have hhead : ∀ c rest, t = c :: rest → c ≠ '-' ∧ c ≠ '+' := by
    rintro c rest rfl
    cases h with
    | zero => decide
    | decimal _ hrun => exact hrun.not_sign (by decide)
    | octal _ => decide
    | hexadecimal _ _ => decide
  unfold takeSign
  split
  · next rest => exact absurd rfl (hhead '-' rest rfl).1
  · next rest => exact absurd rfl (hhead '+' rest rfl).2
  · rfl

/-- The texts with a value are the literals, and they have the value that they stand for. -/
theorem value?_eq_some_iff_form {t : Text} {v : Int} : value? t = some v ↔ LiteralForm t v := by
  have hbound : ∀ m, m < magnitudeBound ↔ m ≤ 2 ^ 63 - 1 := by
    intro m
    unfold magnitudeBound
    omega
  rw [value?_eq_some_iff]
  simp only [← magnitudeForm_iff, hbound]
  constructor
  · rintro ⟨m, hform, hm, rfl⟩
    unfold takeSign at hform ⊢
    split at hform
    · exact .minus hform hm
    · exact .plus hform hm
    · exact .plain hform hm
  · intro h
    cases h with
    | @plain _ m hform hm =>
      rw [hform.takeSign_eq]
      exact ⟨m, hform, hm, rfl⟩
    | @plus _ m hform hm => exact ⟨m, hform, hm, rfl⟩
    | @minus _ m hform hm => exact ⟨m, hform, hm, rfl⟩

/-! ## Cuts between characters -/

/-- How many bytes of a text its sign takes, by the bytes. -/
def signBytes (bytes : List UInt8) : Nat := if [0x2D] <+: bytes ∨ [0x2B] <+: bytes then 1 else 0

/-- How many bytes of a text without sign the mark of its base takes, by the bytes. -/
def baseBytes (bytes : List UInt8) : Nat :=
  if [0x30, 0x78] <+: bytes ∨ [0x30, 0x58] <+: bytes then 2
  else if [0x30] <+: bytes ∧ 1 < bytes.length then 1
  else 0

theorem takeSign_of_unsigned {t : Text} (h : ¬ (['-'] <+: t ∨ ['+'] <+: t)) :
    takeSign t = (false, t) := by
  unfold takeSign
  split
  · exact absurd (Or.inl (List.prefix_append ['-'] _)) h
  · exact absurd (Or.inr (List.prefix_append ['+'] _)) h
  · rfl

theorem takeBase_of_unmarked {t : Text} (h : ¬ (['0'] <+: t ∧ t ≠ ['0'])) :
    takeBase t = (10, t) := by
  match t with
  | [] => rfl
  | c :: rest =>
    by_cases hc : c = '0'
    · subst hc
      have hrest : rest = [] := by simpa using h
      rw [hrest]
      rfl
    · exact takeBase_of_ne_zero hc

/-- Behind the bytes of the sign stands the text behind the sign. -/
theorem utf8_takeSign (t : Text) :
    Text.toUtf8 (takeSign t).2 = (Text.toUtf8 t).drop (signBytes (Text.toUtf8 t)) := by
  have hminus : [0x2D] <+: Text.toUtf8 t ↔ ['-'] <+: t := Text.toUtf8_prefix_iff ['-'] (by simp)
  have hplus : [0x2B] <+: Text.toUtf8 t ↔ ['+'] <+: t := Text.toUtf8_prefix_iff ['+'] (by simp)
  unfold signBytes
  split
  · next hsign =>
    rw [hminus, hplus] at hsign
    rcases hsign with ⟨rest, rfl⟩ | ⟨rest, rfl⟩
    · rfl
    · rfl
  · next hsign =>
    rw [hminus, hplus] at hsign
    rw [takeSign_of_unsigned hsign, List.drop_zero]

/-- A zero with something behind it, in bytes and in characters. -/
theorem octal_mark_iff {t : Text} :
    [0x30] <+: Text.toUtf8 t ∧ 1 < (Text.toUtf8 t).length ↔ ['0'] <+: t ∧ t ≠ ['0'] := by
  have hzero : [0x30] <+: Text.toUtf8 t ↔ ['0'] <+: t := Text.toUtf8_prefix_iff ['0'] (by simp)
  rw [hzero]
  refine and_congr_right ?_
  rintro ⟨rest, rfl⟩
  match rest with
  | [] => decide
  | c :: rest =>
    have hbytes : Text.toUtf8 (['0'] ++ c :: rest) = 0x30 :: Text.toUtf8 (c :: rest) := rfl
    have hpos := List.length_pos_iff.mpr (Text.toUtf8_cons_ne_nil c rest)
    rw [hbytes, List.length_cons]
    constructor
    · intro _ heq
      exact absurd heq (by simp)
    · intro _
      omega

/-- Behind the bytes of the base's mark stand the digits. -/
theorem utf8_takeBase (t : Text) :
    Text.toUtf8 (takeBase t).2 = (Text.toUtf8 t).drop (baseBytes (Text.toUtf8 t)) := by
  have hlower : [0x30, 0x78] <+: Text.toUtf8 t ↔ ['0', 'x'] <+: t :=
    Text.toUtf8_prefix_iff ['0', 'x'] (by simp)
  have hupper : [0x30, 0x58] <+: Text.toUtf8 t ↔ ['0', 'X'] <+: t :=
    Text.toUtf8_prefix_iff ['0', 'X'] (by simp)
  unfold baseBytes
  split
  · next hmark =>
    rw [hlower, hupper] at hmark
    rcases hmark with ⟨digits, rfl⟩ | ⟨digits, rfl⟩
    · rfl
    · rfl
  next hmark =>
  rw [hlower, hupper] at hmark
  split
  · next hoctal =>
    obtain ⟨⟨rest, rfl⟩, hne⟩ := octal_mark_iff.mp hoctal
    match rest with
    | [] => exact absurd rfl hne
    | c :: digits =>
      have hc : ¬ (c = 'x' ∨ c = 'X') := by
        rintro (rfl | rfl)
        · exact hmark (Or.inl ⟨digits, rfl⟩)
        · exact hmark (Or.inr ⟨digits, rfl⟩)
      rw [List.singleton_append, takeBase_octal hc]
      rfl
  · next hoctal => rw [takeBase_of_unmarked (mt octal_mark_iff.mpr hoctal), List.drop_zero]

/-- **Literals and their values.**  A text has a value exactly when it has the form of a literal,
    and then the one that it stands for; every other text has none.  A value and its negative
    fit into 64 bits.  Sign and base are told from bytes, and behind the bytes that they take
    stands a text. -/
theorem value?_accepts_exactly_literals (t : Text) :
    (∀ v, value? t = some v ↔ LiteralForm t v) ∧
      (value? t = none ↔ ∀ v, ¬ LiteralForm t v) ∧
      (∀ v, value? t = some v → v.natAbs ≤ 2 ^ 63 - 1) ∧
      Text.toUtf8 (takeSign t).2 = (Text.toUtf8 t).drop (signBytes (Text.toUtf8 t)) ∧
      ∀ u, Text.toUtf8 (takeBase u).2 = (Text.toUtf8 u).drop (baseBytes (Text.toUtf8 u)) := by
  refine ⟨fun v => value?_eq_some_iff_form, ?_, ?_, utf8_takeSign t, utf8_takeBase⟩
  · simp only [← value?_eq_some_iff_form]
    exact Option.eq_none_iff_forall_ne_some
  · intro v hv
    have hform := value?_eq_some_iff_form.mp hv
    cases hform with
    | plain _ hm => omega
    | plus _ hm => omega
    | minus _ hm => omega

/-- The largest magnitude in octal, and one more in hexadecimal. -/
example : value? "-0777777777777777777777".toList = some (-9223372036854775807) ∧
    value? "0x8000000000000000".toList = none := by
  decide +kernel

end Literal

end MicroAsm
