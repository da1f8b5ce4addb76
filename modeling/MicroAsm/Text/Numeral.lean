/-
  Numbers as digits.

  Reading: `ofDigits? base t` is the value of a non-empty text of digits.
  Writing: `decimal`, and hexadecimal in either case with a least width.
  Both put the most significant digit first.
-/
import MicroAsm.Text.Basic

namespace MicroAsm.Text

/-! ## Reading -/

/-- The value of `c` as a digit of `base`; letters of either case follow the digit 9. -/
def digit? (base : Nat) (c : Char) : Option Nat :=
  let value :=
    if '0' ≤ c ∧ c ≤ '9' then c.toNat - 48
    else if 'a' ≤ c ∧ c ≤ 'z' then c.toNat - 87
    else if 'A' ≤ c ∧ c ≤ 'Z' then c.toNat - 55
    else base
  if value < base then some value else none

/-- The value of a non-empty text of digits of `base`, or nothing for any other text. -/
def ofDigits? (base : Nat) (t : Text) : Option Nat :=
  if t.isEmpty then none
  else t.foldlM (fun value c => (digit? base c).map (base * value + ·)) 0

theorem ofDigits?_nil (base : Nat) : ofDigits? base [] = none := rfl

/-- The numbers of one machine word stay below this bound, 2^64. -/
def wordBound : Nat := 0x10000000000000000

/-! ## Writing -/

/-- The decimal numeral of `n`, without leading zeros. -/
def decimal (n : Nat) : Text := Nat.toDigits 10 n

/-- At least `width` hexadecimal digits with lower-case letters. -/
def hexLower (width n : Nat) : Text := padLeft width '0' (Nat.toDigits 16 n)

/-- At least `width` hexadecimal digits with upper-case letters. -/
def hexUpper (width n : Nat) : Text :=
  padLeft width '0' ((Nat.toDigits 16 n).map Char.toUpper)

end MicroAsm.Text
