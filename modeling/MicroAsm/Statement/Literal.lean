/-
  Integer literals: an optional sign, then a hexadecimal number after `0x` or
  `0X`, an octal number after a leading `0`, or a decimal number.  Magnitudes are
  below 2^63.  As an immediate a literal stands for its value modulo 256.
-/
import MicroAsm.Text.Numeral

namespace MicroAsm.Literal

/-- Whether a minus sign leads, and the text after the sign. -/
def takeSign : Text → Bool × Text
  | '-' :: rest => (true, rest)
  | '+' :: rest => (false, rest)
  | t => (false, t)

/-- The base an unsigned literal selects, and its digits. -/
def takeBase : Text → Nat × Text
  | '0' :: 'x' :: digits => (16, digits)
  | '0' :: 'X' :: digits => (16, digits)
  | '0' :: c :: digits => (8, c :: digits)
  | digits => (10, digits)

/-- Magnitudes stay below this bound, 2^63. -/
def magnitudeBound : Nat := 0x8000000000000000

/-- The value of a literal. -/
def value? (t : Text) : Option Int :=
  let (negative, unsigned) := takeSign t
  let (base, digits) := takeBase unsigned
  match Text.ofDigits? base digits with
  | none => none
  | some magnitude =>
    if magnitude < magnitudeBound then
      some (if negative then -(magnitude : Int) else magnitude)
    else none

/-- The low eight bits of `v` in two's complement. -/
def lowByte (v : Int) : UInt8 := UInt8.ofNat (v % 256).toNat

end MicroAsm.Literal
