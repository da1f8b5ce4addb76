/-
  Quoted text: a text between quotation marks in which every character can be
  seen.  The quotation mark and the backslash get a backslash, four control
  characters have names, and every other character that cannot be drawn on its
  own is written as its code point.
-/
import MicroAsm.Text.Combining
import MicroAsm.Text.Numeral
import MicroAsm.Text.Unprintable

namespace MicroAsm.Text

/-- Membership of `n` in sorted closed ranges; it looks no further than the first
    range above `n`. -/
def inRanges (n : Nat) : List (Nat × Nat) → Bool
  | [] => false
  | (low, high) :: rest => low ≤ n && (n ≤ high || inRanges n rest)

/-- Characters that stand for themselves between quotation marks. -/
def isVisible (c : Char) : Bool :=
  !inRanges c.toNat unprintableRanges && !inRanges c.toNat combiningRanges

/-- The written form of one character. -/
def quoteChar (c : Char) : Text :=
  match c with
  | '"' => ['\\', '"']
  | '\\' => ['\\', '\\']
  | '\t' => ['\\', 't']
  | '\r' => ['\\', 'r']
  | '\n' => ['\\', 'n']
  | '\x00' => ['\\', '0']
  | _ =>
    if isVisible c then [c]
    else ['\\', 'u', '\x7b'] ++ hexLower 1 c.toNat ++ ['\x7d']

/-- `t` between quotation marks. -/
def quote (t : Text) : Text := '"' :: (t.flatMap quoteChar ++ ['"'])

end MicroAsm.Text
