/-
  Text is a list of characters.

  * `isBlank`: the 25 characters of the White_Space property.  Every place that
    skips or trims blanks uses this one class.
  * `trimStart`, `trimEnd`, `trim`: a text without its outer blanks.
  * `padLeft`, `padRight`: fill up to a width, counted in characters.  A text
    that is already wider is left as it is.
-/

namespace MicroAsm

/-- A text, one character per element. -/
abbrev Text := List Char

namespace Text

/-! ## Blanks -/

/-- The characters of the White_Space property. -/
def isBlank (c : Char) : Bool :=
  let n := c.toNat
  (0x09 ≤ n && n ≤ 0x0D) || n == 0x20 || n == 0x85 || n == 0xA0 || n == 0x1680 ||
    (0x2000 ≤ n && n ≤ 0x200A) || n == 0x2028 || n == 0x2029 || n == 0x202F ||
    n == 0x205F || n == 0x3000

theorem isBlank_space : isBlank ' ' = true := by decide

/-- `t` without its leading blanks. -/
def trimStart (t : Text) : Text := t.dropWhile isBlank

/-- `t` without its trailing blanks. -/
def trimEnd (t : Text) : Text := (t.reverse.dropWhile isBlank).reverse

/-- `t` without its outer blanks. -/
def trim (t : Text) : Text := trimEnd (trimStart t)

/-! ## Widths -/

/-- At least `width` characters, filled with `c` on the left. -/
def padLeft (width : Nat) (c : Char) (t : Text) : Text :=
  List.replicate (width - t.length) c ++ t

/-- At least `width` characters, filled with spaces on the right. -/
def padRight (width : Nat) (t : Text) : Text :=
  t ++ List.replicate (width - t.length) ' '

theorem length_padLeft (width : Nat) (c : Char) (t : Text) :
    (padLeft width c t).length = max width t.length := by
  simp only [padLeft, List.length_append, List.length_replicate]
  omega

theorem length_padRight (width : Nat) (t : Text) :
    (padRight width t).length = max width t.length := by
  simp only [padRight, List.length_append, List.length_replicate]
  omega

end Text

end MicroAsm
