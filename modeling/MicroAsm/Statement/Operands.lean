/-
  The pieces of an operand field.  Which pieces are looked for depends on the
  format; each may be missing, blanks may stand between them, and each is taken
  as long as possible.  What no piece takes is the trailing text, so every field
  can be scanned and nothing but blanks is dropped.
-/
import MicroAsm.Machine.Format

namespace MicroAsm

/-- The pieces found in an operand field. -/
structure OperandField where
  /-- A register's digits as written. -/
  register : Option Text := none
  /-- Whether a `,` stands after the register. -/
  separator : Bool := false
  literal : Option Text := none
  /-- What is left, without outer blanks. -/
  trailing : Option Text := none
deriving DecidableEq

namespace OperandField

/-! ## Pieces at the start of a text, with the text after them -/

/-- `r` and a run of digits. -/
def takeRegister (t : Text) : Option Text × Text :=
  match t with
  | 'r' :: rest =>
    match rest.takeWhile Char.isDigit with
    | [] => (none, t)
    | digits => (some digits, rest.dropWhile Char.isDigit)
  | _ => (none, t)

/-- A comma. -/
def takeSeparator (t : Text) : Bool × Text :=
  match t with
  | ',' :: rest => (true, rest)
  | _ => (false, t)

/-- Letters, digits and signs. -/
def isLiteralChar (c : Char) : Bool := c.isAlphanum || c == '+' || c == '-'

/-- A run of letters, digits and signs. -/
def takeLiteral (t : Text) : Option Text × Text :=
  match t.takeWhile isLiteralChar with
  | [] => (none, t)
  | literal => (some literal, t.dropWhile isLiteralChar)

/-- The rest of a field, unless it is blank. -/
def takeTrailing (t : Text) : Option Text :=
  match Text.trim t with
  | [] => none
  | rest => some rest

/-! ## Whole fields -/

/-- The pieces of an operand field of the given format. -/
def scan (format : Format) (t : Text) : OperandField :=
  match format with
  | .implied => { trailing := takeTrailing t }
  | .register =>
    let (register, t) := takeRegister (Text.trimStart t)
    { register, trailing := takeTrailing t }
  | .registerImmediate =>
    let (register, t) := takeRegister (Text.trimStart t)
    let (separator, t) := takeSeparator (Text.trimStart t)
    let (literal, t) := if separator then takeLiteral (Text.trimStart t) else (none, t)
    { register, separator, literal, trailing := takeTrailing t }
  | .immediate =>
    let (literal, t) := takeLiteral (Text.trimStart t)
    { literal, trailing := takeTrailing t }

end OperandField

end MicroAsm
