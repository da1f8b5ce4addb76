/-
  Configuration documents.  A document is a sequence of lines; a line holds at
  most one entry `image_size = n` and may end in a comment.  The key may be bare
  or quoted.  Anything else makes the document malformed, and so does a second
  entry.
-/
import MicroAsm.Statement.Literal

namespace MicroAsm.Document

/-- Blanks inside a line. -/
def isSpace (c : Char) : Bool := c == ' ' || c == '\t'

/-- Characters that may not stand in a comment. -/
def isControl (c : Char) : Bool := (c.toNat < 0x20 && c != '\t') || c.toNat == 0x7F

/-! ## Keys -/

/-- Characters of a bare key. -/
def isBareChar (c : Char) : Bool := c.isAlphanum || c == '_' || c == '-'

/-- The character whose code point is written with `count` hexadecimal digits. -/
def charOfHex? (count : Nat) (digits : Text) : Option Char := do
  let n ← Text.ofDigits? 16 digits
  if digits.length = count ∧ n.isValidChar then some (Char.ofNat n) else none

/-- The character that a one-letter escape stands for. -/
def namedEscape? : Char → Option Char
  | 'b' => some '\x08'
  | 't' => some '\t'
  | 'n' => some '\n'
  | 'f' => some '\x0c'
  | 'r' => some '\r'
  | 'e' => some '\x1b'
  | '"' => some '"'
  | '\\' => some '\\'
  | _ => none

/-- How many hexadecimal digits follow the letter of a code point escape. -/
def escapeDigits? : Char → Option Nat
  | 'x' => some 2
  | 'u' => some 4
  | 'U' => some 8
  | _ => none

/-- The characters up to the closing quotation mark, escapes resolved, and the text
    after the mark. -/
def readQuoted (t : Text) : Option (Text × Text) :=
  match t with
  | [] => none
  | '"' :: rest => some ([], rest)
  | '\\' :: letter :: rest =>
    match escapeDigits? letter with
    | some count => do
      let c ← charOfHex? count (rest.take count)
      let (key, after) ← readQuoted (rest.drop count)
      return (c :: key, after)
    | none => do
      let c ← namedEscape? letter
      let (key, after) ← readQuoted rest
      return (c :: key, after)
  | c :: rest =>
    if c == '\\' || isControl c then none
    else do
      let (key, after) ← readQuoted rest
      return (c :: key, after)
termination_by t.length
decreasing_by all_goals simp only [List.length_drop, List.length_cons]; omega

/-- The key at the start of a text, and the text after it. -/
def readKey : Text → Option (Text × Text)
  | '"' :: rest => readQuoted rest
  | '\'' :: rest =>
    match rest.dropWhile (· != '\'') with
    | [] => none
    | _ :: after => some (rest.takeWhile (· != '\''), after)
  | t => some (t.takeWhile isBareChar, t.dropWhile isBareChar)

/-! ## Integers -/

/-- Digits in groups: an underscore may stand between two digits. -/
def grouped? (base : Nat) (t : Text) : Option Nat :=
  let groups := t.splitOn '_'
  if groups.any List.isEmpty then none else Text.ofDigits? base groups.flatten

/-- A decimal number: an optional sign, and no leading zeros. -/
def decimal? (t : Text) : Option Nat :=
  let (negative, digits) := Literal.takeSign t
  if digits.head? == some '0' && digits != ['0'] then none
  else
    match grouped? 10 digits with
    | none => none
    | some n => if negative && n != 0 then none else some n

/-- A size: decimal, or unsigned after `0x`, `0o` or `0b`; below 2^64. -/
def size? (t : Text) : Option Nat :=
  let value := match t with
    | '0' :: 'x' :: digits => grouped? 16 digits
    | '0' :: 'o' :: digits => grouped? 8 digits
    | '0' :: 'b' :: digits => grouped? 2 digits
    | _ => decimal? t
  value.filter (· < Text.wordBound)

/-! ## Lines -/

/-- The one key that documents know. -/
def sizeKey : Text := "image_size".toList

/-- Whether the rest of a line holds nothing but blanks and a comment. -/
def isLineEnd (t : Text) : Bool :=
  match t.dropWhile isSpace with
  | [] => true
  | '#' :: comment => !comment.any isControl
  | _ => false

/-- Characters of a value. -/
def isValueChar (c : Char) : Bool := !isSpace c && c != '#'

/-- The size that an entry gives. -/
def readEntry (t : Text) : Option Nat :=
  match readKey t with
  | none => none
  | some (key, rest) =>
    if key != sizeKey then none
    else
      match rest.dropWhile isSpace with
      | '=' :: rest =>
        let rest := rest.dropWhile isSpace
        if isLineEnd (rest.dropWhile isValueChar) then size? (rest.takeWhile isValueChar)
        else none
      | _ => none

/-- The entries of one line, at most one; nothing if the line is malformed. -/
def readLine (line : Text) : Option (List Nat) :=
  if isLineEnd line then some []
  else (readEntry (line.dropWhile isSpace)).map ([·])

/-- The lines of a document.  A carriage return right before a line feed belongs to
    the end of the line, and a leading byte order mark is skipped. -/
def lines (document : Text) : List Text :=
  let text := match document with
    | '\uFEFF' :: rest => rest
    | _ => document
  let pieces := text.splitOn '\n'
  pieces.dropLast.map (fun line => if line.getLast? == some '\r' then line.dropLast else line) ++
    pieces.getLast?.toList

/-- The size that a document sets, if it sets one; nothing if it is malformed. -/
def read (document : Text) : Option (Option Nat) :=
  match (lines document).mapM readLine with
  | none => none
  | some entries =>
    match entries.flatten with
    | [] => some none
    | [size] => some (some size)
    | _ => none

end MicroAsm.Document
