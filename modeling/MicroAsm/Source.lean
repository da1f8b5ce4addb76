/-
  Source text as numbered lines.  A line ends at each line feed; the text after
  the last one is a line too, so every text has at least one line.
-/
import MicroAsm.Text.Basic

namespace MicroAsm

/-- A line of source text; numbers start at 1. -/
structure SourceLine where
  number : Nat
  text : Text
deriving DecidableEq

/-- What a line holds, without its leading blanks. -/
inductive LineKind where
  | blank
  | comment (text : Text)
  | code (text : Text)
deriving DecidableEq

/-- Kind of a text: nothing but blanks, a comment from `//` on, or code. -/
def LineKind.of (text : Text) : LineKind :=
  match Text.trimStart text with
  | [] => .blank
  | '/' :: '/' :: rest => .comment ('/' :: '/' :: rest)
  | stripped => .code stripped

/-- Kind of a line. -/
def SourceLine.kind (line : SourceLine) : LineKind := LineKind.of line.text

/-- The lines of a source text. -/
def sourceLines (source : Text) : List SourceLine :=
  ((source.splitOn '\n').zipIdx 1).map fun (text, number) => ⟨number, text⟩

end MicroAsm
