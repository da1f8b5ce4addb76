/-
  Notes: what is remarked about each source line that is accepted.
-/
import MicroAsm.Assembly.Basic
import MicroAsm.Text.Quoted

namespace MicroAsm

/-- A remark about an accepted line. -/
inductive Note where
  | blank (line : Nat)
  | comment (line : Nat) (text : Text)
  | placed (placement : Placement)
deriving DecidableEq

namespace Note

/-- The remark about `line`, given the assembly after it. -/
def of? (line : SourceLine) (after : Assembly) : Option Note :=
  match line.kind with
  | .blank => some (.blank line.number)
  | .comment text => some (.comment line.number text)
  | .code _ => after.instructions.back?.map .placed

/-- The wording of a remark. -/
def message : Note → String
  | blank line => s!"line {line}: blank"
  | comment line text => s!"line {line}: comment {String.ofList (Text.quote text)}"
  | placed p =>
    let address := String.ofList (Text.hexUpper 4 p.address)
    let bytes := String.ofList (Text.padRight 5 (bytesText p.bytes))
    s!"{address}: {bytes}  line {p.line}: {String.ofList p.source}"

end Note

namespace Assembly

/-- Adds to `noted` the remarks about the lines before the first that fails. -/
def notesAfter (noted : Array Note) (assembly : Assembly) : List SourceLine → Array Note
  | [] => noted
  | line :: lines =>
    match assembly.feed line with
    | .error _ => noted
    | .ok next => notesAfter (noted ++ (Note.of? line next).toList) next lines

/-- Remarks about the lines before the first that fails. -/
def notes (assembly : Assembly) (lines : List SourceLine) : List Note :=
  (notesAfter #[] assembly lines).toList

/-- Remarks about all lines that do not fail, going on after those that do. -/
def notesEach (assembly : Assembly) : List SourceLine → List Note
  | [] => []
  | line :: lines =>
    match assembly.feed line with
    | .error _ => assembly.notesEach lines
    | .ok next => (Note.of? line next).toList ++ next.notesEach lines

end Assembly

end MicroAsm
