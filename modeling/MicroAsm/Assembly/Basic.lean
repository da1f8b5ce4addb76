/-
  Assembling: every code line becomes one instruction, placed right after the one
  before it.  Blank lines and comments place nothing.  `assemble` stops at the
  first line that fails; `Assembly.feedEach` goes on after failures, which leave
  the assembly as it was.
-/
import MicroAsm.Image
import MicroAsm.Source
import MicroAsm.Statement.Parse

namespace MicroAsm

/-- An instruction in its place: address and bytes, and the line that asked for it. -/
structure Placement where
  address : Nat
  line : Nat
  bytes : List UInt8
  /-- The line's text without outer blanks. -/
  source : Text
deriving DecidableEq

/-- Why a source line could not be placed. -/
inductive Fault where
  | defect (line : Nat) (defect : Defect)
  | overrun (line : Nat) (capacity : Nat)
deriving DecidableEq

namespace Fault

/-- The line at fault. -/
def line : Fault → Nat
  | defect n _ | overrun n _ => n

/-- The wording of a fault. -/
def message : Fault → String
  | defect n d => s!"line {n}: {d.message}"
  | overrun n capacity => s!"line {n}: program does not fit in the {capacity}-byte image"

end Fault

/-- An image and the instructions placed in it, in order. -/
structure Assembly where
  image : Image
  instructions : Array Placement
deriving DecidableEq

namespace Assembly

/-- Nothing placed yet. -/
def empty (capacity : Nat) : Assembly := ⟨Image.empty capacity, #[]⟩

/-- Places one source line: the fault of the line, if it has one, and the assembly after it. -/
def offer (assembly : Assembly) (line : SourceLine) : Option Fault × Assembly :=
  match line.kind with
  | .blank => (none, assembly)
  | .comment _ => (none, assembly)
  | .code code =>
    match Instruction.parse code with
    | .error defect => (some (.defect line.number defect), assembly)
    | .ok instruction =>
      match assembly.image.push instruction.bytes with
      | (.error overrun, image) =>
        (some (.overrun line.number overrun.capacity), { assembly with image })
      | (.ok address, image) =>
        (none, ⟨image, assembly.instructions.push
          ⟨address, line.number, instruction.bytes, Text.trimEnd code⟩⟩)

/-- The assembly with one source line placed, or the fault of the line. -/
def feed (assembly : Assembly) (line : SourceLine) : Except Fault Assembly :=
  match assembly.offer line with
  | (none, next) => .ok next
  | (some fault, _) => .error fault

/-- Places every line it can: the outcome of each line, and the assembly after all. -/
def feedEach (assembly : Assembly) : List SourceLine → List (Option Fault) × Assembly
  | [] => ([], assembly)
  | line :: lines =>
    let (outcome, next) := assembly.offer line
    let (outcomes, last) := next.feedEach lines
    (outcome :: outcomes, last)

end Assembly

/-- The assembly of a whole source text at a capacity, or the fault of the first line that
    fails. -/
def assemble (source : Text) (capacity : Nat) : Except Fault Assembly :=
  (sourceLines source).foldlM Assembly.feed (Assembly.empty capacity)

end MicroAsm
