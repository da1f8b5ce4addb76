/-
  Paths as they are written, and when two of them are the same spelling of a path:
  repeated and trailing slashes do not count, and neither does a `.` other than a
  leading one.  Nothing is looked up, so `..` stands for itself.
-/
import MicroAsm.Text.Basic

namespace MicroAsm

/-- A path as it is written. -/
abbrev Path := Text

namespace Path

/-- Whether a path starts at the root. -/
def isAbsolute (p : Path) : Bool := p.head? == some '/'

/-- Whether a path ends in a slash. -/
def endsInSlash (p : Path) : Bool := p.getLast? == some '/'

/-- The names between the slashes. -/
def names (p : Path) : List Text := (p.splitOn '/').filter (!·.isEmpty)

/-- What counts when paths are compared; the root is a component of its own. -/
def components (p : Path) : List Text :=
  if p.isAbsolute then ['/'] :: p.names.filter (· != ['.'])
  else
    match p.names with
    | [] => []
    | first :: rest => first :: rest.filter (· != ['.'])

/-- Whether two paths are spelled alike. -/
def Same (p q : Path) : Prop := p.components = q.components

instance (p q : Path) : Decidable (p.Same q) := inferInstanceAs (Decidable (_ = _))

end Path

end MicroAsm
