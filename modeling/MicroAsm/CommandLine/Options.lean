/-
  The options of the command line, and the switches that set them.
-/
import MicroAsm.Files.Path
import MicroAsm.Session.Level

namespace MicroAsm

/-- What a command line asks for. -/
structure Options where
  input : Path
  output : Path
  config : Option Path := none
  listing : Option Path := none
  /-- Overrides the size in the configuration. -/
  imageSize : Option Nat := none
  /-- How often more detail was asked for. -/
  verbose : Nat := 0
deriving DecidableEq

/-- The detail of the journal that the options ask for. -/
def Options.level (options : Options) : Level :=
  match options.verbose with
  | 0 => .info
  | 1 => .debug
  | _ => .trace

/-- Options that take a value. -/
inductive Setting where
  | config
  | imageSize
  | listing
deriving DecidableEq

/-- Options that take none. -/
inductive Flag where
  | verbose
  | help
  | version
deriving DecidableEq

/-- What a letter or a long name on the command line stands for. -/
inductive Switch where
  | setting (setting : Setting)
  | flag (flag : Flag)
deriving DecidableEq

namespace Switch

/-- The switch of a letter. -/
def ofLetter? : Char → Option Switch
  | 'c' => some (.setting .config)
  | 's' => some (.setting .imageSize)
  | 'l' => some (.setting .listing)
  | 'v' => some (.flag .verbose)
  | 'h' => some (.flag .help)
  | 'V' => some (.flag .version)
  | _ => none

/-- The long names. -/
def longNames : List (String × Switch) := [
  ("config", .setting .config), ("image-size", .setting .imageSize),
  ("listing", .setting .listing), ("verbose", .flag .verbose), ("help", .flag .help),
  ("version", .flag .version)]

/-- The switch of a long name, which must be complete. -/
def ofName? (name : Text) : Option Switch :=
  (longNames.find? (·.1.toList == name)).map (·.2)

end Switch

end MicroAsm
