/-
  Why a session fails, and the wording of it.
-/
import MicroAsm.Assembly.Basic
import MicroAsm.Config.Basic
import MicroAsm.Files.System

namespace MicroAsm

/-- Two paths of the command line that may not be spelled alike. -/
inductive PathClash where
  | inputIsOutput (input : Path)
  | listingOverwrites (listing : Path)
deriving DecidableEq

/-- The wording of a clash. -/
def PathClash.message : PathClash → String
  | inputIsOutput input => s!"input and output are the same file: {String.ofList input}"
  | listingOverwrites listing => s!"listing would overwrite {String.ofList listing}"

/-- Why a session fails. -/
inductive Failure where
  | argument (clash : PathClash)
  | file (path : Path) (error : FileError)
  /-- The path is that of the document at fault; a size may come from elsewhere. -/
  | config (path : Option Path) (error : ConfigError)
  | assembly (fault : Fault)
deriving DecidableEq

namespace Failure

/-- The source line at fault. -/
def line? : Failure → Option Nat
  | assembly fault => some fault.line
  | argument _ | file _ _ | config _ _ => none

/-- The wording of what lies beneath a failure. -/
def cause? : Failure → Option String
  | file _ error => some error.message
  | assembly (.defect _ defect) => some defect.message
  | assembly (.overrun _ _) | argument _ | config _ _ => none

/-- The wording of a failure. -/
def message : Failure → String
  | argument clash => clash.message
  | file path error => s!"{String.ofList path}: {error.message}"
  | config (some path) error => s!"invalid configuration in {String.ofList path}: {error.message}"
  | config none error => s!"invalid configuration: {error.message}"
  | assembly fault => fault.message

end Failure

end MicroAsm
