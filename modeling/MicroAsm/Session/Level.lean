/-
  Levels of detail in the journal, the most severe first.
-/

namespace MicroAsm

/-- How severe or detailed an event is. -/
inductive Level where
  | error
  | warn
  | info
  | debug
  | trace
deriving DecidableEq

namespace Level

/-- Rank of a level; more detail ranks higher. -/
def rank : Level → Nat
  | error => 0
  | warn => 1
  | info => 2
  | debug => 3
  | trace => 4

/-- How the journal names a level. -/
def name : Level → String
  | error => "ERROR"
  | warn => "WARN"
  | info => "INFO"
  | debug => "DEBUG"
  | trace => "TRACE"

end Level

/-- The most detailed level that is kept; `none` keeps nothing. -/
abbrev Threshold := Option Level

/-- Whether events of `level` are kept. -/
def Threshold.keeps (threshold : Threshold) (level : Level) : Bool :=
  match threshold with
  | none => false
  | some most => level.rank ≤ most.rank

/-- The threshold with this name. -/
def Threshold.ofName? : String → Option Threshold
  | "off" => some none
  | "error" => some (some .error)
  | "warn" => some (some .warn)
  | "info" => some (some .info)
  | "debug" => some (some .debug)
  | "trace" => some (some .trace)
  | _ => none

end MicroAsm
