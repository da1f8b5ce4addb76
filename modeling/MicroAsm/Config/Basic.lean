/-
  The configuration: the size of the image, at least one byte and at most as many
  as four hexadecimal digits can address.
-/
import MicroAsm.Config.Document

namespace MicroAsm

/-- Settings of an assembly. -/
structure Config where
  /-- The capacity of the image. -/
  imageSize : Nat
deriving DecidableEq

/-- What is wrong with a configuration. -/
inductive ConfigError where
  | malformed
  | sizeOutOfRange (imageSize : Nat)
deriving DecidableEq

namespace Config

/-- The size unless another is chosen: all of the machine's instruction memory. -/
def defaultSize : Nat := 16384

/-- The largest size. -/
def maxSize : Nat := 65536

/-- The configuration without a document. -/
def default : Config := ⟨defaultSize⟩

/-- The configuration that a document describes. -/
def ofDocument (document : Text) : Except ConfigError Config :=
  match Document.read document with
  | none => .error .malformed
  | some none => .ok default
  | some (some imageSize) => .ok ⟨imageSize⟩

/-- Checks the size. -/
def validate (config : Config) : Except ConfigError Unit :=
  if 1 ≤ config.imageSize ∧ config.imageSize ≤ maxSize then .ok ()
  else .error (.sizeOutOfRange config.imageSize)

end Config

/-- The wording of a configuration error.  Of a malformed document no detail is given. -/
def ConfigError.message : ConfigError → String
  | malformed => ""
  | sizeOutOfRange n => s!"image_size must be between 1 and {Config.maxSize}, got {n}"

end MicroAsm
