/-
  What a successful session reports.
-/
import MicroAsm.Assembly.Basic

namespace MicroAsm

/-- The figures of an assembled program. -/
structure Summary where
  instructions : Nat
  bytesUsed : Nat
  capacity : Nat
  checksum : UInt32
deriving DecidableEq

namespace Summary

/-- The figures of `assembly`. -/
def of (assembly : Assembly) : Summary where
  instructions := assembly.instructions.size
  bytesUsed := assembly.image.cursor
  capacity := assembly.image.capacity
  checksum := assembly.image.checksum

/-- The wording of a summary. -/
def message (s : Summary) : String :=
  s!"Successfully assembled {s.instructions} instructions into {s.bytesUsed} of {s.capacity} " ++
    s!"bytes (crc32 {String.ofList (Text.hexUpper 8 s.checksum.toNat)})"

end Summary

end MicroAsm
