/-
  CRC-32: the remainder of the bytes, low bit first, by the reflected polynomial
  0xEDB88320, started from all ones and complemented at the end.
-/

namespace MicroAsm

/-- One shift of the remainder. -/
def crcShift (remainder : UInt32) : UInt32 :=
  if remainder &&& 1 == 1 then (remainder >>> 1) ^^^ 0xEDB88320 else remainder >>> 1

/-- The remainder after one more byte. -/
def crcByte (remainder : UInt32) (byte : UInt8) : UInt32 :=
  Nat.repeat crcShift 8 (remainder ^^^ byte.toUInt32)

/-- The CRC-32 of a byte list. -/
def crc32 (bytes : List UInt8) : UInt32 := bytes.foldl crcByte 0xFFFFFFFF ^^^ 0xFFFFFFFF

end MicroAsm
