/-
  Memory images.  An image has a fixed capacity and is used from the front; the
  part not used yet holds the byte of `halt`.  Appending either adds all the bytes
  it is given or changes nothing.
-/
import MicroAsm.Checksum
import MicroAsm.Machine.Instruction

namespace MicroAsm

/-- A memory image of `capacity` bytes with its used front part. -/
structure Image where
  capacity : Nat
  used : Array UInt8
deriving DecidableEq

/-- An append that did not fit. -/
structure Overrun where
  capacity : Nat
  cursor : Nat
  needed : Nat
deriving DecidableEq

/-- The wording of an overrun. -/
def Overrun.message (o : Overrun) : String :=
  s!"{o.needed} byte(s) at 0x{String.ofList (Text.hexLower 4 o.cursor)} would overrun the " ++
    s!"{o.capacity}-byte image"

namespace Image

/-- An image with nothing used. -/
def empty (capacity : Nat) : Image := ⟨capacity, #[]⟩

/-- An image read back from bytes; all of it is used. -/
def ofBytes (bytes : List UInt8) : Image := ⟨bytes.length, bytes.toArray⟩

/-- The address where the next byte goes. -/
def cursor (image : Image) : Nat := image.used.size

/-- Bytes not used yet. -/
def remaining (image : Image) : Nat := image.capacity - image.cursor

/-- All bytes of the image. -/
def bytes (image : Image) : List UInt8 :=
  image.used.toList ++ List.replicate image.remaining fillByte

/-- The CRC-32 of all bytes, the unused ones too. -/
def checksum (image : Image) : UInt32 := crc32 image.bytes

/-- Adds `bytes` at the cursor: their address or why they do not fit, and the image after. -/
def push (image : Image) (bytes : List UInt8) : Except Overrun Nat × Image :=
  if bytes.length ≤ image.remaining then
    (.ok image.cursor, ⟨image.capacity, image.used ++ bytes⟩)
  else (.error ⟨image.capacity, image.cursor, bytes.length⟩, image)

/-- Adds `bytes` at the cursor; gives their address and the image after. -/
def append (image : Image) (bytes : List UInt8) : Except Overrun (Nat × Image) :=
  match image.push bytes with
  | (.ok address, next) => .ok (address, next)
  | (.error overrun, _) => .error overrun

/-! ## Views -/

theorem bytes_empty (capacity : Nat) :
    (empty capacity).bytes = List.replicate capacity fillByte := by
  simp [empty, bytes, remaining, cursor]

theorem bytes_ofBytes (bytes : List UInt8) : (ofBytes bytes).bytes = bytes := by
  simp [ofBytes, Image.bytes, remaining, cursor]

theorem length_bytes (image : Image) (h : image.cursor ≤ image.capacity) :
    image.bytes.length = image.capacity := by
  simp only [cursor] at h
  simp only [bytes, remaining, cursor, List.length_append, List.length_replicate,
    Array.length_toList]
  omega

theorem push_of_le {image : Image} {bytes : List UInt8} (h : bytes.length ≤ image.remaining) :
    image.push bytes = (.ok image.cursor, ⟨image.capacity, image.used ++ bytes⟩) := if_pos h

/-- Bytes that do not fit leave the image as it was. -/
theorem push_of_lt {image : Image} {bytes : List UInt8} (h : image.remaining < bytes.length) :
    image.push bytes = (.error ⟨image.capacity, image.cursor, bytes.length⟩, image) :=
  if_neg (Nat.not_le.mpr h)

end Image

end MicroAsm
