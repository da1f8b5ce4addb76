/-
  Memory images under appends.

  An image starts with nothing used, or full when it is read back from bytes.  Appending
  keeps the capacity and leaves the cursor inside of it (`Sound.push`), whether the bytes fit
  or not; so the subtraction in `remaining` is exact in every image that a run of appends
  reaches, and what is written ends inside of the image.  An append writes all of its bytes
  at the cursor and touches no other address, or does nothing (`appends_push`).

  `Memory` makes the same appends in place, with a byte at every address; there a cursor
  behind the bytes or a write that leaves them would have no result.  No run of appends comes
  to that (`appendAll?_memory`).
-/
import MicroAsm.Image
import MicroAsm.Proofs.Machine.Decoding

namespace MicroAsm.Image

/-! ## Views -/

theorem length_used (image : Image) : image.used.toList.length = image.cursor :=
  Array.length_toList

/-- The used bytes stand in front. -/
theorem take_cursor_bytes (image : Image) : image.bytes.take image.cursor = image.used.toList := by
  rw [bytes, ← length_used, List.take_left]

/-- From any address behind the used bytes on, the fill reaches to the end. -/
theorem drop_cursor_add_bytes (image : Image) (n : Nat) :
    image.bytes.drop (image.cursor + n) =
      List.replicate (image.capacity - (image.cursor + n)) fillByte := by
  rw [← List.drop_drop, bytes, ← length_used, List.drop_left, List.drop_replicate, length_used,
    remaining, Nat.sub_sub]

/-- In front of the cursor stand the used bytes. -/
theorem getElem?_bytes_of_lt {image : Image} {k : Nat} (h : k < image.cursor) :
    image.bytes[k]? = image.used.toList[k]? := by
  rw [bytes, List.getElem?_append_left]
  rwa [length_used]

/-- Behind the cursor there is nothing but the fill. -/
theorem getElem?_bytes_of_le {image : Image} {k : Nat} (hle : image.cursor ≤ k)
    (hlt : k < image.capacity) : image.bytes[k]? = some fillByte := by
  have hroom : k - image.used.toList.length < image.remaining := by
    rw [length_used, remaining]
    omega
  rw [bytes, List.getElem?_append_right (by rwa [length_used]), List.getElem?_replicate,
    if_pos hroom]

/-! ## One append -/

/-- An image of this capacity with its cursor inside; the used bytes are its front. -/
structure Sound (capacity : Nat) (image : Image) : Prop where
  capacity_eq : image.capacity = capacity
  cursor_le : image.cursor ≤ image.capacity
  remaining_eq : image.cursor + image.remaining = image.capacity
  length_bytes : image.bytes.length = image.capacity
  used_eq : image.used.toList = image.bytes.take image.cursor

theorem sound_of_cursor_le {capacity : Nat} {image : Image} (hcapacity : image.capacity = capacity)
    (h : image.cursor ≤ image.capacity) : Sound capacity image where
  capacity_eq := hcapacity
  cursor_le := h
  remaining_eq := by rw [remaining]; omega
  length_bytes := image.length_bytes h
  used_eq := image.take_cursor_bytes.symm

/-- `bytes` were written at the cursor of `before`, and nothing else is different. -/
structure Written (before : Image) (bytes : List UInt8) (after : Image) : Prop where
  capacity_eq : after.capacity = before.capacity
  cursor_eq : after.cursor = before.cursor + bytes.length
  used_eq : after.used.toList = before.used.toList ++ bytes
  here : ∀ k < bytes.length, after.bytes[before.cursor + k]? = bytes[k]?
  elsewhere : ∀ k, k < before.cursor ∨ before.cursor + bytes.length ≤ k →
    after.bytes[k]? = before.bytes[k]?

/-- What appending `bytes` comes to: they are written as a whole when they fit, and refused
    without a trace when they do not. -/
structure Appends (image : Image) (bytes : List UInt8) : Prop where
  ok_iff : (∃ address, (image.push bytes).1 = .ok address) ↔ bytes.length ≤ image.remaining
  placed : ∀ address, (image.push bytes).1 = .ok address →
    address = image.cursor ∧ Written image bytes (image.push bytes).2
  refused : ∀ overrun, (image.push bytes).1 = .error overrun →
    overrun = ⟨image.capacity, image.cursor, bytes.length⟩ ∧ (image.push bytes).2 = image
  append_eq : image.append bytes =
    (image.push bytes).1.map fun address => (address, (image.push bytes).2)

/-- Used bytes that grow by `bytes` inside of the capacity are a write: behind it both images
    hold the fill, or end. -/
theorem written_of_used_eq {image after : Image} {bytes : List UInt8}
    (hcursor : image.cursor ≤ image.capacity) (hfit : bytes.length ≤ image.remaining)
    (hcapacity : after.capacity = image.capacity)
    (hused : after.used.toList = image.used.toList ++ bytes) : Written image bytes after := by
  have hnext : after.cursor = image.cursor + bytes.length := by
    rw [← length_used, hused, List.length_append, length_used]
  have hroom : image.cursor + bytes.length ≤ image.capacity := by
    rw [remaining] at hfit
    omega
  refine ⟨hcapacity, hnext, hused, ?_, ?_⟩
  · intro k hk
    rw [getElem?_bytes_of_lt (by omega), hused,
      List.getElem?_append_right (by rw [length_used]; omega), length_used,
      Nat.add_sub_cancel_left]
  · intro k hk
    rcases hk with hbefore | hbehind
    · rw [getElem?_bytes_of_lt (by omega), getElem?_bytes_of_lt hbefore, hused,
        List.getElem?_append_left (by rwa [length_used])]
    · by_cases hin : k < image.capacity
      · rw [getElem?_bytes_of_le (by omega) (by omega), getElem?_bytes_of_le (by omega) hin]
      · have hend := after.length_bytes (by omega)
        have hend' := image.length_bytes hcursor
        rw [List.getElem?_eq_none (by omega), List.getElem?_eq_none (by omega)]

theorem written_of_le {image : Image} (h : image.cursor ≤ image.capacity) {bytes : List UInt8}
    (hfit : bytes.length ≤ image.remaining) :
    Written image bytes ⟨image.capacity, image.used ++ bytes⟩ :=
  written_of_used_eq h hfit rfl Array.toList_appendList

theorem appends_push {image : Image} (h : image.cursor ≤ image.capacity) (bytes : List UInt8) :
    Appends image bytes := by
  by_cases hfit : bytes.length ≤ image.remaining
  · have hpush := push_of_le hfit
    refine ⟨⟨fun _ => hfit, fun _ => ⟨_, congrArg Prod.fst hpush⟩⟩, ?_, ?_, ?_⟩
    · intro address haddress
      rw [hpush] at haddress ⊢
      exact ⟨(Except.ok.inj haddress).symm, written_of_le h hfit⟩
    · intro overrun hoverrun
      rw [hpush] at hoverrun
      exact absurd hoverrun (by simp)
    · rw [append, hpush]
      rfl
  · have hpush := push_of_lt (Nat.lt_of_not_le hfit)
    refine ⟨⟨?_, fun h => absurd h hfit⟩, ?_, ?_, ?_⟩
    · rintro ⟨address, haddress⟩
      rw [hpush] at haddress
      exact absurd haddress (by simp)
    · intro address haddress
      rw [hpush] at haddress
      exact absurd haddress (by simp)
    · intro overrun hoverrun
      rw [hpush] at hoverrun ⊢
      exact ⟨(Except.error.inj hoverrun).symm, rfl⟩
    · rw [append, hpush]
      rfl

/-- One more append keeps the capacity, and the cursor inside of it. -/
theorem Sound.push {capacity : Nat} {image : Image} (h : Sound capacity image)
    (bytes : List UInt8) : Sound capacity (image.push bytes).2 := by
  by_cases hfit : bytes.length ≤ image.remaining
  · have hwritten := written_of_le h.cursor_le hfit
    have hroom := h.remaining_eq
    rw [push_of_le hfit]
    refine sound_of_cursor_le h.capacity_eq ?_
    rw [hwritten.cursor_eq, hwritten.capacity_eq]
    omega
  · rw [push_of_lt (Nat.lt_of_not_le hfit)]
    exact h

/-! ## Writing in place -/

/-- Memory: a byte at every address below its length, and a cursor. -/
structure Memory where
  cells : List UInt8
  cursor : Nat
deriving DecidableEq

namespace Memory

/-- Cells from the cursor on; there is no such number when the cursor is behind them all. -/
def remaining? (m : Memory) : Option Nat :=
  if m.cursor ≤ m.cells.length then some (m.cells.length - m.cursor) else none

/-- Writes `bytes` over the cells at the cursor and moves it behind them; those cells have to
    be there. -/
def write? (m : Memory) (bytes : List UInt8) : Option Memory :=
  if m.cursor + bytes.length ≤ m.cells.length then
    some ⟨m.cells.take m.cursor ++ bytes ++ m.cells.drop (m.cursor + bytes.length),
      m.cursor + bytes.length⟩
  else none

/-- Adds `bytes` at the cursor if what remains is enough for them: their address or why they
    do not fit, and the memory after. -/
def append? (m : Memory) (bytes : List UInt8) : Option (Except Overrun Nat × Memory) := do
  let remaining ← m.remaining?
  if bytes.length ≤ remaining then
    let next ← m.write? bytes
    return (.ok m.cursor, next)
  else
    return (.error ⟨m.cells.length, m.cursor, bytes.length⟩, m)

/-- The memory after appending one instruction after another, also behind one that does not
    fit. -/
def appendAll? (m : Memory) (instructions : List Instruction) : Option Memory :=
  instructions.foldlM (fun m i => (m.append? i.bytes).map Prod.snd) m

end Memory

/-- The image as memory. -/
def memory (image : Image) : Memory := ⟨image.bytes, image.cursor⟩

@[simp] theorem cells_memory (image : Image) : image.memory.cells = image.bytes := rfl
@[simp] theorem cursor_memory (image : Image) : image.memory.cursor = image.cursor := rfl

theorem remaining?_memory {capacity : Nat} {image : Image} (h : Sound capacity image) :
    image.memory.remaining? = some image.remaining := by
  rw [Memory.remaining?, cells_memory, cursor_memory, h.length_bytes, if_pos h.cursor_le, remaining]

/-- Bytes that fit are written in place. -/
theorem write?_memory {capacity : Nat} {image : Image} (h : Sound capacity image)
    {bytes : List UInt8} (hfit : bytes.length ≤ image.remaining) :
    image.memory.write? bytes = some (memory ⟨image.capacity, image.used ++ bytes⟩) := by
  have hwritten := written_of_le h.cursor_le hfit
  have hroom : image.cursor + bytes.length ≤ image.capacity := by
    have := h.remaining_eq
    omega
  have hbytes : (Image.mk image.capacity (image.used ++ bytes)).bytes =
      image.bytes.take image.cursor ++ bytes ++ image.bytes.drop (image.cursor + bytes.length) := by
    rw [Image.bytes, hwritten.used_eq, remaining, hwritten.cursor_eq, hwritten.capacity_eq,
      drop_cursor_add_bytes, take_cursor_bytes]
  rw [Memory.write?, cells_memory, cursor_memory, h.length_bytes, if_pos hroom, memory, hbytes,
    hwritten.cursor_eq]

/-- Appending in place is appending to the image. -/
theorem append?_memory {capacity : Nat} {image : Image} (h : Sound capacity image)
    (bytes : List UInt8) :
    image.memory.append? bytes =
      some ((image.push bytes).1, (image.push bytes).2.memory) := by
  rw [Memory.append?, remaining?_memory h]
  by_cases hfit : bytes.length ≤ image.remaining
  · rw [push_of_le hfit]
    simp [hfit, write?_memory h hfit]
  · rw [push_of_lt (Nat.lt_of_not_le hfit)]
    simp [hfit, h.length_bytes]

/-! ## Runs -/

/-- Where an image comes from: it is new, or read back from bytes. -/
inductive Origin where
  | new (capacity : Nat)
  | readBack (bytes : List UInt8)

/-- The image to start with. -/
def Origin.image : Origin → Image
  | new capacity => empty capacity
  | readBack bytes => ofBytes bytes

/-- The memory to start with. -/
def Origin.memory : Origin → Memory
  | new capacity => ⟨List.replicate capacity fillByte, 0⟩
  | readBack bytes => ⟨bytes, bytes.length⟩

theorem Origin.memory_image (origin : Origin) : origin.image.memory = origin.memory := by
  cases origin with
  | new capacity => exact congrArg (Memory.mk · 0) (bytes_empty capacity)
  | readBack bytes => exact congrArg (Memory.mk · bytes.length) (bytes_ofBytes bytes)

/-- The image after appending one instruction after another; those that do not fit are passed
    over.  The instructions are any at all, in the instruction set or not. -/
def pushAll (image : Image) (instructions : List Instruction) : Image :=
  instructions.foldl (fun image i => (image.push i.bytes).2) image

theorem sound_origin (origin : Origin) : Sound origin.image.capacity origin.image := by
  cases origin with
  | new capacity => exact sound_of_cursor_le rfl (Nat.zero_le capacity)
  | readBack bytes => exact sound_of_cursor_le rfl (Nat.le_refl bytes.length)

/-- Every image on the way is sound. -/
theorem Sound.pushAll {capacity : Nat} {image : Image} (h : Sound capacity image)
    (instructions : List Instruction) : Sound capacity (image.pushAll instructions) := by
  induction instructions generalizing image with
  | nil => exact h
  | cons i instructions ih => exact ih (h.push i.bytes)

/-- A run in place never leaves the memory. -/
theorem appendAll?_memory {capacity : Nat} {image : Image} (h : Sound capacity image)
    (instructions : List Instruction) :
    image.memory.appendAll? instructions = some (image.pushAll instructions).memory := by
  induction instructions generalizing image with
  | nil => rfl
  | cons i instructions ih =>
    rw [Memory.appendAll?, List.foldlM_cons, append?_memory h]
    exact ih (h.push i.bytes)

/-- A full image takes no instruction. -/
theorem push_of_full {image : Image} (h : image.remaining = 0) (i : Instruction) :
    image.push i.bytes = (.error ⟨image.capacity, image.cursor, i.bytes.length⟩, image) := by
  refine push_of_lt ?_
  rw [h]
  exact List.length_pos_iff.mpr i.bytes_ne_nil

theorem pushAll_of_full {image : Image} (h : image.remaining = 0)
    (instructions : List Instruction) : image.pushAll instructions = image := by
  induction instructions with
  | nil => rfl
  | cons i instructions ih =>
    rw [pushAll, List.foldl_cons, push_of_full h]
    exact ih

theorem remaining_ofBytes (bytes : List UInt8) : (ofBytes bytes).remaining = 0 :=
  Nat.sub_self bytes.length

/-- **Images under appends.**  From a new image or one that was read back, and after any run of
    appends: the capacity is the one at the start, the cursor lies inside of it, and one more
    append writes its bytes as a whole or changes nothing.  The same appends in place have a
    result, and it is the same.  A new image holds the fill from the cursor on, one that was
    read back takes no instruction, and an image that is written out and read back has the same
    bytes and is full. -/
theorem appends_keep_image_sound (origin : Origin) (instructions : List Instruction) :
    Sound origin.image.capacity (origin.image.pushAll instructions) ∧
      (∀ i : Instruction, Appends (origin.image.pushAll instructions) i.bytes) ∧
      origin.memory.appendAll? instructions = some (origin.image.pushAll instructions).memory ∧
      (∀ i : Instruction, (origin.image.pushAll instructions).memory.append? i.bytes =
        some (((origin.image.pushAll instructions).push i.bytes).1,
          ((origin.image.pushAll instructions).push i.bytes).2.memory)) ∧
      (∀ capacity, origin = .new capacity →
        ∀ k, (origin.image.pushAll instructions).cursor ≤ k → k < capacity →
          (origin.image.pushAll instructions).bytes[k]? = some fillByte) ∧
      (∀ bytes, origin = .readBack bytes → ∀ i : Instruction, ∃ overrun,
        ((origin.image.pushAll instructions).push i.bytes).1 = .error overrun) ∧
      (ofBytes (origin.image.pushAll instructions).bytes).bytes =
        (origin.image.pushAll instructions).bytes ∧
      (ofBytes (origin.image.pushAll instructions).bytes).capacity = origin.image.capacity ∧
      (ofBytes (origin.image.pushAll instructions).bytes).cursor = origin.image.capacity := by
  have hsound := (sound_origin origin).pushAll instructions
  have hlength : (origin.image.pushAll instructions).bytes.length = origin.image.capacity :=
    hsound.length_bytes.trans hsound.capacity_eq
  refine ⟨hsound, fun i => appends_push hsound.cursor_le i.bytes, ?_,
    fun i => append?_memory hsound i.bytes, ?_, ?_, bytes_ofBytes _, hlength, hlength⟩
  · rw [← origin.memory_image]
    exact appendAll?_memory (sound_origin origin) instructions
  · rintro capacity rfl k hle hlt
    refine getElem?_bytes_of_le hle ?_
    rw [hsound.capacity_eq]
    exact hlt
  · rintro bytes rfl i
    have hfull := remaining_ofBytes bytes
    rw [Origin.image, pushAll_of_full hfull, push_of_full hfull]
    exact ⟨_, rfl⟩

-- the last byte takes no half of an instruction, and then a whole one of one byte
example : (empty 1).push [0x90, 0x0A] = (.error ⟨1, 0, 2⟩, empty 1) ∧
    ((empty 1).push [0x90, 0x0A]).2.push [0x50] = (.ok 0, ⟨1, #[0x50]⟩) := by decide

end MicroAsm.Image
