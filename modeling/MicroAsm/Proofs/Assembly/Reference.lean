/-
  Assembling, said without a run.

  The code lines of a source either all parse and fit, and are then laid out end to
  end (`Laid`), or one of them is the first that fails, and decides the fault.
-/
import MicroAsm.Proofs.Assembly.Run

namespace MicroAsm

/-! ## Lines of a source -/

/-- `lines` are the lines of `source`, cut at every line feed and numbered from 1. -/
structure IsCut (source : Text) (lines : List SourceLine) : Prop where
  ne_nil : lines ≠ []
  join_eq : ['\n'].intercalate (lines.map SourceLine.text) = source
  no_feed : ∀ line ∈ lines, '\n' ∉ line.text
  numbers_eq : lines.map SourceLine.number = List.range' 1 lines.length

theorem map_text_sourceLines (source : Text) :
    (sourceLines source).map SourceLine.text = source.splitOn '\n' := by
  rw [sourceLines, List.map_map]
  exact List.zipIdx_map_fst 1 _

theorem map_number_sourceLines (source : Text) :
    (sourceLines source).map SourceLine.number = List.range' 1 (source.splitOn '\n').length := by
  rw [sourceLines, List.map_map]
  exact List.zipIdx_map_snd 1 _

theorem not_mem_of_mem_splitOn (t : Text) : ∀ piece ∈ t.splitOn '\n', '\n' ∉ piece := by
  induction t with
  | nil => simp
  | cons c t ih =>
    rw [List.splitOn_cons_eq_if_modifyHead]
    split
    · simpa using ih
    · next hc =>
      obtain ⟨first, rest, hsplit⟩ := List.exists_cons_of_ne_nil (List.splitOn_ne_nil '\n' t)
      rw [hsplit] at ih ⊢
      have hc' : '\n' ≠ c := fun h => hc (beq_iff_eq.mpr h.symm)
      simpa [hc'] using ih

theorem isCut_sourceLines (source : Text) : IsCut source (sourceLines source) := by
  have htexts := map_text_sourceLines source
  have hlength : (sourceLines source).length = (source.splitOn '\n').length := by
    rw [← htexts, List.length_map]
  refine ⟨?_, ?_, ?_, ?_⟩
  · rw [← List.length_pos_iff, hlength, List.length_pos_iff]
    exact List.splitOn_ne_nil _ _
  · rw [htexts]
    exact List.intercalate_splitOn '\n'
  · intro line hline
    refine not_mem_of_mem_splitOn source line.text ?_
    rw [← htexts]
    exact List.mem_map_of_mem hline
  · rw [map_number_sourceLines, hlength]

/-! ## Failing lines and laid out lines -/

/-- Bytes of the instruction on a code line; a line with a defect has none. -/
def SourceLine.size (line : SourceLine) : Nat :=
  match Instruction.parse line.text with
  | .ok i => i.bytes.length
  | .error _ => 0

/-- Bytes of the first `k` code lines. -/
def extent : List SourceLine → Nat → Nat
  | line :: lines, k + 1 => line.size + extent lines k
  | _, _ => 0

theorem extent_zero (lines : List SourceLine) : extent lines 0 = 0 := by
  cases lines with
  | nil => rfl
  | cons line lines => rfl

/-- One line more adds its bytes. -/
theorem extent_succ {lines : List SourceLine} {k : Nat} {line : SourceLine}
    (h : lines[k]? = some line) : extent lines (k + 1) = extent lines k + line.size := by
  induction lines generalizing k with
  | nil => exact absurd h (by simp)
  | cons first lines ih =>
    cases k with
    | zero =>
      obtain rfl : first = line := by simpa using h
      rw [extent, extent_zero, extent_zero, Nat.add_comm]
    | succ k =>
      have hnext := ih (k := k) (by simpa using h)
      rw [extent, hnext, extent, Nat.add_assoc]

/-- Code line `k` has a defect, or the lines up to and with it take more than `capacity` bytes. -/
def FailsAt (capacity : Nat) (lines : List SourceLine) (k : Nat) : Prop :=
  ∃ line, lines[k]? = some line ∧
    ((∃ d, Instruction.parse line.text = .error d) ∨ capacity < extent lines (k + 1))

/-- The fault of a code line that fails: its defect, if it has one. -/
def faultOf (capacity : Nat) (line : SourceLine) : Fault :=
  match Instruction.parse line.text with
  | .error d => .defect line.number d
  | .ok _ => .overrun line.number capacity

/-- Every code line is placed behind the ones before it, and `halt` fills what is left. -/
structure Laid (capacity : Nat) (lines : List SourceLine) (a : Assembly) : Prop where
  size_eq : a.instructions.size = lines.length
  placed : ∀ (k : Nat) (line : SourceLine), lines[k]? = some line →
    ∃ i, Instruction.parse line.text = .ok i ∧
      a.instructions[k]? = some ⟨extent lines k, line.number, i.bytes, Text.trim line.text⟩
  bytes_eq : a.image.bytes = (a.instructions.toList.map Placement.bytes).flatten ++
    List.replicate (capacity - extent lines lines.length) fillByte
  length_eq : a.image.bytes.length = capacity
  capacity_eq : a.image.capacity = capacity
  cursor_eq : a.image.cursor = extent lines lines.length

namespace Assembly

theorem Parses.length_eq {lines : List SourceLine} {program : List Instruction}
    (h : Parses lines program) : lines.length = program.length := List.Forall₂.length_eq h

theorem Parses.exists_getElem? {lines : List SourceLine} {program : List Instruction}
    (h : Parses lines program) {k : Nat} {line : SourceLine} (hk : lines[k]? = some line) :
    ∃ i, program[k]? = some i ∧ Instruction.parse line.text = .ok i := by
  induction h generalizing k with
  | nil => simp at hk
  | @cons l i lines program hi _ ih =>
    cases k with
    | zero =>
      obtain rfl : l = line := by simpa using hk
      exact ⟨i, rfl, hi⟩
    | succ k => exact ih (by simpa using hk)

/-- The bytes of the first lines are those of the first instructions. -/
theorem Parses.extent_append {lines : List SourceLine} {program : List Instruction}
    (h : Parses lines program) (rest : List SourceLine) {k : Nat} (hk : k ≤ lines.length) :
    extent (lines ++ rest) k = (Program.bytes (program.take k)).length := by
  induction h generalizing k with
  | nil =>
    obtain rfl : k = 0 := by simpa using hk
    exact extent_zero rest
  | @cons l i lines program hi _ ih =>
    cases k with
    | zero => rfl
    | succ k =>
      have hsize : l.size = i.bytes.length := by simp [SourceLine.size, hi]
      have hnext := ih (k := k) (by simpa using hk)
      rw [List.cons_append, extent, hsize, hnext, List.take_succ_cons, Program.bytes_cons,
        List.length_append]

theorem Parses.extent_eq {lines : List SourceLine} {program : List Instruction}
    (h : Parses lines program) {k : Nat} (hk : k ≤ lines.length) :
    extent lines k = (Program.bytes (program.take k)).length := by
  have := h.extent_append [] hk
  rwa [List.append_nil] at this

/-- The bytes of all lines are those of all instructions. -/
theorem Parses.extent_length {lines : List SourceLine} {program : List Instruction}
    (h : Parses lines program) : extent lines lines.length = (Program.bytes program).length := by
  rw [h.extent_eq (Nat.le_refl _), h.length_eq, List.take_length]

/-- Lines that parse and fit do not fail, whatever follows them. -/
theorem Parses.not_failsAt {lines : List SourceLine} {program : List Instruction}
    (h : Parses lines program) {capacity : Nat} (hfit : (Program.bytes program).length ≤ capacity)
    (rest : List SourceLine) {k : Nat} (hk : k < lines.length) :
    ¬ FailsAt capacity (lines ++ rest) k := by
  intro hfails
  obtain ⟨line, hline, hwhy⟩ := hfails
  rcases hwhy with ⟨d, hd⟩ | hover
  · rw [List.getElem?_append_left hk] at hline
    obtain ⟨i, -, hi⟩ := h.exists_getElem? hline
    rw [hd] at hi
    exact absurd hi (by simp)
  · have hextent : extent (lines ++ rest) (k + 1) =
        (Program.bytes (program.take (k + 1))).length := h.extent_append rest hk
    have hle := Program.length_bytes_take_le program (k + 1)
    omega

theorem Parses.getElem?_placements {lines : List SourceLine} {program : List Instruction}
    (h : Parses lines program) (address : Nat) {k : Nat} {line : SourceLine} {i : Instruction}
    (hk : lines[k]? = some line) (hi : program[k]? = some i) :
    (placements address lines program)[k]? =
      some ⟨address + (Program.bytes (program.take k)).length, line.number, i.bytes,
        Text.trim line.text⟩ := by
  induction h generalizing address k with
  | nil => simp at hk
  | @cons l j lines program _ _ ih =>
    cases k with
    | zero =>
      obtain rfl : l = line := by simpa using hk
      obtain rfl : j = i := by simpa using hi
      rfl
    | succ k =>
      rw [placements, List.getElem?_cons_succ, ih _ (by simpa using hk) (by simpa using hi),
        List.take_succ_cons, Program.bytes_cons, List.length_append, Nat.add_assoc]

theorem Parses.length_placements {lines : List SourceLine} {program : List Instruction}
    (h : Parses lines program) (address : Nat) :
    (placements address lines program).length = lines.length := by
  induction h generalizing address with
  | nil => rfl
  | cons _ _ ih => rw [placements, List.length_cons, ih, List.length_cons]

theorem Parses.map_bytes_placements {lines : List SourceLine} {program : List Instruction}
    (h : Parses lines program) (address : Nat) :
    (placements address lines program).map Placement.bytes = program.map Instruction.bytes := by
  induction h generalizing address with
  | nil => rfl
  | cons _ _ ih => rw [placements, List.map_cons, ih, List.map_cons]

theorem Parses.map_source_placements {lines : List SourceLine} {program : List Instruction}
    (h : Parses lines program) (address : Nat) :
    (placements address lines program).map Placement.source =
      lines.map fun line => Text.trim line.text := by
  induction h generalizing address with
  | nil => rfl
  | cons _ _ ih => rw [placements, List.map_cons, ih, List.map_cons]

/-- The addresses of a program do not depend on the lines it comes from. -/
theorem Parses.map_address_placements {lines : List SourceLine} {program : List Instruction}
    (h : Parses lines program) (address : Nat) :
    (placements address lines program).map Placement.address =
      (Program.addressed address program).map Prod.fst := by
  induction h generalizing address with
  | nil => rfl
  | cons _ _ ih => rw [placements, List.map_cons, ih, Program.addressed, List.map_cons]

theorem Parses.flatten_placements {lines : List SourceLine} {program : List Instruction}
    (h : Parses lines program) (address : Nat) :
    ((placements address lines program).map Placement.bytes).flatten = Program.bytes program := by
  rw [h.map_bytes_placements, Program.bytes, List.flatMap_def]

/-! ## The empty assembly and what is placed in it -/

theorem used_placeAll_empty (capacity : Nat) (lines : List SourceLine)
    (program : List Instruction) :
    ((empty capacity).placeAll lines program).image.used.toList = Program.bytes program := by
  simp [placeAll, empty, Image.empty]

theorem instructions_placeAll_empty (capacity : Nat) (lines : List SourceLine)
    (program : List Instruction) :
    ((empty capacity).placeAll lines program).instructions.toList =
      placements 0 lines program := by
  simp [placeAll, empty, Image.empty, Image.cursor]

theorem cursor_placeAll_empty (capacity : Nat) (lines : List SourceLine)
    (program : List Instruction) :
    ((empty capacity).placeAll lines program).image.cursor = (Program.bytes program).length := by
  rw [Image.cursor, ← Array.length_toList, used_placeAll_empty]

theorem bytes_placeAll_empty (capacity : Nat) (lines : List SourceLine)
    (program : List Instruction) :
    ((empty capacity).placeAll lines program).image.bytes =
      Program.bytes program ++
        List.replicate (capacity - (Program.bytes program).length) fillByte := by
  rw [Image.bytes, Image.remaining, used_placeAll_empty, cursor_placeAll_empty]
  rfl

theorem Parses.size_instructions {lines : List SourceLine} {program : List Instruction}
    (h : Parses lines program) (capacity : Nat) :
    ((empty capacity).placeAll lines program).instructions.size = lines.length := by
  rw [← Array.length_toList, instructions_placeAll_empty, h.length_placements]

/-- Instruction `k` comes from line `k` and stands behind the bytes of those before it. -/
theorem Parses.getElem?_instructions {lines : List SourceLine} {program : List Instruction}
    (h : Parses lines program) (capacity : Nat) {k : Nat} {line : SourceLine} {i : Instruction}
    (hk : lines[k]? = some line) (hi : program[k]? = some i) :
    ((empty capacity).placeAll lines program).instructions[k]? =
      some ⟨(Program.bytes (program.take k)).length, line.number, i.bytes,
        Text.trim line.text⟩ := by
  rw [← Array.getElem?_toList, instructions_placeAll_empty, h.getElem?_placements 0 hk hi,
    Nat.zero_add]

/-- Lines that parse and fit are laid out end to end. -/
theorem Parses.laid {lines : List SourceLine} {program : List Instruction}
    (h : Parses lines program) {capacity : Nat} (hfit : (Program.bytes program).length ≤ capacity) :
    Laid capacity lines ((empty capacity).placeAll lines program) := by
  have htotal : extent lines lines.length = (Program.bytes program).length := h.extent_length
  refine ⟨h.size_instructions capacity, ?_, ?_, ?_, rfl, ?_⟩
  · intro k line hk
    obtain ⟨i, hi, hparse⟩ := h.exists_getElem? hk
    have hle : k ≤ lines.length := Nat.le_of_lt (List.getElem?_eq_some_iff.mp hk).1
    refine ⟨i, hparse, ?_⟩
    rw [h.getElem?_instructions capacity hk hi, h.extent_eq hle]
  · rw [bytes_placeAll_empty, instructions_placeAll_empty, h.flatten_placements, htotal]
  · rw [bytes_placeAll_empty, List.length_append, List.length_replicate]
    omega
  · rw [cursor_placeAll_empty, htotal]

/-- The line that stops a run is the first that fails, and its fault is the one reported. -/
theorem Parses.failsAt_length {lines : List SourceLine} {program : List Instruction}
    (h : Parses lines program) {capacity : Nat} {line : SourceLine} {f : Fault}
    (hfit : (Program.bytes program).length ≤ capacity) (after : List SourceLine)
    (hrefuse : Refuses (capacity - (Program.bytes program).length) capacity line f) :
    FailsAt capacity (lines ++ line :: after) lines.length ∧ f = faultOf capacity line := by
  have hline : (lines ++ line :: after)[lines.length]? = some line := by simp
  rcases hrefuse with ⟨d, hd, rfl⟩ | ⟨i, hi, hroom, rfl⟩
  · exact ⟨⟨line, hline, Or.inl ⟨d, hd⟩⟩, by simp [faultOf, hd]⟩
  · refine ⟨⟨line, hline, Or.inr ?_⟩, by simp [faultOf, hi]⟩
    have hsize : line.size = i.bytes.length := by simp [SourceLine.size, hi]
    have hbefore := h.extent_append (line :: after) (Nat.le_refl _)
    rw [h.length_eq, List.take_length] at hbefore
    rw [extent_succ hline, h.length_eq, hbefore, hsize]
    omega

end Assembly

/-- The used bytes of an assembled image are those of its placements. -/
theorem used_of_assemble {source : Text} {capacity : Nat} {a : Assembly}
    (h : assemble source capacity = .ok a) :
    a.image.used.toList = (a.instructions.toList.map Placement.bytes).flatten := by
  obtain ⟨program, hparse, -, rfl⟩ := assemble_eq_ok_iff.mp h
  rw [Assembly.used_placeAll_empty, Assembly.instructions_placeAll_empty,
    hparse.flatten_placements]

/-- A fault is that of the first code line that fails. -/
theorem exists_failsAt_of_error {source : Text} {capacity : Nat} {f : Fault}
    (h : assemble source capacity = .error f) :
    ∃ k line, (codeLines source)[k]? = some line ∧ FailsAt capacity (codeLines source) k ∧
      (∀ j < k, ¬ FailsAt capacity (codeLines source) j) ∧ f = faultOf capacity line := by
  obtain ⟨before, line, after, program, hlines, hparse, hfit, hrefuse⟩ :=
    assemble_eq_error_iff.mp h
  rw [hlines]
  obtain ⟨hfails, hfault⟩ := hparse.failsAt_length hfit after hrefuse
  refine ⟨before.length, line, by simp, hfails, ?_, hfault⟩
  intro j hj
  exact hparse.not_failsAt hfit (line :: after) hj

/-- **Assembling a source.**  Either no code line fails and all are laid out end to end, or
    the first that fails is the one, and the only one, that the fault is about. -/
theorem assemble_reference (source : Text) (capacity : Nat) :
    IsCut source (sourceLines source) ∧
      ((¬ ∃ k, FailsAt capacity (codeLines source) k) ∧
          (∃ a, assemble source capacity = .ok a ∧ Laid capacity (codeLines source) a) ∨
        ∃ k line, (codeLines source)[k]? = some line ∧
          FailsAt capacity (codeLines source) k ∧
          (∀ j < k, ¬ FailsAt capacity (codeLines source) j) ∧
          assemble source capacity = .error (faultOf capacity line)) := by
  refine ⟨isCut_sourceLines source, ?_⟩
  cases hrun : assemble source capacity with
  | ok a =>
    obtain ⟨program, hparse, hfit, rfl⟩ := assemble_eq_ok_iff.mp hrun
    refine Or.inl ⟨?_, _, rfl, hparse.laid hfit⟩
    intro hfails
    obtain ⟨k, line, hline, hwhy⟩ := hfails
    refine hparse.not_failsAt hfit [] (List.getElem?_eq_some_iff.mp hline).1 ?_
    rw [List.append_nil]
    exact ⟨line, hline, hwhy⟩
  | error f =>
    obtain ⟨k, line, hline, hfails, hearlier, rfl⟩ := exists_failsAt_of_error hrun
    exact Or.inr ⟨k, line, hline, hfails, hearlier, rfl⟩

end MicroAsm
