/-
  The columns of a listing, by position.

  A column is filled up to its width and never cut, so the rows of a listing keep to the columns
  of its header only as long as every text fits.  The canonical text and the bytes of an
  instruction always do (`Instruction.length_text_le`, `bytesText_bytes`).  The address has four
  digits because it lies in an image whose size was checked (`address_lt_of_assemble`); of the
  line number it has to be asked (`rows_line_up_with_header`).
-/
import MicroAsm.Config.Basic
import MicroAsm.Proofs.Listing.Account

namespace MicroAsm

/-! ## Addresses -/

namespace Assembly

/-- Placements start below the end of the bytes that are placed. -/
theorem Parses.address_lt {lines : List SourceLine} {program : List Instruction}
    (h : Parses lines program) (address : Nat) :
    ∀ p ∈ placements address lines program,
      p.address < address + (Program.bytes program).length := by
  induction h generalizing address with
  | nil => simp [placements]
  | @cons line i lines program _ _ ih =>
    have hbytes : 0 < i.bytes.length := List.length_pos_iff.mpr i.bytes_ne_nil
    intro p hp
    rw [placements, List.mem_cons] at hp
    rw [Program.bytes_cons, List.length_append]
    rcases hp with rfl | hp
    · show address < _
      omega
    · have hlt := ih (address + i.bytes.length) p hp
      omega

end Assembly

/-- Every instruction starts inside the image. -/
theorem address_lt_of_assemble {source : Text} {capacity : Nat} {a : Assembly}
    (h : assemble source capacity = .ok a) : ∀ p ∈ a.instructions.toList, p.address < capacity := by
  obtain ⟨program, hparse, hfit, rfl⟩ := assemble_eq_ok_iff.mp h
  rw [Assembly.instructions_placeAll_empty]
  intro p hp
  have hlt := hparse.address_lt 0 p hp
  omega

theorem Config.imageSize_le_of_validate {config : Config} (h : config.validate = .ok ()) :
    config.imageSize ≤ maxSize := by
  unfold validate at h
  split at h
  · next hrange => exact hrange.2
  · exact absurd h (by simp)

namespace Listing

/-! ## Positions -/

/-- The texts of `c` stand in `row` at the positions of their columns, counted in characters
    from 0, and two spaces stand between one column and the next. -/
structure Aligned (row : Text) (c : Columns) : Prop where
  /-- The address is characters 0 to 3. -/
  address : c.address.length = 4 ∧ row.take 4 = c.address
  bytes : c.bytes <+: row.drop 6
  /-- The line number ends with character 17. -/
  line : c.line <:+ row.take 18
  instruction : c.instruction <+: row.drop 20
  source : 42 ≤ row.length ∧ row.drop 42 = c.source
  gaps : ∀ k ∈ [4, 11, 18, 40], gap <+: row.drop k

/-- Behind a column stands the gap, and behind this the next column. -/
theorem drop_behind_column {row column t : Text} {start width : Nat}
    (h : row.drop start = column ++ (gap ++ t)) (hwidth : column.length = width) :
    row.drop (start + width) = gap ++ t ∧ row.drop (start + width + 2) = t := by
  refine ⟨?_, ?_⟩
  · rw [← List.drop_drop, h, List.drop_left' hwidth]
  · rw [Nat.add_assoc, ← List.drop_drop, h, drop_column hwidth]

/-- Columns of these widths put every text in its position. -/
theorem aligned_of_widths {c : Columns} {bytes line instruction : Text}
    (haddress : c.address.length = 4)
    (hbytes : bytes.length = 5) (hbytes' : c.bytes <+: bytes)
    (hline : line.length = 5) (hline' : c.line <:+ line)
    (hinstruction : instruction.length = 20) (hinstruction' : c.instruction <+: instruction) :
    Aligned (c.address ++ (gap ++ (bytes ++ (gap ++ (line ++ (gap ++ (instruction ++
      (gap ++ c.source)))))))) c := by
  generalize hrow : c.address ++ (gap ++ (bytes ++ (gap ++ (line ++ (gap ++ (instruction ++
    (gap ++ c.source))))))) = row
  have h0 : row.drop 0 = c.address ++ _ := hrow.symm
  obtain ⟨h4, h6⟩ := drop_behind_column h0 haddress
  obtain ⟨h11, h13⟩ := drop_behind_column h6 hbytes
  obtain ⟨h18, h20⟩ := drop_behind_column h13 hline
  obtain ⟨h40, h42⟩ := drop_behind_column h20 hinstruction
  refine ⟨⟨haddress, ?_⟩, ?_, ?_, ?_, ⟨?_, h42⟩, ?_⟩
  · rw [← hrow, List.take_left' haddress]
  · rw [h6]
    exact hbytes'.trans (List.prefix_append _ _)
  · -- the first 18 characters are 13 and the column of the line number
    show c.line <:+ row.take (13 + 5)
    rw [List.take_add, h13, List.take_left' hline]
    exact hline'.trans (List.suffix_append _ _)
  · rw [h20]
    exact hinstruction'.trans (List.prefix_append _ _)
  · have hlength := congrArg List.length hrow
    have hgap : gap.length = 2 := rfl
    simp only [List.length_append] at hlength
    omega
  · intro k hk
    simp only [List.mem_cons, List.not_mem_nil, or_false] at hk
    rcases hk with rfl | rfl | rfl | rfl
    · exact h4 ▸ List.prefix_append _ _
    · exact h11 ▸ List.prefix_append _ _
    · exact h18 ▸ List.prefix_append _ _
    · exact h40 ▸ List.prefix_append _ _

/-- The names of the columns. -/
def titles : Columns :=
  ⟨"ADDR".toList, "BYTES".toList, "LINE".toList, "INSTRUCTION".toList, "SOURCE".toList⟩

theorem aligned_header : Aligned header titles := by
  have hrow := @aligned_of_widths titles "BYTES".toList " LINE".toList
    (Text.padRight 20 "INSTRUCTION".toList) rfl rfl List.prefix_rfl rfl (by decide) rfl (by decide)
  exact hrow

/-- A row keeps to the columns while its address has four digits and its line number five. -/
theorem Shows.aligned_row {p : Placement} {i : Instruction} (h : Shows p i)
    (haddress : p.address < Config.maxSize) (hline : p.line ≤ 99999) :
    Aligned (row p) ⟨Text.hexUpper 4 p.address, bytesText p.bytes, Text.decimal p.line, i.text,
      p.source⟩ := by
  have hbytes : (bytesText p.bytes).length ≤ 5 := by
    rw [h.bytes_eq]
    exact (bytesText_bytes i).1
  have hnumber : (Text.decimal p.line).length ≤ 5 :=
    Text.length_decimal_le (by decide) (Nat.lt_succ_of_le hline)
  have htext := Instruction.length_text_le h.wellFormed
  rw [row, h.bytes_eq, instructionText_bytes h.wellFormed, ← h.bytes_eq]
  simp only [List.append_assoc]
  refine @aligned_of_widths ⟨_, _, _, _, p.source⟩ _ _ _ ?_ ?_ ?_ ?_ ?_ ?_ ?_
  · exact Text.length_hexUpper (by decide) haddress
  · rw [Text.length_padRight, Nat.max_eq_left hbytes]
  · exact List.prefix_append _ _
  · rw [Text.length_padLeft, Nat.max_eq_left hnumber]
  · exact List.suffix_append _ _
  · rw [Text.length_padRight, Nat.max_eq_left htext]
  · exact List.prefix_append _ _

end Listing

/-- **Rows line up with the header.**  At every size that is valid, in the listing of every source
    that assembles, the row of an instruction on a line up to 99999 has the address in four
    upper-case digits, the bytes, the line number, the canonical text and the source in the
    positions in which the header has the names of these columns. -/
theorem rows_line_up_with_header {config : Config} (hvalid : config.validate = .ok ())
    {source : Text} {a : Assembly} (h : assemble source config.imageSize = .ok a)
    {p : Placement} (hp : p ∈ a.instructions.toList) (hline : p.line ≤ 99999) :
    Listing.Aligned Listing.header Listing.titles ∧
      (∀ c ∈ Text.hexUpper 4 p.address, c ∈ Text.upperDigits) ∧
      Text.ofDigits? 16 (Text.hexUpper 4 p.address) = some p.address ∧
      ∃ i, decode p.bytes = .ok i ∧
        Listing.Aligned (Listing.row p) ⟨Text.hexUpper 4 p.address, bytesText p.bytes,
          Text.decimal p.line, i.text, p.source⟩ := by
  obtain ⟨i, hi⟩ := Listing.exists_shows_of_assemble h p hp
  have haddress : p.address < Config.maxSize :=
    Nat.lt_of_lt_of_le (address_lt_of_assemble h p hp) (Config.imageSize_le_of_validate hvalid)
  have hdecode : decode p.bytes = .ok i := by
    rw [hi.bytes_eq, ← List.append_nil i.bytes, hi.wellFormed.decode_append]
  exact ⟨Listing.aligned_header, fun _ => Text.mem_upperDigits_of_mem_hexUpper,
    Text.ofDigits?_hexUpper 4 p.address, i, hdecode, hi.aligned_row haddress hline⟩

/-- The second of two instructions, on line 3. -/
theorem rows_line_up_with_header_push :
    (⟨4⟩ : Config).validate = .ok () ∧
      ∃ a p, assemble "lim r2, 0x0A\n// note\n push r2".toList 4 = .ok a ∧
        p ∈ a.instructions.toList ∧ p.line ≤ 99999 ∧
        Listing.Aligned Listing.header Listing.titles ∧
        (∀ c ∈ Text.hexUpper 4 p.address, c ∈ Text.upperDigits) ∧
        Text.ofDigits? 16 (Text.hexUpper 4 p.address) = some p.address ∧
        ∃ i, decode p.bytes = .ok i ∧
          Listing.Aligned (Listing.row p) ⟨Text.hexUpper 4 p.address, bytesText p.bytes,
            Text.decimal p.line, i.text, p.source⟩ := by
  have h : assemble "lim r2, 0x0A\n// note\n push r2".toList (⟨4⟩ : Config).imageSize =
      .ok ⟨⟨4, #[0x90, 0x0A, 0x50]⟩, #[⟨0, 1, [0x90, 0x0A], "lim r2, 0x0A".toList⟩,
        ⟨2, 3, [0x50], "push r2".toList⟩]⟩ := by
    decide +kernel
  have hp : (⟨2, 3, [0x50], "push r2".toList⟩ : Placement) ∈
      [⟨0, 1, [0x90, 0x0A], "lim r2, 0x0A".toList⟩, ⟨2, 3, [0x50], "push r2".toList⟩] := by
    decide
  exact ⟨rfl, _, _, h, hp, by decide, rows_line_up_with_header rfl h hp (by decide)⟩

end MicroAsm
