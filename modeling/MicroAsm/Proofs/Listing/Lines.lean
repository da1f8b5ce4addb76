/-
  The lines of a listing, read back.

  In a row the address is everything up to the first space, the bytes fill five characters,
  the line number is what follows the next spaces, the canonical text fills twenty characters
  and the source is the rest.  `columns` cuts a row in this way; from the row of an
  instruction it takes what was written there (`Shows.columns_row`), however wide the address
  and the line number are, and the numbers among it read back (`Shows.eq_of_columns_eq`).
-/
import MicroAsm.Assembly.Listing
import MicroAsm.Proofs.Outcome
import MicroAsm.Proofs.Statement.Canonical
import MicroAsm.Session.Summary

namespace MicroAsm

/-! ## Widths -/

/-- Characters that the operands of a canonical line take at most. -/
def Format.operandWidth : Format → Nat
  | implied => 0
  | register => 3
  | registerImmediate => 8
  | immediate => 4

theorem Operation.length_mnemonic_le {o : Operation} (h : o ∈ table) :
    o.mnemonic.length + o.format.operandWidth ≤ 20 := by
  have hall : ∀ o ∈ table, o.mnemonic.length + o.format.operandWidth ≤ 20 := by
    decide +kernel
  exact hall o h

/-- The text of an instruction fits its column. -/
theorem Instruction.length_text_le {i : Instruction} (h : i.WellFormed) : i.text.length ≤ 20 := by
  have hmnemonic := Operation.length_mnemonic_le h.mem_table
  have hregister : ∀ r : Register, (Text.decimal r.val).length ≤ 1 := fun r =>
    Text.length_decimal_le (by decide) (Nat.lt_of_lt_of_le r.isLt (by decide))
  have hbyte : ∀ byte : UInt8, (Text.decimal byte.toNat).length ≤ 3 := fun byte =>
    Text.length_decimal_le (by decide) (Nat.lt_trans byte.toNat_lt (by decide))
  rw [← h.format_eq] at hmnemonic
  obtain ⟨o, operands⟩ := i
  cases operands with
  | none =>
    simp only [text, Operands.format, Format.operandWidth, List.append_nil] at *
    omega
  | register r =>
    have := hregister r
    simp only [text, Register.name, Operands.format, Format.operandWidth, List.length_append,
      List.length_cons] at *
    omega
  | registerImmediate r byte =>
    have := hregister r
    have := hbyte byte
    simp only [text, Register.name, Operands.format, Format.operandWidth, List.length_append,
      List.length_cons, List.length_nil] at *
    omega
  | immediate byte =>
    have := hbyte byte
    simp only [text, Operands.format, Format.operandWidth, List.length_append,
      List.length_cons] at *
    omega

namespace Text

theorem blanks_replicate_space (n : Nat) : Blanks (List.replicate n ' ') := by
  intro c hc
  rw [List.eq_of_mem_replicate hc]
  exact isBlank_space

/-- The spaces that fill a column are trimmed with it. -/
theorem trimEnd_padRight (width : Nat) (t : Text) : trimEnd (padRight width t) = trimEnd t :=
  trimEnd_append_blanks (blanks_replicate_space _) t

end Text

/-! ## Bytes -/

namespace Listing

/-- The bytes of a text of hexadecimal numbers with one space between them. -/
def readBytes? (t : Text) : Option (List UInt8) :=
  (t.splitOn ' ').mapM fun word => (Text.ofDigits? 16 word).map UInt8.ofNat

/-- Bytes read back from their text. -/
theorem readBytes?_bytesText {bytes : List UInt8} (h : bytes ≠ []) :
    readBytes? (bytesText bytes) = some bytes := by
  have hsplit : (bytesText bytes).splitOn ' ' =
      bytes.map fun byte => Text.hexUpper 2 byte.toNat := by
    refine List.splitOn_intercalate ' ' ?_ (by simpa using h)
    intro word hword
    obtain ⟨byte, -, rfl⟩ := List.mem_map.mp hword
    exact Text.space_notMem_hexUpper 2 byte.toNat
  rw [readBytes?, hsplit, mapM_map_eq_some (k := id), List.map_id]
  intro byte _
  rw [Text.ofDigits?_hexUpper, Option.map_some, UInt8.ofNat_toNat]
  rfl

/-- An instruction has one byte or two. -/
theorem bytes_cases (i : Instruction) :
    (∃ first, i.bytes = [first]) ∨ ∃ first second, i.bytes = [first, second] := by
  unfold Instruction.bytes encodeOpcode
  cases i.operands.immediate? with
  | none => exact Or.inl ⟨_, rfl⟩
  | some value => exact Or.inr ⟨_, _, rfl⟩

theorem bytesText_singleton (first : UInt8) : bytesText [first] = Text.hexUpper 2 first.toNat :=
  List.append_nil _

theorem bytesText_pair (first second : UInt8) :
    bytesText [first, second] =
      Text.hexUpper 2 first.toNat ++ [' '] ++ Text.hexUpper 2 second.toNat := by
  simp [bytesText]

/-- The bytes of an instruction fit their column and end in a digit. -/
theorem bytesText_bytes (i : Instruction) :
    (bytesText i.bytes).length ≤ 5 ∧ Text.trimEnd (bytesText i.bytes) = bytesText i.bytes := by
  have htrim : ∀ (front : Text) (byte : UInt8),
      Text.trimEnd (front ++ Text.hexUpper 2 byte.toNat) = front ++ Text.hexUpper 2 byte.toNat :=
    fun front byte => Text.trimEnd_append_run front (Text.hexUpper_ne_nil _ _) fun c hc =>
      Text.isBlank_of_isAlphanum (Text.isAlphanum_of_mem_hexUpper hc)
  have hlength := Text.length_hexUpper_byte
  rcases bytes_cases i with ⟨first, hbytes⟩ | ⟨first, second, hbytes⟩
  · rw [hbytes, bytesText_singleton, hlength]
    exact ⟨by decide, htrim [] first⟩
  · rw [hbytes, bytesText_pair, List.length_append, List.length_append, hlength, hlength]
    exact ⟨by decide, htrim _ second⟩

/-! ## Columns -/

/-- The columns of a row, without the spaces that fill them. -/
structure Columns where
  address : Text
  bytes : Text
  line : Text
  instruction : Text
  source : Text
deriving DecidableEq

/-- Any character but the space. -/
def isInk (c : Char) : Bool := c != ' '

/-- Cuts a row into its columns. -/
def columns (row : Text) : Columns :=
  let fromBytes := (row.dropWhile isInk).drop 2
  let fromLine := (fromBytes.drop 7).dropWhile (!isInk ·)
  let fromInstruction := (fromLine.dropWhile isInk).drop 2
  { address := row.takeWhile isInk
    bytes := Text.trimEnd (fromBytes.take 5)
    line := fromLine.takeWhile isInk
    instruction := Text.trimEnd (fromInstruction.take 20)
    source := fromInstruction.drop 22 }

theorem isInk_of_isAlphanum {c : Char} (h : c.isAlphanum = true) : isInk c = true := by
  rw [isInk, bne_iff_ne]
  rintro rfl
  exact absurd h (by decide)

/-- A column of this width and the gap behind it. -/
theorem drop_column {column : Text} {width : Nat} (h : column.length = width) (t : Text) :
    (column ++ (gap ++ t)).drop (width + 2) = t := by
  rw [← List.append_assoc]
  refine List.drop_left' ?_
  rw [List.length_append, h]
  rfl

/-- A text in columns of these widths is cut into them. -/
theorem columns_of_widths {address bytes line instruction source : Text} (spaces : Nat)
    (haddress : ∀ c ∈ address, isInk c = true) (hbytes : bytes.length = 5) (hne : line ≠ [])
    (hline : ∀ c ∈ line, isInk c = true) (hinstruction : instruction.length = 20) :
    columns (address ++ (gap ++ (bytes ++ (gap ++ (List.replicate spaces ' ' ++ (line ++
      (gap ++ (instruction ++ (gap ++ source))))))))) =
      ⟨address, Text.trimEnd bytes, line, Text.trimEnd instruction, source⟩ := by
  have hgap : ∀ t, Text.StopsAt isInk (gap ++ t) := fun t => Text.stopsAt_cons.mpr (by decide)
  have hspaces : ∀ c ∈ List.replicate spaces ' ', (!isInk c) = true := by
    intro c hc
    rw [List.eq_of_mem_replicate hc]
    decide
  have hstop : ∀ t, Text.StopsAt (!isInk ·) (line ++ t) := fun t =>
    Text.stopsAt_append hne (fun c hc => by rw [hline c hc]; rfl) t
  have hdrop : ∀ t : Text, (gap ++ t).drop 2 = t := fun t => rfl
  unfold columns
  simp only [Text.takeWhile_run haddress (hgap _), Text.dropWhile_run haddress (hgap _), hdrop,
    List.take_left' hbytes, drop_column hbytes, Text.dropWhile_run hspaces (hstop _),
    Text.takeWhile_run hline (hgap _), Text.dropWhile_run hline (hgap _),
    List.take_left' hinstruction, drop_column hinstruction]

/-! ## Rows of instructions -/

/-- The placement of a well-formed instruction, with a source of one line. -/
structure Shows (p : Placement) (i : Instruction) : Prop where
  wellFormed : i.WellFormed
  bytes_eq : p.bytes = i.bytes
  no_feed : '\n' ∉ p.source

theorem instructionText_bytes {i : Instruction} (h : i.WellFormed) :
    instructionText i.bytes = i.text := by
  have hdecode := h.decode_append []
  rw [List.append_nil] at hdecode
  rw [instructionText, hdecode]

namespace Shows

variable {p : Placement} {i : Instruction}

theorem bytes_ne_nil (h : Shows p i) : p.bytes ≠ [] := by
  rw [h.bytes_eq]
  exact i.bytes_ne_nil

theorem row_eq (h : Shows p i) :
    row p = Text.hexUpper 4 p.address ++ (gap ++ (Text.padRight 5 (bytesText i.bytes) ++ (gap ++
      (List.replicate (5 - (Text.decimal p.line).length) ' ' ++ (Text.decimal p.line ++ (gap ++
        (Text.padRight 20 i.text ++ (gap ++ p.source)))))))) := by
  rw [row, h.bytes_eq, instructionText_bytes h.wellFormed]
  simp only [Text.padLeft, List.append_assoc]

/-- The columns of the row of an instruction are what was written there. -/
theorem columns_row (h : Shows p i) :
    columns (row p) = ⟨Text.hexUpper 4 p.address, bytesText p.bytes, Text.decimal p.line,
      i.text, p.source⟩ := by
  obtain ⟨hwidth, htrim⟩ := bytesText_bytes i
  have haddress : ∀ c ∈ Text.hexUpper 4 p.address, isInk c = true := by
    intro c hc
    exact isInk_of_isAlphanum (Text.isAlphanum_of_mem_hexUpper hc)
  have hbytes : (Text.padRight 5 (bytesText i.bytes)).length = 5 := by
    rw [Text.length_padRight, Nat.max_eq_left hwidth]
  have hline : ∀ c ∈ Text.decimal p.line, isInk c = true := by
    intro c hc
    exact isInk_of_isAlphanum (Text.isAlphanum_of_isDigit (Text.isDigit_of_mem_decimal hc))
  have hinstruction : (Text.padRight 20 i.text).length = 20 := by
    rw [Text.length_padRight, Nat.max_eq_left (Instruction.length_text_le h.wellFormed)]
  rw [h.row_eq, columns_of_widths _ haddress hbytes (Text.decimal_ne_nil _) hline hinstruction,
    Text.trimEnd_padRight, htrim, Text.trimEnd_padRight, Instruction.trimEnd_text h.wellFormed,
    h.bytes_eq]

/-- Rows with the same columns are rows of the same placement. -/
theorem eq_of_columns_eq {q : Placement} {j : Instruction} (h : Shows p i) (hq : Shows q j)
    (heq : columns (row p) = columns (row q)) : p = q := by
  rw [h.columns_row, hq.columns_row, Columns.mk.injEq] at heq
  obtain ⟨haddress, hbytes, hline, -, hsource⟩ := heq
  have haddress' : p.address = q.address := by
    have := congrArg (Text.ofDigits? 16) haddress
    simpa [Text.ofDigits?_hexUpper] using this
  have hline' : p.line = q.line := by
    have := congrArg (Text.ofDigits? 10) hline
    simpa [Text.ofDigits?_decimal] using this
  have hbytes' : p.bytes = q.bytes := by
    have := congrArg readBytes? hbytes
    simpa [readBytes?_bytesText h.bytes_ne_nil, readBytes?_bytesText hq.bytes_ne_nil] using this
  obtain ⟨address, line, bytes, source⟩ := p
  obtain rfl : address = q.address := haddress'
  obtain rfl : line = q.line := hline'
  obtain rfl : bytes = q.bytes := hbytes'
  obtain rfl : source = q.source := hsource
  rfl

/-- A row is one line. -/
theorem newline_notMem_row (h : Shows p i) : '\n' ∉ row p := by
  have hbytes : '\n' ∉ bytesText i.bytes := by
    rcases bytes_cases i with ⟨first, hfirst⟩ | ⟨first, second, hpair⟩
    · rw [hfirst, bytesText_singleton]
      exact Text.newline_notMem_hexUpper _ _
    · rw [hpair, bytesText_pair]
      simp [Text.newline_notMem_hexUpper]
  have htext : '\n' ∉ i.text := Instruction.newline_notMem_text h.wellFormed
  have hspaces : ∀ n, '\n' ∉ List.replicate n ' ' := fun n hmem =>
    absurd (List.eq_of_mem_replicate hmem) (by decide)
  have hgap : '\n' ∉ gap := by decide
  rw [h.row_eq]
  simp only [Text.padRight, List.mem_append, Text.newline_notMem_hexUpper,
    Text.newline_notMem_decimal, hbytes, htext, hspaces, hgap, h.no_feed, or_self,
    not_false_eq_true]

end Shows

/-! ## The last line -/

/-- The line of a listing that reports the figures of `s`. -/
def figures (s : Summary) : Text :=
  "; ".toList ++ Text.decimal s.instructions ++
    " instruction(s), ".toList ++ Text.decimal s.bytesUsed ++
    " of ".toList ++ Text.decimal s.capacity ++
    " bytes used, crc32 ".toList ++ Text.hexUpper 8 s.checksum.toNat

theorem trailer_eq_figures (a : Assembly) : trailer a = figures (Summary.of a) := rfl

theorem newline_notMem_figures (s : Summary) : '\n' ∉ figures s := by
  unfold figures
  simp only [List.mem_append, Text.newline_notMem_decimal, Text.newline_notMem_hexUpper, or_false]
  decide

/-- The trailer is a line of its own, and the last one. -/
theorem exists_render_eq (title : Text) (a : Assembly) :
    ∃ before, render title a = before ++ '\n' :: (figures (Summary.of a) ++ ['\n']) := by
  have hne : title :: header :: rule :: a.instructions.toList.map row ≠ [] := by simp
  obtain ⟨first, last, hlast⟩ := (List.eq_nil_or_concat _).resolve_left hne
  refine ⟨first.flatMap (· ++ ['\n']) ++ last, ?_⟩
  rw [render, lines, hlast, trailer_eq_figures]
  simp

/-! ## All lines -/

/-- Lines that each end with a line feed are cut into these lines and nothing behind them. -/
theorem splitOn_flatMap_feed {texts : List Text} (h : ∀ t ∈ texts, '\n' ∉ t) :
    (texts.flatMap (· ++ ['\n'])).splitOn '\n' = texts ++ [[]] := by
  induction texts with
  | nil => rfl
  | cons t texts ih =>
    have hline : t.splitOn '\n' = [t] := by
      have hone := @List.splitOn_intercalate _ [t] _ _ '\n' (by simpa using h t) (by simp)
      rwa [List.intercalate_singleton] at hone
    rw [List.flatMap_cons, List.append_assoc, List.singleton_append,
      List.splitOn_append_cons_self, hline, ih fun u hu => h u (by simp [hu])]
    rfl

/-- The lines behind the title. -/
def body (a : Assembly) : List Text :=
  header :: rule :: (a.instructions.toList.map row ++ [trailer a])

theorem render_eq (title : Text) (a : Assembly) :
    render title a = title ++ '\n' :: (body a).flatMap (· ++ ['\n']) := by
  have hlines : lines title a = title :: body a := rfl
  rw [render, hlines, List.flatMap_cons, List.append_assoc, List.singleton_append]

/-- Behind the title no line is broken. -/
theorem newline_notMem_of_mem_body {a : Assembly}
    (h : ∀ p ∈ a.instructions.toList, ∃ i, Shows p i) : ∀ t ∈ body a, '\n' ∉ t := by
  intro t ht
  rw [body, List.mem_cons, List.mem_cons, List.mem_append, List.mem_singleton] at ht
  rcases ht with rfl | rfl | hrow | rfl
  · decide
  · decide
  · obtain ⟨p, hp, rfl⟩ := List.mem_map.mp hrow
    obtain ⟨i, hi⟩ := h p hp
    exact hi.newline_notMem_row
  · exact newline_notMem_figures (Summary.of a)

/-- A listing is cut at its line feeds into its lines. -/
theorem splitOn_render {title : Text} (htitle : '\n' ∉ title) {a : Assembly}
    (h : ∀ p ∈ a.instructions.toList, ∃ i, Shows p i) :
    (render title a).splitOn '\n' =
      title :: header :: rule :: (a.instructions.toList.map row ++ [trailer a, []]) := by
  have hlines : lines title a = title :: body a := rfl
  have hfeed : ∀ t ∈ lines title a, '\n' ∉ t := by
    rw [hlines]
    exact List.forall_mem_cons.mpr ⟨htitle, newline_notMem_of_mem_body h⟩
  rw [render, splitOn_flatMap_feed hfeed, hlines, body, List.cons_append, List.cons_append,
    List.cons_append, List.append_assoc]
  rfl

end Listing

end MicroAsm
