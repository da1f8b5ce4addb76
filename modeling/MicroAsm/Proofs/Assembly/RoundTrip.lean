/-
  Assembling and disassembling.

  The texts of a program, one a line, assemble to the bytes of that program or run
  over the capacity at the first instruction that ends behind it.  A walk over any
  bytes meets a program, so its texts give back the bytes it stepped over.  The other
  way round, a walk over an assembled image meets what the code lines name and then
  `halt` at every address that is left.
-/
import MicroAsm.Proofs.Assembly.Numbering
import MicroAsm.Proofs.Assembly.Reference
import MicroAsm.Proofs.Statement.Canonical

namespace MicroAsm

/-! ## The source text of a program -/

namespace Program

/-- The source text of a program, one instruction a line. -/
def text (program : List Instruction) : Text :=
  ['\n'].intercalate (program.map Instruction.text)

/-- The lines of that text, numbered from `number` on. -/
def lines (number : Nat) (program : List Instruction) : List SourceLine :=
  (program.zipIdx number).map fun (i, n) => ⟨n, i.text⟩

theorem lines_eq_numbered (number : Nat) (program : List Instruction) :
    lines number program = numbered number (program.map Instruction.text) := by
  rw [lines, numbered, List.zipIdx_map, List.map_map]
  rfl

theorem lines_append (number : Nat) (p q : List Instruction) :
    lines number (p ++ q) = lines number p ++ lines (number + p.length) q := by
  rw [lines, List.zipIdx_append, List.map_append]
  rfl

theorem getElem?_lines (number : Nat) (program : List Instruction) (k : Nat) :
    (lines number program)[k]? = program[k]?.map fun i => ⟨number + k, i.text⟩ := by
  rw [lines, List.getElem?_map, List.getElem?_zipIdx, Option.map_map]
  rfl

/-- The text of an instruction is code: it starts with a letter or digit, not with `//`. -/
theorem isCode_text {i : Instruction} (h : i.WellFormed) (number : Nat) :
    SourceLine.IsCode ⟨number, i.text⟩ := by
  obtain ⟨c, rest, htext, hc⟩ := Instruction.exists_text_eq_cons h
  unfold SourceLine.IsCode
  rw [Instruction.trimStart_text h, htext]
  refine ⟨by simp, ?_⟩
  intro hcomment
  obtain ⟨_, hslash⟩ := hcomment
  have hfirst : '/' = c := (List.cons.inj hslash).1
  rw [← hfirst] at hc
  exact absurd hc (by decide)

section

variable {program : List Instruction} (h : WellFormed program)

include h

theorem isCode_of_mem_texts : ∀ t ∈ program.map Instruction.text, ∀ n,
    SourceLine.IsCode ⟨n, t⟩ := by
  intro t ht n
  obtain ⟨i, hi, rfl⟩ := List.mem_map.mp ht
  exact isCode_text (h i hi) n

theorem newline_notMem_of_mem_texts : ∀ t ∈ program.map Instruction.text, '\n' ∉ t := by
  intro t ht
  obtain ⟨i, hi, rfl⟩ := List.mem_map.mp ht
  exact Instruction.newline_notMem_text (h i hi)

/-- The canonical texts of a program parse to it. -/
theorem forall₂_parse_text :
    List.Forall₂ (fun t i => Instruction.parse t = .ok i) (program.map Instruction.text)
      program := by
  rw [List.forall₂_map_left_iff, List.forall₂_same]
  intro i hi
  exact Instruction.parse_text (h i hi)

/-- Every line of the text is a code line. -/
theorem codeLines_text : codeLines (text program) = lines 1 program := by
  rw [lines_eq_numbered]
  exact codeLines_intercalate (isCode_of_mem_texts h) (newline_notMem_of_mem_texts h)

theorem parses_lines (number : Nat) : Assembly.Parses (lines number program) program := by
  rw [lines_eq_numbered]
  exact parses_numbered (forall₂_parse_text h) number

end

/-- A program that does not fit has a first instruction that ends behind the capacity. -/
theorem exists_overrun {program : List Instruction} {capacity : Nat}
    (h : capacity < (bytes program).length) :
    ∃ before i after, program = before ++ i :: after ∧ (bytes before).length ≤ capacity ∧
      capacity < (bytes before).length + i.bytes.length := by
  induction program generalizing capacity with
  | nil => exact absurd h (by simp)
  | cons i program ih =>
    by_cases hi : capacity < i.bytes.length
    · exact ⟨[], i, program, rfl, by simp, by simpa using hi⟩
    · rw [bytes_cons, List.length_append] at h
      obtain ⟨before, j, after, rfl, hle, hlt⟩ := @ih (capacity - i.bytes.length) (by omega)
      refine ⟨i :: before, j, after, rfl, ?_, ?_⟩
      · rw [bytes_cons, List.length_append]
        omega
      · rw [bytes_cons, List.length_append]
        omega

end Program

/-! ## Assembling the text of a program -/

/-- A program that fits assembles from its text. -/
theorem assemble_text_of_le {program : List Instruction} (h : Program.WellFormed program)
    {capacity : Nat} (hfit : (Program.bytes program).length ≤ capacity) :
    assemble (Program.text program) capacity =
      .ok ((Assembly.empty capacity).placeAll (Program.lines 1 program) program) := by
  rw [Program.lines_eq_numbered]
  exact assemble_intercalate (Program.forall₂_parse_text h) (Program.isCode_of_mem_texts h)
    (Program.newline_notMem_of_mem_texts h) hfit

/-- A program that does not fit fails at the first instruction that ends behind the capacity. -/
theorem assemble_text_of_lt {before after : List Instruction} {i : Instruction}
    (h : Program.WellFormed (before ++ i :: after)) {capacity : Nat}
    (hfit : (Program.bytes before).length ≤ capacity)
    (hover : capacity < (Program.bytes before).length + i.bytes.length) :
    assemble (Program.text (before ++ i :: after)) capacity =
      .error (.overrun (before.length + 1) capacity) := by
  have hbefore : Program.WellFormed before := fun j hj => h j (by simp [hj])
  have hlines : codeLines (Program.text (before ++ i :: after)) = Program.lines 1 before ++
      ⟨before.length + 1, i.text⟩ :: Program.lines (before.length + 2) after := by
    rw [Program.codeLines_text h, Program.lines_append, Nat.add_comm 1]
    rfl
  have hparse : Instruction.parse i.text = .ok i := Instruction.parse_text (h i (by simp))
  refine assemble_eq_error_iff.mpr ⟨_, _, _, before, hlines, Program.parses_lines hbefore 1, hfit,
    Or.inr ⟨i, hparse, ?_, rfl⟩⟩
  omega

/-! ## Reassembling -/

/-- The texts of the instructions that a walk meets, one a line. -/
def disassembly (bytes : List UInt8) : Text :=
  ['\n'].intercalate ((walked bytes).map fun item => item.2.text)

/-- Every item is placed at its address, from a line of its own that holds its text. -/
structure Reassembled (items : List (Nat × Instruction)) (a : Assembly) : Prop where
  size_eq : a.instructions.size = items.length
  placed : ∀ (k : Nat) (item : Nat × Instruction), items[k]? = some item →
    ∃ p, a.instructions[k]? = some p ∧ p.line = k + 1 ∧ p.source = item.2.text ∧
      p.address = item.1

/-- Item `k` is the first one that ends behind `capacity`. -/
structure FirstBehind (capacity : Nat) (items : List (Nat × Instruction)) (k : Nat) : Prop where
  behind : ∃ item, items[k]? = some item ∧ capacity < item.1 + item.2.size
  earlier : ∀ j < k, ∀ item, items[j]? = some item → item.1 + item.2.size ≤ capacity

theorem disassembly_eq {bytes : List UInt8} {program : List Instruction}
    (h : walked bytes = Program.addressed 0 program) :
    disassembly bytes = Program.text program := by
  have htexts : (Program.addressed 0 program).map (fun item => item.2.text) =
      program.map Instruction.text := by
    rw [← congrArg (List.map Instruction.text) (Program.map_snd_addressed 0 program), List.map_map]
    rfl
  rw [disassembly, h, htexts, Program.text]

theorem Program.reassembled {program : List Instruction} (h : Program.WellFormed program)
    (capacity : Nat) : Reassembled (Program.addressed 0 program)
      ((Assembly.empty capacity).placeAll (Program.lines 1 program) program) := by
  have hparse := Program.parses_lines h 1
  refine ⟨?_, ?_⟩
  · rw [hparse.size_instructions, hparse.length_eq, Program.length_addressed]
  · intro k item hitem
    rw [Program.getElem?_addressed] at hitem
    obtain ⟨i, hi, rfl⟩ := Option.map_eq_some_iff.mp hitem
    have hline : (Program.lines 1 program)[k]? = some ⟨1 + k, i.text⟩ := by
      rw [Program.getElem?_lines, hi]
      rfl
    exact ⟨_, hparse.getElem?_instructions capacity hline hi, Nat.add_comm 1 k,
      Instruction.trim_text (h i (List.mem_of_getElem? hi)), (Nat.zero_add _).symm⟩

theorem Program.firstBehind {before after : List Instruction} {i : Instruction}
    (h : Program.WellFormed (before ++ i :: after)) {capacity : Nat}
    (hfit : (Program.bytes before).length ≤ capacity)
    (hover : capacity < (Program.bytes before).length + i.bytes.length) :
    FirstBehind capacity (Program.addressed 0 (before ++ i :: after)) before.length := by
  refine ⟨⟨((Program.bytes before).length, i), ?_, ?_⟩, ?_⟩
  · rw [Program.getElem?_addressed]
    simp
  · rw [← (h i (by simp)).length_bytes]
    exact hover
  · intro j hj item hitem
    have hmem : item.2 ∈ before ++ i :: after := by
      rw [← Program.map_snd_addressed 0 (before ++ i :: after)]
      exact List.mem_map_of_mem (List.mem_of_getElem? hitem)
    have hle := Program.length_bytes_take_le before (j + 1)
    rw [← (h item.2 hmem).length_bytes, Program.end_of_getElem?_addressed hitem, Nat.zero_add,
      List.take_append_of_le_length hj]
    exact Nat.le_trans hle hfit

/-- **Reassembling a disassembly.**  It gives back the bytes that the walk stepped over, or
    runs over the capacity at the first instruction that ends behind it. -/
theorem assemble_disassembly (bytes : List UInt8) (capacity : Nat) :
    (walkEnd bytes ≤ capacity ∧
        ∃ a, assemble (disassembly bytes) capacity = .ok a ∧
          a.image.used.toList = bytes.take (walkEnd bytes) ∧ Reassembled (walked bytes) a) ∨
      (capacity < walkEnd bytes ∧
        ∃ k, FirstBehind capacity (walked bytes) k ∧
          assemble (disassembly bytes) capacity = .error (.overrun (k + 1) capacity)) := by
  obtain ⟨program, hp, hwalked, hend, htake⟩ := exists_walked bytes
  rw [disassembly_eq hwalked, hwalked, htake, hend]
  by_cases hfit : (Program.bytes program).length ≤ capacity
  · exact Or.inl ⟨hfit, _, assemble_text_of_le hp hfit, Assembly.used_placeAll_empty _ _ _,
      Program.reassembled hp capacity⟩
  · have hover := Nat.lt_of_not_le hfit
    obtain ⟨before, i, after, rfl, hbefore, hi⟩ := Program.exists_overrun hover
    exact Or.inr ⟨hover, before.length, Program.firstBehind hp hbefore hi,
      assemble_text_of_lt hp hbefore hi⟩

/-! ## Walking an assembled image -/

/-- A walk over the image of `a` meets `program` at the places of `a`, and `halt` at every
    address from the cursor on; and each instruction is what its code line names. -/
structure WalksBack (capacity : Nat) (lines : List SourceLine) (a : Assembly)
    (program : List Instruction) : Prop where
  size_eq : a.instructions.size = lines.length
  length_eq : program.length = lines.length
  walk_eq : walk a.image.bytes =
    ((a.instructions.toList.map Placement.address).zip program).map walkItem ++
      (List.range' a.image.cursor (capacity - a.image.cursor)).map
        fun address => walkItem (address, Instruction.halt)
  named : ∀ (k : Nat) (line : SourceLine), lines[k]? = some line →
    ∃ p i n v, a.instructions[k]? = some p ∧ p.line = line.number ∧ program[k]? = some i ∧
      LineForm line.text i.operation n v ∧ i.operands.Names n v

namespace Assembly

theorem Parses.wellFormed {lines : List SourceLine} {program : List Instruction}
    (h : Parses lines program) : Program.WellFormed program := by
  induction h with
  | nil => simp [Program.WellFormed]
  | cons hi _ ih =>
    intro j hj
    rcases List.mem_cons.mp hj with rfl | hj
    · exact (Instruction.lineForm_of_parse hi).1
    · exact ih j hj

/-- Instructions are placed at their addresses. -/
theorem Parses.zip_placements {lines : List SourceLine} {program : List Instruction}
    (h : Parses lines program) (address : Nat) :
    ((placements address lines program).map Placement.address).zip program =
      Program.addressed address program := by
  induction h generalizing address with
  | nil => rfl
  | cons _ _ ih => rw [placements, List.map_cons, List.zip_cons_cons, ih, Program.addressed]

end Assembly

/-- A program that is filled up with `halt` is walked as it stands. -/
theorem walk_bytes_append_fill {program : List Instruction} (h : Program.WellFormed program)
    (n : Nat) :
    walk (Program.bytes program ++ List.replicate n fillByte) =
      (Program.addressed 0 program).map walkItem ++
        (List.range' (Program.bytes program).length n).map
          fun address => walkItem (address, Instruction.halt) := by
  have hwalk := walkFrom_program_append (Program.wellFormed_append_halts h n) 0 []
  rw [List.append_nil, walkFrom_nil, List.append_nil, Program.bytes_append,
    Program.bytes_replicate_halt, Program.addressed_append, Program.addressed_replicate_halt,
    List.map_append, List.map_map, Nat.zero_add] at hwalk
  exact hwalk

/-- **Disassembling an assembly.**  The walk over an assembled image meets no error: it gives
    the instructions that the code lines name, where they were placed, and then `halt`s. -/
theorem walk_assembled_image {source : Text} {capacity : Nat} {a : Assembly}
    (h : assemble source capacity = .ok a) :
    ∃ program, WalksBack capacity (codeLines source) a program := by
  obtain ⟨program, hparse, -, rfl⟩ := assemble_eq_ok_iff.mp h
  refine ⟨program, hparse.size_instructions capacity, hparse.length_eq.symm, ?_, ?_⟩
  · rw [Assembly.bytes_placeAll_empty, walk_bytes_append_fill hparse.wellFormed,
      Assembly.instructions_placeAll_empty, hparse.zip_placements, Assembly.cursor_placeAll_empty]
  · intro k line hline
    obtain ⟨i, hi, hparsed⟩ := hparse.exists_getElem? hline
    obtain ⟨-, n, v, hform, hnames⟩ := Instruction.lineForm_of_parse hparsed
    exact ⟨_, i, n, v, hparse.getElem?_instructions capacity hline hi, rfl, hi, hform, hnames⟩

/-- Two instructions around a comment, the first with an immediate above a byte. -/
theorem walk_assembled_image_lim_push :
    assemble "lim r2, 0x10A\n// note\n push r2".toList 5 =
        .ok ⟨⟨5, #[0x90, 0x0A, 0x50]⟩, #[⟨0, 1, [0x90, 0x0A], "lim r2, 0x10A".toList⟩,
          ⟨2, 3, [0x50], "push r2".toList⟩]⟩ ∧
      ∃ program, WalksBack 5 (codeLines "lim r2, 0x10A\n// note\n push r2".toList)
        ⟨⟨5, #[0x90, 0x0A, 0x50]⟩, #[⟨0, 1, [0x90, 0x0A], "lim r2, 0x10A".toList⟩,
          ⟨2, 3, [0x50], "push r2".toList⟩]⟩ program :=
  ⟨by decide +kernel, walk_assembled_image (by decide +kernel)⟩

end MicroAsm
