/-
  Images and the programs behind them.

  A code line means a mnemonic, a register number and an immediate modulo 256.  The
  bytes of a program decide the program (`Program.bytes_inj`), so the used part of an
  image decides what the code lines mean, line by line.  All bytes of an image decide
  it up to `halt`s at the end, which look like the fill behind them
  (`Program.filled_inj`).
-/
import Mathlib.Data.List.DropRight
import MicroAsm.Proofs.Assembly.RoundTrip

namespace MicroAsm

/-! ## Meanings -/

/-- What a code line says: a mnemonic and, where it has them, the number of a register and
    the residue of an immediate modulo 256. -/
structure Meaning where
  mnemonic : Text
  register : Option Nat
  immediate : Option Int
deriving DecidableEq

/-- A line that has the form of a line means what it names. -/
def LineMeans (line : Text) (meaning : Meaning) : Prop :=
  ∃ o n v, LineForm line o n v ∧ meaning = ⟨o.mnemonic, n, v.map (· % 256)⟩

/-- What the code lines of a source mean, line by line. -/
def SourceMeans (source : Text) (meanings : List Meaning) : Prop :=
  List.Forall₂ (fun line meaning => LineMeans line.text meaning) (codeLines source) meanings

/-- The meaning of a line that stops the machine. -/
def Meaning.isHalt (meaning : Meaning) : Bool := meaning.mnemonic == "halt".toList

/-- A mnemonic names one operation. -/
theorem Operation.eq_of_mnemonic_eq {o p : Operation} (ho : o ∈ table) (hp : p ∈ table)
    (h : o.mnemonic = p.mnemonic) : o = p := by
  have ho' := ofMnemonic?_eq_some_iff.mpr ⟨ho, h⟩
  have hp' := ofMnemonic?_eq_some_iff.mpr ⟨hp, rfl⟩
  exact Option.some.inj (ho'.symm.trans hp')

namespace Instruction

/-- The meaning of the lines that parse to an instruction. -/
def meaning (i : Instruction) : Meaning :=
  ⟨i.operation.mnemonic, i.operands.register?.map Fin.val,
    i.operands.immediate?.map fun byte => (byte.toNat : Int)⟩

/-- Whether an instruction stops the machine. -/
def isHalt (i : Instruction) : Bool := i.meaning.isHalt

theorem lineMeans_iff {line : Text} {m : Meaning} :
    LineMeans line m ↔ ∃ i, parse line = .ok i ∧ i.meaning = m := by
  constructor
  · intro hmeans
    obtain ⟨o, n, v, hform, rfl⟩ := hmeans
    obtain ⟨operands, hparse, -, hnames⟩ := parse_of_lineForm hform
    refine ⟨⟨o, operands⟩, hparse, ?_⟩
    rw [meaning, hnames.register, hnames.immediate]
  · intro hline
    obtain ⟨i, hparse, rfl⟩ := hline
    obtain ⟨-, n, v, hform, hnames⟩ := lineForm_of_parse hparse
    refine ⟨i.operation, n, v, hform, ?_⟩
    rw [meaning, hnames.register, hnames.immediate]

/-- Operands name what they mean: an immediate is a byte, and so its own residue. -/
theorem names_meaning (i : Instruction) :
    i.operands.Names i.meaning.register i.meaning.immediate := by
  refine ⟨rfl, ?_⟩
  rw [meaning, Option.map_map]
  refine congrArg (fun f => i.operands.immediate?.map f) ?_
  funext byte
  exact (Literal.emod_byte byte).symm

/-- The meaning decides a well-formed instruction. -/
theorem WellFormed.eq_of_meaning_eq {i j : Instruction} (hi : i.WellFormed) (hj : j.WellFormed)
    (h : i.meaning = j.meaning) : i = j := by
  have hmnemonic : i.operation.mnemonic = j.operation.mnemonic := congrArg Meaning.mnemonic h
  have hoperation : i.operation = j.operation :=
    Operation.eq_of_mnemonic_eq hi.mem_table hj.mem_table hmnemonic
  have hformat : i.operands.format = j.operands.format := by
    rw [hi.format_eq, hj.format_eq, hoperation]
  have hnames : i.operands.Names j.meaning.register j.meaning.immediate := h ▸ names_meaning i
  have hoperands := Operands.Names.unique hformat hnames (names_meaning j)
  obtain ⟨o, operands⟩ := i
  obtain rfl : o = j.operation := hoperation
  obtain rfl : operands = j.operands := hoperands
  rfl

theorem WellFormed.eq_halt {i : Instruction} (h : i.WellFormed) (hhalt : i.isHalt = true) :
    i = halt := by
  have hoperation : i.operation = Operation.halt :=
    Operation.eq_of_mnemonic_eq h.mem_table Operation.halt_mem_table (beq_iff_eq.mp hhalt)
  have hformat : i.operands.format = .implied := by
    rw [h.format_eq, hoperation]
    rfl
  obtain ⟨o, operands⟩ := i
  obtain rfl : o = Operation.halt := hoperation
  cases operands with
  | none => rfl
  | register r => exact absurd hformat (by simp [Operands.format])
  | registerImmediate r byte => exact absurd hformat (by simp [Operands.format])
  | immediate byte => exact absurd hformat (by simp [Operands.format])

end Instruction

/-- Lines mean what their instructions mean, and nothing else. -/
theorem Assembly.Parses.means_iff {lines : List SourceLine} {program : List Instruction}
    (h : Parses lines program) {meanings : List Meaning} :
    List.Forall₂ (fun line meaning => LineMeans line.text meaning) lines meanings ↔
      meanings = program.map Instruction.meaning := by
  induction h generalizing meanings with
  | nil => exact List.forall₂_nil_left_iff
  | @cons line i lines program hi _ ih =>
    have hline : ∀ m, LineMeans line.text m ↔ m = i.meaning := by
      intro m
      rw [Instruction.lineMeans_iff]
      simp [hi, eq_comm]
    rw [List.forall₂_cons_left_iff]
    simp only [hline, ih, exists_eq_left, exists_and_left, List.map_cons]

/-! ## Bytes and programs -/

namespace Program

/-- A walk reads a program back from its bytes. -/
theorem walked_bytes {program : List Instruction} (h : WellFormed program) :
    walked (bytes program) = addressed 0 program := by
  have hwalk := walkFrom_program_append h 0 []
  rw [List.append_nil, walkFrom_nil, List.append_nil] at hwalk
  rw [walked, walk, hwalk, filterMap_walkItem]

/-- The bytes of a program decide it. -/
theorem bytes_inj {p q : List Instruction} (hp : WellFormed p) (hq : WellFormed q) :
    bytes p = bytes q ↔ p = q := by
  constructor
  · intro h
    calc p = (walked (bytes p)).map Prod.snd := by rw [walked_bytes hp, map_snd_addressed]
      _ = (walked (bytes q)).map Prod.snd := by rw [h]
      _ = q := by rw [walked_bytes hq, map_snd_addressed]
  · exact congrArg bytes

theorem map_meaning_inj {p q : List Instruction} (hp : WellFormed p) (hq : WellFormed q) :
    p.map Instruction.meaning = q.map Instruction.meaning ↔ p = q := by
  constructor
  · intro h
    induction p generalizing q with
    | nil => exact (List.map_eq_nil_iff.mp h.symm).symm
    | cons i p ih =>
      obtain ⟨j, rest, rfl, hj, hrest⟩ := List.map_eq_cons_iff.mp h.symm
      obtain rfl := (hp i (by simp)).eq_of_meaning_eq (hq j (by simp)) hj.symm
      rw [ih (fun k hk => hp k (by simp [hk])) (fun k hk => hq k (by simp [hk])) hrest.symm]
  · exact congrArg (List.map Instruction.meaning)

/-! ## Programs in an image that `halt` fills up -/

/-- A program without the `halt`s at its end. -/
def stripped (program : List Instruction) : List Instruction :=
  program.rdropWhile Instruction.isHalt

/-- A program and as many `halt`s as fill the capacity. -/
def filled (capacity : Nat) (program : List Instruction) : List Instruction :=
  program ++ List.replicate (capacity - (bytes program).length) Instruction.halt

theorem bytes_filled (capacity : Nat) (program : List Instruction) :
    bytes (filled capacity program) =
      bytes program ++ List.replicate (capacity - (bytes program).length) fillByte := by
  rw [filled, bytes_append, bytes_replicate_halt]

theorem stripped_append_halts (program : List Instruction) (n : Nat) :
    stripped (program ++ List.replicate n Instruction.halt) = stripped program := by
  induction n with
  | zero => rw [List.replicate_zero, List.append_nil]
  | succ n ih =>
    rw [List.replicate_succ', ← List.append_assoc, stripped, List.rdropWhile_concat_pos _ _ _ rfl]
    exact ih

/-- What is taken away are `halt`s. -/
theorem exists_stripped_append_halts {program : List Instruction} (h : WellFormed program) :
    ∃ n, program = stripped program ++ List.replicate n Instruction.halt := by
  have hcut : stripped program ++ program.rtakeWhile Instruction.isHalt = program :=
    List.rdropWhile_append_rtakeWhile
  refine ⟨(program.rtakeWhile Instruction.isHalt).length, ?_⟩
  have hhalts : program.rtakeWhile Instruction.isHalt =
      List.replicate (program.rtakeWhile Instruction.isHalt).length Instruction.halt := by
    refine List.eq_replicate_of_mem ?_
    intro i hi
    have hmem : i ∈ program := (List.rtakeWhile_suffix _ _).subset hi
    exact (h i hmem).eq_halt (List.mem_rtakeWhile_imp hi)
  rw [← hhalts]
  exact hcut.symm

/-- Filling up makes good what stripping takes away. -/
theorem filled_stripped {program : List Instruction} (h : WellFormed program) {capacity : Nat}
    (hfit : (bytes program).length ≤ capacity) :
    filled capacity (stripped program) = filled capacity program := by
  obtain ⟨n, hn⟩ := exists_stripped_append_halts h
  have hlength : (bytes program).length = (bytes (stripped program)).length + n := by
    rw [congrArg bytes hn, bytes_append, bytes_replicate_halt, List.length_append,
      List.length_replicate]
  have hcount : capacity - (bytes (stripped program)).length =
      n + (capacity - (bytes program).length) := by omega
  calc filled capacity (stripped program)
      = stripped program ++ (List.replicate n Instruction.halt ++
          List.replicate (capacity - (bytes program).length) Instruction.halt) := by
        rw [filled, hcount, List.replicate_add]
    _ = filled capacity program := by rw [← List.append_assoc, ← hn, filled]

/-- Two programs fill an image alike when they differ in `halt`s at the end only. -/
theorem filled_inj {p q : List Instruction} (hp : WellFormed p) (hq : WellFormed q) {capacity : Nat}
    (hpfit : (bytes p).length ≤ capacity) (hqfit : (bytes q).length ≤ capacity) :
    filled capacity p = filled capacity q ↔ stripped p = stripped q := by
  constructor
  · intro h
    have hstripped := congrArg stripped h
    rwa [filled, filled, stripped_append_halts, stripped_append_halts] at hstripped
  · intro h
    rw [← filled_stripped hp hpfit, ← filled_stripped hq hqfit, h]

theorem wellFormed_filled {program : List Instruction} (h : WellFormed program) (capacity : Nat) :
    WellFormed (filled capacity program) := wellFormed_append_halts h _

theorem wellFormed_stripped {program : List Instruction} (h : WellFormed program) :
    WellFormed (stripped program) := fun i hi => h i ((List.rdropWhile_prefix _ _).subset hi)

theorem rdropWhile_map_meaning (program : List Instruction) :
    (program.map Instruction.meaning).rdropWhile Meaning.isHalt =
      (stripped program).map Instruction.meaning := by
  rw [stripped, List.rdropWhile, List.rdropWhile, ← List.map_reverse, List.dropWhile_map,
    List.map_reverse]
  rfl

end Program

/-- **Images identify programs up to meaning.**  Of two sources that assemble at one capacity,
    the used bytes agree when their code lines mean the same, and all bytes agree when they
    do so up to `halt`s at the end. -/
theorem images_eq_iff_meanings_eq {s₁ s₂ : Text} {capacity : Nat} {a₁ a₂ : Assembly}
    (h₁ : assemble s₁ capacity = .ok a₁) (h₂ : assemble s₂ capacity = .ok a₂) :
    ∃ m₁ m₂, (∀ m, SourceMeans s₁ m ↔ m = m₁) ∧ (∀ m, SourceMeans s₂ m ↔ m = m₂) ∧
      (a₁.image.used = a₂.image.used ↔ m₁ = m₂) ∧
      (a₁.image.bytes = a₂.image.bytes ↔
        m₁.rdropWhile Meaning.isHalt = m₂.rdropWhile Meaning.isHalt) := by
  obtain ⟨p, hp, hpfit, rfl⟩ := assemble_eq_ok_iff.mp h₁
  obtain ⟨q, hq, hqfit, rfl⟩ := assemble_eq_ok_iff.mp h₂
  have hpw := hp.wellFormed
  have hqw := hq.wellFormed
  refine ⟨p.map Instruction.meaning, q.map Instruction.meaning, fun m => hp.means_iff,
    fun m => hq.means_iff, ?_, ?_⟩
  · rw [← Array.toList_inj, Assembly.used_placeAll_empty, Assembly.used_placeAll_empty,
      Program.bytes_inj hpw hqw, Program.map_meaning_inj hpw hqw]
  · rw [Assembly.bytes_placeAll_empty, Assembly.bytes_placeAll_empty, ← Program.bytes_filled,
      ← Program.bytes_filled,
      Program.bytes_inj (Program.wellFormed_filled hpw _) (Program.wellFormed_filled hqw _),
      Program.filled_inj hpw hqw hpfit hqfit, Program.rdropWhile_map_meaning,
      Program.rdropWhile_map_meaning,
      Program.map_meaning_inj (Program.wellFormed_stripped hpw) (Program.wellFormed_stripped hqw)]

/-- One instruction in two spellings, the second with `halt`s behind it. -/
theorem images_eq_iff_meanings_eq_trailing_halts :
    assemble " lim r02 , 0x10A".toList 5 =
        .ok ⟨⟨5, #[0x90, 0x0A]⟩, #[⟨0, 1, [0x90, 0x0A], "lim r02 , 0x10A".toList⟩]⟩ ∧
      assemble "lim r2, 10\nhalt\nhalt".toList 5 =
        .ok ⟨⟨5, #[0x90, 0x0A, 0x3E, 0x3E]⟩, #[⟨0, 1, [0x90, 0x0A], "lim r2, 10".toList⟩,
          ⟨2, 2, [0x3E], "halt".toList⟩, ⟨3, 3, [0x3E], "halt".toList⟩]⟩ ∧
      ∃ m₁ m₂, (∀ m, SourceMeans " lim r02 , 0x10A".toList m ↔ m = m₁) ∧
        (∀ m, SourceMeans "lim r2, 10\nhalt\nhalt".toList m ↔ m = m₂) ∧
        (#[0x90, 0x0A] = (#[0x90, 0x0A, 0x3E, 0x3E] : Array UInt8) ↔ m₁ = m₂) ∧
        ((⟨5, #[0x90, 0x0A]⟩ : Image).bytes = (⟨5, #[0x90, 0x0A, 0x3E, 0x3E]⟩ : Image).bytes ↔
          m₁.rdropWhile Meaning.isHalt = m₂.rdropWhile Meaning.isHalt) := by
  have h₁ : assemble " lim r02 , 0x10A".toList 5 =
      .ok ⟨⟨5, #[0x90, 0x0A]⟩, #[⟨0, 1, [0x90, 0x0A], "lim r02 , 0x10A".toList⟩]⟩ := by
    decide +kernel
  have h₂ : assemble "lim r2, 10\nhalt\nhalt".toList 5 =
      .ok ⟨⟨5, #[0x90, 0x0A, 0x3E, 0x3E]⟩, #[⟨0, 1, [0x90, 0x0A], "lim r2, 10".toList⟩,
        ⟨2, 2, [0x3E], "halt".toList⟩, ⟨3, 3, [0x3E], "halt".toList⟩]⟩ := by
    decide +kernel
  exact ⟨h₁, h₂, images_eq_iff_meanings_eq h₁ h₂⟩

end MicroAsm
