/-
  Programs in memory and the walk over them.

  `Program.bytes` lays instructions end to end and `Program.addressed` gives each its
  address.  A walk over the bytes of a program meets exactly these instructions and
  goes on behind them (`walkFrom_program_append`); every byte list is a program
  followed by bytes that start no instruction (`exists_program_append`).  So what a
  walk meets before it stops is a program, and its bytes reach up to there
  (`exists_walked`).
-/
import MicroAsm.Proofs.Machine.Decoding

namespace MicroAsm

namespace Program

/-- The bytes of a program, instruction after instruction. -/
def bytes (program : List Instruction) : List UInt8 := program.flatMap Instruction.bytes

/-- Every instruction with its address, the first at `address`. -/
def addressed (address : Nat) : List Instruction → List (Nat × Instruction)
  | [] => []
  | i :: program => (address, i) :: addressed (address + i.bytes.length) program

/-- All instructions are well-formed. -/
def WellFormed (program : List Instruction) : Prop := ∀ i ∈ program, i.WellFormed

@[simp] theorem bytes_nil : bytes [] = [] := rfl

@[simp] theorem bytes_cons (i : Instruction) (program : List Instruction) :
    bytes (i :: program) = i.bytes ++ bytes program := rfl

@[simp] theorem bytes_append (p q : List Instruction) : bytes (p ++ q) = bytes p ++ bytes q :=
  List.flatMap_append

theorem bytes_replicate_halt (n : Nat) :
    bytes (List.replicate n Instruction.halt) = List.replicate n fillByte := by
  induction n with
  | zero => rfl
  | succ n ih => rw [List.replicate_succ, bytes_cons, ih, Instruction.bytes_halt]; rfl

theorem wellFormed_append_halts {program : List Instruction} (h : WellFormed program) (n : Nat) :
    WellFormed (program ++ List.replicate n Instruction.halt) := by
  intro i hi
  rcases List.mem_append.mp hi with hi | hi
  · exact h i hi
  · rw [List.eq_of_mem_replicate hi]
    exact Instruction.wellFormed_halt

/-- The bytes of a front part stop before the end. -/
theorem length_bytes_take_le (program : List Instruction) (k : Nat) :
    (bytes (program.take k)).length ≤ (bytes program).length := by
  have h := congrArg (fun p => (bytes p).length) (List.take_append_drop k program)
  simp only [bytes_append, List.length_append] at h
  omega

theorem addressed_append (address : Nat) (p q : List Instruction) :
    addressed address (p ++ q) =
      addressed address p ++ addressed (address + (bytes p).length) q := by
  induction p generalizing address with
  | nil => simp [addressed]
  | cons i p ih =>
    rw [List.cons_append, addressed, ih, addressed, bytes_cons, List.length_append, Nat.add_assoc,
      List.cons_append]

@[simp] theorem length_addressed (address : Nat) (program : List Instruction) :
    (addressed address program).length = program.length := by
  induction program generalizing address with
  | nil => rfl
  | cons i program ih => rw [addressed, List.length_cons, ih, List.length_cons]

/-- An instruction stands behind the bytes of all instructions before it. -/
theorem getElem?_addressed (address : Nat) (program : List Instruction) (k : Nat) :
    (addressed address program)[k]? =
      program[k]?.map fun i => (address + (bytes (program.take k)).length, i) := by
  induction program generalizing address k with
  | nil => simp [addressed]
  | cons i program ih =>
    cases k with
    | zero => simp [addressed]
    | succ k => simp [addressed, ih, Nat.add_assoc]

/-- An instruction ends where the bytes of the instructions up to and with it do. -/
theorem end_of_getElem?_addressed {address : Nat} {program : List Instruction} {k : Nat}
    {item : Nat × Instruction} (h : (addressed address program)[k]? = some item) :
    item.1 + item.2.bytes.length = address + (bytes (program.take (k + 1))).length := by
  rw [getElem?_addressed] at h
  obtain ⟨i, hi, rfl⟩ := Option.map_eq_some_iff.mp h
  rw [List.take_add_one, hi, bytes_append, List.length_append, Nat.add_assoc]
  simp

theorem map_snd_addressed (address : Nat) (program : List Instruction) :
    (addressed address program).map Prod.snd = program := by
  induction program generalizing address with
  | nil => rfl
  | cons i program ih => rw [addressed, List.map_cons, ih]

theorem addressed_replicate_halt (address n : Nat) :
    addressed address (List.replicate n Instruction.halt) =
      (List.range' address n).map fun a => (a, Instruction.halt) := by
  induction n generalizing address with
  | zero => rfl
  | succ n ih =>
    rw [List.replicate_succ, addressed, Instruction.bytes_halt, ih, List.range'_succ]
    rfl

end Program

/-! ## The walk -/

/-- What a walk answers at an instruction. -/
def walkItem (item : Nat × Instruction) : Nat × Except DecodeError Instruction :=
  (item.1, .ok item.2)

theorem walkFrom_nil (address : Nat) : walkFrom address [] = [] := by
  rw [walkFrom]

/-- A walk steps over the bytes of an instruction. -/
theorem walkFrom_append {i : Instruction} (h : i.WellFormed) (address : Nat)
    (rest : List UInt8) :
    walkFrom address (i.bytes ++ rest) =
      walkItem (address, i) :: walkFrom (address + i.bytes.length) rest := by
  obtain ⟨first, tail, hbytes⟩ : ∃ first tail, i.bytes ++ rest = first :: tail :=
    List.exists_cons_of_ne_nil (by simp [i.bytes_ne_nil])
  have hdecode : decode (first :: tail) = .ok i := by rw [← hbytes]; exact h.decode_append rest
  have hdrop : (first :: tail).drop i.size = rest := by
    rw [← hbytes, ← h.length_bytes, List.drop_left]
  rw [hbytes, walkFrom, hdecode]
  dsimp only
  rw [hdrop, h.length_bytes, walkItem]

theorem walkFrom_of_error {bytes : List UInt8} {e : DecodeError} (address : Nat)
    (h : decode bytes = .error e) (hne : bytes ≠ []) :
    walkFrom address bytes = [(address, .error e)] := by
  obtain ⟨first, tail, rfl⟩ := List.exists_cons_of_ne_nil hne
  rw [walkFrom, h]

/-- A walk meets every instruction of a program at its address, and goes on behind it. -/
theorem walkFrom_program_append {program : List Instruction} (h : Program.WellFormed program)
    (address : Nat) (rest : List UInt8) :
    walkFrom address (Program.bytes program ++ rest) =
      (Program.addressed address program).map walkItem ++
        walkFrom (address + (Program.bytes program).length) rest := by
  induction program generalizing address with
  | nil => simp [Program.addressed]
  | cons i program ih =>
    rw [Program.bytes_cons, List.append_assoc, walkFrom_append (h i (by simp)),
      ih (fun j hj => h j (by simp [hj])), Program.addressed, List.map_cons, List.cons_append,
      List.length_append, Nat.add_assoc]

/-- Every byte list is a program and bytes that start no instruction. -/
theorem exists_program_append (bytes : List UInt8) :
    ∃ program rest e, Program.WellFormed program ∧ bytes = Program.bytes program ++ rest ∧
      decode rest = .error e := by
  -- by the length: what follows a first instruction is shorter than the whole
  induction h : bytes.length using Nat.strongRecOn generalizing bytes with
  | ind n ih =>
    cases hd : decode bytes with
    | error e => exact ⟨[], bytes, e, by simp [Program.WellFormed], rfl, hd⟩
    | ok i =>
      obtain ⟨hi, tail, rfl⟩ := decode_eq_ok_iff.mp hd
      have hpos : 0 < i.bytes.length := List.length_pos_iff.mpr i.bytes_ne_nil
      obtain ⟨program, rest, e, hp, rfl, he⟩ :=
        ih tail.length (by rw [List.length_append] at h; omega) tail rfl
      refine ⟨i :: program, rest, e, ?_, ?_, he⟩
      · intro j hj
        rcases List.mem_cons.mp hj with rfl | hj
        · exact hi
        · exact hp j hj
      · rw [Program.bytes_cons, List.append_assoc]

/-! ## What a walk meets -/

/-- The instructions that a walk meets, with their addresses. -/
def walked (bytes : List UInt8) : List (Nat × Instruction) :=
  (walk bytes).filterMap fun item => item.2.toOption.map fun i => (item.1, i)

/-- Where a walk stops: at the address of its error, or behind all bytes. -/
def walkEnd (bytes : List UInt8) : Nat :=
  match (walk bytes).find? fun item => !item.2.isOk with
  | some item => item.1
  | none => bytes.length

theorem filterMap_walkItem (items : List (Nat × Instruction)) :
    ((items.map walkItem).filterMap fun item => item.2.toOption.map fun i => (item.1, i)) =
      items := by
  rw [List.filterMap_map]
  exact List.filterMap_some

theorem find?_walkItem (items : List (Nat × Instruction)) :
    ((items.map walkItem).find? fun item => !item.2.isOk) = none := by
  rw [List.find?_eq_none]
  intro item hitem
  obtain ⟨source, -, rfl⟩ := List.mem_map.mp hitem
  simp [walkItem, Except.isOk, Except.toBool]

/-- What a walk meets is a program, and it stops behind the bytes of that program. -/
theorem exists_walked (bytes : List UInt8) :
    ∃ program, Program.WellFormed program ∧ walked bytes = Program.addressed 0 program ∧
      walkEnd bytes = (Program.bytes program).length ∧
      bytes.take (walkEnd bytes) = Program.bytes program := by
  obtain ⟨program, rest, e, hp, rfl, he⟩ := exists_program_append bytes
  have hwalk := walkFrom_program_append hp 0 rest
  rw [Nat.zero_add] at hwalk
  have hend : walkEnd (Program.bytes program ++ rest) = (Program.bytes program).length := by
    rw [walkEnd, walk, hwalk, List.find?_append, find?_walkItem, Option.none_or]
    by_cases hne : rest = []
    · simp [hne, walkFrom_nil]
    · rw [walkFrom_of_error _ he hne]
      rfl
  refine ⟨program, hp, ?_, hend, ?_⟩
  · rw [walked, walk, hwalk, List.filterMap_append, filterMap_walkItem]
    by_cases hne : rest = []
    · simp [hne, walkFrom_nil]
    · rw [walkFrom_of_error _ he hne]
      exact List.append_nil _
  · rw [hend, List.take_left]

end MicroAsm
