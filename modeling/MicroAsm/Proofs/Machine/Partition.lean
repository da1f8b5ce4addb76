/-
  What a walk makes of any bytes.

  Every byte list is a program followed by bytes that start no instruction, so a walk meets
  the instructions of that program end to end and then, unless nothing is left, one error
  (`Course`).  From this come its length, its addresses, the bytes it covers, the reason of
  its error, and that a walk over joined bytes goes on where the first part ended.

  `Walker` makes the same walk in steps, and `walk` lists what its steps answer
  (`answer_start`): behind the last item there is nothing more.
-/
import MicroAsm.Proofs.Machine.Walk

namespace MicroAsm

/-! ## Walking in steps -/

/-- A walk under way: the bytes it goes over, where it stands, and whether it met an error. -/
structure Walker where
  bytes : List UInt8
  address : Nat
  failed : Bool

namespace Walker

/-- A walk that has not begun. -/
def start (bytes : List UInt8) : Walker := ⟨bytes, 0, false⟩

/-- One step: the item at the address where the walk stands, and the walk behind it. -/
def next (w : Walker) : Option (Nat × Except DecodeError Instruction) × Walker :=
  if w.failed ∨ w.bytes.length ≤ w.address then (none, w)
  else
    match decode (w.bytes.drop w.address) with
    | .ok i => (some (w.address, .ok i), { w with address := w.address + i.size })
    | .error e => (some (w.address, .error e), { w with failed := true })

/-- What the walk answers to the step after `n` others. -/
def answer : Walker → Nat → Option (Nat × Except DecodeError Instruction)
  | w, 0 => w.next.1
  | w, n + 1 => w.next.2.answer n

/-- The items still to come. -/
def ahead (w : Walker) : List (Nat × Except DecodeError Instruction) :=
  if w.failed then [] else walkFrom w.address (w.bytes.drop w.address)

/-- A step takes the first of the items to come. -/
theorem next_ahead (w : Walker) : w.next.1 = w.ahead.head? ∧ w.next.2.ahead = w.ahead.tail := by
  by_cases hdone : w.failed ∨ w.bytes.length ≤ w.address
  · have hnil : w.ahead = [] := by
      unfold ahead
      rcases hdone with hfailed | hend
      · rw [if_pos hfailed]
      · rw [List.drop_of_length_le hend, walkFrom_nil, ite_self]
    rw [next, if_pos hdone]
    dsimp only
    rw [hnil]
    exact ⟨rfl, rfl⟩
  · obtain ⟨hfailed, hend⟩ := not_or.mp hdone
    have hne : w.bytes.drop w.address ≠ [] := by
      rw [ne_eq, List.drop_eq_nil_iff]
      exact hend
    have hahead : w.ahead = walkFrom w.address (w.bytes.drop w.address) := if_neg hfailed
    rw [next, if_neg hdone, hahead]
    cases hdecode : decode (w.bytes.drop w.address) with
    | error e =>
      rw [walkFrom_of_error _ hdecode hne]
      exact ⟨rfl, rfl⟩
    | ok i =>
      obtain ⟨hi, rest, hrest⟩ := decode_eq_ok_iff.mp hdecode
      have hdrop : w.bytes.drop (w.address + i.size) = rest := by
        rw [← List.drop_drop, hrest, ← hi.length_bytes, List.drop_left]
      rw [hrest, walkFrom_append hi, List.head?_cons, List.tail_cons]
      refine ⟨rfl, ?_⟩
      rw [ahead, if_neg hfailed, hdrop, hi.length_bytes]

theorem answer_eq (w : Walker) (n : Nat) : w.answer n = w.ahead[n]? := by
  induction n generalizing w with
  | zero => rw [answer, (next_ahead w).1, List.head?_eq_getElem?]
  | succ n ih => rw [answer, ih, (next_ahead w).2, List.getElem?_tail]

/-- The steps answer the items of `walk`, and then nothing more. -/
theorem answer_start (bytes : List UInt8) (n : Nat) :
    (start bytes).answer n = (walk bytes)[n]? := by
  rw [answer_eq]
  rfl

end Walker

/-! ## Why bytes start no instruction -/

/-- The fields of `byte` name the format and the opcode of `o`. -/
def Starts (byte : UInt8) (o : Operation) : Prop :=
  o ∈ Operation.table ∧ o.format = formatField byte ∧ o.opcode = opcodeField byte

theorem starts_iff {byte : UInt8} {o : Operation} :
    Starts byte o ↔ Operation.ofCode? (formatField byte) (opcodeField byte) = some o :=
  Operation.ofCode?_eq_some_iff.symm

/-- Operands are missing only where an immediate is wanted and the bytes have ended. -/
theorem decodeOperands_eq_none_iff {format : Format} {first : UInt8} {rest : List UInt8} :
    decodeOperands format first rest = none ↔ format.takesImmediate = true ∧ rest = [] := by
  cases format <;> simp [decodeOperands, Format.takesImmediate]

/-- Bytes start no instruction when the fields of the first name no operation, or name one
    whose immediate is missing. -/
theorem error_of_decode_cons {first : UInt8} {rest : List UInt8} {e : DecodeError}
    (h : decode (first :: rest) = .error e) :
    (e = .unknownOpcode (formatField first) (opcodeField first) ∧ ¬ ∃ o, Starts first o) ∨
      (e = .truncated (formatField first) ∧ rest = [] ∧
        ∃ o, Starts first o ∧ o.format.takesImmediate = true) := by
  rw [decode] at h
  split at h
  · next hfind =>
    refine Or.inl ⟨(Except.error.inj h).symm, ?_⟩
    rintro ⟨o, ho⟩
    rw [starts_iff, hfind] at ho
    exact absurd ho (by simp)
  · next o hfind =>
    have hstarts : Starts first o := starts_iff.mpr hfind
    split at h
    · next hoperands =>
      obtain ⟨himmediate, hrest⟩ := decodeOperands_eq_none_iff.mp hoperands
      refine Or.inr ⟨(Except.error.inj h).symm, hrest, o, hstarts, ?_⟩
      rw [hstarts.2.1]
      exact himmediate
    · exact absurd h (by simp)

/-- `e` is what the byte at `address` deserves: its fields name no operation, or it is the last
    and its fields name an operation with an immediate. -/
structure Explains (bytes : List UInt8) (address : Nat) (byte : UInt8) (e : DecodeError) :
    Prop where
  byte_eq : bytes[address]? = some byte
  fields : e = .truncated (formatField byte) ∨
    e = .unknownOpcode (formatField byte) (opcodeField byte)
  truncated_iff : (∃ format, e = .truncated format) ↔
    address + 1 = bytes.length ∧ ∃ o, Starts byte o ∧ o.format.takesImmediate = true
  unknownOpcode_iff : (∃ format opcode, e = .unknownOpcode format opcode) ↔
    ¬ ∃ o, Starts byte o

theorem explains_of_decode {before rest : List UInt8} {first : UInt8} {e : DecodeError}
    (h : decode (first :: rest) = .error e) :
    Explains (before ++ first :: rest) before.length first e := by
  have hlast : before.length + 1 = (before ++ first :: rest).length ↔ rest = [] := by
    rw [List.length_append, List.length_cons, ← List.length_eq_zero_iff]
    omega
  refine ⟨by simp, ?_, ?_, ?_⟩
  · rcases error_of_decode_cons h with ⟨he, -⟩ | ⟨he, -⟩
    · exact Or.inr he
    · exact Or.inl he
  · rw [hlast]
    rcases error_of_decode_cons h with ⟨rfl, hno⟩ | ⟨rfl, hrest, hstarts⟩
    · refine ⟨by simp, ?_⟩
      rintro ⟨-, o, ho, -⟩
      exact absurd ⟨o, ho⟩ hno
    · exact ⟨fun _ => ⟨hrest, hstarts⟩, fun _ => ⟨_, rfl⟩⟩
  · rcases error_of_decode_cons h with ⟨rfl, hno⟩ | ⟨rfl, -, o, ho, -⟩
    · exact ⟨fun _ => hno, fun _ => ⟨_, _, rfl⟩⟩
    · refine ⟨by simp, ?_⟩
      intro hno
      exact absurd ⟨o, ho⟩ hno

/-! ## The course of a walk -/

/-- A walk over `bytes` meets the instructions of `program` and, if `rest` is left behind
    them, the error there. -/
structure Course (bytes : List UInt8) (program : List Instruction) (rest : List UInt8) : Prop where
  wellFormed : Program.WellFormed program
  bytes_eq : bytes = Program.bytes program ++ rest
  walk_eq : walk bytes = (Program.addressed 0 program).map walkItem ++
    walkFrom (Program.bytes program).length rest
  error_eq : ∃ e, decode rest = .error e

theorem exists_course (bytes : List UInt8) : ∃ program rest, Course bytes program rest := by
  obtain ⟨program, rest, e, hp, rfl, he⟩ := exists_program_append bytes
  refine ⟨program, rest, hp, rfl, ?_, e, he⟩
  rw [walk, walkFrom_program_append hp, Nat.zero_add]

/-- There are no more instructions in a program than bytes. -/
theorem Program.length_le_length_bytes (program : List Instruction) :
    program.length ≤ (bytes program).length := by
  induction program with
  | nil => exact Nat.le_refl 0
  | cons i program ih =>
    have hpos : 0 < i.bytes.length := List.length_pos_iff.mpr i.bytes_ne_nil
    rw [bytes_cons, List.length_append, List.length_cons]
    omega

namespace Course

variable {bytes rest : List UInt8} {program : List Instruction}

/-- Behind the program a walk meets nothing, or one error. -/
theorem walkFrom_rest (h : Course bytes program rest) (address : Nat) :
    (rest = [] ∧ walkFrom address rest = []) ∨
      ∃ first tail e, rest = first :: tail ∧ decode rest = .error e ∧
        walkFrom address rest = [(address, .error e)] := by
  obtain ⟨e, he⟩ := h.error_eq
  cases rest with
  | nil => exact Or.inl ⟨rfl, walkFrom_nil address⟩
  | cons first tail =>
    exact Or.inr ⟨first, tail, e, rfl, he, walkFrom_of_error address he (by simp)⟩

theorem length_walk_le (h : Course bytes program rest) : (walk bytes).length ≤ bytes.length := by
  have hle := Program.length_le_length_bytes program
  rw [h.walk_eq, h.bytes_eq, List.length_append, List.length_append, List.length_map,
    Program.length_addressed]
  rcases h.walkFrom_rest (Program.bytes program).length with ⟨-, hstop⟩ | ⟨_, _, _, rfl, -, hstop⟩
  · rw [hstop]
    exact Nat.le_trans hle (Nat.le_add_right _ _)
  · rw [hstop, List.length_cons, List.length_cons]
    exact Nat.add_le_add hle (Nat.le_add_left _ _)

/-- An item is an instruction of the program at its address, or it is the error behind them
    all. -/
theorem item_cases (h : Course bytes program rest) {k : Nat}
    {item : Nat × Except DecodeError Instruction} (hk : (walk bytes)[k]? = some item) :
    (∃ i, program[k]? = some i ∧ item = ((Program.bytes (program.take k)).length, .ok i)) ∨
      (k = program.length ∧ ∃ first tail e, rest = first :: tail ∧
        decode (first :: tail) = .error e ∧
        item = ((Program.bytes program).length, .error e) ∧
        (walk bytes).length = program.length + 1) := by
  have hlength : (walk bytes).length = program.length +
      (walkFrom (Program.bytes program).length rest).length := by
    rw [h.walk_eq, List.length_append, List.length_map, Program.length_addressed]
  rw [h.walk_eq] at hk
  by_cases hlt : k < program.length
  · rw [List.getElem?_append_left (by simpa using hlt), List.getElem?_map,
      Program.getElem?_addressed, Option.map_map] at hk
    obtain ⟨i, hi, rfl⟩ := Option.map_eq_some_iff.mp hk
    exact Or.inl ⟨i, hi, congrArg (·, Except.ok i) (Nat.zero_add _)⟩
  · rw [List.getElem?_append_right (by simpa using hlt), List.length_map,
      Program.length_addressed] at hk
    rcases h.walkFrom_rest (Program.bytes program).length with
      ⟨-, hstop⟩ | ⟨first, tail, e, rfl, he, hstop⟩
    · rw [hstop] at hk
      exact absurd hk (by simp)
    · rw [hstop] at hk hlength
      have hzero : k - program.length < 1 := (List.getElem?_eq_some_iff.mp hk).1
      have hitem := List.mem_singleton.mp (List.mem_of_getElem? hk)
      exact Or.inr ⟨by omega, first, tail, e, rfl, he, hitem, hlength⟩

theorem address_of_getElem? (h : Course bytes program rest) {k : Nat}
    {item : Nat × Except DecodeError Instruction} (hk : (walk bytes)[k]? = some item) :
    item.1 = (Program.bytes (program.take k)).length := by
  rcases h.item_cases hk with ⟨i, -, rfl⟩ | ⟨rfl, _, _, e, -, -, rfl, -⟩
  · rfl
  · rw [List.take_length]

/-- The item behind an instruction stands where that instruction ends. -/
theorem address_succ (h : Course bytes program rest) {k address : Nat} {i : Instruction}
    {item : Nat × Except DecodeError Instruction}
    (hk : (walk bytes)[k]? = some (address, .ok i)) (hnext : (walk bytes)[k + 1]? = some item) :
    item.1 = address + i.size := by
  rcases h.item_cases hk with ⟨j, hj, hitem⟩ | ⟨-, _, _, e, -, -, hitem, -⟩
  · obtain ⟨rfl, hij⟩ := Prod.mk.inj hitem
    obtain rfl := Except.ok.inj hij
    have hi : i.WellFormed := h.wellFormed i (List.mem_of_getElem? hj)
    rw [h.address_of_getElem? hnext, List.take_add_one, hj, Program.bytes_append,
      List.length_append, ← hi.length_bytes]
    simp
  · exact absurd hitem (by simp)

/-- An error is the last item, and the byte it stands at explains it. -/
theorem error_last (h : Course bytes program rest) {k address : Nat} {e : DecodeError}
    (hk : (walk bytes)[k]? = some (address, .error e)) :
    k + 1 = (walk bytes).length ∧ ∃ byte, Explains bytes address byte e := by
  rcases h.item_cases hk with ⟨i, -, hitem⟩ | ⟨rfl, first, tail, e', rfl, he, hitem, hlength⟩
  · exact absurd hitem (by simp)
  · obtain ⟨rfl, hee⟩ := Prod.mk.inj hitem
    obtain rfl := Except.error.inj hee
    refine ⟨hlength.symm, first, ?_⟩
    rw [h.bytes_eq]
    exact explains_of_decode he

/-- Without an error the program is all there is. -/
theorem rest_eq_nil (h : Course bytes program rest)
    (hok : ∀ item ∈ walk bytes, item.2.isOk = true) : rest = [] := by
  rcases h.walkFrom_rest (Program.bytes program).length with ⟨hrest, -⟩ | ⟨_, _, e, -, -, hstop⟩
  · exact hrest
  · have hmem : ((Program.bytes program).length, Except.error e) ∈ walk bytes := by
      rw [h.walk_eq, hstop]
      simp
    exact absurd (hok _ hmem) (by simp [Except.isOk, Except.toBool])

end Course

/-! ## Walks over joined bytes -/

/-- The item with its address raised. -/
def raiseAddress (n : Nat) (item : Nat × Except DecodeError Instruction) :
    Nat × Except DecodeError Instruction := (item.1 + n, item.2)

/-- A walk that starts higher meets the same items higher. -/
theorem walkFrom_add (address n : Nat) (bytes : List UInt8) :
    walkFrom (address + n) bytes = (walkFrom address bytes).map (raiseAddress n) := by
  fun_induction walkFrom address bytes with
  | case1 address => simp [walkFrom_nil]
  | case2 address first rest e he => simp [walkFrom_of_error _ he, raiseAddress]
  | case3 address first rest i hi ih =>
    rw [walkFrom, hi, List.map_cons, ← ih, Nat.add_right_comm]
    rfl

/-- Behind bytes that hold nothing but instructions a walk goes on as if it began there. -/
theorem walk_append {x : List UInt8} (hok : ∀ item ∈ walk x, item.2.isOk = true)
    (y : List UInt8) : walk (x ++ y) = walk x ++ (walk y).map (raiseAddress x.length) := by
  obtain ⟨program, rest, h⟩ := exists_course x
  obtain rfl := h.rest_eq_nil hok
  have hx : x = Program.bytes program := by rw [h.bytes_eq, List.append_nil]
  have hwalk : walk x = (Program.addressed 0 program).map walkItem := by
    rw [h.walk_eq, walkFrom_nil, List.append_nil]
  rw [hwalk, hx, walk, walkFrom_program_append h.wellFormed, walkFrom_add]
  rfl

/-- **A walk partitions every buffer, and walks compose.**  The steps of a walk answer at most
    one item per byte and then nothing more.  The items stand end to end from address 0; only
    the last may be an error, which the byte it stands at explains.  The instructions, encoded
    again, are the bytes in front of it, or all bytes.  Behind bytes without an error the walk
    goes on like one that begins there, with the addresses raised. -/
theorem walk_partitions_bytes (bytes : List UInt8) :
    (∀ n, (Walker.start bytes).answer n = (walk bytes)[n]?) ∧
      (walk bytes).length ≤ bytes.length ∧
      (∀ item, (walk bytes)[0]? = some item → item.1 = 0) ∧
      (∀ k address i item, (walk bytes)[k]? = some (address, .ok i) →
        (walk bytes)[k + 1]? = some item → item.1 = address + i.size) ∧
      (∀ k address e, (walk bytes)[k]? = some (address, .error e) →
        k + 1 = (walk bytes).length ∧ ∃ byte, Explains bytes address byte e) ∧
      (walked bytes).flatMap (fun item => item.2.bytes) = bytes.take (walkEnd bytes) ∧
      ((∀ item ∈ walk bytes, item.2.isOk = true) →
        ∀ more, walk (bytes ++ more) =
          walk bytes ++ (walk more).map (raiseAddress bytes.length)) := by
  obtain ⟨program, rest, h⟩ := exists_course bytes
  refine ⟨Walker.answer_start bytes, h.length_walk_le, ?_, fun k address i item => h.address_succ,
    fun k address e => h.error_last, ?_, walk_append⟩
  · intro item hitem
    exact h.address_of_getElem? hitem
  · obtain ⟨met, -, hwalked, -, htake⟩ := exists_walked bytes
    rw [htake, hwalked, Program.bytes, ← congrArg (List.flatMap Instruction.bytes)
      (Program.map_snd_addressed 0 met), List.flatMap_map]

-- an opcode that names nothing, then a last byte whose immediate is missing
example : walk [0x00, 0x20, 0x00] =
      [(0, .ok ⟨⟨"nop".toList, 0, .implied⟩, .none⟩), (1, .error (.unknownOpcode .implied 32))] ∧
    walk [0xC0] = [(0, .error (.truncated .immediate))] := by decide +kernel

end MicroAsm
