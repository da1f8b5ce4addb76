/-
  One source at two capacities.

  More room keeps what was placed and adds to the fill.  A defect is met at any larger
  capacity; a line that ran over the smaller one may fit, and then a later line decides.
  The comparison goes through the first line that fails: a line that fails at the larger
  capacity fails at the smaller one too (`FailsAt.of_le`).
-/
import MicroAsm.Proofs.Assembly.Reference

namespace MicroAsm

/-! ## The lines of a source are in order -/

/-- Line numbers grow from one code line to the next. -/
theorem pairwise_number_codeLines (source : Text) :
    (codeLines source).Pairwise fun l m => l.number < m.number := by
  have hall : ((sourceLines source).map SourceLine.number).Pairwise (· < ·) := by
    rw [map_number_sourceLines]
    exact List.pairwise_lt_range'
  exact (List.pairwise_map.mp hall).sublist List.filter_sublist

theorem number_lt_of_lt {source : Text} {j k : Nat} {l m : SourceLine}
    (hl : (codeLines source)[j]? = some l) (hm : (codeLines source)[k]? = some m) (h : j < k) :
    l.number < m.number := by
  obtain ⟨hj, rfl⟩ := List.getElem?_eq_some_iff.mp hl
  obtain ⟨hk, rfl⟩ := List.getElem?_eq_some_iff.mp hm
  exact List.pairwise_iff_getElem.mp (pairwise_number_codeLines source) j k hj hk h

/-! ## The first line that fails -/

/-- What fails in more room fails in less. -/
theorem FailsAt.of_le {capacity larger : Nat} (hle : capacity ≤ larger) {lines : List SourceLine}
    {k : Nat} (h : FailsAt larger lines k) : FailsAt capacity lines k := by
  obtain ⟨line, hline, hwhy⟩ := h
  refine ⟨line, hline, ?_⟩
  rcases hwhy with hdefect | hover
  · exact Or.inl hdefect
  · exact Or.inr (Nat.lt_of_le_of_lt hle hover)

theorem faultOf_eq_overrun_iff {capacity n k : Nat} {line : SourceLine} :
    faultOf capacity line = .overrun n k ↔
      (∃ i, Instruction.parse line.text = .ok i) ∧ line.number = n ∧ capacity = k := by
  unfold faultOf
  cases Instruction.parse line.text with
  | error d => simp
  | ok i => simp

/-! ## More room -/

/-- What fits is placed alike in more room, and the fill grows. -/
theorem assemble_ok_of_le {source : Text} {capacity larger : Nat} (hle : capacity ≤ larger)
    {a : Assembly} (h : assemble source capacity = .ok a) :
    ∃ b, assemble source larger = .ok b ∧ b.instructions = a.instructions ∧
      b.image.used = a.image.used ∧
      b.image.bytes = a.image.bytes ++ List.replicate (larger - capacity) fillByte := by
  obtain ⟨program, hparse, hfit, rfl⟩ := assemble_eq_ok_iff.mp h
  have hlarger : (Program.bytes program).length ≤ larger := Nat.le_trans hfit hle
  have hfill : larger - (Program.bytes program).length =
      capacity - (Program.bytes program).length + (larger - capacity) := by omega
  refine ⟨_, assemble_eq_ok_iff.mpr ⟨program, hparse, hlarger, rfl⟩, rfl, rfl, ?_⟩
  rw [Assembly.bytes_placeAll_empty, Assembly.bytes_placeAll_empty, hfill, List.replicate_add,
    List.append_assoc]

/-- A defect is met in more room too. -/
theorem assemble_defect_of_le {source : Text} {capacity larger : Nat} (hle : capacity ≤ larger)
    {n : Nat} {d : Defect} (h : assemble source capacity = .error (.defect n d)) :
    assemble source larger = .error (.defect n d) := by
  obtain ⟨before, line, after, program, hlines, hparse, hfit, hrefuse⟩ :=
    assemble_eq_error_iff.mp h
  refine assemble_eq_error_iff.mpr
    ⟨before, line, after, program, hlines, hparse, Nat.le_trans hfit hle, ?_⟩
  rcases hrefuse with hdefect | ⟨i, -, -, hfault⟩
  · exact Or.inl hdefect
  · exact absurd hfault (by simp)

/-- After an overrun the line at fault, if there is one in more room, comes no earlier, and it
    comes later when it has a defect. -/
theorem fault_of_le {source : Text} {capacity larger : Nat} (hle : capacity ≤ larger) {n k : Nat}
    (h : assemble source capacity = .error (.overrun n k)) {f : Fault}
    (hf : assemble source larger = .error f) :
    (∃ m, n ≤ m ∧ f = .overrun m larger) ∨ ∃ m d, n < m ∧ f = .defect m d := by
  obtain ⟨j, line, hline, -, hfirst, hfault⟩ := exists_failsAt_of_error h
  obtain ⟨j', line', hline', hfails', -, rfl⟩ := exists_failsAt_of_error hf
  obtain ⟨⟨i, hi⟩, rfl, -⟩ := faultOf_eq_overrun_iff.mp hfault.symm
  have hlater : j ≤ j' := by
    by_contra hearlier
    exact hfirst j' (Nat.lt_of_not_le hearlier) (hfails'.of_le hle)
  rcases Nat.lt_or_eq_of_le hlater with hlt | rfl
  · have hnumber := number_lt_of_lt hline hline' hlt
    unfold faultOf
    cases Instruction.parse line'.text with
    | error d => exact Or.inr ⟨line'.number, d, hnumber, rfl⟩
    | ok i' => exact Or.inl ⟨line'.number, Nat.le_of_lt hnumber, rfl⟩
  · -- the same line: it parses, so it can only run over again
    obtain rfl : line = line' := Option.some.inj (hline.symm.trans hline')
    refine Or.inl ⟨line.number, Nat.le_refl _, ?_⟩
    exact faultOf_eq_overrun_iff.mpr ⟨⟨i, hi⟩, rfl, rfl⟩

/-! ## Room enough -/

theorem Assembly.exists_parses {lines : List SourceLine}
    (h : ∀ line ∈ lines, ∃ i, Instruction.parse line.text = .ok i) :
    ∃ program, Parses lines program := by
  induction lines with
  | nil => exact ⟨[], List.Forall₂.nil⟩
  | cons line lines ih =>
    obtain ⟨i, hi⟩ := h line (by simp)
    obtain ⟨program, hprogram⟩ := ih fun l hl => h l (by simp [hl])
    exact ⟨i :: program, List.Forall₂.cons hi hprogram⟩

/-- When no code line has a defect, the bytes of all of them decide. -/
theorem assemble_ok_iff_extent_le {source : Text} {capacity : Nat}
    (h : ∀ line ∈ codeLines source, ∃ i, Instruction.parse line.text = .ok i) :
    (∃ a, assemble source capacity = .ok a) ↔
      extent (codeLines source) (codeLines source).length ≤ capacity := by
  constructor
  · intro hassemble
    obtain ⟨a, ha⟩ := hassemble
    obtain ⟨program, hparse, hfit, -⟩ := assemble_eq_ok_iff.mp ha
    rwa [hparse.extent_length]
  · intro hfit
    obtain ⟨program, hparse⟩ := Assembly.exists_parses h
    rw [hparse.extent_length] at hfit
    exact ⟨_, assemble_eq_ok_iff.mpr ⟨program, hparse, hfit, rfl⟩⟩

/-- **Assembling in more room.**  What assembles stays as it is in front of a longer fill, a
    defect stays the same fault, and behind a line that ran over the capacity everything fits,
    or that line or a later one runs over the larger capacity, or a later one has a defect.
    A source without defects assembles exactly when the capacity holds the bytes of all its
    code lines. -/
theorem assemble_in_more_room (source : Text) {capacity larger : Nat} (hle : capacity ≤ larger) :
    (∀ a, assemble source capacity = .ok a →
        ∃ b, assemble source larger = .ok b ∧ b.instructions = a.instructions ∧
          b.image.used = a.image.used ∧
          b.image.bytes = a.image.bytes ++ List.replicate (larger - capacity) fillByte) ∧
      (∀ n d, assemble source capacity = .error (.defect n d) →
        assemble source larger = .error (.defect n d)) ∧
      (∀ n k, assemble source capacity = .error (.overrun n k) →
        (∃ b, assemble source larger = .ok b) ∨
          (∃ m, n ≤ m ∧ assemble source larger = .error (.overrun m larger)) ∨
          ∃ m d, n < m ∧ assemble source larger = .error (.defect m d)) ∧
      ((∀ line ∈ codeLines source, ∃ i, Instruction.parse line.text = .ok i) →
        ((∃ a, assemble source capacity = .ok a) ↔
          extent (codeLines source) (codeLines source).length ≤ capacity)) := by
  refine ⟨fun a => assemble_ok_of_le hle, fun n d => assemble_defect_of_le hle, ?_,
    assemble_ok_iff_extent_le⟩
  intro n k h
  cases hlarger : assemble source larger with
  | ok b => exact Or.inl ⟨b, rfl⟩
  | error f =>
    rcases fault_of_le hle h hlarger with ⟨m, hm, rfl⟩ | ⟨m, d, hm, rfl⟩
    · exact Or.inr (Or.inl ⟨m, hm, rfl⟩)
    · exact Or.inr (Or.inr ⟨m, d, hm, rfl⟩)

/-- The second line runs over three bytes; in four it fits, and the third has a defect. -/
theorem assemble_in_more_room_lim_page :
    assemble "lim r1, 1\npage 2\nnop x".toList 3 = .error (.overrun 2 3) ∧
      ((∃ b, assemble "lim r1, 1\npage 2\nnop x".toList 4 = .ok b) ∨
        (∃ m, 2 ≤ m ∧
          assemble "lim r1, 1\npage 2\nnop x".toList 4 = .error (.overrun m 4)) ∨
        ∃ m d, 2 < m ∧
          assemble "lim r1, 1\npage 2\nnop x".toList 4 = .error (.defect m d)) := by
  have h : assemble "lim r1, 1\npage 2\nnop x".toList 3 = .error (.overrun 2 3) := by
    decide +kernel
  exact ⟨h, (assemble_in_more_room _ (by decide)).2.2.1 2 3 h⟩

end MicroAsm
