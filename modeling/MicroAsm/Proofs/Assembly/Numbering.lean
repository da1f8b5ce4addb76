/-
  Line numbers.

  A source text is its lines joined by line feeds and numbered from 1, so the lines of
  two texts joined by a line feed are those of the one and, counted on, those of the
  other (`sourceLines_append`), and code lines that parse and fit assemble from the text
  that joins them (`assemble_intercalate`).  A run only copies the numbers of its lines into
  placements and faults: other numbers on the lines give the same run with other
  numbers (`foldlM_feed_renumber`).
-/
import MicroAsm.Proofs.Assembly.Run

namespace MicroAsm

/-! ## Numbered lines -/

/-- Lines with these texts, numbered from `number` on. -/
def numbered (number : Nat) (texts : List Text) : List SourceLine :=
  (texts.zipIdx number).map fun (text, n) => ⟨n, text⟩

theorem sourceLines_eq_numbered (source : Text) :
    sourceLines source = numbered 1 (source.splitOn '\n') := rfl

theorem numbered_cons (number : Nat) (t : Text) (texts : List Text) :
    numbered number (t :: texts) = ⟨number, t⟩ :: numbered (number + 1) texts := rfl

theorem numbered_append (number : Nat) (xs ys : List Text) :
    numbered number (xs ++ ys) = numbered number xs ++ numbered (number + xs.length) ys := by
  rw [numbered, List.zipIdx_append, List.map_append]
  rfl

/-- A text that is put together from lines is cut into these lines. -/
theorem sourceLines_intercalate {texts : List Text} (hne : texts ≠ [])
    (h : ∀ t ∈ texts, '\n' ∉ t) :
    sourceLines (['\n'].intercalate texts) = numbered 1 texts := by
  rw [sourceLines_eq_numbered, List.splitOn_intercalate '\n' h hne]

/-- A text that is put together from code lines has these code lines. -/
theorem codeLines_intercalate {texts : List Text}
    (hcode : ∀ t ∈ texts, ∀ n, SourceLine.IsCode ⟨n, t⟩) (hfeed : ∀ t ∈ texts, '\n' ∉ t) :
    codeLines (['\n'].intercalate texts) = numbered 1 texts := by
  by_cases hne : texts = []
  · -- no lines at all are one blank line
    subst hne
    rfl
  rw [codeLines, sourceLines_intercalate hne hfeed, List.filter_eq_self]
  intro line hline
  obtain ⟨⟨t, n⟩, hmem, rfl⟩ := List.mem_map.mp hline
  exact decide_eq_true (hcode t (List.fst_mem_of_mem_zipIdx hmem) n)

theorem parses_numbered {texts : List Text} {program : List Instruction}
    (h : List.Forall₂ (fun t i => Instruction.parse t = .ok i) texts program) (number : Nat) :
    Assembly.Parses (numbered number texts) program := by
  induction h generalizing number with
  | nil => exact List.Forall₂.nil
  | cons hi _ ih => exact List.Forall₂.cons hi (ih (number + 1))

/-- Code lines that parse and fit assemble from the text that is put together from them. -/
theorem assemble_intercalate {texts : List Text} {program : List Instruction}
    (h : List.Forall₂ (fun t i => Instruction.parse t = .ok i) texts program)
    (hcode : ∀ t ∈ texts, ∀ n, SourceLine.IsCode ⟨n, t⟩) (hfeed : ∀ t ∈ texts, '\n' ∉ t)
    {capacity : Nat} (hfit : (Program.bytes program).length ≤ capacity) :
    assemble (['\n'].intercalate texts) capacity =
      .ok ((Assembly.empty capacity).placeAll (numbered 1 texts) program) := by
  refine assemble_eq_ok_iff.mpr ⟨program, ?_, hfit, ?_⟩
  · rw [codeLines_intercalate hcode hfeed]
    exact parses_numbered h 1
  · rw [codeLines_intercalate hcode hfeed]

/-- A text has a line more than line feeds. -/
theorem length_splitOn (t : Text) : (t.splitOn '\n').length = t.count '\n' + 1 := by
  induction t with
  | nil => rfl
  | cons c t ih =>
    rw [List.splitOn_cons_eq_if_modifyHead, List.count_cons]
    split
    · rw [List.length_cons, ih]
    · rw [List.length_modifyHead, ih]

/-! ## Other numbers on the same lines -/

/-- The line with another number on it. -/
def SourceLine.renumber (f : Nat → Nat) (line : SourceLine) : SourceLine :=
  { line with number := f line.number }

/-- The placement with another number for its line. -/
def Placement.renumber (f : Nat → Nat) (p : Placement) : Placement := { p with line := f p.line }

/-- The fault with another number for its line. -/
def Fault.renumber (f : Nat → Nat) : Fault → Fault
  | .defect n d => .defect (f n) d
  | .overrun n capacity => .overrun (f n) capacity

/-- The assembly with other line numbers; its image is the same. -/
def Assembly.renumber (f : Nat → Nat) (a : Assembly) : Assembly :=
  { a with instructions := a.instructions.map (Placement.renumber f) }

theorem numbered_add (number k : Nat) (texts : List Text) :
    numbered (number + k) texts = (numbered number texts).map (.renumber (· + k)) := by
  induction texts generalizing number with
  | nil => rfl
  | cons t texts ih =>
    rw [numbered_cons, numbered_cons, List.map_cons, ← ih, Nat.add_right_comm]
    rfl

/-- Behind a line feed the lines of a text are counted on. -/
theorem sourceLines_append (s₁ s₂ : Text) :
    sourceLines (s₁ ++ '\n' :: s₂) =
      sourceLines s₁ ++ (sourceLines s₂).map (.renumber (· + (s₁.count '\n' + 1))) := by
  rw [sourceLines_eq_numbered, List.splitOn_append_cons_self, numbered_append, numbered_add,
    length_splitOn]
  rfl

namespace Assembly

theorem renumber_empty (f : Nat → Nat) (capacity : Nat) :
    (empty capacity).renumber f = empty capacity := by
  simp [renumber, empty]

theorem renumber_place (f : Nat → Nat) (a : Assembly) (line : SourceLine) (i : Instruction) :
    (a.place line i).renumber f = (a.renumber f).place (line.renumber f) i := by
  simp [renumber, place, SourceLine.renumber, Placement.renumber]

/-- One line more, with other numbers. -/
theorem feed_renumber (f : Nat → Nat) (a : Assembly) (line : SourceLine) :
    (a.renumber f).feed (line.renumber f) =
      ((a.feed line).map (renumber f)).mapError (.renumber f) :=
  feed_eq_map Iff.rfl rfl rfl rfl (fun i => (renumber_place f a line i).symm) (fun _ => rfl) rfl

/-- A run over lines with other numbers. -/
theorem foldlM_feed_renumber (f : Nat → Nat) (lines : List SourceLine) (capacity : Nat) :
    (lines.map (.renumber f)).foldlM feed (empty capacity) =
      ((lines.foldlM feed (empty capacity)).map (renumber f)).mapError (.renumber f) := by
  have hrun := foldlM_map_of_step (fun _ => True) (fun _ _ _ _ _ => trivial)
    (fun a line _ => feed_renumber f a line) lines (s := empty capacity) trivial
  rwa [renumber_empty] at hrun

end Assembly

end MicroAsm
