/-
  What a run of the assembler does.

  Lines without code change nothing, so a run over a source is a run over its code
  lines.  One code line either adds its instruction at the cursor or fails; a run
  over code lines succeeds when every line parses and all the bytes fit, and fails at
  the first line that does not parse or fit (`assemble_eq_ok_iff`,
  `assemble_eq_error_iff`).
-/
import MicroAsm.Assembly.Basic
import MicroAsm.Proofs.Machine.Walk
import MicroAsm.Proofs.Outcome
import MicroAsm.Proofs.Statement.LineForm

namespace MicroAsm

/-! ## Code lines -/

/-- A line with code: something stands on it, and that does not start with `//`. -/
def SourceLine.IsCode (line : SourceLine) : Prop :=
  Text.trimStart line.text ≠ [] ∧ ¬ ['/', '/'] <+: Text.trimStart line.text

instance : DecidablePred SourceLine.IsCode :=
  fun line => inferInstanceAs (Decidable (Text.trimStart line.text ≠ [] ∧ _))

/-- The code lines of a source text, with the numbers they have in it. -/
def codeLines (source : Text) : List SourceLine :=
  (sourceLines source).filter fun line => decide line.IsCode

theorem SourceLine.kind_of_isCode {line : SourceLine} (h : line.IsCode) :
    line.kind = .code (Text.trimStart line.text) := by
  obtain ⟨hne, hslash⟩ := h
  unfold SourceLine.kind LineKind.of
  split
  · next hnil => exact absurd hnil hne
  · next rest hcomment =>
    rw [hcomment] at hslash
    exact absurd (by simp) hslash
  · rfl

theorem SourceLine.kind_of_not_isCode {line : SourceLine} (h : ¬ line.IsCode) :
    line.kind = .blank ∨ ∃ text, line.kind = .comment text := by
  unfold SourceLine.kind LineKind.of
  split
  · exact Or.inl rfl
  · exact Or.inr ⟨_, rfl⟩
  · next hnil hcomment =>
    refine absurd ⟨hnil, ?_⟩ h
    intro hslashes
    obtain ⟨rest, hrest⟩ := hslashes
    exact hcomment rest hrest.symm

/-- Parsing skips the blanks that classifying a line takes away. -/
theorem Instruction.parse_trimStart (t : Text) : parse (Text.trimStart t) = parse t := by
  rw [parse, parse, Statement.split?_trimStart]

/-! ## One line -/

namespace Assembly

/-- The assembly with the instruction of a line placed at the cursor. -/
def place (a : Assembly) (line : SourceLine) (i : Instruction) : Assembly :=
  ⟨⟨a.image.capacity, a.image.used ++ i.bytes⟩,
    a.instructions.push ⟨a.image.cursor, line.number, i.bytes, Text.trim line.text⟩⟩

theorem feed_of_not_isCode {line : SourceLine} (h : ¬ line.IsCode) (a : Assembly) :
    a.feed line = .ok a := by
  rcases SourceLine.kind_of_not_isCode h with hkind | ⟨text, hkind⟩
  · rw [feed, offer, hkind]
  · rw [feed, offer, hkind]

/-- A code line with a defect fails with it. -/
theorem feed_of_defect {line : SourceLine} (h : line.IsCode) {d : Defect}
    (hd : Instruction.parse line.text = .error d) (a : Assembly) :
    a.feed line = .error (.defect line.number d) := by
  rw [← Instruction.parse_trimStart] at hd
  simp only [feed, offer, SourceLine.kind_of_isCode h, hd]

/-- An instruction that fits is placed. -/
theorem feed_of_le {line : SourceLine} (h : line.IsCode) {i : Instruction}
    (hi : Instruction.parse line.text = .ok i) {a : Assembly}
    (hfit : i.bytes.length ≤ a.image.remaining) : a.feed line = .ok (a.place line i) := by
  rw [← Instruction.parse_trimStart] at hi
  simp only [feed, offer, SourceLine.kind_of_isCode h, hi, Image.push_of_le hfit]
  rfl

/-- An instruction that does not fit is refused. -/
theorem feed_of_lt {line : SourceLine} (h : line.IsCode) {i : Instruction}
    (hi : Instruction.parse line.text = .ok i) {a : Assembly}
    (hfit : a.image.remaining < i.bytes.length) :
    a.feed line = .error (.overrun line.number a.image.capacity) := by
  rw [← Instruction.parse_trimStart] at hi
  simp only [feed, offer, SourceLine.kind_of_isCode h, hi, Image.push_of_lt hfit]

/-- Two lines with the same code, fed where the same room is left, are placed or refused alike:
    `onState` and `onFault` take what the one leads to over to what the other leads to. -/
theorem feed_eq_map {a b : Assembly} {l m : SourceLine} {onState : Assembly → Assembly}
    {onFault : Fault → Fault} (hcode : m.IsCode ↔ l.IsCode)
    (hparse : Instruction.parse m.text = Instruction.parse l.text)
    (hroom : b.image.remaining = a.image.remaining) (hstate : b = onState a)
    (hplace : ∀ i, b.place m i = onState (a.place l i))
    (hdefect : ∀ d, .defect m.number d = onFault (.defect l.number d))
    (hoverrun : .overrun m.number b.image.capacity =
      onFault (.overrun l.number a.image.capacity)) :
    b.feed m = ((a.feed l).map onState).mapError onFault := by
  by_cases h : l.IsCode
  · have hm : m.IsCode := hcode.mpr h
    cases hp : Instruction.parse l.text with
    | error d =>
      rw [feed_of_defect hm (hparse.trans hp), feed_of_defect h hp, hdefect]
      rfl
    | ok i =>
      by_cases hfit : i.bytes.length ≤ a.image.remaining
      · rw [feed_of_le hm (hparse.trans hp) (hroom ▸ hfit), feed_of_le h hp hfit, hplace]
        rfl
      · have hfull := Nat.lt_of_not_le hfit
        rw [feed_of_lt hm (hparse.trans hp) (hroom ▸ hfull), feed_of_lt h hp hfull, hoverrun]
        rfl
  · rw [feed_of_not_isCode (hcode.not.mpr h), feed_of_not_isCode h, hstate]
    rfl

theorem feed_eq_ok_iff {line : SourceLine} (h : line.IsCode) {a b : Assembly} :
    a.feed line = .ok b ↔ ∃ i, Instruction.parse line.text = .ok i ∧
      i.bytes.length ≤ a.image.remaining ∧ a.place line i = b := by
  cases hp : Instruction.parse line.text with
  | error d => simp [feed_of_defect h hp]
  | ok i =>
    by_cases hfit : i.bytes.length ≤ a.image.remaining
    · simp [feed_of_le h hp hfit, hfit]
    · simp [feed_of_lt h hp (Nat.lt_of_not_le hfit), hfit]

/-- Why `line` cannot be placed when only `room` bytes are left, and the fault it makes. -/
def Refuses (room capacity : Nat) (line : SourceLine) (f : Fault) : Prop :=
  (∃ d, Instruction.parse line.text = .error d ∧ .defect line.number d = f) ∨
    ∃ i, Instruction.parse line.text = .ok i ∧ room < i.bytes.length ∧
      .overrun line.number capacity = f

theorem feed_eq_error_iff {line : SourceLine} (h : line.IsCode) {a : Assembly} {f : Fault} :
    a.feed line = .error f ↔ Refuses a.image.remaining a.image.capacity line f := by
  unfold Refuses
  cases hp : Instruction.parse line.text with
  | error d => simp [feed_of_defect h hp]
  | ok i =>
    by_cases hfit : i.bytes.length ≤ a.image.remaining
    · simp [feed_of_le h hp hfit, Nat.not_lt_of_le hfit]
    · simp [feed_of_lt h hp (Nat.lt_of_not_le hfit), Nat.lt_of_not_le hfit]

/-! ## Runs -/

theorem foldlM_feed_filter (lines : List SourceLine) (a : Assembly) :
    lines.foldlM feed a = (lines.filter fun line => decide line.IsCode).foldlM feed a := by
  induction lines generalizing a with
  | nil => rfl
  | cons line lines ih =>
    by_cases h : line.IsCode
    · rw [List.filter_cons_of_pos (by simpa using h), List.foldlM_cons, List.foldlM_cons]
      cases a.feed line with
      | error f => rfl
      | ok b => exact ih b
    · rw [List.filter_cons_of_neg (by simpa using h), List.foldlM_cons, feed_of_not_isCode h]
      exact ih a

/-- The instructions of code lines, placed one after another from `address` on. -/
def placements (address : Nat) : List SourceLine → List Instruction → List Placement
  | line :: lines, i :: program =>
    ⟨address, line.number, i.bytes, Text.trim line.text⟩ ::
      placements (address + i.bytes.length) lines program
  | _, _ => []

/-- The assembly with the instructions of code lines placed from the cursor on. -/
def placeAll (a : Assembly) (lines : List SourceLine) (program : List Instruction) : Assembly :=
  ⟨⟨a.image.capacity, a.image.used ++ Program.bytes program⟩,
    a.instructions ++ placements a.image.cursor lines program⟩

theorem size_append_list {α : Type} (xs : Array α) (l : List α) :
    (xs ++ l).size = xs.size + l.length := by
  rw [← Array.length_toList, Array.toList_appendList, List.length_append, Array.length_toList]

theorem placeAll_nil (a : Assembly) : a.placeAll [] [] = a := by
  simp [placeAll, placements]

theorem placeAll_place (a : Assembly) (line : SourceLine) (i : Instruction)
    (lines : List SourceLine) (program : List Instruction) :
    (a.place line i).placeAll lines program = a.placeAll (line :: lines) (i :: program) := by
  have hused : a.image.used ++ i.bytes ++ Program.bytes program =
      a.image.used ++ Program.bytes (i :: program) := Array.ext' (by simp)
  simp [placeAll, place, placements, Image.cursor, size_append_list, hused]

theorem remaining_place (a : Assembly) (line : SourceLine) (i : Instruction) :
    (a.place line i).image.remaining = a.image.remaining - i.bytes.length := by
  simp only [place, Image.remaining, Image.cursor, size_append_list]
  omega

/-- The instruction that each line parses to. -/
def Parses (lines : List SourceLine) (program : List Instruction) : Prop :=
  List.Forall₂ (fun line i => Instruction.parse line.text = .ok i) lines program

/-- A run over code lines succeeds when all of them parse and all the bytes fit. -/
theorem foldlM_feed_eq_ok_iff {lines : List SourceLine} (h : ∀ line ∈ lines, line.IsCode)
    {a b : Assembly} : lines.foldlM feed a = .ok b ↔
      ∃ program, Parses lines program ∧
        (Program.bytes program).length ≤ a.image.remaining ∧ a.placeAll lines program = b := by
  induction lines generalizing a with
  | nil =>
    constructor
    · intro hb
      refine ⟨[], List.Forall₂.nil, Nat.zero_le _, ?_⟩
      rw [placeAll_nil]
      exact Except.ok.inj hb
    · intro hfits
      obtain ⟨program, hparse, -, rfl⟩ := hfits
      obtain rfl : program = [] := List.forall₂_nil_left_iff.mp hparse
      rw [placeAll_nil]
      rfl
  | cons line lines ih =>
    have hcode : line.IsCode := h line (by simp)
    have ih := @ih fun l hl => h l (by simp [hl])
    rw [List.foldlM_cons, bind_eq_ok_iff]
    constructor
    · intro hstep
      obtain ⟨next, hnext, hrun⟩ := hstep
      obtain ⟨i, hi, hfit, rfl⟩ := (feed_eq_ok_iff hcode).mp hnext
      obtain ⟨program, hparse, htotal, rfl⟩ := ih.mp hrun
      refine ⟨i :: program, List.Forall₂.cons hi hparse, ?_, (placeAll_place ..).symm⟩
      rw [remaining_place] at htotal
      rw [Program.bytes_cons, List.length_append]
      omega
    · intro hfits
      obtain ⟨program, hparse, htotal, rfl⟩ := hfits
      obtain ⟨i, rest, hi, hrest, rfl⟩ := List.forall₂_cons_left_iff.mp hparse
      rw [Program.bytes_cons, List.length_append] at htotal
      have hfit : i.bytes.length ≤ a.image.remaining := by omega
      refine ⟨a.place line i, feed_of_le hcode hi hfit, ?_⟩
      refine ih.mpr ⟨rest, hrest, ?_, placeAll_place ..⟩
      rw [remaining_place]
      omega

theorem remaining_placeAll (a : Assembly) (lines : List SourceLine) (program : List Instruction) :
    (a.placeAll lines program).image.remaining =
      a.image.remaining - (Program.bytes program).length := by
  simp only [placeAll, Image.remaining, Image.cursor, size_append_list]
  omega

/-- A run over code lines fails at the first line that does not parse or fit. -/
theorem foldlM_feed_eq_error_iff {lines : List SourceLine} (h : ∀ line ∈ lines, line.IsCode)
    {a : Assembly} {f : Fault} : lines.foldlM feed a = .error f ↔
      ∃ before line after program, lines = before ++ line :: after ∧ Parses before program ∧
        (Program.bytes program).length ≤ a.image.remaining ∧
        Refuses (a.image.remaining - (Program.bytes program).length) a.image.capacity line f := by
  rw [foldlM_eq_error_iff]
  constructor
  · intro hstop
    obtain ⟨before, line, after, t, rfl, hrun, hfeed⟩ := hstop
    have hbefore : ∀ l ∈ before, l.IsCode := fun l hl => h l (by simp [hl])
    have hcode : line.IsCode := h line (by simp)
    obtain ⟨program, hparse, hfit, rfl⟩ := (foldlM_feed_eq_ok_iff hbefore).mp hrun
    rw [feed_eq_error_iff hcode, remaining_placeAll] at hfeed
    exact ⟨before, line, after, program, rfl, hparse, hfit, hfeed⟩
  · intro hstop
    obtain ⟨before, line, after, program, rfl, hparse, hfit, hrefuse⟩ := hstop
    have hbefore : ∀ l ∈ before, l.IsCode := fun l hl => h l (by simp [hl])
    have hcode : line.IsCode := h line (by simp)
    refine ⟨before, line, after, a.placeAll before program, rfl, ?_, ?_⟩
    · exact (foldlM_feed_eq_ok_iff hbefore).mpr ⟨program, hparse, hfit, rfl⟩
    · rw [feed_eq_error_iff hcode, remaining_placeAll]
      exact hrefuse

end Assembly

/-! ## Whole sources -/

theorem isCode_of_mem_codeLines {source : Text} {line : SourceLine}
    (h : line ∈ codeLines source) : line.IsCode := by
  simpa using (List.mem_filter.mp h).2

theorem assemble_eq_foldlM (source : Text) (capacity : Nat) :
    assemble source capacity = (codeLines source).foldlM Assembly.feed (Assembly.empty capacity) :=
  Assembly.foldlM_feed_filter _ _

theorem assemble_eq_ok_iff {source : Text} {capacity : Nat} {a : Assembly} :
    assemble source capacity = .ok a ↔
      ∃ program, Assembly.Parses (codeLines source) program ∧
        (Program.bytes program).length ≤ capacity ∧
        (Assembly.empty capacity).placeAll (codeLines source) program = a := by
  rw [assemble_eq_foldlM,
    Assembly.foldlM_feed_eq_ok_iff fun _ => isCode_of_mem_codeLines]
  exact Iff.rfl

theorem capacity_of_assemble {source : Text} {capacity : Nat} {a : Assembly}
    (h : assemble source capacity = .ok a) : a.image.capacity = capacity := by
  obtain ⟨program, -, -, rfl⟩ := assemble_eq_ok_iff.mp h
  rfl

theorem assemble_eq_error_iff {source : Text} {capacity : Nat} {f : Fault} :
    assemble source capacity = .error f ↔
      ∃ before line after program, codeLines source = before ++ line :: after ∧
        Assembly.Parses before program ∧ (Program.bytes program).length ≤ capacity ∧
        Assembly.Refuses (capacity - (Program.bytes program).length) capacity line f := by
  rw [assemble_eq_foldlM,
    Assembly.foldlM_feed_eq_error_iff fun _ => isCode_of_mem_codeLines]
  exact Iff.rfl

end MicroAsm
