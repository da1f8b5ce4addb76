/-
  The layout of a source.

  Blanks around a line change neither what it holds nor the text that is kept of it, so
  they do not change what a source comes to (`assemble_padded`).  Lines without code may
  stand anywhere between the others; they only shift the numbers of the lines below them
  (`assemble_woven`).
-/
import MicroAsm.Proofs.Assembly.Numbering
import MicroAsm.Proofs.Assembly.Reference
import MicroAsm.Proofs.Statement.Margins

namespace MicroAsm

open Text (Blanks isBlank)

/-! ## Blanks around lines -/

/-- A line and the blanks around it. -/
structure PaddedLine where
  before : Text
  line : Text
  after : Text
  blanks_before : Blanks before
  blanks_after : Blanks after
  no_feed : '\n' ∉ before ++ (line ++ after)

/-- The line with its blanks. -/
def PaddedLine.text (p : PaddedLine) : Text := p.before ++ (p.line ++ p.after)

/-- Blanks behind a text are no part of a comment mark. -/
theorem slashes_prefix_append_blanks {w : Text} (hw : Blanks w) (t : Text) :
    ['/', '/'] <+: t ++ w ↔ ['/', '/'] <+: t := by
  have hslash : ∀ c ∈ w, c ≠ '/' := by
    rintro c hc rfl
    exact absurd (hw '/' hc) (by decide)
  constructor
  · intro hcomment
    obtain ⟨rest, hrest⟩ := hcomment
    -- a mark that reached into the blanks would put a slash among them
    rcases t with _ | ⟨c, _ | ⟨d, t⟩⟩
    · obtain rfl : '/' :: '/' :: rest = w := hrest
      exact absurd rfl (hslash '/' (by simp))
    · obtain rfl : '/' :: rest = w := (List.cons.inj hrest).2
      exact absurd rfl (hslash '/' (by simp))
    · obtain ⟨rfl, htail⟩ := List.cons.inj hrest
      obtain ⟨rfl, -⟩ := List.cons.inj htail
      exact ⟨t, rfl⟩
  · intro hcomment
    exact hcomment.trans (List.prefix_append t w)

namespace PaddedLine

theorem trim_text (p : PaddedLine) : Text.trim p.text = Text.trim p.line := by
  unfold text Text.trim
  rw [Text.trimStart_blanks_append p.blanks_before]
  exact Text.trim_append_blanks p.blanks_after p.line

theorem isCode_text (p : PaddedLine) (n : Nat) :
    SourceLine.IsCode ⟨n, p.text⟩ ↔ SourceLine.IsCode ⟨n, p.line⟩ := by
  have hblanks : Blanks p.text ↔ Blanks p.line := by
    simp [text, Text.blanks_append, p.blanks_before, p.blanks_after]
  obtain ⟨w, hw, htrim⟩ := Text.exists_trimStart_append_blanks p.blanks_after p.line
  have htext : Text.trimStart p.text = Text.trimStart p.line ++ w := by
    rw [text, Text.trimStart_blanks_append p.blanks_before, htrim]
  unfold SourceLine.IsCode
  dsimp only
  rw [ne_eq, ne_eq, Text.trimStart_eq_nil_iff, Text.trimStart_eq_nil_iff, hblanks, htext,
    slashes_prefix_append_blanks hw]

/-- A line is fed alike with and without blanks around it. -/
theorem feed_text (p : PaddedLine) (n : Nat) (a : Assembly) :
    a.feed ⟨n, p.text⟩ = a.feed ⟨n, p.line⟩ := by
  have hplace : ∀ i, a.place ⟨n, p.text⟩ i = id (a.place ⟨n, p.line⟩ i) := by
    intro i
    unfold Assembly.place
    rw [trim_text]
    rfl
  have hparse := Instruction.parse_blanks_around p.blanks_before p.blanks_after p.line
  have hfeed : a.feed ⟨n, p.text⟩ = ((a.feed ⟨n, p.line⟩).map id).mapError id :=
    Assembly.feed_eq_map (isCode_text p n) hparse rfl rfl hplace (fun _ => rfl) rfl
  rw [hfeed]
  cases a.feed ⟨n, p.line⟩ with
  | error f => rfl
  | ok b => rfl

theorem foldlM_feed_text (lines : List PaddedLine) (n : Nat) (a : Assembly) :
    (numbered n (lines.map text)).foldlM Assembly.feed a =
      (numbered n (lines.map line)).foldlM Assembly.feed a := by
  induction lines generalizing n a with
  | nil => rfl
  | cons p lines ih =>
    simp only [List.map_cons, numbered_cons, List.foldlM_cons, feed_text, ih]

end PaddedLine

/-- Blanks around its lines do not change what a source comes to. -/
theorem assemble_padded (lines : List PaddedLine) (capacity : Nat) :
    assemble (['\n'].intercalate (lines.map PaddedLine.text)) capacity =
      assemble (['\n'].intercalate (lines.map PaddedLine.line)) capacity := by
  by_cases hne : lines = []
  · rw [hne]
    rfl
  have htext : ∀ t ∈ lines.map PaddedLine.text, '\n' ∉ t := by
    intro t ht
    obtain ⟨p, -, rfl⟩ := List.mem_map.mp ht
    exact p.no_feed
  have hline : ∀ t ∈ lines.map PaddedLine.line, '\n' ∉ t := by
    intro t ht hfeed
    obtain ⟨p, -, rfl⟩ := List.mem_map.mp ht
    exact p.no_feed (by simp [hfeed])
  unfold assemble
  rw [sourceLines_intercalate (by simpa using hne) htext,
    sourceLines_intercalate (by simpa using hne) hline]
  exact PaddedLine.foldlM_feed_text lines 1 _

/-! ## Lines without code -/

/-- A line without code: it is blank, or a comment. -/
structure Remark where
  text : Text
  no_feed : '\n' ∉ text
  idle : Blanks text ∨ ['/', '/'] <+: Text.trimStart text

theorem Remark.not_isCode (r : Remark) (n : Nat) : ¬ SourceLine.IsCode ⟨n, r.text⟩ := by
  intro hcode
  obtain ⟨hne, hslash⟩ := hcode
  rcases r.idle with hblank | hcomment
  · exact hne (Text.trimStart_eq_nil_iff.mpr hblank)
  · exact hslash hcomment

/-- The lines `texts`, the first of them line `n + 1`, with the remarks `gap k` behind each
    line `k` and `gap n` in front of them all. -/
def weave (gap : Nat → List Remark) (n : Nat) : List Text → List Text
  | [] => (gap n).map Remark.text
  | t :: texts => (gap n).map Remark.text ++ t :: weave gap (n + 1) texts

/-- The source with the remarks `gap k` behind its line `k`, and `gap 0` in front. -/
def woven (gap : Nat → List Remark) (source : Text) : Text :=
  ['\n'].intercalate (weave gap 0 (source.splitOn '\n'))

/-- How many remarks stand above line `n`. -/
def remarksAbove (gap : Nat → List Remark) : Nat → Nat
  | 0 => 0
  | n + 1 => remarksAbove gap n + (gap n).length

theorem weave_ne_nil (gap : Nat → List Remark) (n : Nat) {texts : List Text} (h : texts ≠ []) :
    weave gap n texts ≠ [] := by
  obtain ⟨t, rest, rfl⟩ := List.exists_cons_of_ne_nil h
  simp [weave]

theorem newline_notMem_of_mem_weave (gap : Nat → List Remark) (n : Nat) {texts : List Text}
    (h : ∀ t ∈ texts, '\n' ∉ t) : ∀ t ∈ weave gap n texts, '\n' ∉ t := by
  have hgap : ∀ k, ∀ t ∈ (gap k).map Remark.text, '\n' ∉ t := by
    intro k t ht
    obtain ⟨r, -, rfl⟩ := List.mem_map.mp ht
    exact r.no_feed
  induction texts generalizing n with
  | nil => exact hgap n
  | cons first texts ih =>
    intro t ht
    rw [weave, List.mem_append, List.mem_cons] at ht
    rcases ht with ht | rfl | ht
    · exact hgap n t ht
    · exact h t (by simp)
    · exact ih (n + 1) (fun u hu => h u (by simp [hu])) t ht

theorem filter_isCode_remarks (remarks : List Remark) (n : Nat) :
    (numbered n (remarks.map Remark.text)).filter (fun line => decide line.IsCode) = [] := by
  induction remarks generalizing n with
  | nil => rfl
  | cons r remarks ih =>
    rw [List.map_cons, numbered_cons, List.filter_cons_of_neg (by simpa using r.not_isCode n), ih]

/-- Between remarks stand the same code lines, each shifted by the remarks above it. -/
theorem filter_isCode_weave (gap : Nat → List Remark) (n : Nat) (texts : List Text) :
    (numbered (n + 1 + remarksAbove gap n) (weave gap n texts)).filter
        (fun line => decide line.IsCode) =
      ((numbered (n + 1) texts).filter fun line => decide line.IsCode).map
        (.renumber fun k => k + remarksAbove gap k) := by
  induction texts generalizing n with
  | nil => exact filter_isCode_remarks (gap n) _
  | cons t texts ih =>
    have hhere : n + 1 + remarksAbove gap n + (gap n).length =
        n + 1 + remarksAbove gap (n + 1) := by
      rw [remarksAbove]
      omega
    have hnext : n + 1 + remarksAbove gap (n + 1) + 1 =
        n + 1 + 1 + remarksAbove gap (n + 1) := by omega
    rw [weave, numbered_append, List.length_map, hhere, List.filter_append,
      filter_isCode_remarks, List.nil_append, numbered_cons, numbered_cons, hnext]
    by_cases hcode : SourceLine.IsCode ⟨n + 1, t⟩
    · have hshifted : SourceLine.IsCode ⟨n + 1 + remarksAbove gap (n + 1), t⟩ := hcode
      rw [List.filter_cons_of_pos (by simpa using hshifted),
        List.filter_cons_of_pos (by simpa using hcode), ih, List.map_cons]
      rfl
    · have hshifted : ¬ SourceLine.IsCode ⟨n + 1 + remarksAbove gap (n + 1), t⟩ := hcode
      rw [List.filter_cons_of_neg (by simpa using hshifted),
        List.filter_cons_of_neg (by simpa using hcode), ih]

theorem codeLines_woven (gap : Nat → List Remark) (source : Text) :
    codeLines (woven gap source) =
      (codeLines source).map (.renumber fun n => n + remarksAbove gap n) := by
  have hne := weave_ne_nil gap 0 (List.splitOn_ne_nil '\n' source)
  have hfeed := newline_notMem_of_mem_weave gap 0 (not_mem_of_mem_splitOn source)
  unfold codeLines woven
  rw [sourceLines_intercalate hne hfeed]
  exact filter_isCode_weave gap 0 (source.splitOn '\n')

/-- Remarks between its lines only shift the numbers in what a source comes to. -/
theorem assemble_woven (gap : Nat → List Remark) (source : Text) (capacity : Nat) :
    assemble (woven gap source) capacity =
      ((assemble source capacity).map
          (.renumber fun n => n + remarksAbove gap n)).mapError
        (.renumber fun n => n + remarksAbove gap n) := by
  rw [assemble_eq_foldlM, codeLines_woven, Assembly.foldlM_feed_renumber, ← assemble_eq_foldlM]

/-- **Layout does not matter.**  Blanks around the lines of a source change nothing at all.
    Remarks between them leave the image and the addresses, bytes and source texts of the
    instructions as they are; the line of an instruction or of the fault is raised by the
    number of remarks above it. -/
theorem assemble_ignores_layout (capacity : Nat) :
    (∀ lines : List PaddedLine,
        assemble (['\n'].intercalate (lines.map PaddedLine.text)) capacity =
          assemble (['\n'].intercalate (lines.map PaddedLine.line)) capacity) ∧
      ∀ (source : Text) (gap : Nat → List Remark),
        assemble (woven gap source) capacity =
          ((assemble source capacity).map
              (.renumber fun n => n + remarksAbove gap n)).mapError
            (.renumber fun n => n + remarksAbove gap n) :=
  ⟨fun lines => assemble_padded lines capacity,
    fun source gap => assemble_woven gap source capacity⟩

/-- A blank line and a comment above two instructions and a comment between them: the bytes
    stay, and the lines move from 1 and 2 to 3 and 5. -/
theorem assemble_ignores_layout_lim_push :
    ∃ (lines : List PaddedLine) (gap : Nat → List Remark),
      ['\n'].intercalate (lines.map PaddedLine.line) = "lim r2, 10\npush r2".toList ∧
      woven gap (['\n'].intercalate (lines.map PaddedLine.text)) =
        "\t\n // note\n\tlim r2, 10 \r\n//\npush r2 ".toList ∧
      assemble (woven gap (['\n'].intercalate (lines.map PaddedLine.text))) 4 =
        .ok ⟨⟨4, #[0x90, 0x0A, 0x50]⟩, #[⟨0, 3, [0x90, 0x0A], "lim r2, 10".toList⟩,
          ⟨2, 5, [0x50], "push r2".toList⟩]⟩ := by
  have hplain : assemble "lim r2, 10\npush r2".toList 4 =
      .ok ⟨⟨4, #[0x90, 0x0A, 0x50]⟩, #[⟨0, 1, [0x90, 0x0A], "lim r2, 10".toList⟩,
        ⟨2, 2, [0x50], "push r2".toList⟩]⟩ := by decide +kernel
  obtain ⟨lines, hline, htext⟩ : ∃ lines : List PaddedLine,
      ['\n'].intercalate (lines.map PaddedLine.line) = "lim r2, 10\npush r2".toList ∧
      ['\n'].intercalate (lines.map PaddedLine.text) = "\tlim r2, 10 \r\npush r2 ".toList :=
    ⟨[⟨['\t'], "lim r2, 10".toList, [' ', '\r'], by decide, by decide, by decide⟩,
      ⟨[], "push r2".toList, [' '], by decide, by decide, by decide⟩], rfl, rfl⟩
  obtain ⟨gap, hgap, hfirst, hsecond⟩ : ∃ gap : Nat → List Remark,
      woven gap "\tlim r2, 10 \r\npush r2 ".toList =
        "\t\n // note\n\tlim r2, 10 \r\n//\npush r2 ".toList ∧
      remarksAbove gap 1 = 2 ∧ remarksAbove gap 2 = 3 :=
    ⟨([[⟨['\t'], by decide, by decide⟩, ⟨" // note".toList, by decide, by decide⟩],
        [⟨['/', '/'], by decide, by decide⟩]].getD · []), rfl, rfl, rfl⟩
  obtain ⟨hpadded, hwoven⟩ := assemble_ignores_layout 4
  refine ⟨lines, gap, hline, ?_, ?_⟩
  · rw [htext, hgap]
  · rw [hwoven, hpadded, hline, hplain]
    simp [Except.map, Except.mapError, Assembly.renumber, Placement.renumber, hfirst, hsecond]

end MicroAsm
