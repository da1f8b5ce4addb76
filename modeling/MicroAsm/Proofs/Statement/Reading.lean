/-
  Code lines by their grammar.

  The rule of a statement is a sequence of parts with blanks between them: a word, everything
  behind it, and the end of the text.  It fails on blank texts only, and what its parts take is
  what `Statement.split?` cuts off (`readStatement_eq_split?`).  Every operand field matches the
  rule of its format, so a line read rule by rule comes to what parsing makes of it
  (`parse_eq_parse`), and only on a blank line is there a rule that fails
  (`parse_eq_noMnemonic_iff`).
-/
import MicroAsm.Proofs.Statement.Grammar
import MicroAsm.Proofs.Statement.Leftmost

namespace MicroAsm

open Text (Blanks StopsAt isBlank)
open Statement (isWordChar)

namespace Grammar

/-! ## The parts of a sequence -/

/-- What a match takes of `t`. -/
def Match.taken (t : Text) (m : Match) : Text := t.take (t.length - m.rest.length)

/-- The texts that the parts of a sequence take, without the blanks between them. -/
def Pattern.parts? (whole : Text) : Pattern → Text → Option (List Text)
  | spaced first second, t =>
    (first.take? whole t).bind fun m =>
      (second.parts? whole (Text.trimStart m.rest)).map (m.taken t :: ·)
  | part, t => (part.take? whole t).map fun m => [m.taken t]

theorem taken_append (found : List (Piece × Text)) (front rest : Text) :
    Match.taken (front ++ rest) ⟨found, rest⟩ = front := take_length_sub front rest

section

variable {whole t : Text} {first second : Pattern}

theorem parts?_spaced {m : Match} {texts : List Text} (h : first.take? whole t = some m)
    (h' : second.parts? whole (Text.trimStart m.rest) = some texts) :
    (Pattern.spaced first second).parts? whole t = some (m.taken t :: texts) := by
  rw [Pattern.parts?, h, Option.bind_some, h', Option.map_some]

theorem parts?_spaced_of_first (h : first.take? whole t = none) :
    (Pattern.spaced first second).parts? whole t = none := by
  rw [Pattern.parts?, h, Option.bind_none]

theorem parts?_spaced_of_second {m : Match} (h : first.take? whole t = some m)
    (h' : second.parts? whole (Text.trimStart m.rest) = none) :
    (Pattern.spaced first second).parts? whole t = none := by
  rw [Pattern.parts?, h, Option.bind_some, h', Option.map_none]

end

/-! ## Statements -/

/-- A word: characters other than blanks. -/
def mnemonic : Pattern := .run isWordChar

/-- Everything that is left, which may be nothing. -/
def remainder : Pattern := .optional (.run fun _ => true)

/-- A code line. -/
def statement : Pattern := .spaced .start (.spaced mnemonic (.spaced remainder .stop))

/-- The statement of a code line, by its grammar. -/
def readStatement (t : Text) : Option Statement :=
  -- the first part and the last are the ends of the text, where nothing is taken
  match statement.parts? t t with
  | some [_, word, operands, _] => some ⟨word, operands⟩
  | _ => none

section

variable (whole t : Text)

theorem take?_remainder : remainder.take? whole t = some ⟨[], []⟩ := by
  have hnil : t.dropWhile (fun _ => true) = [] := List.dropWhile_eq_nil_iff.mpr fun _ _ => rfl
  cases t with
  | nil => rfl
  | cons c t =>
    apply take?_optional
    rw [take?_run_eq, hnil]
    exact if_neg (by simp)

theorem parts?_remainder_stop :
    (Pattern.spaced remainder .stop).parts? whole t = some [t, []] := by
  have hall : Match.taken t ⟨[], []⟩ = t := by
    simpa using taken_append [] t []
  have hstop : Pattern.stop.parts? whole (Text.trimStart []) = some [[]] := rfl
  have hparts := parts?_spaced (take?_remainder whole t) hstop
  rw [hall] at hparts
  exact hparts

end

/-- The parts of a line behind its leading blanks. -/
theorem parts?_statement {t : Text} (h : (Text.trimStart t).takeWhile isWordChar ≠ []) :
    statement.parts? t t = some [[], (Text.trimStart t).takeWhile isWordChar,
      Text.trimStart ((Text.trimStart t).dropWhile isWordChar), []] := by
  have hword : mnemonic.take? t (Text.trimStart t) =
      some ⟨[], (Text.trimStart t).dropWhile isWordChar⟩ := by
    rw [mnemonic, take?_run_eq]
    exact if_neg h
  have hnothing : Match.taken t ⟨[], t⟩ = [] := taken_append [] [] t
  have htaken := taken_append [] ((Text.trimStart t).takeWhile isWordChar)
    ((Text.trimStart t).dropWhile isWordChar)
  rw [List.takeWhile_append_dropWhile] at htaken
  have hparts := parts?_spaced (take?_start t) (parts?_spaced hword (parts?_remainder_stop t _))
  rw [hnothing, htaken] at hparts
  exact hparts

/-- Among blanks there is no word, and the rule of a statement fails. -/
theorem parts?_statement_of_blanks {t : Text} (h : Blanks t) : statement.parts? t t = none := by
  have hword : mnemonic.take? t (Text.trimStart t) = none := by
    rw [Text.trimStart_eq_nil_iff.mpr h]
    rfl
  exact parts?_spaced_of_second (take?_start t) (parts?_spaced_of_first hword)

/-- The rule of a statement takes what a line is split into. -/
theorem readStatement_eq_split? (t : Text) : readStatement t = Statement.split? t := by
  by_cases hblank : Blanks t
  · rw [Statement.split?_eq_none_iff.mpr hblank, readStatement, parts?_statement_of_blanks hblank]
  · have hsplit := Statement.split?_of_trimStart rfl (Text.trimStart_eq_nil_iff.not.mpr hblank)
    obtain ⟨-, -, -, -, -, hword, -⟩ := Statement.split?_eq_some_iff.mp hsplit
    rw [hsplit, readStatement, parts?_statement hword]

/-! ## Instructions -/

/-- The instruction of a code line, read rule by rule.  A rule that fails, be it that of the
    statement or that of the operand field, leaves the line without a reading. -/
def parse (line : Text) : Except Defect Instruction :=
  match readStatement line with
  | none => .error .noMnemonic
  | some statement =>
    match Operation.ofMnemonic? statement.mnemonic with
    | none => .error (.unknownMnemonic statement.mnemonic)
    | some operation =>
      match read operation.format statement.operands with
      | none => .error .noMnemonic
      | some field => do
        let operands ← field.resolve operation.mnemonic operation.format
        return ⟨operation, operands⟩

/-- Read rule by rule, a line comes to what parsing makes of it. -/
theorem parse_eq_parse (line : Text) : parse line = Instruction.parse line := by
  unfold parse Instruction.parse
  rw [readStatement_eq_split?]
  cases Statement.split? line with
  | none => rfl
  | some statement =>
    dsimp only
    cases Operation.ofMnemonic? statement.mnemonic with
    | none => rfl
    | some operation =>
      dsimp only
      rw [read_eq_scan]

end Grammar

/-! ## The first word of a line -/

namespace FirstWord

variable {line word operands : Text}

theorem trimStart_eq (h : FirstWord line word operands) :
    ∃ tail, Text.trimStart line = word ++ tail ∧ StopsAt isWordChar tail := by
  obtain ⟨before, gap, hbefore, hgap, hline, hsep⟩ := h.cut
  refine ⟨gap ++ operands, ?_, ?_⟩
  · rw [hline]
    exact Text.trimStart_blanks_append_of_stopsAt hbefore
      (Text.stopsAt_append h.ne_nil h.no_blank _)
  · apply Statement.stopsAt_blanks_append hgap
    intro hnil
    rw [hsep hnil]
    exact Text.blanks_nil

/-- No run without blanks goes further than the first word. -/
theorem longest (h : FirstWord line word operands) {run : Text}
    (hfront : run <+: Text.trimStart line) (hrun : ∀ c ∈ run, isBlank c = false) :
    run <+: word := by
  obtain ⟨tail, htrim, htail⟩ := h.trimStart_eq
  obtain ⟨rest, hrest⟩ := hfront
  have hword : word = run ++ rest.takeWhile isWordChar := by
    calc word = (word ++ tail).takeWhile isWordChar :=
          (Text.takeWhile_run (Statement.forall_isWordChar h.no_blank) htail).symm
      _ = (run ++ rest).takeWhile isWordChar := by rw [← htrim, hrest]
      _ = run ++ rest.takeWhile isWordChar :=
          List.takeWhile_append_of_pos (Statement.forall_isWordChar hrun)
  rw [hword]
  exact List.prefix_append _ _

/-- A line with a first word is not refused for the lack of one. -/
theorem parse_ne_noMnemonic (h : FirstWord line word operands) :
    Instruction.parse line ≠ .error .noMnemonic := by
  intro hparse
  by_cases hknown : ∃ o ∈ Operation.table, o.mnemonic = word
  · obtain ⟨o, hmem, hword⟩ := hknown
    have hdefect := (h.reports_parse hmem hword).error_iff.mp hparse
    rcases leftmostDefect?_eq_some_cases hdefect with hfault | ⟨-, -, htrailing⟩
    · cases hfault
    · cases htrailing
  · rw [h.parse_of_unknown fun o hmem hword => hknown ⟨o, hmem, hword⟩] at hparse
    exact absurd hparse (by simp)

end FirstWord

/-- Only a blank line is refused for the lack of a mnemonic. -/
theorem Instruction.parse_eq_noMnemonic_iff {line : Text} :
    parse line = .error .noMnemonic ↔ Blanks line := by
  constructor
  · intro hparse
    by_contra hblank
    obtain ⟨word, operands, hfirst⟩ := exists_firstWord hblank
    exact hfirst.parse_ne_noMnemonic hparse
  · intro hblank
    rw [parse, Statement.split?_eq_none_iff.mpr hblank]

end MicroAsm
