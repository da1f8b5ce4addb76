/-
  What a line is and what is read from it.

  Classifying a line and splitting it take the same leading blanks away, so a line is blank
  exactly when no statement is read from it (`kind_eq_blank_iff`).  The assembler reads code
  lines only.  Hence no line that is fed to it fails for the lack of a statement, wherever it
  is fed (`feed_ne_noMnemonic`), nor does any line of a run over many.
-/
import MicroAsm.Proofs.Assembly.Feeding
import MicroAsm.Proofs.Statement.Reading

namespace MicroAsm

open Text (Blanks isBlank)

/-! ## Kinds of lines -/

theorem SourceLine.kind_eq_blank_iff {line : SourceLine} :
    line.kind = .blank ↔ Blanks line.text := by
  rw [← Text.trimStart_eq_nil_iff]
  constructor
  · intro hkind
    by_contra hne
    unfold SourceLine.kind LineKind.of at hkind
    split at hkind
    · next hnil => exact hne hnil
    · exact absurd hkind (by simp)
    · exact absurd hkind (by simp)
  · intro hnil
    rw [SourceLine.kind, LineKind.of, hnil]

theorem SourceLine.IsCode.not_blanks {line : SourceLine} (h : line.IsCode) : ¬ Blanks line.text :=
  mt Text.trimStart_eq_nil_iff.mpr h.1

/-! ## One line -/

namespace Assembly

theorem feed_of_offer_fault {a b : Assembly} {line : SourceLine} {fault : Fault}
    (h : a.offer line = (some fault, b)) : a.feed line = .error fault := by
  rw [feed, h]

/-- No line fails for the lack of a statement: code lines have one, and of the others none is
    looked for. -/
theorem feed_ne_noMnemonic (a : Assembly) (line : SourceLine) (n : Nat) :
    a.feed line ≠ .error (.defect n .noMnemonic) := by
  intro hfeed
  by_cases hcode : line.IsCode
  · rcases (feed_eq_error_iff hcode).mp hfeed with ⟨d, hparse, hfault⟩ | ⟨i, -, -, hfault⟩
    · obtain ⟨-, rfl⟩ : line.number = n ∧ d = .noMnemonic := by simpa using hfault
      exact hcode.not_blanks (Instruction.parse_eq_noMnemonic_iff.mp hparse)
    · cases hfault
  · rw [feed_of_not_isCode hcode] at hfeed
    cases hfeed

theorem offer_ne_noMnemonic (a : Assembly) (line : SourceLine) (n : Nat) :
    (a.offer line).1 ≠ some (.defect n .noMnemonic) := by
  intro hoffer
  exact a.feed_ne_noMnemonic line n (feed_of_offer_fault (Prod.ext hoffer rfl))

/-! ## Runs -/

theorem noMnemonic_notMem_feedEach (a : Assembly) (lines : List SourceLine) (n : Nat) :
    some (.defect n .noMnemonic) ∉ (a.feedEach lines).1 := by
  induction lines generalizing a with
  | nil => exact List.not_mem_nil
  | cons line lines ih =>
    rw [feedEach_cons, List.mem_cons, not_or]
    exact ⟨(a.offer_ne_noMnemonic line n).symm, ih _⟩

end Assembly

theorem assemble_ne_noMnemonic (source : Text) (capacity n : Nat) :
    assemble source capacity ≠ .error (.defect n .noMnemonic) := by
  intro hassemble
  obtain ⟨-, line, -, a, -, -, hfeed⟩ := foldlM_eq_error_iff.mp hassemble
  exact a.feed_ne_noMnemonic line n hfeed

/-- **Only blank lines have no statement, and no fault says so.**  Read by its grammar, every
    line comes to what splitting and parsing make of it.  A line has no statement exactly when it
    is blank.  From any other line the longest word behind the leading blanks is cut off, and the
    operands behind it and the blanks after it; without its leading blanks the line is split
    alike.  So neither a whole source nor a run over any lines, from any assembly, meets a line
    that fails for the lack of a statement. -/
theorem kinds_agree_with_statements :
    (∀ line : SourceLine,
      Grammar.readStatement line.text = Statement.split? line.text ∧
      Grammar.parse line.text = Instruction.parse line.text ∧
      (Statement.split? line.text = none ↔ line.kind = .blank) ∧
      (line.kind ≠ .blank → ∃ word operands,
        Statement.split? line.text = some ⟨word, operands⟩ ∧
        FirstWord line.text word operands ∧
        ∀ run, run <+: Text.trimStart line.text → (∀ c ∈ run, isBlank c = false) →
          run <+: word) ∧
      Statement.split? (Text.trimStart line.text) = Statement.split? line.text) ∧
    (∀ source capacity n, assemble source capacity ≠ .error (.defect n .noMnemonic)) ∧
    (∀ (a : Assembly) (lines : List SourceLine) (n : Nat),
      some (.defect n .noMnemonic) ∉ (a.feedEach lines).1) := by
  refine ⟨?_, assemble_ne_noMnemonic, Assembly.noMnemonic_notMem_feedEach⟩
  intro line
  refine ⟨Grammar.readStatement_eq_split? _, Grammar.parse_eq_parse _, ?_, ?_,
    Statement.split?_trimStart _⟩
  · rw [Statement.split?_eq_none_iff, SourceLine.kind_eq_blank_iff]
  · intro hkind
    obtain ⟨word, operands, hfirst⟩ := exists_firstWord (mt SourceLine.kind_eq_blank_iff.mpr hkind)
    exact ⟨word, operands, firstWord_iff.mp hfirst, hfirst, fun run => hfirst.longest⟩

end MicroAsm
