/-
  The grammar of operand fields.

  A `Pattern` says what stands at the front of a text.  The parts of a sequence are matched from
  left to right, with blanks between them where these are allowed, and a part that may be missing
  takes nothing when it does not match.  `Grammar.field` gives the operand field of each format as
  a pattern.  Every text matches it from start to end, and the pieces that are reported are those
  of `OperandField.scan` (`read_eq_scan`).
-/
import MicroAsm.Proofs.Statement.Pieces

namespace MicroAsm.Grammar

open Text (Blanks isBlank)
open OperandField (isLiteralChar takeRegister takeSeparator takeLiteral takeTrailing scan)

/-! ## Patterns -/

/-- The pieces that a match reports. -/
inductive Piece where
  | register
  | separator
  | literal
  | trailing
deriving DecidableEq

/-- What may stand at the front of a text. -/
inductive Pattern where
  /-- The start of the whole text. -/
  | start
  /-- The end of the text. -/
  | stop
  | char (c : Char)
  /-- One character of a class or more, as many as there are. -/
  | run (p : Char → Bool)
  /-- One part right behind the other. -/
  | joined (first second : Pattern)
  /-- Two parts with any blanks between them. -/
  | spaced (first second : Pattern)
  /-- A part that may be missing. -/
  | optional (part : Pattern)
  /-- A part whose text is reported. -/
  | piece (name : Piece) (part : Pattern)

/-- A match: the pieces that are reported, in order, and the text behind it. -/
structure Match where
  found : List (Piece × Text)
  rest : Text
deriving DecidableEq

/-- Matches a pattern at the front of `t`, which is what is left of `whole`. -/
def Pattern.take? (whole : Text) : Pattern → Text → Option Match
  | start, t => if t = whole then some ⟨[], t⟩ else none
  | stop, t => if t = [] then some ⟨[], []⟩ else none
  | char c, t => if t.head? = some c then some ⟨[], t.tail⟩ else none
  | run p, t => if t.takeWhile p = [] then none else some ⟨[], t.dropWhile p⟩
  | joined first second, t =>
    (first.take? whole t).bind fun m =>
      (second.take? whole m.rest).map fun n => ⟨m.found ++ n.found, n.rest⟩
  | spaced first second, t =>
    (first.take? whole t).bind fun m =>
      (second.take? whole (Text.trimStart m.rest)).map fun n => ⟨m.found ++ n.found, n.rest⟩
  | optional part, t => some ((part.take? whole t).getD ⟨[], t⟩)
  | piece name part, t =>
    (part.take? whole t).map fun m => ⟨(name, t.take (t.length - m.rest.length)) :: m.found, m.rest⟩

/-! ## Operand fields -/

/-- `r` and digits; only the digits are reported. -/
def register : Pattern := .joined (.char 'r') (.piece .register (.run Char.isDigit))

/-- A comma. -/
def separator : Pattern := .piece .separator (.char ',')

/-- Letters, digits and signs. -/
def literal : Pattern := .piece .literal (.run isLiteralChar)

/-- Everything that is left, if anything is. -/
def trailing : Pattern := .piece .trailing (.run fun _ => true)

/-- What ends every field. -/
def ending : Pattern := .spaced (.optional trailing) .stop

/-- The operand field of a format. -/
def field : Format → Pattern
  | .implied => .spaced .start ending
  | .register => .spaced .start (.spaced (.optional register) ending)
  | .registerImmediate =>
    .spaced .start (.spaced (.optional register)
      (.spaced (.optional (.spaced separator (.optional literal))) ending))
  | .immediate => .spaced .start (.spaced (.optional literal) ending)

/-- Notes one piece; trailing text is noted without the blanks at its end. -/
def note (found : OperandField) : Piece × Text → OperandField
  | (.register, digits) => { found with register := some digits }
  | (.separator, _) => { found with separator := true }
  | (.literal, t) => { found with literal := some t }
  | (.trailing, t) => { found with trailing := some (Text.trimEnd t) }

/-- The pieces of an operand field, by its grammar. -/
def read (format : Format) (t : Text) : Option OperandField :=
  ((field format).take? t t).map fun m => m.found.foldl note {}

/-! ## Matching sequences -/

section

variable (whole t : Text) (first second part : Pattern)

theorem take?_joined_eq : (Pattern.joined first second).take? whole t =
    (first.take? whole t).bind fun m =>
      (second.take? whole m.rest).map fun n => ⟨m.found ++ n.found, n.rest⟩ := rfl

theorem take?_spaced_eq : (Pattern.spaced first second).take? whole t =
    (first.take? whole t).bind fun m =>
      (second.take? whole (Text.trimStart m.rest)).map fun n =>
        ⟨m.found ++ n.found, n.rest⟩ := rfl

theorem take?_optional_eq : (Pattern.optional part).take? whole t =
    some ((part.take? whole t).getD ⟨[], t⟩) := rfl

theorem take?_piece_eq (name : Piece) : (Pattern.piece name part).take? whole t =
    (part.take? whole t).map fun m =>
      ⟨(name, t.take (t.length - m.rest.length)) :: m.found, m.rest⟩ := rfl

theorem take?_run_eq (p : Char → Bool) : (Pattern.run p).take? whole t =
    if t.takeWhile p = [] then none else some ⟨[], t.dropWhile p⟩ := rfl

end

section

variable {whole t : Text} {first second part : Pattern} {m n : Match}

theorem take?_joined (h : first.take? whole t = some m) (h' : second.take? whole m.rest = some n) :
    (Pattern.joined first second).take? whole t = some ⟨m.found ++ n.found, n.rest⟩ := by
  rw [take?_joined_eq, h, Option.bind_some, h', Option.map_some]

theorem take?_joined_of_none (h : first.take? whole t = some m)
    (h' : second.take? whole m.rest = none) :
    (Pattern.joined first second).take? whole t = none := by
  rw [take?_joined_eq, h, Option.bind_some, h', Option.map_none]

theorem take?_joined_of_first (h : first.take? whole t = none) :
    (Pattern.joined first second).take? whole t = none := by
  rw [take?_joined_eq, h, Option.bind_none]

theorem take?_spaced (h : first.take? whole t = some m)
    (h' : second.take? whole (Text.trimStart m.rest) = some n) :
    (Pattern.spaced first second).take? whole t = some ⟨m.found ++ n.found, n.rest⟩ := by
  rw [take?_spaced_eq, h, Option.bind_some, h', Option.map_some]

theorem take?_spaced_of_first (h : first.take? whole t = none) :
    (Pattern.spaced first second).take? whole t = none := by
  rw [take?_spaced_eq, h, Option.bind_none]

theorem take?_optional (h : part.take? whole t = some m) :
    (Pattern.optional part).take? whole t = some m := by
  rw [take?_optional_eq, h, Option.getD_some]

/-- A part that does not match takes nothing. -/
theorem take?_optional_of_none (h : part.take? whole t = none) :
    (Pattern.optional part).take? whole t = some ⟨[], t⟩ := by
  rw [take?_optional_eq, h, Option.getD_none]

end

/-! ## Matching the parts of a field -/

variable (whole : Text)

theorem take?_start : Pattern.start.take? whole whole = some ⟨[], whole⟩ := if_pos rfl

theorem take?_char (c : Char) (t : Text) :
    (Pattern.char c).take? whole (c :: t) = some ⟨[], t⟩ := if_pos rfl

theorem take?_char_of_ne {c : Char} {t : Text} (h : t.head? ≠ some c) :
    (Pattern.char c).take? whole t = none := if_neg h

/-- The text of a piece is what stands in front of the rest. -/
theorem take_length_sub (front rest : Text) :
    (front ++ rest).take ((front ++ rest).length - rest.length) = front := by
  rw [List.length_append, Nat.add_sub_cancel, List.take_left]

theorem take?_piece_run (name : Piece) (p : Char → Bool) (t : Text) :
    (Pattern.piece name (.run p)).take? whole t =
      if t.takeWhile p = [] then none else some ⟨[(name, t.takeWhile p)], t.dropWhile p⟩ := by
  have hcut := take_length_sub (t.takeWhile p) (t.dropWhile p)
  rw [List.takeWhile_append_dropWhile] at hcut
  rw [take?_piece_eq, take?_run_eq]
  split
  · rfl
  · rw [Option.map_some, hcut]

/-- The pieces that an optional part reports. -/
def reported (name : Piece) (text : Option Text) : List (Piece × Text) := text.toList.map (name, ·)

/-- An optional register is what `takeRegister` takes. -/
theorem take?_register (t : Text) :
    (Pattern.optional register).take? whole t =
      some ⟨reported .register (takeRegister t).1, (takeRegister t).2⟩ := by
  by_cases hr : t.head? = some 'r'
  · obtain ⟨rest, rfl⟩ := List.head?_eq_some_iff.mp hr
    have hdigits := take?_piece_run whole .register Char.isDigit rest
    rw [OperandField.takeRegister_cons]
    split at hdigits
    · next hnone =>
      rw [if_pos hnone]
      exact take?_optional_of_none (take?_joined_of_none (take?_char whole 'r' rest) hdigits)
    · next hsome =>
      rw [if_neg hsome]
      exact take?_optional (take?_joined (take?_char whole 'r' rest) hdigits)
  · have hnone : register.take? whole t = none := take?_joined_of_first (take?_char_of_ne whole hr)
    rw [OperandField.takeRegister_of_not_head? hr]
    exact take?_optional_of_none hnone

/-- An optional literal is what `takeLiteral` takes. -/
theorem take?_literal (t : Text) :
    (Pattern.optional literal).take? whole t =
      some ⟨reported .literal (takeLiteral t).1, (takeLiteral t).2⟩ := by
  have hrun := take?_piece_run whole .literal isLiteralChar t
  rw [OperandField.takeLiteral_eq]
  split at hrun
  · next hnone =>
    rw [if_pos hnone]
    exact take?_optional_of_none hrun
  · next hsome =>
    rw [if_neg hsome]
    exact take?_optional hrun

theorem take?_separator (t : Text) :
    separator.take? whole (',' :: t) = some ⟨[(.separator, [','])], t⟩ := by
  have hcut := take_length_sub [','] t
  rw [separator, take?_piece_eq, take?_char, Option.map_some]
  rw [List.singleton_append] at hcut
  rw [hcut]

/-- A comma and an optional literal behind it. -/
theorem take?_separated_of_head? {t : Text} (h : t.head? = some ',') :
    (Pattern.optional (.spaced separator (.optional literal))).take? whole t =
      some ⟨(.separator, [',']) :: reported .literal (takeLiteral (Text.trimStart (t.drop 1))).1,
        (takeLiteral (Text.trimStart (t.drop 1))).2⟩ := by
  obtain ⟨rest, rfl⟩ := List.head?_eq_some_iff.mp h
  exact take?_optional (take?_spaced (take?_separator whole rest) (take?_literal whole _))

/-- Without the comma no literal is looked for. -/
theorem take?_separated_of_not_head? {t : Text} (h : t.head? ≠ some ',') :
    (Pattern.optional (.spaced separator (.optional literal))).take? whole t = some ⟨[], t⟩ := by
  have hnone : separator.take? whole t = none := by
    rw [separator, take?_piece_eq, take?_char_of_ne whole h, Option.map_none]
  exact take?_optional_of_none (take?_spaced_of_first hnone)

/-- The pieces at the end of a field: what is left, unless it is blank. -/
def endingPieces (t : Text) : List (Piece × Text) :=
  if Blanks t then [] else [(.trailing, Text.trimStart t)]

/-- Whatever is left ends a field. -/
theorem take?_ending (t : Text) :
    ending.take? whole (Text.trimStart t) = some ⟨endingPieces t, []⟩ := by
  have hstop : Pattern.stop.take? whole (Text.trimStart []) = some ⟨[], []⟩ := rfl
  have hall : (Text.trimStart t).takeWhile (fun _ => true) = Text.trimStart t :=
    List.takeWhile_eq_self_iff.mpr fun _ _ => rfl
  have hnil : (Text.trimStart t).dropWhile (fun _ => true) = [] :=
    List.dropWhile_eq_nil_iff.mpr fun _ _ => rfl
  have hrun := take?_piece_run whole .trailing (fun _ => true) (Text.trimStart t)
  rw [hall, hnil] at hrun
  unfold endingPieces
  by_cases hblank : Blanks t
  · have htrim : Text.trimStart t = [] := Text.trimStart_eq_nil_iff.mpr hblank
    rw [if_pos htrim] at hrun
    have hnone := take?_optional_of_none hrun
    rw [htrim] at hnone ⊢
    rw [if_pos hblank]
    exact take?_spaced hnone hstop
  · rw [if_neg (Text.trimStart_eq_nil_iff.not.mpr hblank)] at hrun
    rw [if_neg hblank]
    exact take?_spaced (take?_optional hrun) hstop

/-! ## Noting the pieces -/

section

variable (register : Option Text) (separator : Bool) (literal : Option Text)

theorem foldl_note_register (text : Option Text) :
    (reported .register text).foldl note ⟨none, separator, literal, none⟩ =
      ⟨text, separator, literal, none⟩ := by
  cases text with
  | none => rfl
  | some digits => rfl

theorem foldl_note_literal (text : Option Text) :
    (reported .literal text).foldl note ⟨register, separator, none, none⟩ =
      ⟨register, separator, text, none⟩ := by
  cases text with
  | none => rfl
  | some t => rfl

theorem foldl_note_ending (t : Text) :
    (endingPieces t).foldl note ⟨register, separator, literal, none⟩ =
      ⟨register, separator, literal, takeTrailing t⟩ := by
  unfold endingPieces
  split
  · next hblank =>
    rw [OperandField.takeTrailing_eq_none_iff.mpr hblank]
    rfl
  · next hblank =>
    rw [OperandField.takeTrailing_of_not_blanks hblank]
    rfl

end

/-! ## Whole fields -/

theorem read_eq_of_take? {format : Format} {t : Text} {m : Match}
    (h : (field format).take? t t = some m) : read format t = some (m.found.foldl note {}) := by
  rw [read, h, Option.map_some]

/-- Every text matches the grammar of a field, and the pieces are those of a scan. -/
theorem read_eq_scan (format : Format) (t : Text) : read format t = some (scan format t) := by
  have hstart := take?_start t
  cases format with
  | implied =>
    have hmatch := take?_spaced hstart (take?_ending t t)
    rw [read_eq_of_take? hmatch, List.nil_append]
    exact congrArg some (foldl_note_ending none false none t)
  | register =>
    have hmatch := take?_spaced hstart (take?_spaced (take?_register t (Text.trimStart t))
      (take?_ending t _))
    rw [read_eq_of_take? hmatch, List.nil_append, List.foldl_append, foldl_note_register,
      foldl_note_ending, scan]
  | immediate =>
    have hmatch := take?_spaced hstart (take?_spaced (take?_literal t (Text.trimStart t))
      (take?_ending t _))
    rw [read_eq_of_take? hmatch, List.nil_append, List.foldl_append, foldl_note_literal,
      foldl_note_ending, scan]
  | registerImmediate =>
    have hregister := take?_register t (Text.trimStart t)
    by_cases hcomma : (Text.trimStart (takeRegister (Text.trimStart t)).2).head? = some ','
    · have hmatch := take?_spaced hstart (take?_spaced hregister
        (take?_spaced (take?_separated_of_head? t hcomma) (take?_ending t _)))
      rw [read_eq_of_take? hmatch, List.nil_append, List.foldl_append, foldl_note_register,
        List.foldl_append, List.foldl_cons, note, foldl_note_literal, foldl_note_ending]
      simp only [scan, OperandField.takeSeparator_of_head? hcomma, if_true]
    · have hmatch := take?_spaced hstart (take?_spaced hregister
        (take?_spaced (take?_separated_of_not_head? t hcomma) (take?_ending t _)))
      rw [read_eq_of_take? hmatch, List.nil_append, List.foldl_append, foldl_note_register,
        List.nil_append, foldl_note_ending]
      simp only [scan, OperandField.takeSeparator_of_not_head? hcomma, Bool.false_eq_true, if_false]

end MicroAsm.Grammar
