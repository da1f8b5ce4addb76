/-
  Operand fields taken apart.

  A field is its pieces in order with blanks, and nothing else, around them (`Lossless`); each
  piece that the format allows is there whenever it can be, and as long as it can be (`Greedy`).
  A cut is described by the text in front of a piece and the text behind it.  The cuts leave no
  choice (`Greedy.unique`), and a scan cuts in this way (`greedy_scan`).
-/
import MicroAsm.Proofs.Statement.Grammar

namespace MicroAsm

/-! ## The ends of a trimmed text -/

namespace Text

/-- What stays of a text without its outer blanks starts and ends with no blank. -/
theorem ends_trim {t : Text} (h : ¬ Blanks t) :
    (∃ c, (trim t).head? = some c ∧ isBlank c = false) ∧
      ∃ c, (trim t).getLast? = some c ∧ isBlank c = false := by
  have hne : trim t ≠ [] := trim_eq_nil_iff.not.mpr h
  refine ⟨⟨_, List.head?_eq_some_head hne, ?_⟩, _, List.getLast?_eq_some_getLast hne, ?_⟩
  · have hfront : trim t ++ (trimStart t).rtakeWhile isBlank = trimStart t :=
      List.rdropWhile_append_rtakeWhile
    have hstop := stopsAt_trimStart t
    rw [← hfront] at hstop
    apply hstop
    rw [List.head?_append_of_ne_nil _ hne]
    exact List.head?_eq_some_head hne
  · exact Bool.eq_false_iff.mpr (List.rdropWhile_last_not isBlank (trimStart t) hne)

/-- Among blanks, a text that starts and ends with no blank is what stays. -/
theorem trim_of_ends {before t after : Text} (hbefore : Blanks before)
    (hfirst : ∃ c, t.head? = some c ∧ isBlank c = false)
    (hlast : ∃ c, t.getLast? = some c ∧ isBlank c = false) (hafter : Blanks after) :
    trim (before ++ (t ++ after)) = t := by
  obtain ⟨c, hc, hc'⟩ := hfirst
  obtain ⟨d, hd, hd'⟩ := hlast
  have hstop : StopsAt isBlank (t ++ after) := by
    obtain ⟨tail, rfl⟩ := List.head?_eq_some_iff.mp hc
    exact stopsAt_cons.mpr hc'
  have hsplit : t = t.dropLast ++ [d] := (List.dropLast_append_getLast? d hd).symm
  rw [trim, trimStart_blanks_append_of_stopsAt hbefore hstop, trimEnd_append_blanks hafter, hsplit]
  exact trimEnd_append_run _ (List.cons_ne_nil d []) (by simpa using hd')

end Text

namespace OperandField

open Text (Blanks StopsAt isBlank)

/-! ## Pieces as they stand in a text -/

/-- A piece with the mark in front of it, or nothing. -/
def marked (mark : Text) : Option Text → Text
  | none => []
  | some t => mark ++ t

/-- A comma, or nothing. -/
def comma (separator : Bool) : Text := if separator then [','] else []

/-- `t` is the pieces of `field` in order, with blanks around them. -/
def Lossless (t : Text) (field : OperandField) : Prop :=
  ∃ w₁ w₂ w₃ w₄ w₅ : Text, Blanks w₁ ∧ Blanks w₂ ∧ Blanks w₃ ∧ Blanks w₄ ∧ Blanks w₅ ∧
    t = w₁ ++ marked ['r'] field.register ++ w₂ ++ comma field.separator ++
      w₃ ++ marked [] field.literal ++ w₄ ++ marked [] field.trailing ++ w₅

/-! ## Cuts -/

/-- A run of `p` is there when, behind blanks and `mark`, a character of `p` follows; it goes as
    far as there are such characters. -/
structure RunCut (mark : Text) (p : Char → Bool) (t : Text) (run : Option Text) (rest : Text) :
    Prop where
  cut : Text.trimStart t = marked mark run ++ rest
  isSome_iff : run.isSome = true ↔ ∃ c tail, Text.trimStart t = mark ++ c :: tail ∧ p c = true
  whole : ∀ chars, run = some chars →
    chars ≠ [] ∧ (∀ c ∈ chars, p c = true) ∧ StopsAt p rest

/-- A separator is there when, behind blanks, a comma follows. -/
structure SeparatorCut (t : Text) (separator : Bool) (rest : Text) : Prop where
  cut : Text.trimStart t = comma separator ++ rest
  eq_true_iff : separator = true ↔ (Text.trimStart t).head? = some ','

/-- Trailing text is there when something else than blanks is left; it has no outer blanks. -/
structure TrailingCut (t : Text) (trailing : Option Text) : Prop where
  eq_none_iff : trailing = none ↔ Blanks t
  ends : ∀ rest, trailing = some rest →
    (∃ c, rest.head? = some c ∧ isBlank c = false) ∧
      (∃ c, rest.getLast? = some c ∧ isBlank c = false) ∧
      ∃ before after, Blanks before ∧ Blanks after ∧ t = before ++ (rest ++ after)

/-- `field` has the pieces of `t` that a format allows, cut off one behind the other.  A literal
    behind a register needs a separator. -/
def Greedy (format : Format) (t : Text) (field : OperandField) : Prop :=
  ∃ rest₁ rest₂ rest₃ : Text,
    (if format.takesRegister then RunCut ['r'] Char.isDigit t field.register rest₁
      else field.register = none ∧ rest₁ = t) ∧
    (if format = .registerImmediate then SeparatorCut rest₁ field.separator rest₂
      else field.separator = false ∧ rest₂ = rest₁) ∧
    (if format = .immediate ∨ field.separator = true then
        RunCut [] isLiteralChar rest₂ field.literal rest₃
      else field.literal = none ∧ rest₃ = rest₂) ∧
    TrailingCut rest₃ field.trailing

/-! ## A cut leaves no choice -/

theorem RunCut.unique {mark t rest rest' : Text} {p : Char → Bool} {run run' : Option Text}
    (h : RunCut mark p t run rest) (h' : RunCut mark p t run' rest') :
    run = run' ∧ rest = rest' := by
  have hsame : run.isSome = true ↔ run'.isSome = true := h.isSome_iff.trans h'.isSome_iff.symm
  have hcut := h.cut.symm.trans h'.cut
  match run, run' with
  | none, none => exact ⟨rfl, hcut⟩
  | none, some _ => exact absurd (hsame.mpr rfl) (by simp)
  | some _, none => exact absurd (hsame.mp rfl) (by simp)
  | some chars, some chars' =>
    obtain ⟨-, hchars, hrest⟩ := h.whole chars rfl
    obtain ⟨-, hchars', hrest'⟩ := h'.whole chars' rfl
    simp only [marked, List.append_assoc] at hcut
    have hbehind : chars ++ rest = chars' ++ rest' := List.append_cancel_left hcut
    obtain ⟨htake, hdrop⟩ := Text.takeWhile_dropWhile_eq_iff.mpr ⟨rfl, hchars, hrest⟩
    obtain ⟨htake', hdrop'⟩ := Text.takeWhile_dropWhile_eq_iff.mpr ⟨hbehind, hchars', hrest'⟩
    exact ⟨congrArg some (htake.symm.trans htake'), hdrop.symm.trans hdrop'⟩

theorem SeparatorCut.unique {t rest rest' : Text} {separator separator' : Bool}
    (h : SeparatorCut t separator rest) (h' : SeparatorCut t separator' rest') :
    separator = separator' ∧ rest = rest' := by
  obtain rfl : separator = separator' :=
    Bool.eq_iff_iff.mpr (h.eq_true_iff.trans h'.eq_true_iff.symm)
  exact ⟨rfl, List.append_cancel_left (h.cut.symm.trans h'.cut)⟩

theorem TrailingCut.eq_trim {t rest : Text} (h : TrailingCut t (some rest)) :
    rest = Text.trim t := by
  obtain ⟨hfirst, hlast, before, after, hbefore, hafter, rfl⟩ := h.ends rest rfl
  exact (Text.trim_of_ends hbefore hfirst hlast hafter).symm

theorem TrailingCut.unique {t : Text} {trailing trailing' : Option Text}
    (h : TrailingCut t trailing) (h' : TrailingCut t trailing') : trailing = trailing' := by
  have hsame : trailing = none ↔ trailing' = none := h.eq_none_iff.trans h'.eq_none_iff.symm
  match trailing, trailing' with
  | none, none => rfl
  | none, some _ => exact absurd (hsame.mp rfl) (by simp)
  | some _, none => exact absurd (hsame.mpr rfl) (by simp)
  | some rest, some rest' => rw [h.eq_trim, h'.eq_trim]

section

variable {α : Type} {allowed : Prop} [Decidable allowed] {cut : α → Text → Prop} {absent : α}
  {t rest rest' : Text} {a a' : α}

/-- A piece that is looked for only where it is allowed leaves no choice either. -/
theorem unique_of_allowed (hunique : cut a rest → cut a' rest' → a = a' ∧ rest = rest')
    (h : if allowed then cut a rest else a = absent ∧ rest = t)
    (h' : if allowed then cut a' rest' else a' = absent ∧ rest' = t) :
    a = a' ∧ rest = rest' := by
  split at h
  · next hallowed =>
    rw [if_pos hallowed] at h'
    exact hunique h h'
  · next hallowed =>
    rw [if_neg hallowed] at h'
    exact ⟨h.1.trans h'.1.symm, h.2.trans h'.2.symm⟩

/-- In front of the piece, if there is one, stand blanks. -/
theorem exists_blanks_of_allowed {text : α → Text}
    (hcut : cut a rest → Text.trimStart t = text a ++ rest) (habsent : text absent = [])
    (h : if allowed then cut a rest else a = absent ∧ rest = t) :
    ∃ w, Blanks w ∧ t = w ++ (text a ++ rest) := by
  split at h
  · rw [← hcut h]
    exact Text.exists_blanks_append_trimStart t
  · obtain ⟨rfl, rfl⟩ := h
    exact ⟨[], Text.blanks_nil, by rw [habsent]; rfl⟩

end

/-- The pieces of a text are determined. -/
theorem Greedy.unique {format : Format} {t : Text} {f g : OperandField}
    (hf : Greedy format t f) (hg : Greedy format t g) : f = g := by
  obtain ⟨rest₁, rest₂, rest₃, hr, hs, hl, ht⟩ := hf
  obtain ⟨rest₁', rest₂', rest₃', hr', hs', hl', ht'⟩ := hg
  obtain ⟨hregister, rfl⟩ := unique_of_allowed RunCut.unique hr hr'
  obtain ⟨hseparator, rfl⟩ := unique_of_allowed SeparatorCut.unique hs hs'
  rw [hseparator] at hl
  obtain ⟨hliteral, rfl⟩ := unique_of_allowed RunCut.unique hl hl'
  have htrailing := ht.unique ht'
  obtain ⟨register, separator, literal, trailing⟩ := f
  obtain rfl : register = g.register := hregister
  obtain rfl : separator = g.separator := hseparator
  obtain rfl : literal = g.literal := hliteral
  obtain rfl : trailing = g.trailing := htrailing
  rfl

/-! ## Nothing is lost -/

theorem TrailingCut.exists_blanks {t : Text} {trailing : Option Text}
    (h : TrailingCut t trailing) :
    ∃ w w', Blanks w ∧ Blanks w' ∧ t = w ++ (marked [] trailing ++ w') := by
  cases trailing with
  | none => exact ⟨t, [], h.eq_none_iff.mp rfl, Text.blanks_nil, by simp [marked]⟩
  | some rest =>
    obtain ⟨-, -, before, after, hbefore, hafter, ht⟩ := h.ends rest rfl
    exact ⟨before, after, hbefore, hafter, ht⟩

/-- What is cut off piece by piece is the whole text. -/
theorem Greedy.lossless {format : Format} {t : Text} {field : OperandField}
    (h : Greedy format t field) : Lossless t field := by
  obtain ⟨rest₁, rest₂, rest₃, hr, hs, hl, ht⟩ := h
  obtain ⟨w₁, hw₁, rfl⟩ := exists_blanks_of_allowed RunCut.cut rfl hr
  obtain ⟨w₂, hw₂, rfl⟩ := exists_blanks_of_allowed SeparatorCut.cut rfl hs
  obtain ⟨w₃, hw₃, rfl⟩ := exists_blanks_of_allowed RunCut.cut rfl hl
  obtain ⟨w₄, w₅, hw₄, hw₅, rfl⟩ := ht.exists_blanks
  refine ⟨w₁, w₂, w₃, w₄, w₅, hw₁, hw₂, hw₃, hw₄, hw₅, ?_⟩
  simp only [List.append_assoc]

/-! ## The cuts of a scan -/

section

variable {mark t : Text} {p : Char → Bool}

theorem runCut_none (h : ∀ c tail, Text.trimStart t = mark ++ c :: tail → p c = false) :
    RunCut mark p t none (Text.trimStart t) := by
  refine ⟨rfl, iff_of_false (by simp) ?_, ?_⟩
  · rintro ⟨c, tail, hcut, hc⟩
    rw [h c tail hcut] at hc
    exact absurd hc (by decide)
  · rintro _ ⟨⟩

theorem runCut_some {chars rest : Text} (hcut : Text.trimStart t = mark ++ (chars ++ rest))
    (hne : chars ≠ []) (hchars : ∀ c ∈ chars, p c = true) (hrest : StopsAt p rest) :
    RunCut mark p t (some chars) rest := by
  refine ⟨?_, iff_of_true rfl ?_, ?_⟩
  · rw [hcut, marked, List.append_assoc]
  · obtain ⟨c, tail, rfl⟩ := List.exists_cons_of_ne_nil hne
    exact ⟨c, tail ++ rest, hcut, hchars c (by simp)⟩
  · rintro _ ⟨⟩
    exact ⟨hne, hchars, hrest⟩

/-- Behind the mark, the characters at the front decide whether there is a run. -/
theorem runCut_takeWhile {behind : Text} (hcut : Text.trimStart t = mark ++ behind)
    {found : Option Text × Text}
    (hfound : found = if behind.takeWhile p = [] then (none, Text.trimStart t)
      else (some (behind.takeWhile p), behind.dropWhile p)) :
    RunCut mark p t found.1 found.2 := by
  rw [hfound]
  split
  · next hnone =>
    apply runCut_none
    intro c tail hfront
    rw [List.append_cancel_left (hcut.symm.trans hfront)] at hnone
    simpa using hnone
  · next hsome =>
    apply runCut_some
    · rw [List.takeWhile_append_dropWhile]
      exact hcut
    · exact hsome
    · exact fun c hc => List.mem_takeWhile_imp hc
    · exact Text.stopsAt_dropWhile _ _

end

theorem runCut_takeRegister (t : Text) :
    RunCut ['r'] Char.isDigit t (takeRegister (Text.trimStart t)).1
      (takeRegister (Text.trimStart t)).2 := by
  by_cases hr : (Text.trimStart t).head? = some 'r'
  · obtain ⟨behind, hcut⟩ := List.head?_eq_some_iff.mp hr
    apply runCut_takeWhile hcut
    rw [hcut, takeRegister_cons]
  · rw [takeRegister_of_not_head? hr]
    apply runCut_none
    intro c tail hcut
    rw [hcut] at hr
    exact absurd rfl hr

theorem runCut_takeLiteral (t : Text) :
    RunCut [] isLiteralChar t (takeLiteral (Text.trimStart t)).1
      (takeLiteral (Text.trimStart t)).2 :=
  runCut_takeWhile rfl (takeLiteral_eq _)

theorem separatorCut_takeSeparator (t : Text) :
    SeparatorCut t (takeSeparator (Text.trimStart t)).1 (takeSeparator (Text.trimStart t)).2 := by
  by_cases hcomma : (Text.trimStart t).head? = some ','
  · obtain ⟨rest, hcut⟩ := List.head?_eq_some_iff.mp hcomma
    rw [takeSeparator_of_head? hcomma, hcut]
    exact ⟨hcut, iff_of_true rfl hcomma⟩
  · rw [takeSeparator_of_not_head? hcomma]
    exact ⟨rfl, iff_of_false (by simp) hcomma⟩

theorem trailingCut_takeTrailing (t : Text) : TrailingCut t (takeTrailing t) := by
  refine ⟨takeTrailing_eq_none_iff, ?_⟩
  intro rest hrest
  have hblank : ¬ Blanks t := by
    intro hblank
    rw [takeTrailing_eq_none_iff.mpr hblank] at hrest
    exact absurd hrest (by simp)
  rw [takeTrailing_of_not_blanks hblank, Option.some.injEq] at hrest
  rw [← hrest]
  obtain ⟨hfirst, hlast⟩ := Text.ends_trim hblank
  exact ⟨hfirst, hlast, Text.exists_blanks_around_trim t⟩

/-- A scan takes each piece that the format allows, and all of it. -/
theorem greedy_scan (format : Format) (t : Text) : Greedy format t (scan format t) := by
  cases format with
  | implied => exact ⟨t, t, t, ⟨rfl, rfl⟩, ⟨rfl, rfl⟩, ⟨rfl, rfl⟩, trailingCut_takeTrailing t⟩
  | register =>
    exact ⟨_, _, _, runCut_takeRegister t, ⟨rfl, rfl⟩, ⟨rfl, rfl⟩, trailingCut_takeTrailing _⟩
  | immediate =>
    exact ⟨t, t, _, ⟨rfl, rfl⟩, ⟨rfl, rfl⟩, runCut_takeLiteral t, trailingCut_takeTrailing _⟩
  | registerImmediate =>
    have hregister := runCut_takeRegister t
    have hseparator := separatorCut_takeSeparator (takeRegister (Text.trimStart t)).2
    cases hcut : takeSeparator (Text.trimStart (takeRegister (Text.trimStart t)).2) with
    | mk separator rest =>
    rw [hcut] at hseparator
    cases separator with
    | true =>
      have hscan : scan .registerImmediate t = ⟨(takeRegister (Text.trimStart t)).1, true,
          (takeLiteral (Text.trimStart rest)).1,
          takeTrailing (takeLiteral (Text.trimStart rest)).2⟩ := by
        simp only [scan, hcut, if_true]
      rw [hscan]
      exact ⟨_, _, _, hregister, hseparator, runCut_takeLiteral rest, trailingCut_takeTrailing _⟩
    | false =>
      have hscan : scan .registerImmediate t =
          ⟨(takeRegister (Text.trimStart t)).1, false, none, takeTrailing rest⟩ := by
        simp only [scan, hcut, Bool.false_eq_true, if_false]
      rw [hscan]
      exact ⟨_, _, _, hregister, hseparator, ⟨rfl, rfl⟩, trailingCut_takeTrailing rest⟩

/-- **Every operand field is read, and in one way.**  For every format the grammar matches the
    whole text and reports what `scan` finds; the pieces in order, with blanks around them, are the
    text; each piece that the format allows is there whenever it can be, as long as it can be; and
    no other pieces are cut off like this. -/
theorem scan_divides_field (format : Format) (t : Text) :
    Grammar.read format t = some (scan format t) ∧
      Lossless t (scan format t) ∧ Greedy format t (scan format t) ∧
      ∀ field, Greedy format t field → field = scan format t := by
  have hgreedy := greedy_scan format t
  refine ⟨Grammar.read_eq_scan format t, hgreedy.lossless, hgreedy, ?_⟩
  intro field hfield
  exact hfield.unique hgreedy

end OperandField

end MicroAsm
