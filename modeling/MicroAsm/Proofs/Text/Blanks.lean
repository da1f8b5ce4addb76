/-
  Runs of characters at the ends of a text.

  `Blanks t` says that `t` holds nothing but blanks.  A text is its leading blanks
  and its `trimStart`; a run of one class of characters that stops before the rest
  is what `takeWhile` and `dropWhile` cut off (`takeWhile_run`, `dropWhile_run`).
-/
import Mathlib.Data.List.DropRight
import Mathlib.Data.List.TakeWhile
import MicroAsm.Text.Basic

namespace MicroAsm.Text

/-! ## Runs -/

/-- `t` is empty or starts with a character outside of `p`. -/
def StopsAt (p : Char → Bool) (t : Text) : Prop := ∀ c ∈ t.head?, p c = false

theorem stopsAt_nil (p : Char → Bool) : StopsAt p [] := by
  intro c hc
  simp at hc

theorem stopsAt_cons {p : Char → Bool} {c : Char} {t : Text} :
    StopsAt p (c :: t) ↔ p c = false := by
  simp [StopsAt]

/-- A non-empty run outside of `p` is where `p` stops. -/
theorem stopsAt_append {p : Char → Bool} {run : Text} (hne : run ≠ [])
    (h : ∀ c ∈ run, p c = false) (rest : Text) : StopsAt p (run ++ rest) := by
  obtain ⟨c, tail, rfl⟩ := List.exists_cons_of_ne_nil hne
  exact stopsAt_cons.mpr (h c (by simp))

theorem stopsAt_dropWhile (p : Char → Bool) (t : Text) : StopsAt p (t.dropWhile p) := by
  intro c hc
  have h := List.head?_dropWhile_not p t
  rw [hc] at h
  simpa using h

theorem takeWhile_run {p : Char → Bool} {run rest : Text} (hrun : ∀ c ∈ run, p c = true)
    (hrest : StopsAt p rest) : (run ++ rest).takeWhile p = run := by
  rw [List.takeWhile_append_of_pos hrun]
  cases rest with
  | nil => simp
  | cons c rest => simp [stopsAt_cons.mp hrest]

theorem dropWhile_run {p : Char → Bool} {run rest : Text} (hrun : ∀ c ∈ run, p c = true)
    (hrest : StopsAt p rest) : (run ++ rest).dropWhile p = rest := by
  rw [List.dropWhile_append_of_pos hrun]
  cases rest with
  | nil => rfl
  | cons c rest => simp [stopsAt_cons.mp hrest]

/-- A text is cut into a run of `p` and the rest in one way. -/
theorem takeWhile_dropWhile_eq_iff {p : Char → Bool} {t run rest : Text} :
    t.takeWhile p = run ∧ t.dropWhile p = rest ↔
      t = run ++ rest ∧ (∀ c ∈ run, p c = true) ∧ StopsAt p rest := by
  constructor
  · intro hcut
    obtain ⟨rfl, rfl⟩ := hcut
    exact ⟨List.takeWhile_append_dropWhile.symm, fun _ hc => List.mem_takeWhile_imp hc,
      stopsAt_dropWhile p t⟩
  · intro hcut
    obtain ⟨rfl, hrun, hrest⟩ := hcut
    exact ⟨takeWhile_run hrun hrest, dropWhile_run hrun hrest⟩

/-! ## Blanks -/

/-- A run of blanks, which may be empty. -/
def Blanks (t : Text) : Prop := ∀ c ∈ t, isBlank c = true

instance : DecidablePred Blanks :=
  fun t => decidable_of_iff (t.all isBlank = true) List.all_eq_true

theorem blanks_nil : Blanks [] := by
  intro c hc
  simp at hc

theorem blanks_append {s t : Text} : Blanks (s ++ t) ↔ Blanks s ∧ Blanks t := by
  simp only [Blanks, List.mem_append, or_imp, forall_and]

/-- Before a text where a class ends, blanks may stand: a class without blanks ends there too. -/
theorem Blanks.stopsAt_append {p : Char → Bool} {w t : Text} (hw : Blanks w)
    (hp : ∀ c, p c = true → isBlank c = false) (ht : StopsAt p t) : StopsAt p (w ++ t) := by
  cases w with
  | nil => exact ht
  | cons c w =>
    have hc : isBlank c = true := hw c (by simp)
    rw [List.cons_append, stopsAt_cons, ← Bool.not_eq_true]
    intro hpc
    rw [hp c hpc] at hc
    exact absurd hc (by decide)

theorem Blanks.stopsAt {p : Char → Bool} {w : Text} (hw : Blanks w)
    (hp : ∀ c, p c = true → isBlank c = false) : StopsAt p w := by
  simpa using hw.stopsAt_append hp (stopsAt_nil p)

theorem StopsAt.append {p : Char → Bool} {s t : Text} (hs : StopsAt p s) (ht : StopsAt p t) :
    StopsAt p (s ++ t) := by
  cases s with
  | nil => exact ht
  | cons c s => exact stopsAt_cons.mpr (stopsAt_cons.mp hs)

/-- Behind a text, blanks are no part of a run of other characters. -/
theorem cut_append_blanks {p : Char → Bool} {w : Text} (hw : Blanks w)
    (hp : ∀ c, p c = true → isBlank c = false) (t : Text) :
    (t ++ w).takeWhile p = t.takeWhile p ∧ (t ++ w).dropWhile p = t.dropWhile p ++ w := by
  obtain ⟨hcut, hrun, hrest⟩ := takeWhile_dropWhile_eq_iff.mp ⟨rfl, rfl⟩
  refine takeWhile_dropWhile_eq_iff.mpr ⟨?_, hrun, hrest.append (hw.stopsAt hp)⟩
  rw [← List.append_assoc, ← hcut]

theorem trimStart_eq_nil_iff {t : Text} : trimStart t = [] ↔ Blanks t := List.dropWhile_eq_nil_iff

theorem trimStart_blanks_append {w : Text} (hw : Blanks w) (t : Text) :
    trimStart (w ++ t) = trimStart t := List.dropWhile_append_of_pos hw

theorem trimStart_of_stopsAt {t : Text} (h : StopsAt isBlank t) : trimStart t = t :=
  @dropWhile_run isBlank [] t (by simp) h

theorem trimStart_blanks_append_of_stopsAt {w t : Text} (hw : Blanks w)
    (ht : StopsAt isBlank t) : trimStart (w ++ t) = t := by
  rw [trimStart_blanks_append hw, trimStart_of_stopsAt ht]

theorem stopsAt_trimStart (t : Text) : StopsAt isBlank (trimStart t) := stopsAt_dropWhile isBlank t

theorem trimStart_trimStart (t : Text) : trimStart (trimStart t) = trimStart t :=
  trimStart_of_stopsAt (stopsAt_trimStart t)

/-- A text is its leading blanks and what stays without them. -/
theorem exists_blanks_append_trimStart (t : Text) : ∃ w, Blanks w ∧ t = w ++ trimStart t :=
  ⟨t.takeWhile isBlank, fun _ hc => List.mem_takeWhile_imp hc,
    List.takeWhile_append_dropWhile.symm⟩

/-- Of the blanks behind a text, all stay or, behind nothing but blanks, none. -/
theorem exists_trimStart_append_blanks {w : Text} (hw : Blanks w) (t : Text) :
    ∃ w', Blanks w' ∧ trimStart (t ++ w) = trimStart t ++ w' := by
  by_cases ht : Blanks t
  · refine ⟨[], blanks_nil, ?_⟩
    rw [trimStart_eq_nil_iff.mpr (blanks_append.mpr ⟨ht, hw⟩), trimStart_eq_nil_iff.mpr ht]
    rfl
  · refine ⟨w, hw, ?_⟩
    have hne : ¬ (t.dropWhile isBlank).isEmpty = true := by
      rw [List.isEmpty_iff]
      exact trimStart_eq_nil_iff.not.mpr ht
    unfold trimStart
    rw [List.dropWhile_append, if_neg hne]

theorem trimEnd_append_blanks {w : Text} (hw : Blanks w) (t : Text) :
    trimEnd (t ++ w) = trimEnd t := by
  have hrev : ∀ c ∈ w.reverse, isBlank c = true := by
    intro c hc
    exact hw c (List.mem_reverse.mp hc)
  unfold trimEnd
  rw [List.reverse_append, List.dropWhile_append_of_pos hrev]

theorem trim_append_blanks {w : Text} (hw : Blanks w) (t : Text) : trim (t ++ w) = trim t := by
  obtain ⟨w', hw', htrim⟩ := exists_trimStart_append_blanks hw t
  unfold trim
  rw [htrim, trimEnd_append_blanks hw']

theorem trimEnd_eq_nil_iff {t : Text} : trimEnd t = [] ↔ Blanks t := List.rdropWhile_eq_nil_iff

theorem blanks_trimStart {t : Text} : Blanks (trimStart t) ↔ Blanks t := by
  rw [← trimStart_eq_nil_iff, trimStart_trimStart, trimStart_eq_nil_iff]

theorem trim_eq_nil_iff {t : Text} : trim t = [] ↔ Blanks t := by
  rw [trim, trimEnd_eq_nil_iff, blanks_trimStart]

/-- A text is blanks, what stays without its outer blanks, and blanks. -/
theorem exists_blanks_around_trim (t : Text) :
    ∃ before after, Blanks before ∧ Blanks after ∧ t = before ++ (trim t ++ after) := by
  obtain ⟨before, hbefore, hstart⟩ := exists_blanks_append_trimStart t
  have hend : trim t ++ (trimStart t).rtakeWhile isBlank = trimStart t :=
    List.rdropWhile_append_rtakeWhile
  refine ⟨before, (trimStart t).rtakeWhile isBlank, hbefore, ?_, ?_⟩
  · intro c hc
    exact List.mem_rtakeWhile_imp hc
  · rw [hend]
    exact hstart

theorem mem_of_mem_trim {t : Text} {c : Char} (h : c ∈ trim t) : c ∈ t := by
  obtain ⟨before, after, -, -, ht⟩ := exists_blanks_around_trim t
  rw [ht, List.mem_append, List.mem_append]
  exact Or.inr (Or.inl h)

/-- A text that ends in a run without blanks ends there. -/
theorem trimEnd_append_run (t : Text) {run : Text} (hne : run ≠ [])
    (h : ∀ c ∈ run, isBlank c = false) : trimEnd (t ++ run) = t ++ run := by
  obtain rfl | ⟨init, c, rfl⟩ := List.eq_nil_or_concat' run
  · exact absurd rfl hne
  · rw [← List.append_assoc]
    exact List.rdropWhile_concat_neg isBlank _ c (by simp [h c (by simp)])

end MicroAsm.Text
