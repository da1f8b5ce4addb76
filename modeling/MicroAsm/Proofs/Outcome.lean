/-
  Computations that may fail: when a bind succeeds, and where a run over a list stops.
  A run fails at the first element that fails, in the state that all elements before
  it lead to.  Two runs that go together at every step go together as a whole.
-/
import Mathlib.Data.List.Basic

namespace MicroAsm

variable {ε α β : Type}

theorem bind_eq_ok_iff {x : Except ε α} {f : α → Except ε β} {b : β} :
    (x >>= f) = .ok b ↔ ∃ a, x = .ok a ∧ f a = .ok b := by
  cases x with
  | error e => simp [bind, Except.bind]
  | ok a => simp [bind, Except.bind]

/-- Reading back, one after another, what was written from `xs`. -/
theorem mapM_map_eq_some {γ : Type} {f : α → β} {g : β → Option γ} {k : α → γ} {xs : List α}
    (h : ∀ x ∈ xs, g (f x) = some (k x)) : (xs.map f).mapM g = some (xs.map k) := by
  induction xs with
  | nil => rfl
  | cons x xs ih =>
    rw [List.map_cons, List.mapM_cons, h x (by simp), ih fun y hy => h y (by simp [hy])]
    rfl

/-- A run over `xs ++ ys` is the run over `xs` and then the one over `ys`. -/
theorem foldlM_append_of_ok {f : β → α → Except ε β} {xs ys : List α} {s t : β}
    (h : xs.foldlM f s = .ok t) : (xs ++ ys).foldlM f s = ys.foldlM f t := by
  rw [List.foldlM_append, h]
  rfl

theorem foldlM_eq_error_iff {f : β → α → Except ε β} {xs : List α} {s : β} {e : ε} :
    xs.foldlM f s = .error e ↔
      ∃ before x after t, xs = before ++ x :: after ∧ before.foldlM f s = .ok t ∧
        f t x = .error e := by
  constructor
  · intro h
    induction xs generalizing s with
    | nil => exact absurd h (by simp [pure, Except.pure])
    | cons x xs ih =>
      rw [List.foldlM_cons] at h
      cases hx : f s x with
      | error e' =>
        rw [hx] at h
        obtain rfl : e' = e := by simpa [bind, Except.bind] using h
        exact ⟨[], x, xs, s, rfl, rfl, hx⟩
      | ok t =>
        rw [hx] at h
        obtain ⟨before, y, after, u, rfl, hb, hy⟩ := ih h
        refine ⟨x :: before, y, after, u, rfl, ?_, hy⟩
        rw [List.foldlM_cons, hx]
        exact hb
  · intro hstop
    obtain ⟨before, x, after, t, rfl, hb, hx⟩ := hstop
    rw [foldlM_append_of_ok hb, List.foldlM_cons, hx]
    rfl

/-- A run that another one follows step by step: what `onState`, `onItem` and `onError` do to
    states, elements and errors at each step, they do to the whole run.  The steps need to be
    followed from states with `inv` only. -/
theorem foldlM_map_of_step {ε' α' β' : Type} {f : β → α → Except ε β}
    {g : β' → α' → Except ε' β'} {onState : β → β'} {onItem : α → α'} {onError : ε → ε'}
    (inv : β → Prop) (hkeep : ∀ s x t, inv s → f s x = .ok t → inv t)
    (hstep : ∀ s x, inv s →
      g (onState s) (onItem x) = ((f s x).map onState).mapError onError)
    (xs : List α) {s : β} (hs : inv s) :
    (xs.map onItem).foldlM g (onState s) = ((xs.foldlM f s).map onState).mapError onError := by
  induction xs generalizing s with
  | nil => rfl
  | cons x xs ih =>
    rw [List.map_cons, List.foldlM_cons, List.foldlM_cons, hstep s x hs]
    cases hx : f s x with
    | error e => rfl
    | ok t => exact ih (hkeep s x t hs hx)

end MicroAsm
