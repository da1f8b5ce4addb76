/-
  Spellings and places.

  Paths are compared as they are written; files are where paths lead.  A path without `..` only
  goes down, so it leads to its names, less every `.`, below the place where it starts
  (`eq_of_locate`, `eq_of_target`).  Of two such paths that start in the same way (`Comparable`)
  the spelling decides: leading to one place, they are spelled alike (`same_of_comparable`).
-/
import MicroAsm.Proofs.Files.Places

namespace MicroAsm

namespace Path

/-- The names that lead somewhere else. -/
def steps (p : Path) : List Text := p.names.filter (· != ['.'])

theorem components_of_absolute {p : Path} (h : p.isAbsolute = true) :
    p.components = ['/'] :: p.steps := if_pos h

/-- At the start of a relative path a `.` is a component. -/
theorem components_of_relative {p : Path} (h : p.isAbsolute = false) :
    p.components = if p.names.head? = some ['.'] then ['.'] :: p.steps else p.steps := by
  rw [components, if_neg (by simp [h]), steps]
  cases p.names with
  | nil => rfl
  | cons first rest =>
    by_cases hdot : first = ['.']
    · simp [hdot]
    · simp [hdot]

/-- Paths that start in the same way and never go up. -/
structure Comparable (p q : Path) : Prop where
  isAbsolute_eq : p.isAbsolute = q.isAbsolute
  dot_iff : p.isAbsolute = false → (p.names.head? = some ['.'] ↔ q.names.head? = some ['.'])
  left_down : ['.', '.'] ∉ p.names
  right_down : ['.', '.'] ∉ q.names

theorem Comparable.same_of_steps_eq {p q : Path} (h : Comparable p q) (hsteps : p.steps = q.steps) :
    p.Same q := by
  have hq := h.isAbsolute_eq
  unfold Same
  cases hp : p.isAbsolute with
  | true => rw [components_of_absolute hp, components_of_absolute (hq.symm.trans hp), hsteps]
  | false =>
    rw [components_of_relative hp, components_of_relative (hq.symm.trans hp), hsteps]
    simp only [h.dot_iff hp]

end Path

namespace FileSystem

variable {files : FileSystem} {location place : Location}

/-- A way without `..` goes down from where it starts. -/
theorem eq_of_follow {names : List Text} (hdown : ['.', '.'] ∉ names)
    (h : names.foldlM files.enter location = .ok place) :
    place = location ++ names.filter (· != ['.']) := by
  induction names generalizing location with
  | nil =>
    rw [List.filter_nil, List.append_nil]
    exact (Except.ok.inj h).symm
  | cons name names ih =>
    rw [List.mem_cons, not_or] at hdown
    rw [List.foldlM_cons] at h
    obtain ⟨next, hnext, hrest⟩ := bind_eq_ok_iff.mp h
    obtain ⟨-, -, hchild⟩ := enter_eq_ok_iff.mp hnext
    rw [ih hdown.2 hrest, ← hchild, Location.child, if_neg (Ne.symm hdown.1)]
    by_cases hdot : name = ['.']
    · simp [hdot]
    · simp [hdot]

theorem eq_of_locate {path : Path} (hdown : ['.', '.'] ∉ path.names)
    (h : files.locate path = .ok place) : place = files.start path ++ path.steps := by
  unfold locate at h
  split at h
  · exact absurd h (by simp)
  · exact eq_of_follow hdown h

theorem eq_of_target {path : Path} (hdown : ['.', '.'] ∉ path.names)
    (h : files.target path = .ok place) : place = files.start path ++ path.steps := by
  obtain ⟨name, parent, hlast, hfollow, -, hname, -, rfl⟩ := target_eq_ok_iff.mp h
  have hnames : path.names = path.names.dropLast ++ [name] :=
    (List.dropLast_append_getLast? name hlast).symm
  have hdown' : ['.', '.'] ∉ path.names.dropLast := fun hmem =>
    hdown (List.dropLast_subset _ hmem)
  have hdot : ¬ name = ['.'] := fun hdot => hname (Or.inl hdot)
  rw [eq_of_follow hdown' hfollow, Path.steps, hnames]
  simp [hdot]

/-- Comparable paths that name one file are spelled alike. -/
theorem same_of_comparable {p q : Path} (h : Path.Comparable p q)
    (hp : files.locate p = .ok place) (hq : files.target q = .ok place) : p.Same q := by
  apply h.same_of_steps_eq
  have hplace := (eq_of_locate h.left_down hp).symm.trans (eq_of_target h.right_down hq)
  rw [start, start, h.isAbsolute_eq] at hplace
  exact List.append_cancel_left hplace

end FileSystem

end MicroAsm
