/-
  What writing a file does to a file system.

  A file goes where its path leads, and only that place changes (`SameExcept`).  No
  directory comes or goes and nothing that stood somewhere is taken away (`Extends`), so
  paths that led somewhere before still lead there.  The file that was written reads back
  (`read_put_self`), and a file at another place reads as before (`read_put_of_ne`).
-/
import MicroAsm.Files.System
import MicroAsm.Proofs.Outcome

namespace MicroAsm.FileSystem

/-! ## Places -/

theorem node?_put (files : FileSystem) {location : Location} (h : location ≠ []) (node : Node)
    (other : Location) :
    (files.put location node).node? other =
      if other = location then some node else files.node? other := by
  by_cases hroot : other = []
  · have hne : other ≠ location := fun heq => h (heq ▸ hroot)
    rw [if_neg hne, node?, if_pos hroot, node?, if_pos hroot]
  · rw [node?, if_neg hroot, put]
    by_cases heq : other = location
    · rw [if_pos heq, List.find?_cons_of_pos (by simp [heq])]
      rfl
    · have hkey : (fun entry : Location × Node => entry.1 != location && entry.1 == other) =
          fun entry => entry.1 == other := by
        funext entry
        by_cases hentry : entry.1 = other
        · simp [hentry, heq]
        · simp [hentry]
      rw [if_neg heq, List.find?_cons_of_neg (by simp [Ne.symm heq]), List.find?_filter, node?,
        if_neg hroot]
      simp only [Bool.decide_and, Bool.decide_eq_true, hkey]

theorem node?_put_self (files : FileSystem) {location : Location} (h : location ≠ [])
    (node : Node) : (files.put location node).node? location = some node := by
  rw [node?_put files h, if_pos rfl]

theorem node?_put_of_ne (files : FileSystem) {location other : Location} (h : location ≠ [])
    (node : Node) (hne : other ≠ location) :
    (files.put location node).node? other = files.node? other := by
  rw [node?_put files h, if_neg hne]

/-- Nothing differs but what stands at `places`. -/
structure SameExcept (places : List Location) (files after : FileSystem) : Prop where
  workingDirectory_eq : after.workingDirectory = files.workingDirectory
  node?_eq : ∀ location, location ∉ places → after.node? location = files.node? location

theorem sameExcept_put (files : FileSystem) {location : Location} (h : location ≠ [])
    (node : Node) : SameExcept [location] files (files.put location node) :=
  ⟨rfl, fun _ hother => node?_put_of_ne files h node (by simpa using hother)⟩

/-! ## Where paths lead -/

theorem enter_eq_ok_iff {files : FileSystem} {location place : Location} {name : Text} :
    files.enter location name = .ok place ↔
      files.node? location = some .directory ∧ (files.node? place).isSome = true ∧
        location.child name = place := by
  unfold enter
  split
  · next hnone => simp [hnone]
  · next hfile => simp [hfile]
  · next hdirectory =>
    rw [hdirectory]
    split
    · next hnone =>
      simp only [reduceCtorEq, false_iff, true_and, not_and]
      intro hsome hchild
      rw [← hchild, hnone] at hsome
      exact absurd hsome (by simp)
    · next node hnode =>
      simp only [Except.ok.injEq, true_and]
      constructor
      · rintro rfl
        exact ⟨by simp [hnode], rfl⟩
      · intro hplace
        exact hplace.2

theorem read_eq_ok_iff {files : FileSystem} {path : Path} {contents : List UInt8} :
    files.read path = .ok contents ↔
      ∃ location, files.locate path = .ok location ∧
        files.node? location = some (.file contents) ∧ path.endsInSlash = false := by
  unfold read
  cases hlocate : files.locate path with
  | error e => simp
  | ok location =>
    cases hnode : files.node? location with
    | none => simp [hnode]
    | some node =>
      cases node with
      | directory => simp [hnode]
      | file bytes =>
        cases hslash : path.endsInSlash with
        | true => simp [hnode]
        | false => simp [hnode]

/-- A path puts its file into the directory that all its names but the last lead to. -/
theorem target_eq_ok_iff {files : FileSystem} {path : Path} {location : Location} :
    files.target path = .ok location ↔
      ∃ name parent, path.names.getLast? = some name ∧
        path.names.dropLast.foldlM files.enter (files.start path) = .ok parent ∧
        files.node? parent = some .directory ∧
        ¬ (name = ['.'] ∨ name = ['.', '.'] ∨ path.endsInSlash = true) ∧
        files.node? (parent ++ [name]) ≠ some .directory ∧ parent ++ [name] = location := by
  constructor
  · intro h
    unfold target at h
    split at h
    · exact absurd h (by simp)
    next name hlast =>
    split at h
    · exact absurd h (by simp)
    next parent hfollow =>
    split at h
    · exact absurd h (by simp)
    · exact absurd h (by simp)
    next hparent =>
    split at h
    · exact absurd h (by simp)
    next hname =>
    split at h
    · exact absurd h (by simp)
    next hfree => exact ⟨name, parent, hlast, hfollow, hparent, hname, hfree, Except.ok.inj h⟩
  · intro hplace
    obtain ⟨name, parent, hlast, hfollow, hparent, hname, hfree, rfl⟩ := hplace
    unfold target
    simp only [hlast, hfollow, hparent, if_neg hname, if_neg hfree]

theorem ne_nil_of_target {files : FileSystem} {path : Path} {location : Location}
    (h : files.target path = .ok location) : location ≠ [] := by
  obtain ⟨name, parent, -, -, -, -, -, rfl⟩ := target_eq_ok_iff.mp h
  simp

theorem not_directory_of_target {files : FileSystem} {path : Path} {location : Location}
    (h : files.target path = .ok location) : files.node? location ≠ some .directory := by
  obtain ⟨name, parent, -, -, -, -, hfree, rfl⟩ := target_eq_ok_iff.mp h
  exact hfree

theorem write_of_target {files : FileSystem} {path : Path} {location : Location}
    (h : files.target path = .ok location) (contents : List UInt8) :
    files.write path contents = .ok (files.put location (.file contents)) := by
  rw [write, h]

theorem write_of_target_error {files : FileSystem} {path : Path} {e : FileError}
    (h : files.target path = .error e) (contents : List UInt8) :
    files.write path contents = .error e := by
  rw [write, h]

/-! ## Paths after a file is written -/

/-- The directories are the same, and nothing that stood somewhere is gone. -/
structure Extends (files after : FileSystem) : Prop where
  workingDirectory_eq : after.workingDirectory = files.workingDirectory
  directory_iff : ∀ location,
    after.node? location = some .directory ↔ files.node? location = some .directory
  isSome : ∀ location, (files.node? location).isSome = true → (after.node? location).isSome = true

theorem extends_refl (files : FileSystem) : Extends files files :=
  ⟨rfl, fun _ => Iff.rfl, fun _ => id⟩

/-- A file that is put where no directory stands. -/
theorem extends_put {files : FileSystem} {location : Location} (hroot : location ≠ [])
    (hfree : files.node? location ≠ some .directory) (contents : List UInt8) :
    Extends files (files.put location (.file contents)) := by
  refine ⟨rfl, ?_, ?_⟩
  · intro other
    by_cases heq : other = location
    · subst heq
      rw [node?_put_self files hroot]
      simp [hfree]
    · rw [node?_put_of_ne files hroot _ heq]
  · intro other hsome
    by_cases heq : other = location
    · subst heq
      rw [node?_put_self files hroot]
      rfl
    · rwa [node?_put_of_ne files hroot _ heq]

namespace Extends

variable {files after : FileSystem} (h : Extends files after)

include h

theorem trans {later : FileSystem} (hlater : Extends after later) : Extends files later := by
  refine ⟨hlater.workingDirectory_eq.trans h.workingDirectory_eq, ?_, ?_⟩
  · intro location
    exact (hlater.directory_iff location).trans (h.directory_iff location)
  · intro location hsome
    exact hlater.isSome location (h.isSome location hsome)

theorem start_eq (path : Path) : after.start path = files.start path := by
  rw [start, start, h.workingDirectory_eq]

theorem enter {location place : Location} {name : Text}
    (henter : files.enter location name = .ok place) : after.enter location name = .ok place := by
  obtain ⟨hdirectory, hsome, hchild⟩ := enter_eq_ok_iff.mp henter
  exact enter_eq_ok_iff.mpr ⟨(h.directory_iff _).mpr hdirectory, h.isSome _ hsome, hchild⟩

theorem follow {names : List Text} {location place : Location}
    (hfollow : names.foldlM files.enter location = .ok place) :
    names.foldlM after.enter location = .ok place := by
  induction names generalizing location with
  | nil => exact hfollow
  | cons name names ih =>
    rw [List.foldlM_cons] at hfollow ⊢
    obtain ⟨next, hnext, hrest⟩ := bind_eq_ok_iff.mp hfollow
    exact bind_eq_ok_iff.mpr ⟨next, h.enter hnext, ih hrest⟩

theorem locate {path : Path} {location : Location} (hlocate : files.locate path = .ok location) :
    after.locate path = .ok location := by
  unfold FileSystem.locate at hlocate ⊢
  split at hlocate
  · exact absurd hlocate (by simp)
  · next hne =>
    rw [if_neg hne, h.start_eq]
    exact h.follow hlocate

/-- A way that ends in a directory passes directories only, and these were there before. -/
theorem follow_back {names : List Text} {location place : Location}
    (hfollow : names.foldlM after.enter location = .ok place)
    (hplace : after.node? place = some .directory) :
    names.foldlM files.enter location = .ok place ∧
      files.node? location = some .directory := by
  induction names generalizing location with
  | nil =>
    obtain rfl : location = place := Except.ok.inj hfollow
    exact ⟨rfl, (h.directory_iff _).mp hplace⟩
  | cons name names ih =>
    rw [List.foldlM_cons] at hfollow ⊢
    obtain ⟨next, hnext, hrest⟩ := bind_eq_ok_iff.mp hfollow
    obtain ⟨hback, hdirectory⟩ := ih hrest
    obtain ⟨hlocation, -, hchild⟩ := enter_eq_ok_iff.mp hnext
    have hlocation' : files.node? location = some .directory := (h.directory_iff _).mp hlocation
    have henter : files.enter location name = .ok next :=
      enter_eq_ok_iff.mpr ⟨hlocation', by rw [hdirectory]; rfl, hchild⟩
    exact ⟨bind_eq_ok_iff.mpr ⟨next, henter, hback⟩, hlocation'⟩

/-- Files go where they would have gone before. -/
theorem target_eq_ok_iff {path : Path} {location : Location} :
    after.target path = .ok location ↔ files.target path = .ok location := by
  rw [FileSystem.target_eq_ok_iff, FileSystem.target_eq_ok_iff, h.start_eq]
  constructor
  · rintro ⟨name, parent, hlast, hfollow, hparent, hname, hfree, hplace⟩
    exact ⟨name, parent, hlast, (h.follow_back hfollow hparent).1, (h.directory_iff _).mp hparent,
      hname, fun hdirectory => hfree ((h.directory_iff _).mpr hdirectory), hplace⟩
  · rintro ⟨name, parent, hlast, hfollow, hparent, hname, hfree, hplace⟩
    exact ⟨name, parent, hlast, h.follow hfollow, (h.directory_iff _).mpr hparent, hname,
      fun hdirectory => hfree ((h.directory_iff _).mp hdirectory), hplace⟩

end Extends

/-! ## Reading back -/

theorem extends_put_of_target {files : FileSystem} {path : Path} {location : Location}
    (h : files.target path = .ok location) (contents : List UInt8) :
    Extends files (files.put location (.file contents)) :=
  extends_put (ne_nil_of_target h) (not_directory_of_target h) contents

/-- A path that was written to leads to the file. -/
theorem locate_put_self {files : FileSystem} {path : Path} {location : Location}
    (h : files.target path = .ok location) (contents : List UInt8) :
    (files.put location (.file contents)).locate path = .ok location := by
  have hextends := extends_put_of_target h contents
  have hself := node?_put_self files (ne_nil_of_target h) (.file contents)
  obtain ⟨name, parent, hlast, hfollow, hparent, hname, -, rfl⟩ := target_eq_ok_iff.mp h
  rw [not_or, not_or] at hname
  obtain ⟨hdot, hdots, -⟩ := hname
  have hnames : path.names = path.names.dropLast ++ [name] :=
    (List.dropLast_append_getLast? name hlast).symm
  have hpath : path ≠ [] := by
    rintro rfl
    exact absurd hlast (by simp [Path.names])
  have hchild : Location.child parent name = parent ++ [name] := by
    rw [Location.child, if_neg hdot, if_neg hdots]
  have henter : (files.put (parent ++ [name]) (.file contents)).enter parent name =
      .ok (parent ++ [name]) :=
    enter_eq_ok_iff.mpr ⟨(hextends.directory_iff _).mpr hparent, by rw [hself]; rfl, hchild⟩
  rw [locate, if_neg hpath, hextends.start_eq, hnames,
    foldlM_append_of_ok (hextends.follow hfollow)]
  exact bind_eq_ok_iff.mpr ⟨_, henter, rfl⟩

/-- A written file holds what was written. -/
theorem read_put_self {files : FileSystem} {path : Path} {location : Location}
    (h : files.target path = .ok location) (contents : List UInt8) :
    (files.put location (.file contents)).read path = .ok contents := by
  refine read_eq_ok_iff.mpr ⟨location, locate_put_self h contents,
    node?_put_self files (ne_nil_of_target h) _, ?_⟩
  obtain ⟨name, parent, -, -, -, hname, -, -⟩ := target_eq_ok_iff.mp h
  rw [not_or, not_or] at hname
  simpa using hname.2.2

/-- A file at another place is read as before. -/
theorem read_put_of_ne {files : FileSystem} {path other : Path} {location place : Location}
    (h : files.target path = .ok location) (contents : List UInt8)
    (hlocate : files.locate other = .ok place) (hne : place ≠ location) {bytes : List UInt8}
    (hread : files.read other = .ok bytes) :
    (files.put location (.file contents)).read other = .ok bytes := by
  obtain ⟨place', hlocate', hnode, hslash⟩ := read_eq_ok_iff.mp hread
  obtain rfl : place = place' := Except.ok.inj (hlocate.symm.trans hlocate')
  refine read_eq_ok_iff.mpr ⟨place, (extends_put_of_target h contents).locate hlocate, ?_, hslash⟩
  rw [node?_put_of_ne files (ne_nil_of_target h) _ hne]
  exact hnode

end MicroAsm.FileSystem
