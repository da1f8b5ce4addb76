/-
  What the parts of a session do to the files.

  `Does x files result after`: on `files` the computation `x` answers `result` and leaves
  `after`.  One lemma for each part says so, and sequences are put together by `Does.bind`
  and `Does.bind_error`.
-/
import MicroAsm.Proofs.Files.Places
import MicroAsm.Session.Run

namespace MicroAsm

/-- The text of a file. -/
def FileSystem.readText (files : FileSystem) (path : Path) : Except FileError Text :=
  match files.read path with
  | .error e => .error e
  | .ok bytes =>
    match Text.ofUtf8? bytes with
    | none => .error .notText
    | some text => .ok text

namespace Session

/-- On `files` the computation `x` answers `result` and leaves `after`, whatever has been
    reported before. -/
def Does {α : Type} (x : ExceptT Failure (StateM World) α) (files : FileSystem)
    (result : Except Failure α) (after : FileSystem) : Prop :=
  ∀ events, ∃ events', x.run.run ⟨files, events⟩ = (result, ⟨after, events'⟩)

variable {α β : Type} {files middle after : FileSystem}

theorem does_pure (a : α) (files : FileSystem) : Does (pure a) files (.ok a) files :=
  fun events => ⟨events, rfl⟩

theorem Does.bind {x : ExceptT Failure (StateM World) α} {a : α}
    {next : α → ExceptT Failure (StateM World) β} {result : Except Failure β}
    (h : Does x files (.ok a) middle) (hnext : Does (next a) middle result after) :
    Does (x >>= next) files result after := by
  intro events
  obtain ⟨events₁, h₁⟩ := h events
  obtain ⟨events₂, h₂⟩ := hnext events₁
  refine ⟨events₂, ?_⟩
  rw [ExceptT.run_bind, StateT.run_bind, h₁]
  exact h₂

theorem Does.bind_error {x : ExceptT Failure (StateM World) α} {f : Failure}
    {next : α → ExceptT Failure (StateM World) β} (h : Does x files (.error f) after) :
    Does (x >>= next) files (.error f) after := by
  intro events
  obtain ⟨events', h'⟩ := h events
  refine ⟨events', ?_⟩
  rw [ExceptT.run_bind, StateT.run_bind, h']
  rfl

theorem does_lift {x : StateM World α} {a : α}
    (h : ∀ events, ∃ events', x.run ⟨files, events⟩ = (a, ⟨after, events'⟩)) :
    Does (ExceptT.lift x) files (.ok a) after := by
  intro events
  obtain ⟨events', h'⟩ := h events
  refine ⟨events', ?_⟩
  rw [ExceptT.run_lift, StateT.run_map, h']
  rfl

theorem does_stage {ε : Type} (failure : ε → Failure) (result : Except ε α) (files : FileSystem) :
    Does (stage failure result) files (result.mapError failure) files := by
  intro events
  cases result with
  | ok a => exact ⟨events, rfl⟩
  | error e => exact ⟨events, rfl⟩

theorem does_report (event : Event) (files : FileSystem) :
    Does (report event) files (.ok ()) files :=
  does_lift fun events => ⟨events.push event, rfl⟩

theorem does_forM_report (notes : List Note) (files : FileSystem) :
    Does (notes.forM fun note => report (.noted note)) files (.ok ()) files := by
  induction notes with
  | nil => exact does_pure () files
  | cons note notes ih => exact (does_report (.noted note) files).bind ih

theorem does_readBytes (path : Path) (files : FileSystem) :
    Does (readBytes path) files ((files.read path).mapError (Failure.file path)) files := by
  have hread : Does (ExceptT.lift (Host.readFile path)) files (.ok (files.read path)) files :=
    does_lift fun events => ⟨events, rfl⟩
  exact hread.bind (does_stage _ _ _)

theorem does_readText (path : Path) (files : FileSystem) :
    Does (readText path) files ((files.readText path).mapError (Failure.file path)) files := by
  have hbytes := does_readBytes path files
  unfold FileSystem.readText
  cases hread : files.read path with
  | error e =>
    rw [hread] at hbytes
    exact hbytes.bind_error
  | ok bytes =>
    rw [hread] at hbytes
    refine hbytes.bind ?_
    dsimp only
    cases Text.ofUtf8? bytes with
    | none => exact fun events => ⟨events, rfl⟩
    | some text => exact does_pure text files

theorem run_writeFile (path : Path) (bytes : List UInt8) (files : FileSystem)
    (events : Array Event) :
    (Host.writeFile path bytes : StateM World (Except FileError Unit)).run ⟨files, events⟩ =
      match files.write path bytes with
      | .ok after => (.ok (), ⟨after, events⟩)
      | .error e => (.error e, ⟨files, events⟩) := rfl

theorem does_writeBytes {path : Path} {location : Location}
    (h : files.target path = .ok location) (bytes : List UInt8) :
    Does (writeBytes path bytes) files (.ok ()) (files.put location (.file bytes)) := by
  refine (does_lift (a := .ok ()) fun events => ⟨events, ?_⟩).bind (does_stage _ _ _)
  rw [run_writeFile, FileSystem.write_of_target h]

theorem does_writeBytes_error {path : Path} {e : FileError} (h : files.target path = .error e)
    (bytes : List UInt8) : Does (writeBytes path bytes) files (.error (.file path e)) files := by
  refine (does_lift (a := .error e) fun events => ⟨events, ?_⟩).bind (does_stage _ _ _)
  rw [run_writeFile, FileSystem.write_of_target_error h]

end Session

end MicroAsm
