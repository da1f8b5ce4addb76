/-
  When the input outlives a session.

  A session changes nothing but where its destinations lead (`WrittenTo`): one write keeps this
  (`WrittenTo.put`), so all of them do (`Ends.writtenTo`).  The input is refused as a destination
  by its spelling, not by its place.  So it is kept unless a destination leads to it under
  another spelling (`input_survives_unless_respelled`), and it is not kept then
  (`respelled_output_replaces_input`).
-/
import MicroAsm.Proofs.Files.Spelling
import MicroAsm.Proofs.Session.Success

namespace MicroAsm

/-! ## Writing to some paths -/

namespace FileSystem

/-- `after` is `files` with files written where some of `paths` lead. -/
structure WrittenTo (paths : List Path) (files after : FileSystem) : Prop where
  extended : Extends files after
  node?_eq : ∀ location, (∀ path ∈ paths, files.target path ≠ .ok location) →
    after.node? location = files.node? location

theorem writtenTo_refl (paths : List Path) (files : FileSystem) : WrittenTo paths files files :=
  ⟨extends_refl files, fun _ _ => rfl⟩

namespace WrittenTo

variable {paths : List Path} {files after : FileSystem} (h : WrittenTo paths files after)

include h

/-- One more file is written. -/
theorem put {path : Path} (hpath : path ∈ paths) {location : Location}
    (htarget : after.target path = .ok location) (contents : List UInt8) :
    WrittenTo paths files (after.put location (.file contents)) := by
  refine ⟨h.extended.trans (extends_put_of_target htarget contents), ?_⟩
  intro other hother
  have hne : other ≠ location := by
    rintro rfl
    exact hother path hpath (h.extended.target_eq_ok_iff.mp htarget)
  rw [node?_put_of_ne after (ne_nil_of_target htarget) _ hne]
  exact h.node?_eq other hother

/-- A file to which none of the paths leads reads as before. -/
theorem read_eq {path : Path} {bytes : List UInt8} (hread : files.read path = .ok bytes)
    (hother : ∀ place, files.locate path = .ok place →
      ∀ p ∈ paths, files.target p ≠ .ok place) : after.read path = .ok bytes := by
  obtain ⟨place, hlocate, hnode, hslash⟩ := read_eq_ok_iff.mp hread
  refine read_eq_ok_iff.mpr ⟨place, h.extended.locate hlocate, ?_, hslash⟩
  rw [h.node?_eq place (hother place hlocate)]
  exact hnode

end WrittenTo

end FileSystem

namespace Session

section

variable {files after : FileSystem} {options : Options} {result : Except Failure Summary}

/-- However it ends, a session has written to its destinations only. -/
theorem Ends.writtenTo (h : Ends files options result after) :
    FileSystem.WrittenTo (destinations options) files after := by
  have hstart := FileSystem.writtenTo_refl (destinations options) files
  have houtput : options.output ∈ destinations options := List.mem_cons_self
  cases h with
  | early _ _ => exact hstart
  | late _ htarget _ => exact hstart.put houtput htarget _
  | plain _ htarget _ _ => exact hstart.put houtput htarget _
  | listed _ htarget hlisting hplace _ =>
    refine (hstart.put houtput htarget _).put ?_ hplace _
    rw [destinations, hlisting]
    exact List.mem_cons_of_mem _ (List.mem_singleton_self _)

/-- Nothing is written before the input has been read. -/
theorem Ends.eq_or_read (h : Ends files options result after) :
    after = files ∨ ∃ bytes, files.read options.input = .ok bytes := by
  cases h with
  | early _ _ => exact Or.inl rfl
  | late hprepared _ _ => exact Or.inr (read_of_readText hprepared.source_eq)
  | plain hprepared _ _ _ => exact Or.inr (read_of_readText hprepared.source_eq)
  | listed hprepared _ _ _ _ => exact Or.inr (read_of_readText hprepared.source_eq)

/-! ## The input -/

/-- `path` leads to the file of `input`, but is spelled otherwise. -/
def Respelled (files : FileSystem) (input path : Path) : Prop :=
  ¬ path.Same input ∧ ∃ place, files.locate input = .ok place ∧ files.target path = .ok place

/-- A spelling of the input among the destinations ends the session at once. -/
theorem Ends.of_same (h : Ends files options result after) {path : Path}
    (hpath : path ∈ destinations options) (hsame : path.Same options.input) :
    (∃ clash, result = .error (.argument clash)) ∧ after = files := by
  obtain ⟨clash, hfirst⟩ := exists_clash hpath hsame
  obtain ⟨hresult, hfiles, -⟩ := h.of_firstFailing hfirst
  exact ⟨⟨clash, hresult⟩, hfiles (by decide)⟩

theorem Ends.keeps_input (h : Ends files options result after)
    (hspelling : ∀ path ∈ destinations options, ¬ Respelled files options.input path) :
    after.read options.input = files.read options.input ∧
      ∀ place, files.locate options.input = .ok place → after.node? place = files.node? place := by
  by_cases hsame : ∃ path ∈ destinations options, path.Same options.input
  · obtain ⟨path, hpath, hsame⟩ := hsame
    rw [(h.of_same hpath hsame).2]
    exact ⟨rfl, fun _ _ => rfl⟩
  · have hother : ∀ place, files.locate options.input = .ok place →
        ∀ path ∈ destinations options, files.target path ≠ .ok place := by
      intro place hplace path hpath htarget
      apply hspelling path hpath
      exact ⟨fun hpath' => hsame ⟨path, hpath, hpath'⟩, place, hplace, htarget⟩
    refine ⟨?_, fun place hplace => h.writtenTo.node?_eq place (hother place hplace)⟩
    rcases h.eq_or_read with rfl | ⟨bytes, hread⟩
    · rfl
    · rw [hread]
      exact h.writtenTo.read_eq hread hother

theorem not_respelled_of_comparable {input path : Path} (h : Path.Comparable input path) :
    ¬ Respelled files input path := by
  rintro ⟨hne, place, hinput, hpath⟩
  exact hne (Eq.symm (FileSystem.same_of_comparable h hinput hpath))

end

/-- **The input is kept unless it is respelled.**  A destination that is spelled like the input is
    refused, and no file changes.  Whatever a session returns, the file of the input holds
    what it held before, unless a destination leads to it under another spelling.  Paths that
    start in the same way and never go up are not spelled otherwise when they name one file. -/
theorem input_survives_unless_respelled (options : Options) (world : World) :
    (∀ path ∈ destinations options, path.Same options.input →
      (∃ clash, (outcome options world).1 = .error (.argument clash)) ∧
        (outcome options world).2.files = world.files) ∧
      ((∀ path ∈ destinations options, ¬ Respelled world.files options.input path) →
        (outcome options world).2.files.read options.input = world.files.read options.input ∧
          ∀ place, world.files.locate options.input = .ok place →
            (outcome options world).2.files.node? place = world.files.node? place) ∧
      ∀ path, Path.Comparable options.input path →
        ¬ Respelled world.files options.input path := by
  have hends := outcome_ends options world
  refine ⟨?_, hends.keeps_input, fun _ => not_respelled_of_comparable⟩
  intro path hpath hsame
  exact hends.of_same hpath hsame

/-! ## A respelled output -/

section

variable {files after : FileSystem} {options : Options} {result : Except Failure Summary}
  {size : Nat} {source : Text} {a : Assembly} {location : Location}

/-- Without a listing, a session of which no stage fails has put the image into the output. -/
theorem Ends.eq_put (h : Ends files options result after)
    (hprepared : Prepared files options size source a)
    (htarget : files.target options.output = .ok location) (hlisting : options.listing = none)
    (hpasses : ∀ s : Stage, s.failure? files options = none) :
    result = .ok (Summary.of a) ∧ after = files.put location (.file a.image.bytes) := by
  refine ⟨h.eq_ok hprepared hpasses, ?_⟩
  cases h with
  | early hfirst _ => exact absurd hpasses hfirst.not_passes
  | late _ _ hfirst => exact absurd hpasses hfirst.not_passes
  | plain hprepared' htarget' _ _ =>
    rw [hprepared.unique hprepared', Except.ok.inj (htarget.symm.trans htarget')]
  | listed _ _ hlisting' _ _ => exact absurd (hlisting.symm.trans hlisting') (by simp)

end

/-- A root directory with a source of one instruction. -/
def nopWorld : World where
  files := ⟨[(["a.s".toList], .file (Text.toUtf8 "nop".toList))], []⟩
  events := #[]

/-- The source is named twice, in two spellings. -/
def respelledOptions : Options where
  input := "./a.s".toList
  output := "a.s".toList
  imageSize := some 1

/-- **A respelled output replaces the input.**  The session succeeds, and where the source was
    stands the image. -/
theorem respelled_output_replaces_input :
    nopWorld.files.read respelledOptions.input = .ok (Text.toUtf8 "nop".toList) ∧
      (outcome respelledOptions nopWorld).1 = .ok ⟨1, 1, 1, 0xD202EF8D⟩ ∧
      (outcome respelledOptions nopWorld).2.files.read respelledOptions.input = .ok [0x00] ∧
      Text.toUtf8 "nop".toList ≠ [0x00] := by
  have hlocate : nopWorld.files.locate respelledOptions.input = .ok ["a.s".toList] := by
    decide
  have htarget : nopWorld.files.target respelledOptions.output = .ok ["a.s".toList] := by
    decide
  have hread : nopWorld.files.read respelledOptions.input = .ok (Text.toUtf8 "nop".toList) :=
    FileSystem.read_eq_ok_iff.mpr ⟨_, hlocate, rfl, by decide⟩
  have hprepared : Prepared nopWorld.files respelledOptions 1 "nop".toList
      ⟨⟨1, #[0x00]⟩, #[⟨0, 1, [0x00], "nop".toList⟩]⟩ := by
    refine ⟨rfl, by decide, by decide, ?_, by decide⟩
    rw [FileSystem.readText, hread]
    dsimp only
    rw [Text.ofUtf8?_toUtf8]
  have hpasses := hprepared.passes (by decide) rfl htarget rfl
  obtain ⟨hresult, hfiles⟩ :=
    (outcome_ends respelledOptions nopWorld).eq_put hprepared htarget rfl hpasses
  refine ⟨hread, ?_, ?_, by decide⟩
  · rw [hresult]
    decide
  · rw [hfiles]
    have hextends := FileSystem.extends_put_of_target htarget [0x00]
    exact FileSystem.read_eq_ok_iff.mpr ⟨_, hextends.locate hlocate, rfl, by decide⟩

end Session

end MicroAsm
