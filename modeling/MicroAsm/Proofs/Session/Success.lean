/-
  What a session that succeeds leaves behind.

  The output, the listing, the summary and an image read back from the output all speak of
  one assembly, that of the input at the size that counts.  The files hold what was asked for
  and differ in nothing else (`Delivered`).  This needs input, output and listing to lead to
  different places (`Apart`): paths that are spelled differently may still lead to one.
-/
import MicroAsm.Proofs.Listing.Lines
import MicroAsm.Proofs.Session.Stages

namespace MicroAsm

namespace Session

/-! ## Files that hold what was asked for -/

/-- Input, output and listing lead to different places. -/
structure Apart (files : FileSystem) (options : Options) : Prop where
  input_output : ∀ place, files.locate options.input = .ok place →
    files.target options.output ≠ .ok place
  input_listing : ∀ path place, options.listing = some path →
    files.locate options.input = .ok place → files.target path ≠ .ok place
  output_listing : ∀ path place, options.listing = some path →
    files.target options.output = .ok place → files.target path ≠ .ok place

/-- The files after a session: the image is in the output and its listing where it was asked
    for, and nothing else differs from before. -/
structure Delivered (files : FileSystem) (options : Options) (a : Assembly) (after : FileSystem) :
    Prop where
  output : after.read options.output = .ok a.image.bytes
  listing : ∀ path, options.listing = some path →
    after.read path = .ok (Text.toUtf8 (Listing.render (listingTitle options.input) a))
  input : after.read options.input = files.read options.input
  workingDirectory_eq : after.workingDirectory = files.workingDirectory
  others : ∀ location, files.target options.output ≠ .ok location →
    (∀ path, options.listing = some path → files.target path ≠ .ok location) →
    after.node? location = files.node? location

section

variable {files after : FileSystem} {options : Options} {size : Nat} {source : Text}
  {a : Assembly} {location : Location}

theorem read_of_readText {path : Path} {t : Text} (h : files.readText path = .ok t) :
    ∃ bytes, files.read path = .ok bytes := by
  unfold FileSystem.readText at h
  split at h
  · exact absurd h (by simp)
  · next bytes hread => exact ⟨bytes, hread⟩

/-- The input as it was read, and where it stands. -/
theorem Prepared.exists_input (h : Prepared files options size source a) :
    ∃ bytes place, files.read options.input = .ok bytes ∧
      files.locate options.input = .ok place := by
  obtain ⟨bytes, hread⟩ := read_of_readText h.source_eq
  obtain ⟨place, hlocate, -, -⟩ := FileSystem.read_eq_ok_iff.mp hread
  exact ⟨bytes, place, hread, hlocate⟩

theorem delivered_plain (h : Prepared files options size source a)
    (htarget : files.target options.output = .ok location) (hlisting : options.listing = none)
    (hapart : Apart files options) :
    Delivered files options a (files.put location (.file a.image.bytes)) := by
  obtain ⟨bytes, place, hread, hlocate⟩ := h.exists_input
  have hne : place ≠ location := by
    rintro rfl
    exact hapart.input_output _ hlocate htarget
  refine ⟨FileSystem.read_put_self htarget _, ?_, ?_, rfl, ?_⟩
  · intro path hpath
    rw [hlisting] at hpath
    exact absurd hpath (by simp)
  · rw [hread]
    exact FileSystem.read_put_of_ne htarget _ hlocate hne hread
  · intro other hother _
    have hne' : other ≠ location := fun heq => hother (heq ▸ htarget)
    exact FileSystem.node?_put_of_ne files (FileSystem.ne_nil_of_target htarget) _ hne'

theorem delivered_listed {path : Path} {place : Location}
    (h : Prepared files options size source a)
    (htarget : files.target options.output = .ok location)
    (hlisting : options.listing = some path)
    (hplace : (files.put location (.file a.image.bytes)).target path = .ok place)
    (hapart : Apart files options) :
    Delivered files options a
      ((files.put location (.file a.image.bytes)).put place
        (.file (listingBytes options a))) := by
  have hextends := FileSystem.extends_put_of_target htarget a.image.bytes
  have hplace' : files.target path = .ok place := hextends.target_eq_ok_iff.mp hplace
  obtain ⟨bytes, input, hread, hlocate⟩ := h.exists_input
  have houtput : input ≠ location := by
    rintro rfl
    exact hapart.input_output _ hlocate htarget
  have hinput : input ≠ place := by
    rintro rfl
    exact hapart.input_listing path _ hlisting hlocate hplace'
  have hne : location ≠ place := by
    rintro rfl
    exact hapart.output_listing path _ hlisting htarget hplace'
  refine ⟨?_, ?_, ?_, rfl, ?_⟩
  · exact FileSystem.read_put_of_ne hplace _ (FileSystem.locate_put_self htarget _) hne
      (FileSystem.read_put_self htarget _)
  · intro path' hpath'
    obtain rfl : path = path' := Option.some.inj (hlisting.symm.trans hpath')
    exact FileSystem.read_put_self hplace _
  · rw [hread]
    exact FileSystem.read_put_of_ne hplace _ (hextends.locate hlocate) hinput
      (FileSystem.read_put_of_ne htarget _ hlocate houtput hread)
  · intro other hother hother'
    have hne₁ : other ≠ location := fun heq => hother (heq ▸ htarget)
    have hne₂ : other ≠ place := fun heq => hother' path hlisting (heq ▸ hplace')
    rw [FileSystem.node?_put_of_ne _ (FileSystem.ne_nil_of_target hplace) _ hne₂,
      FileSystem.node?_put_of_ne _ (FileSystem.ne_nil_of_target htarget) _ hne₁]

/-- A session that succeeds has delivered the assembly of its input. -/
theorem Ends.delivered {summary : Summary} (h : Ends files options (.ok summary) after)
    (hapart : Apart files options) :
    ∃ size source a, Prepared files options size source a ∧ summary = Summary.of a ∧
      Delivered files options a after := by
  cases h with
  | plain hprepared htarget hlisting _ =>
    exact ⟨_, _, _, hprepared, rfl, delivered_plain hprepared htarget hlisting hapart⟩
  | listed hprepared htarget hlisting hplace _ =>
    exact ⟨_, _, _, hprepared, rfl, delivered_listed hprepared htarget hlisting hplace hapart⟩

/-! ## Figures, and reading back -/

/-- The figures of the assembly are those of the source and of the whole image. -/
theorem Prepared.summary_eq (h : Prepared files options size source a) :
    Summary.of a = ⟨(codeLines source).length,
      extent (codeLines source) (codeLines source).length, size, crc32 a.image.bytes⟩ := by
  have hlaid := h.laid
  rw [Summary.of, hlaid.size_eq, hlaid.cursor_eq, hlaid.capacity_eq, Image.checksum]

theorem Prepared.unique {size' : Nat} {source' : Text} {a' : Assembly}
    (h : Prepared files options size source a) (h' : Prepared files options size' source' a') :
    a = a' := by
  obtain rfl : size = size' := Option.some.inj (h.size_eq.symm.trans h'.size_eq)
  obtain rfl : source = source' := Except.ok.inj (h.source_eq.symm.trans h'.source_eq)
  exact Except.ok.inj (h.assemble_eq.symm.trans h'.assemble_eq)

/-- A session of which no stage fails succeeds. -/
theorem Ends.eq_ok {result : Except Failure Summary} (h : Ends files options result after)
    (hprepared : Prepared files options size source a)
    (hpasses : ∀ s : Stage, s.failure? files options = none) :
    result = .ok (Summary.of a) := by
  cases h with
  | early hfirst _ => exact absurd hpasses hfirst.not_passes
  | late _ _ hfirst => exact absurd hpasses hfirst.not_passes
  | plain hprepared' _ _ _ => rw [hprepared.unique hprepared']
  | listed hprepared' _ _ _ _ => rw [hprepared.unique hprepared']

theorem does_loadImage {path : Path} {bytes : List UInt8} (h : files.read path = .ok bytes) :
    Does (loadImage path) files (.ok (Image.ofBytes bytes)) files := by
  have hread := does_readBytes path files
  rw [h] at hread
  exact hread.bind (does_pure _ files)

end

/-- **Success.**  A session that succeeds has assembled its input at the size that counts.  The
    output holds the image, the listing its rendering, and no other file has changed.  The
    summary and the last line of the listing report the same figures, and the output reads
    back as a full image with the bytes and the checksum that were written. -/
theorem outcome_of_success {options : Options} {world : World} {summary : Summary}
    (hapart : Apart world.files options) (h : (outcome options world).1 = .ok summary) :
    ∃ size source a, Prepared world.files options size source a ∧
      a.image.bytes.length = size ∧
      Delivered world.files options a (outcome options world).2.files ∧
      summary = ⟨(codeLines source).length,
        extent (codeLines source) (codeLines source).length, size, crc32 a.image.bytes⟩ ∧
      '\n' ∉ Listing.figures summary ∧
      (∃ before, Listing.render (listingTitle options.input) a =
        before ++ '\n' :: (Listing.figures summary ++ ['\n'])) ∧
      ∃ image, Does (loadImage options.output) (outcome options world).2.files (.ok image)
          (outcome options world).2.files ∧
        image.bytes = a.image.bytes ∧ image.checksum = summary.checksum ∧
        image.cursor = size ∧ image.capacity = size := by
  have hends := outcome_ends options world
  rw [h] at hends
  obtain ⟨size, source, a, hprepared, rfl, hdelivered⟩ := hends.delivered hapart
  have hlength := hprepared.laid.length_eq
  refine ⟨size, source, a, hprepared, hlength, hdelivered, hprepared.summary_eq,
    Listing.newline_notMem_figures _, Listing.exists_render_eq _ a,
    Image.ofBytes a.image.bytes, does_loadImage hdelivered.output, Image.bytes_ofBytes _, ?_,
    ?_, hlength⟩
  · rw [Image.checksum, Image.bytes_ofBytes]
    rfl
  · rw [Image.cursor, Image.ofBytes, List.size_toArray, hlength]

/-! ## A small session -/

/-- A root directory with one source file. -/
def smallWorld : World where
  files := ⟨[(["a.s".toList], .file (Text.toUtf8 "lim r2, 10\n// note\npush r2".toList))], []⟩
  events := #[]

/-- Options for an image of four bytes and a listing. -/
def smallOptions : Options where
  input := "a.s".toList
  output := "a.bin".toList
  listing := some "./a.lst".toList
  imageSize := some 4

/-- The assembly of the source file. -/
def smallAssembly : Assembly :=
  ⟨⟨4, #[0x90, 0x0A, 0x50]⟩, #[⟨0, 1, [0x90, 0x0A], "lim r2, 10".toList⟩,
    ⟨2, 3, [0x50], "push r2".toList⟩]⟩

theorem locate_small : smallWorld.files.locate smallOptions.input = .ok ["a.s".toList] := by
  decide

theorem target_small : smallWorld.files.target smallOptions.output = .ok ["a.bin".toList] := by
  decide

theorem target_listing_small :
    smallWorld.files.target "./a.lst".toList = .ok ["a.lst".toList] := by
  decide

theorem apart_small : Apart smallWorld.files smallOptions := by
  refine ⟨?_, ?_, ?_⟩
  · intro place hplace
    obtain rfl : ["a.s".toList] = place := Except.ok.inj (locate_small.symm.trans hplace)
    rw [target_small]
    decide
  · rintro path place ⟨⟩ hplace
    obtain rfl : ["a.s".toList] = place := Except.ok.inj (locate_small.symm.trans hplace)
    rw [target_listing_small]
    decide
  · rintro path place ⟨⟩ hplace
    obtain rfl : ["a.bin".toList] = place := Except.ok.inj (target_small.symm.trans hplace)
    rw [target_listing_small]
    decide

theorem prepared_small : Prepared smallWorld.files smallOptions 4
    "lim r2, 10\n// note\npush r2".toList smallAssembly := by
  have hread : smallWorld.files.read smallOptions.input =
      .ok (Text.toUtf8 "lim r2, 10\n// note\npush r2".toList) :=
    FileSystem.read_eq_ok_iff.mpr ⟨_, locate_small, rfl, by decide⟩
  refine ⟨rfl, by decide, by decide, ?_, by decide⟩
  rw [FileSystem.readText, hread]
  dsimp only
  rw [Text.ofUtf8?_toUtf8]

theorem failure?_small (s : Stage) : s.failure? smallWorld.files smallOptions = none := by
  have hlisting : smallOptions.listing = some "./a.lst".toList := rfl
  have hplace := (FileSystem.extends_put_of_target target_small
    smallAssembly.image.bytes).target_eq_ok_iff.mpr target_listing_small
  refine prepared_small.passes (by decide) rfl target_small ?_ s
  simp only [Stage.failure?, hlisting, prepared_small.withOutput?_eq target_small,
    Option.bind_some, hplace, failureIn]

/-- Two instructions in an image of four bytes. -/
theorem outcome_of_success_small :
    Apart smallWorld.files smallOptions ∧
      (outcome smallOptions smallWorld).1 = .ok ⟨2, 3, 4, 0xEA49FB91⟩ ∧
      Delivered smallWorld.files smallOptions smallAssembly
        (outcome smallOptions smallWorld).2.files ∧
      smallAssembly.image.bytes = [0x90, 0x0A, 0x50, 0x3E] := by
  have hsummary : Summary.of smallAssembly = ⟨2, 3, 4, 0xEA49FB91⟩ := by decide +kernel
  have hok : (outcome smallOptions smallWorld).1 = .ok ⟨2, 3, 4, 0xEA49FB91⟩ := by
    rw [← hsummary]
    exact (outcome_ends smallOptions smallWorld).eq_ok prepared_small failure?_small
  obtain ⟨size, source, a, hprepared, -, hdelivered, -⟩ := outcome_of_success apart_small hok
  obtain rfl : smallAssembly = a := prepared_small.unique hprepared
  exact ⟨apart_small, hok, hdelivered, by decide +kernel⟩

end Session

end MicroAsm
