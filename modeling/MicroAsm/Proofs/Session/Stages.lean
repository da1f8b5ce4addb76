/-
  The stages of a session, and what a failed session leaves behind.

  `Stage.failure?` says of each stage, by the files at the start, whether it fails and how.
  `Ends` lists the ways a session ends, with its result and the files after it, and every
  session ends in one of them (`run_ends`): with the failure of the first stage that fails
  (`FirstFailing`), or with a summary.  Only the last stage fails with a file changed: then
  the output is complete, and nothing else differs.
-/
import MicroAsm.Proofs.Assembly.Reference
import MicroAsm.Proofs.Session.Effects

namespace MicroAsm.Session

/-! ## Stages -/

/-- The stages of a session. -/
inductive Stage where
  | paths
  | config
  | size
  | input
  | assembly
  | output
  | listing
deriving DecidableEq

/-- The place of a stage in their order. -/
def Stage.rank : Stage → Nat
  | paths => 0
  | config => 1
  | size => 2
  | input => 3
  | assembly => 4
  | output => 5
  | listing => 6

theorem Stage.rank_injective {s t : Stage} (h : s.rank = t.rank) : s = t := by
  cases s <;> cases t <;> first | rfl | exact absurd h (by decide)

/-- The paths that a session writes to. -/
def destinations (options : Options) : List Path := options.output :: options.listing.toList

/-- The failure in a result that is an error. -/
def failureIn {ε α : Type} (failure : ε → Failure) : Except ε α → Option Failure
  | .ok _ => none
  | .error e => some (failure e)

/-- The configuration in the document that the options name, or the default. -/
def configOf (files : FileSystem) (options : Options) : Except Failure Config :=
  match options.config with
  | none => .ok Config.default
  | some path =>
    match files.readText path with
    | .error e => .error (.file path e)
    | .ok document => (Config.ofDocument document).mapError (Failure.config (some path))

/-- The size that counts: that of the options, else that of the configuration. -/
def effectiveSize? (files : FileSystem) (options : Options) : Option Nat :=
  match options.imageSize with
  | some size => some size
  | none => (configOf files options).toOption.map Config.imageSize

/-- What the input comes to at the size that counts. -/
def assembled? (files : FileSystem) (options : Options) : Option (Except Fault Assembly) :=
  match effectiveSize? files options, files.readText options.input with
  | some size, .ok source => some (assemble source size)
  | _, _ => none

/-- The files with the output written. -/
def withOutput? (files : FileSystem) (options : Options) : Option FileSystem :=
  match assembled? files options, files.target options.output with
  | some (.ok a), .ok location => some (files.put location (.file a.image.bytes))
  | _, _ => none

/-- How a stage of a session that starts on `files` fails, if it does.  The paths are compared
    as they are written; the listing is opened when the output is there. -/
def Stage.failure? (files : FileSystem) (options : Options) : Stage → Option Failure
  | paths => failureIn Failure.argument (checkPaths options)
  | config => failureIn id (configOf files options)
  | size =>
    (effectiveSize? files options).bind fun size =>
      if 1 ≤ size ∧ size ≤ 65536 then none else some (.config none (.sizeOutOfRange size))
  | input => failureIn (Failure.file options.input) (files.readText options.input)
  | assembly => (assembled? files options).bind (failureIn Failure.assembly)
  | output => failureIn (Failure.file options.output) (files.target options.output)
  | listing =>
    options.listing.bind fun path =>
      (withOutput? files options).bind fun written =>
        failureIn (Failure.file path) (written.target path)

/-- No stage before `s` fails. -/
def Reaches (files : FileSystem) (options : Options) (s : Stage) : Prop :=
  ∀ t : Stage, t.rank < s.rank → t.failure? files options = none

/-- Stage `s` is the first that fails, and `f` is how. -/
structure FirstFailing (files : FileSystem) (options : Options) (s : Stage) (f : Failure) :
    Prop where
  reaches : Reaches files options s
  fails : s.failure? files options = some f

section

variable {files : FileSystem} {options : Options}

theorem reaches_paths : Reaches files options .paths :=
  fun _ hrank => absurd hrank (Nat.not_lt_zero _)

theorem Reaches.next {s t : Stage} (h : Reaches files options s)
    (hs : s.failure? files options = none) (hrank : t.rank = s.rank + 1) :
    Reaches files options t := by
  intro u hu
  rw [hrank] at hu
  rcases Nat.lt_succ_iff_lt_or_eq.mp hu with hlt | heq
  · exact h u hlt
  · rw [Stage.rank_injective heq]
    exact hs

theorem FirstFailing.ne_none {s : Stage} {f : Failure} (h : FirstFailing files options s f) :
    s.failure? files options ≠ none := by
  rw [h.fails]
  simp

theorem FirstFailing.not_passes {s : Stage} {f : Failure} (h : FirstFailing files options s f) :
    ¬ ∀ t : Stage, t.failure? files options = none :=
  fun hpasses => h.ne_none (hpasses s)

/-- There is one first stage that fails. -/
theorem FirstFailing.unique {s t : Stage} {f g : Failure} (hs : FirstFailing files options s f)
    (ht : FirstFailing files options t g) : s = t ∧ f = g := by
  have hst : ¬ s.rank < t.rank := fun hlt => hs.ne_none (ht.reaches s hlt)
  have hts : ¬ t.rank < s.rank := fun hlt => ht.ne_none (hs.reaches t hlt)
  obtain rfl : s = t := Stage.rank_injective (by omega)
  exact ⟨rfl, Option.some.inj (hs.fails.symm.trans ht.fails)⟩

/-! ## Reading and assembling -/

/-- All stages that only read have passed, and the source assembles to `a`. -/
structure Prepared (files : FileSystem) (options : Options) (size : Nat) (source : Text)
    (a : Assembly) : Prop where
  size_eq : effectiveSize? files options = some size
  size_pos : 1 ≤ size
  size_le : size ≤ 65536
  source_eq : files.readText options.input = .ok source
  assemble_eq : assemble source size = .ok a

/-- `x` ends the session with the failure of a stage that only reads. -/
def FailsEarly {α : Type} (files : FileSystem) (options : Options)
    (x : ExceptT Failure (StateM World) α) : Prop :=
  ∃ s f, FirstFailing files options s f ∧ s.rank < Stage.output.rank ∧ Does x files (.error f) files

theorem FailsEarly.bind {α β : Type} {x : ExceptT Failure (StateM World) α}
    {next : α → ExceptT Failure (StateM World) β} (h : FailsEarly files options x) :
    FailsEarly files options (x >>= next) := by
  obtain ⟨s, f, hfirst, hrank, hdoes⟩ := h
  exact ⟨s, f, hfirst, hrank, hdoes.bind_error⟩

theorem Does.bind_early {α β : Type} {x : ExceptT Failure (StateM World) α} {a : α}
    {next : α → ExceptT Failure (StateM World) β} (hx : Does x files (.ok a) files)
    (h : FailsEarly files options (next a)) : FailsEarly files options (x >>= next) := by
  obtain ⟨s, f, hfirst, hrank, hdoes⟩ := h
  exact ⟨s, f, hfirst, hrank, hx.bind hdoes⟩

theorem paths_ends (files : FileSystem) (options : Options) :
    FailsEarly files options (stage Failure.argument (checkPaths options)) ∨
      Reaches files options .config ∧
        Does (stage Failure.argument (checkPaths options)) files (.ok ()) files := by
  have hstage := does_stage Failure.argument (checkPaths options) files
  cases hcheck : checkPaths options with
  | error clash =>
    rw [hcheck] at hstage
    have hfails : Stage.paths.failure? files options = some (.argument clash) := by
      simp only [Stage.failure?, hcheck, failureIn]
    exact Or.inl ⟨.paths, _, ⟨reaches_paths, hfails⟩, by decide, hstage⟩
  | ok _ =>
    rw [hcheck] at hstage
    have hpasses : Stage.paths.failure? files options = none := by
      simp only [Stage.failure?, hcheck, failureIn]
    exact Or.inr ⟨reaches_paths.next hpasses rfl, hstage⟩

theorem does_selectConfig (files : FileSystem) (options : Options) :
    Does (selectConfig options) files (configOf files options) files := by
  unfold selectConfig configOf
  cases options.config with
  | none => exact does_pure _ files
  | some path =>
    have hread := does_readText path files
    dsimp only
    cases htext : files.readText path with
    | error e =>
      rw [htext] at hread
      exact hread.bind_error
    | ok document =>
      rw [htext] at hread
      exact hread.bind (does_stage _ _ _)

/-- The options win over the configuration. -/
theorem applySize_eq {base : Config} (h : configOf files options = .ok base) :
    ∃ size, effectiveSize? files options = some size ∧ applySize options base = ⟨size⟩ := by
  unfold effectiveSize? applySize
  cases options.imageSize with
  | some size => exact ⟨size, rfl, rfl⟩
  | none => exact ⟨base.imageSize, by rw [h]; rfl, rfl⟩

theorem configure_ends (h : Reaches files options .config) :
    FailsEarly files options (configure options) ∨
      ∃ size, effectiveSize? files options = some size ∧ 1 ≤ size ∧ size ≤ 65536 ∧
        Reaches files options .input ∧ Does (configure options) files (.ok ⟨size⟩) files := by
  have hselect := does_selectConfig files options
  cases hconfig : configOf files options with
  | error f =>
    -- the document is loaded even where the options give the size
    rw [hconfig] at hselect
    have hfails : Stage.config.failure? files options = some f := by
      simp only [Stage.failure?, hconfig, failureIn, id]
    exact Or.inl ⟨.config, f, ⟨h, hfails⟩, by decide, hselect.bind_error⟩
  | ok base =>
    rw [hconfig] at hselect
    have hpasses : Stage.config.failure? files options = none := by
      simp only [Stage.failure?, hconfig, failureIn]
    have hreaches : Reaches files options .size := h.next hpasses rfl
    obtain ⟨size, hsize, happly⟩ := applySize_eq hconfig
    have hvalidate := does_stage (Failure.config none) (applySize options base).validate files
    by_cases hrange : 1 ≤ size ∧ size ≤ 65536
    · have hok : (applySize options base).validate = .ok () := by
        rw [happly]
        exact if_pos hrange
      rw [hok] at hvalidate
      have hpasses : Stage.size.failure? files options = none := by
        simp only [Stage.failure?, hsize, Option.bind_some, if_pos hrange]
      refine Or.inr ⟨size, hsize, hrange.1, hrange.2, hreaches.next hpasses rfl, ?_⟩
      refine hselect.bind ?_
      dsimp only
      rw [hok, ← happly]
      exact hvalidate.bind (does_pure _ files)
    · have herror : (applySize options base).validate = .error (.sizeOutOfRange size) := by
        rw [happly]
        exact if_neg hrange
      rw [herror] at hvalidate
      have hfails : Stage.size.failure? files options =
          some (.config none (.sizeOutOfRange size)) := by
        simp only [Stage.failure?, hsize, Option.bind_some, if_neg hrange]
      refine Or.inl ⟨.size, _, ⟨hreaches, hfails⟩, by decide, hselect.bind ?_⟩
      dsimp only
      rw [herror]
      exact hvalidate.bind_error

theorem readInput_ends (h : Reaches files options .input) :
    FailsEarly files options (readText options.input) ∨
      ∃ source, files.readText options.input = .ok source ∧ Reaches files options .assembly ∧
        Does (readText options.input) files (.ok source) files := by
  have hread := does_readText options.input files
  cases hsource : files.readText options.input with
  | error e =>
    rw [hsource] at hread
    have hfails : Stage.input.failure? files options = some (.file options.input e) := by
      simp only [Stage.failure?, hsource, failureIn]
    exact Or.inl ⟨.input, _, ⟨h, hfails⟩, by decide, hread⟩
  | ok source =>
    rw [hsource] at hread
    have hpasses : Stage.input.failure? files options = none := by
      simp only [Stage.failure?, hsource, failureIn]
    exact Or.inr ⟨source, rfl, h.next hpasses rfl, hread⟩

theorem assembleNoted_ends {size : Nat} {source : Text} (h : Reaches files options .assembly)
    (hsize : effectiveSize? files options = some size)
    (hsource : files.readText options.input = .ok source) :
    FailsEarly files options (assembleNoted source size) ∨
      ∃ a, assemble source size = .ok a ∧ Reaches files options .output ∧
        Does (assembleNoted source size) files (.ok a) files := by
  have hassembled : assembled? files options = some (assemble source size) := by
    simp only [assembled?, hsize, hsource]
  have hdoes : Does (assembleNoted source size) files
      ((assemble source size).mapError Failure.assembly) files :=
    (does_forM_report _ files).bind (does_stage _ _ _)
  cases ha : assemble source size with
  | error fault =>
    rw [ha] at hassembled hdoes
    have hfails : Stage.assembly.failure? files options = some (.assembly fault) := by
      simp only [Stage.failure?, hassembled, Option.bind_some, failureIn]
    exact Or.inl ⟨.assembly, _, ⟨h, hfails⟩, by decide, hdoes⟩
  | ok a =>
    rw [ha] at hassembled hdoes
    have hpasses : Stage.assembly.failure? files options = none := by
      simp only [Stage.failure?, hassembled, Option.bind_some, failureIn]
    exact Or.inr ⟨a, rfl, h.next hpasses rfl, hdoes⟩

theorem prepare_ends (files : FileSystem) (options : Options) :
    FailsEarly files options (prepare options) ∨
      ∃ size source a, Prepared files options size source a ∧ Reaches files options .output ∧
        Does (prepare options) files (.ok a) files := by
  unfold prepare
  rcases paths_ends files options with hfails | ⟨hconfig, hpaths⟩
  · exact Or.inl hfails.bind
  rcases configure_ends hconfig with hfails | ⟨size, hsize, hpos, hle, hinput, hconfigure⟩
  · exact Or.inl (hpaths.bind_early hfails.bind)
  have hbegun := does_report (.begun options.input options.output) files
  rcases readInput_ends hinput with hfails | ⟨source, hsource, hassembly, hread⟩
  · exact Or.inl
      (hpaths.bind_early (hconfigure.bind_early (hbegun.bind_early hfails.bind)))
  rcases assembleNoted_ends hassembly hsize hsource with hfails | ⟨a, ha, houtput, hassemble⟩
  · exact Or.inl
      (hpaths.bind_early (hconfigure.bind_early (hbegun.bind_early (hread.bind_early hfails))))
  · exact Or.inr ⟨size, source, a, ⟨hsize, hpos, hle, hsource, ha⟩, houtput,
      hpaths.bind (hconfigure.bind (hbegun.bind (hread.bind hassemble)))⟩

/-! ## Writing -/

theorem Prepared.withOutput?_eq {size : Nat} {source : Text} {a : Assembly} {location : Location}
    (h : Prepared files options size source a)
    (htarget : files.target options.output = .ok location) :
    withOutput? files options = some (files.put location (.file a.image.bytes)) := by
  simp only [withOutput?, assembled?, h.size_eq, h.source_eq, h.assemble_eq, htarget]

theorem Prepared.laid {size : Nat} {source : Text} {a : Assembly}
    (h : Prepared files options size source a) : Laid size (codeLines source) a := by
  obtain ⟨program, hparses, hfit, rfl⟩ := assemble_eq_ok_iff.mp h.assemble_eq
  exact hparses.laid hfit

theorem Reaches.all (h : Reaches files options .listing)
    (hlisting : Stage.listing.failure? files options = none) (s : Stage) :
    s.failure? files options = none := by
  by_cases hs : s = .listing
  · rw [hs]
    exact hlisting
  · refine h s ?_
    cases s <;> first | exact absurd rfl hs | decide

/-- No stage fails when the input is prepared and the files can be written. -/
theorem Prepared.passes {size : Nat} {source : Text} {a : Assembly} {location : Location}
    (h : Prepared files options size source a) (hpaths : checkPaths options = .ok ())
    {config : Config} (hconfig : configOf files options = .ok config)
    (htarget : files.target options.output = .ok location)
    (hlisting : Stage.listing.failure? files options = none) (s : Stage) :
    s.failure? files options = none := by
  cases s with
  | paths => simp only [Stage.failure?, hpaths, failureIn]
  | config => simp only [Stage.failure?, hconfig, failureIn]
  | size =>
    have hrange : 1 ≤ size ∧ size ≤ 65536 := ⟨h.size_pos, h.size_le⟩
    simp only [Stage.failure?, h.size_eq, Option.bind_some, if_pos hrange]
  | input => simp only [Stage.failure?, h.source_eq, failureIn]
  | assembly =>
    simp only [Stage.failure?, assembled?, h.size_eq, h.source_eq, h.assemble_eq,
      Option.bind_some, failureIn]
  | output => simp only [Stage.failure?, htarget, failureIn]
  | listing => exact hlisting

/-- The bytes of the listing of the input. -/
def listingBytes (options : Options) (a : Assembly) : List UInt8 :=
  Text.toUtf8 (Listing.render (listingTitle options.input) a)

/-- How a session that starts on `files` ends: its result, and the files it leaves. -/
inductive Ends (files : FileSystem) (options : Options) :
    Except Failure Summary → FileSystem → Prop
  /-- A stage before the listing fails; nothing has been written. -/
  | early {s : Stage} {f : Failure} (first : FirstFailing files options s f)
      (ne_listing : s ≠ .listing) : Ends files options (.error f) files
  /-- The listing fails; the output has been written. -/
  | late {size : Nat} {source : Text} {a : Assembly} {location : Location} {f : Failure}
      (prepared : Prepared files options size source a)
      (target : files.target options.output = .ok location)
      (first : FirstFailing files options .listing f) :
      Ends files options (.error f) (files.put location (.file a.image.bytes))
  /-- All is well, and no listing was asked for. -/
  | plain {size : Nat} {source : Text} {a : Assembly} {location : Location}
      (prepared : Prepared files options size source a)
      (target : files.target options.output = .ok location)
      (listing : options.listing = none)
      (passes : ∀ s : Stage, s.failure? files options = none) :
      Ends files options (.ok (Summary.of a)) (files.put location (.file a.image.bytes))
  /-- All is well, with a listing. -/
  | listed {size : Nat} {source : Text} {a : Assembly} {location place : Location} {path : Path}
      (prepared : Prepared files options size source a)
      (target : files.target options.output = .ok location)
      (listing : options.listing = some path)
      (place_eq : (files.put location (.file a.image.bytes)).target path = .ok place)
      (passes : ∀ s : Stage, s.failure? files options = none) :
      Ends files options (.ok (Summary.of a))
        ((files.put location (.file a.image.bytes)).put place (.file (listingBytes options a)))

theorem deliver_ends {size : Nat} {source : Text} {a : Assembly}
    (h : Prepared files options size source a) (hreaches : Reaches files options .output) :
    ∃ result after, Ends files options (result.map fun _ => Summary.of a) after ∧
      Does (deliver options a) files result after := by
  cases htarget : files.target options.output with
  | error e =>
    have hfails : Stage.output.failure? files options = some (.file options.output e) := by
      simp only [Stage.failure?, htarget, failureIn]
    exact ⟨.error _, files, .early ⟨hreaches, hfails⟩ (by decide),
      (does_writeBytes_error htarget _).bind_error⟩
  | ok location =>
  have hpasses : Stage.output.failure? files options = none := by
    simp only [Stage.failure?, htarget, failureIn]
  have hlast : Reaches files options .listing := hreaches.next hpasses rfl
  have hwritten := h.withOutput?_eq htarget
  have hwrite := does_writeBytes htarget a.image.bytes
  cases hlisting : options.listing with
  | none =>
    have hnone : Stage.listing.failure? files options = none := by
      simp only [Stage.failure?, hlisting, Option.bind_none]
    refine ⟨.ok (), _, .plain h htarget hlisting (hlast.all hnone), hwrite.bind ?_⟩
    rw [hlisting]
    exact does_pure () _
  | some path =>
    have hreport := does_report (.listing path) (files.put location (.file a.image.bytes))
    cases hplace : (files.put location (.file a.image.bytes)).target path with
    | error e =>
      have hfails : Stage.listing.failure? files options = some (.file path e) := by
        simp only [Stage.failure?, hlisting, hwritten, hplace, Option.bind_some, failureIn]
      refine ⟨.error _, _, .late h htarget ⟨hlast, hfails⟩, hwrite.bind ?_⟩
      rw [hlisting]
      exact hreport.bind (does_writeBytes_error hplace _)
    | ok place =>
      have hnone : Stage.listing.failure? files options = none := by
        simp only [Stage.failure?, hlisting, hwritten, hplace, Option.bind_some, failureIn]
      refine ⟨.ok (), _, .listed h htarget hlisting hplace (hlast.all hnone), hwrite.bind ?_⟩
      rw [hlisting]
      exact hreport.bind (does_writeBytes hplace _)

theorem run_ends (files : FileSystem) (options : Options) :
    ∃ result after, Ends files options result after ∧ Does (run options) files result after := by
  rcases prepare_ends files options with
    ⟨s, f, hfirst, hrank, hdoes⟩ | ⟨size, source, a, hprepared, hreaches, hprepare⟩
  · have hne : s ≠ .listing := by
      rintro rfl
      exact absurd hrank (by decide)
    exact ⟨_, _, .early hfirst hne, hdoes.bind_error⟩
  · obtain ⟨result, after, hends, hdeliver⟩ := deliver_ends hprepared hreaches
    cases result with
    | error f => exact ⟨_, after, hends, hprepare.bind hdeliver.bind_error⟩
    | ok _ => exact ⟨_, after, hends, hprepare.bind (hdeliver.bind (does_pure _ after))⟩

end

/-! ## Whole sessions -/

/-- The result of a session in `world`, and the world after it. -/
def outcome (options : Options) (world : World) : Except Failure Summary × World :=
  (run options : ExceptT Failure (StateM World) Summary).run.run world

theorem outcome_ends (options : Options) (world : World) :
    Ends world.files options (outcome options world).1 (outcome options world).2.files := by
  obtain ⟨result, after, hends, hdoes⟩ := run_ends world.files options
  obtain ⟨events, hrun⟩ := hdoes world.events
  have houtcome : outcome options world = (result, ⟨after, events⟩) := hrun
  rw [houtcome]
  exact hends

/-- Only the output has changed: it holds the whole image of the input. -/
def OnlyOutputWritten (files : FileSystem) (options : Options) (after : FileSystem) : Prop :=
  ∃ size source a location, Prepared files options size source a ∧
    a.image.bytes.length = size ∧ files.target options.output = .ok location ∧
    after.node? location = some (.file a.image.bytes) ∧
    FileSystem.SameExcept [location] files after

/-- A failure of the arguments, the configuration, the source text or the input file. -/
def PrecedesWriting (options : Options) : Failure → Prop
  | .argument _ => True
  | .config _ _ => True
  | .assembly _ => True
  | .file path _ => path = options.input

section

variable {files after : FileSystem} {options : Options} {result : Except Failure Summary}

theorem Ends.exists_firstFailing {f : Failure} (h : Ends files options (.error f) after) :
    ∃ s, FirstFailing files options s f := by
  cases h with
  | early hfirst _ => exact ⟨_, hfirst⟩
  | late _ _ hfirst => exact ⟨_, hfirst⟩

/-- What the first stage that fails makes of a session. -/
theorem Ends.of_firstFailing (h : Ends files options result after) {s : Stage} {f : Failure}
    (hs : FirstFailing files options s f) :
    result = .error f ∧ (s ≠ .listing → after = files) ∧
      (s = .listing → OnlyOutputWritten files options after) := by
  cases h with
  | early hfirst hne =>
    obtain ⟨rfl, rfl⟩ := hs.unique hfirst
    exact ⟨rfl, fun _ => rfl, fun heq => absurd heq hne⟩
  | @late size source a location _ hprepared htarget hfirst =>
    obtain ⟨rfl, rfl⟩ := hs.unique hfirst
    have hroot := FileSystem.ne_nil_of_target htarget
    refine ⟨rfl, fun hne => absurd rfl hne, fun _ => ?_⟩
    exact ⟨size, source, a, location, hprepared, hprepared.laid.length_eq, htarget,
      FileSystem.node?_put_self files hroot _, FileSystem.sameExcept_put files hroot _⟩
  | plain _ _ _ hpasses => exact absurd hpasses hs.not_passes
  | listed _ _ _ _ hpasses => exact absurd hpasses hs.not_passes

/-- A path to write to that is spelled like the input makes the first stage fail. -/
theorem exists_clash {path : Path} (hpath : path ∈ destinations options)
    (hsame : path.Same options.input) :
    ∃ clash, FirstFailing files options .paths (.argument clash) := by
  have hclash : ∃ clash, checkPaths options = .error clash := by
    unfold checkPaths
    split
    · exact ⟨_, rfl⟩
    · next houtput =>
      rcases List.mem_cons.mp hpath with rfl | hpath
      · exact absurd (Eq.symm hsame) houtput
      · rw [Option.mem_toList.mp hpath]
        exact ⟨_, if_pos (Or.inl hsame)⟩
  obtain ⟨clash, hclash⟩ := hclash
  exact ⟨clash, reaches_paths, by simp only [Stage.failure?, hclash, failureIn]⟩

/-- Paths that pass the first stage: the listing is not spelled like the input. -/
theorem listing_ne_input {path : Path} (h : Reaches files options .listing)
    (hlisting : options.listing = some path) : path ≠ options.input := by
  rintro rfl
  have hpath : options.input ∈ destinations options := by simp [destinations, hlisting]
  obtain ⟨clash, hfirst⟩ := exists_clash hpath rfl
  exact hfirst.ne_none (h .paths (by decide))

/-- The listing fails with its own path, which is not that of the input. -/
theorem not_precedesWriting {f : Failure} (h : FirstFailing files options .listing f) :
    ¬ PrecedesWriting options f := by
  intro hprecedes
  obtain ⟨path, hlisting, hfails⟩ := Option.bind_eq_some_iff.mp h.fails
  obtain ⟨written, -, hfails⟩ := Option.bind_eq_some_iff.mp hfails
  cases htarget : written.target path with
  | ok place => exact absurd hfails (by simp [htarget, failureIn])
  | error e =>
    obtain rfl : Failure.file path e = f := by simpa [htarget, failureIn] using hfails
    exact listing_ne_input h.reaches hlisting hprecedes

end

/-- **Failures.**  A session fails with the failure of the first stage that fails, and then
    all files are as before; only when the listing fails is the output there, complete.  Paths
    that clash are refused whatever the world. -/
theorem outcome_of_failure (options : Options) (world : World) :
    (∀ f, (outcome options world).1 = .error f ↔ ∃ s, FirstFailing world.files options s f) ∧
      (∀ clash, checkPaths options = .error clash →
        outcome options world = (.error (.argument clash), world)) ∧
      (∀ s f, FirstFailing world.files options s f → s ≠ .listing →
        (outcome options world).2.files = world.files) ∧
      (∀ f, FirstFailing world.files options .listing f →
        OnlyOutputWritten world.files options (outcome options world).2.files) ∧
      ∀ f, (outcome options world).1 = .error f → PrecedesWriting options f →
        (outcome options world).2.files = world.files := by
  have hends := outcome_ends options world
  have herror : ∀ f, (outcome options world).1 = .error f →
      ∃ s, FirstFailing world.files options s f := by
    intro f hf
    rw [hf] at hends
    exact hends.exists_firstFailing
  refine ⟨?_, ?_, ?_, ?_, ?_⟩
  · intro f
    refine ⟨herror f, ?_⟩
    rintro ⟨s, hs⟩
    exact (hends.of_firstFailing hs).1
  · intro clash hclash
    unfold outcome run prepare
    rw [hclash]
    rfl
  · intro s f hs hne
    exact (hends.of_firstFailing hs).2.1 hne
  · intro f hs
    exact (hends.of_firstFailing hs).2.2 rfl
  · intro f hf hprecedes
    obtain ⟨s, hs⟩ := herror f hf
    have hne : s ≠ .listing := by
      rintro rfl
      exact not_precedesWriting hs hprecedes
    exact (hends.of_firstFailing hs).2.1 hne

end MicroAsm.Session
