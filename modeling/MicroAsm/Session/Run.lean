/-
  A session: from the options of a command line to the files it writes.

  The stages come in this order, and the first that fails ends the session: the
  paths are compared, the configuration is read and its size checked, the input is
  read and assembled, the output is written, and last the listing.  Only these two
  change a file, so a source that does not assemble leaves all files as they are.

  A session runs on any `Host`.  `World` is the host whose files are a value, so
  what a session does can be stated.
-/
import MicroAsm.Assembly.Listing
import MicroAsm.CommandLine.Options
import MicroAsm.Session.Event
import MicroAsm.Text.Utf8

namespace MicroAsm

/-- Where a session reads and writes its files and reports its events. -/
class Host (m : Type → Type) where
  readFile : Path → m (Except FileError (List UInt8))
  writeFile : Path → List UInt8 → m (Except FileError Unit)
  report : Event → m Unit

namespace Session

/-! ## Stages without files -/

/-- The paths of the options may not be spelled alike. -/
def checkPaths (options : Options) : Except PathClash Unit :=
  if options.input.Same options.output then .error (.inputIsOutput options.input)
  else
    match options.listing with
    | none => .ok ()
    | some listing =>
      if listing.Same options.input ∨ listing.Same options.output then
        .error (.listingOverwrites listing)
      else .ok ()

/-- The configuration with the size that the options give. -/
def applySize (options : Options) (config : Config) : Config :=
  match options.imageSize with
  | none => config
  | some imageSize => ⟨imageSize⟩

/-- The first line of the listing of `input`. -/
def listingTitle (input : Path) : Text := "vgacpu listing of ".toList ++ input

/-! ## Stages on a host -/

variable {m : Type → Type} [Monad m] [Host m]

/-- The result of a stage, its errors turned into failures. -/
def stage {ε α : Type} (failure : ε → Failure) (result : Except ε α) : ExceptT Failure m α :=
  match result with
  | .ok a => pure a
  | .error e => throw (failure e)

/-- Reports an event. -/
def report (event : Event) : ExceptT Failure m Unit :=
  ExceptT.lift (Host.report event)

/-- The bytes of a file. -/
def readBytes (path : Path) : ExceptT Failure m (List UInt8) := do
  stage (Failure.file path) (← ExceptT.lift (Host.readFile path))

/-- The text of a file. -/
def readText (path : Path) : ExceptT Failure m Text := do
  match Text.ofUtf8? (← readBytes path) with
  | some text => pure text
  | none => throw (.file path .notText)

/-- Writes a whole file. -/
def writeBytes (path : Path) (bytes : List UInt8) : ExceptT Failure m Unit := do
  stage (Failure.file path) (← ExceptT.lift (Host.writeFile path bytes))

/-- The configuration in a file. -/
def loadConfig (path : Path) : ExceptT Failure m Config := do
  stage (Failure.config (some path)) (Config.ofDocument (← readText path))

/-- An image read back from a file. -/
def loadImage (path : Path) : ExceptT Failure m Image :=
  return Image.ofBytes (← readBytes path)

/-- The configuration that the options name, or the default. -/
def selectConfig (options : Options) : ExceptT Failure m Config :=
  match options.config with
  | some path => loadConfig path
  | none => pure Config.default

/-- The configuration that the options ask for, checked. -/
def configure (options : Options) : ExceptT Failure m Config := do
  let config := applySize options (← selectConfig options)
  stage (Failure.config none) config.validate
  return config

/-- Assembles a source text and reports a note on each line. -/
def assembleNoted (source : Text) (capacity : Nat) : ExceptT Failure m Assembly := do
  ((Assembly.empty capacity).notes (sourceLines source)).forM fun note => report (.noted note)
  stage Failure.assembly (assemble source capacity)

/-- The assembly of the input.  Nothing is written. -/
def prepare (options : Options) : ExceptT Failure m Assembly := do
  stage Failure.argument (checkPaths options)
  let config ← configure options
  report (.begun options.input options.output)
  let source ← readText options.input
  assembleNoted source config.imageSize

/-- Writes the output and then, if it is asked for, the listing. -/
def deliver (options : Options) (assembly : Assembly) : ExceptT Failure m Unit := do
  writeBytes options.output assembly.image.bytes
  if let some path := options.listing then
    report (.listing path)
    writeBytes path (Text.toUtf8 (Listing.render (listingTitle options.input) assembly))

/-- One session, from the options to the summary. -/
def run (options : Options) : ExceptT Failure m Summary := do
  let assembly ← prepare options
  deliver options assembly
  return Summary.of assembly

/-- A whole session with its last event; gives the exit code. -/
def execute (options : Options) : m UInt32 := do
  match ← (run options).run with
  | .ok summary =>
    Host.report (.succeeded summary)
    return 0
  | .error failure =>
    Host.report (.failed failure)
    return 1

end Session

/-! ## Files as a value -/

/-- A file system and the events reported so far. -/
structure World where
  files : FileSystem
  events : Array Event
deriving DecidableEq

instance : Host (StateM World) where
  readFile path := fun world => (world.files.read path, world)
  writeFile path bytes := fun world =>
    match world.files.write path bytes with
    | .ok files => (.ok (), { world with files })
    | .error e => (.error e, world)
  report event := fun world => ((), { world with events := world.events.push event })

end MicroAsm
