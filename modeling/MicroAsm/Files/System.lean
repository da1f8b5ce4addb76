/-
  A file system: a tree of directories and files with a working directory.

  The tree has no links: from the root, one list of names leads to each place,
  and other lists lead to other places.  So `..` goes back to where the name
  before it was entered.

  A path is followed name by name.  Every name before the last must lead to a
  directory; `.` and `..` do so too.  A path that ends in a slash names a
  directory.  Reading needs a file; writing creates the file or replaces its
  contents, and fails without effect.
-/
import MicroAsm.Files.Path

namespace MicroAsm

/-- Why a file could not be read or written. -/
inductive FileError where
  | notFound
  | isDirectory
  | notDirectory
  /-- The contents are no text. -/
  | notText
  | other (description : String)
deriving DecidableEq

/-- The wording of a file error. -/
def FileError.message : FileError → String
  | notFound => "No such file or directory (os error 2)"
  | isDirectory => "Is a directory (os error 21)"
  | notDirectory => "Not a directory (os error 20)"
  | notText => "stream did not contain valid UTF-8"
  | other description => description

/-- A place in the tree: the names from the root to it. -/
abbrev Location := List Text

/-- The place that `name` stands for, seen from a directory. -/
def Location.child (location : Location) (name : Text) : Location :=
  if name = ['.'] then location
  else if name = ['.', '.'] then location.dropLast
  else location ++ [name]

/-- What stands at a place. -/
inductive Node where
  | directory
  | file (contents : List UInt8)
deriving DecidableEq

/-- The tree below the root, and the working directory. -/
structure FileSystem where
  nodes : List (Location × Node)
  workingDirectory : Location
deriving DecidableEq

namespace FileSystem

/-! ## Places -/

/-- What stands at `location`.  The root is a directory. -/
def node? (files : FileSystem) (location : Location) : Option Node :=
  if location = [] then some .directory
  else (files.nodes.find? (·.1 == location)).map (·.2)

/-- Puts `node` at `location`. -/
def put (files : FileSystem) (location : Location) (node : Node) : FileSystem :=
  { files with nodes := (location, node) :: files.nodes.filter (·.1 != location) }

/-- The place that `name` leads to from `location`. -/
def enter (files : FileSystem) (location : Location) (name : Text) : Except FileError Location :=
  match files.node? location with
  | none => .error .notFound
  | some (.file _) => .error .notDirectory
  | some .directory =>
    match files.node? (location.child name) with
    | none => .error .notFound
    | some _ => .ok (location.child name)

/-- Where following a path begins. -/
def start (files : FileSystem) (path : Path) : Location :=
  if path.isAbsolute then [] else files.workingDirectory

/-- The place that a path leads to. -/
def locate (files : FileSystem) (path : Path) : Except FileError Location :=
  if path = [] then .error .notFound
  else path.names.foldlM files.enter (files.start path)

/-! ## Reading and writing -/

/-- The contents of a file. -/
def read (files : FileSystem) (path : Path) : Except FileError (List UInt8) :=
  match files.locate path with
  | .error e => .error e
  | .ok location =>
    match files.node? location with
    | none => .error .notFound
    | some .directory => .error .isDirectory
    | some (.file contents) => if path.endsInSlash then .error .notDirectory else .ok contents

/-- The place where a path that is written to puts its file. -/
def target (files : FileSystem) (path : Path) : Except FileError Location :=
  match path.names.getLast? with
  | none => .error (if path = [] then .notFound else .isDirectory)
  | some name =>
    match path.names.dropLast.foldlM files.enter (files.start path) with
    | .error e => .error e
    | .ok parent =>
      match files.node? parent with
      | none => .error .notFound
      | some (.file _) => .error .notDirectory
      | some .directory =>
        if name = ['.'] ∨ name = ['.', '.'] ∨ path.endsInSlash then .error .isDirectory
        else if files.node? (parent ++ [name]) = some .directory then .error .isDirectory
        else .ok (parent ++ [name])

/-- Creates a file or replaces its contents. -/
def write (files : FileSystem) (path : Path) (contents : List UInt8) :
    Except FileError FileSystem :=
  match files.target path with
  | .error e => .error e
  | .ok location => .ok (files.put location (.file contents))

/-! ## Setting up -/

/-- Makes a directory where nothing stands yet. -/
def makeDirectory (files : FileSystem) (location : Location) : FileSystem :=
  if (files.node? location).isSome then files else files.put location .directory

/-- Follows names from `location` and makes the directories that are missing; gives the
    place it comes to. -/
def makePath (files : FileSystem) (location : Location) : List Text → FileSystem × Location
  | [] => (files, location)
  | name :: names =>
    (files.makeDirectory (location.child name)).makePath (location.child name) names

/-- Puts `node` where `path` leads, and the directories that are missing on the way. -/
def install (files : FileSystem) (path : Path) (node : Node) : FileSystem :=
  match path.names.getLast? with
  | none => files
  | some name =>
    let (files, parent) := files.makePath (files.start path) path.names.dropLast
    files.put (parent.child name) node

/-- A tree with nothing but the working directory and the directories above it. -/
def blank (workingDirectory : Location) : FileSystem :=
  (makePath ⟨[], workingDirectory⟩ [] workingDirectory).1

/-- The files of the tree with their contents. -/
def contents (files : FileSystem) : List (Location × List UInt8) :=
  files.nodes.filterMap fun
    | (location, .file bytes) => some (location, bytes)
    | (_, .directory) => none

end FileSystem

end MicroAsm
