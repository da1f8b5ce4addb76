/-
  Reading the command line, argument by argument from left to right; the first
  problem decides.

  A value is checked only when the argument after it begins something new, or at
  the end, so at most one value is pending at a time.  An argument that means
  nothing is refused at once, before the pending value is looked at.
-/
import MicroAsm.CommandLine.Options
import MicroAsm.CommandLine.Refusal
import MicroAsm.Text.Numeral

namespace MicroAsm.CommandLine

/-- Options of which some may not be known yet. -/
structure Draft where
  input : Option Path := none
  output : Option Path := none
  config : Option Path := none
  listing : Option Path := none
  imageSize : Option Nat := none
  verbose : Nat := 0

/-- What was begun last and is not checked yet. -/
inductive Pending where
  | nothing
  | setting (setting : Setting) (value : Option Text)
  | path (path : Text)

/-- The reader between two arguments. -/
structure State where
  draft : Draft := {}
  pending : Pending := .nothing
  /-- Set by `--`: all further arguments are paths. -/
  pathsOnly : Bool := false

/-! ## Values -/

/-- A number of bytes: digits after an optional plus sign, below 2^64. -/
def size? (t : Text) : Option Nat :=
  let digits := match t with
    | '+' :: rest => rest
    | _ => t
  (Text.ofDigits? 10 digits).filter (· < Text.wordBound)

/-- A path may not be empty. -/
def checkPath (t : Text) : Except Refusal Path :=
  if t.isEmpty then .error .missingValue else .ok t

namespace Draft

/-- Whether a setting has been given. -/
def isSet (draft : Draft) : Setting → Bool
  | .config => draft.config.isSome
  | .imageSize => draft.imageSize.isSome
  | .listing => draft.listing.isSome

/-- Gives a setting its value. -/
def set (draft : Draft) (setting : Setting) (value : Text) : Except Refusal Draft :=
  if draft.isSet setting then .error .repeated
  else
    match setting with
    | .config => (checkPath value).map fun path => { draft with config := some path }
    | .listing => (checkPath value).map fun path => { draft with listing := some path }
    | .imageSize =>
      match size? value with
      | none => .error .notANumber
      | some size => .ok { draft with imageSize := some size }

/-- Adds a path: the input comes first, then the output. -/
def addPath (draft : Draft) (path : Text) : Except Refusal Draft :=
  (checkPath path).map fun path =>
    if draft.input.isNone then { draft with input := some path }
    else { draft with output := some path }

/-- How many paths have been added. -/
def pathCount (draft : Draft) : Nat := draft.input.toList.length + draft.output.toList.length

end Draft

/-! ## Arguments -/

namespace State

/-- Checks what is pending and enters it. -/
def settle (state : State) : Except Refusal State :=
  match state.pending with
  | .nothing => .ok state
  | .setting _ none => .error .missingValue
  | .setting setting (some value) =>
    (state.draft.set setting value).map fun draft => { state with draft, pending := .nothing }
  | .path path =>
    (state.draft.addPath path).map fun draft => { state with draft, pending := .nothing }

/-- A flag acts at once. -/
def raise (state : State) (flag : Flag) : Except Refusal State :=
  state.settle.bind fun state =>
    match flag with
    | .help => .error .help
    | .version => .error .version
    | .verbose =>
      let draft := { state.draft with verbose := min 255 (state.draft.verbose + 1) }
      .ok { state with draft }

/-- A setting with its value in the same argument. -/
def assign (state : State) (setting : Setting) (value : Text) : Except Refusal State :=
  state.settle.bind fun state =>
    (state.draft.set setting value).map fun draft => { state with draft }

/-- A setting whose value is the next argument. -/
def await (state : State) (setting : Setting) : Except Refusal State :=
  state.settle.map fun state => { state with pending := .setting setting none }

/-- How many paths have been begun. -/
def pathCount (state : State) : Nat :=
  state.draft.pathCount + match state.pending with
    | .path _ => 1
    | _ => 0

/-- A path; there is room for two. -/
def readPath (state : State) (path : Text) : Except Refusal State :=
  if 2 ≤ state.pathCount then .error .unknownArgument
  else state.settle.map fun state => { state with pending := .path path }

/-- An argument that is no switch: the value that is awaited, or else a path. -/
def readPlain (state : State) (argument : Text) : Except Refusal State :=
  match state.pending with
  | .setting setting none => .ok { state with pending := .setting setting (some argument) }
  | _ => state.readPath argument

/-- What follows two dashes: a long name, and perhaps `=` and a value. -/
def readLong (state : State) (argument : Text) : Except Refusal State :=
  let name := argument.takeWhile (· != '=')
  let value := match argument.dropWhile (· != '=') with
    | [] => none
    | _ :: value => some value
  match Switch.ofName? name, value with
  | none, _ => .error .unknownArgument
  | some (.flag flag), none => state.raise flag
  | some (.flag _), some _ => .error .unwantedValue
  | some (.setting setting), none => state.await setting
  | some (.setting setting), some value => state.assign setting value

/-- What follows one dash: letters of flags.  The letter of a setting takes the rest
    as its value, less one `=` in front. -/
def readLetters (state : State) : Text → Except Refusal State
  | [] => .ok state
  | letter :: rest =>
    match Switch.ofLetter? letter with
    | none => .error .unknownArgument
    | some (.flag flag) => (state.raise flag).bind fun state => state.readLetters rest
    | some (.setting setting) =>
      match rest with
      | [] => state.await setting
      | '=' :: value => state.assign setting value
      | value => state.assign setting value

/-- One argument. -/
def read (state : State) (argument : Text) : Except Refusal State :=
  if state.pathsOnly then state.readPath argument
  else
    match argument with
    | ['-', '-'] => .ok { state with pathsOnly := true }
    | '-' :: '-' :: long => state.readLong long
    | '-' :: letter :: letters => state.readLetters (letter :: letters)
    | _ => state.readPlain argument

/-- The options, once all arguments are read. -/
def finish (state : State) : Except Refusal Options :=
  state.settle.bind fun state =>
    match state.draft.input, state.draft.output with
    | some input, some output =>
      .ok { input, output, config := state.draft.config, listing := state.draft.listing,
            imageSize := state.draft.imageSize, verbose := state.draft.verbose }
    | _, _ => .error .missingPath

end State

/-- The options that the arguments of a command line give. -/
def parse (arguments : List Text) : Except Refusal Options :=
  (arguments.foldlM State.read {}).bind State.finish

end MicroAsm.CommandLine
