/-
  The command line program.  The journal goes to standard error; the variable
  RUST_LOG selects its detail and wins over the options.
-/
import MicroAsm.CommandLine.Parse
import MicroAsm.Session.Run

namespace MicroAsm.Main

/-- What the operating system says about a file that could not be opened. -/
def fileError : IO.Error → FileError
  | .noFileOrDirectory .. => .notFound
  | .inappropriateType _ code _ => if code == 21 then .isDirectory else .notDirectory
  | e => .other (toString e)

/-- The host of the command line program. -/
abbrev Terminal := ReaderT Threshold IO

instance : Host Terminal where
  readFile path := fun _ => do
    try
      return .ok (← IO.FS.readBinFile (String.ofList path)).toList
    catch e => return .error (fileError e)
  writeFile path bytes := fun _ => do
    try
      IO.FS.writeBinFile (String.ofList path) ⟨bytes.toArray⟩
      return .ok ()
    catch e => return .error (fileError e)
  report event := fun threshold => do
    if threshold.keeps event.level then IO.eprint (String.ofList event.record)

end MicroAsm.Main

/-- Reads the command line and runs the session it asks for. -/
def main (arguments : List String) : IO UInt32 := do
  match MicroAsm.CommandLine.parse (arguments.map String.toList) with
  | .error refusal =>
    match refusal.text? with
    | some text => IO.print text
    | none => IO.eprintln s!"error: {refusal.message}"
    return refusal.exitCode
  | .ok options =>
    let chosen := (← IO.getEnv "RUST_LOG").bind MicroAsm.Threshold.ofName?
    let session : MicroAsm.Main.Terminal UInt32 := MicroAsm.Session.execute options
    session.run (chosen.getD (some options.level))
