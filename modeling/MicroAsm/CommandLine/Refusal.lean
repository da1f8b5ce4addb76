/-
  Why a command line gives no options.  Asking for help or the version is one of
  the reasons; it is no mistake.
-/

namespace MicroAsm

/-- Why a command line gives no options. -/
inductive Refusal where
  | help
  | version
  | unknownArgument
  /-- A flag was given a value. -/
  | unwantedValue
  /-- A value is missing, or a path is empty. -/
  | missingValue
  /-- A setting was given twice. -/
  | repeated
  /-- A size is no number. -/
  | notANumber
  /-- The input or the output is missing. -/
  | missingPath
deriving DecidableEq

namespace Refusal

/-- The help text. -/
def helpText : String :=
  "Assembler for the vgacpu\n\n" ++
  "Usage: vgacpu-asm [OPTIONS] <INPUT> <OUTPUT>\n\n" ++
  "Arguments:\n" ++
  "  <INPUT>   Input assembly file\n" ++
  "  <OUTPUT>  Output memory image\n\n" ++
  "Options:\n" ++
  "  -c, --config <CONFIG>          TOML configuration file\n" ++
  "  -s, --image-size <IMAGE_SIZE>  Image size in bytes, overrides the configuration file\n" ++
  "  -l, --listing <LISTING>        Write a listing of the assembled program\n" ++
  "  -v, --verbose...               Increase logging verbosity (-v, -vv, etc.)\n" ++
  "  -h, --help                     Print help\n" ++
  "  -V, --version                  Print version\n"

/-- The version text. -/
def versionText : String := "vgacpu_asm 0.1.0\n"

/-- What is printed for a refusal that was asked for. -/
def text? : Refusal → Option String
  | help => some helpText
  | version => some versionText
  | _ => none

/-- The wording of a mistake. -/
def message : Refusal → String
  | help | version => ""
  | unknownArgument => "unexpected argument"
  | unwantedValue => "unexpected value for a flag"
  | missingValue => "a value is required but none was supplied"
  | repeated => "an option cannot be used multiple times"
  | notANumber => "invalid number"
  | missingPath => "the following required arguments were not provided: <INPUT> <OUTPUT>"

/-- The exit code: success when the text was asked for. -/
def exitCode (refusal : Refusal) : UInt32 := if refusal.text?.isSome then 0 else 1

end Refusal

end MicroAsm
