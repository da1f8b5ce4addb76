/-
  Events of a session, and the records that the journal makes of them.
-/
import MicroAsm.Assembly.Note
import MicroAsm.Session.Failure
import MicroAsm.Session.Level
import MicroAsm.Session.Summary
import MicroAsm.Text.Plain

namespace MicroAsm

/-- Something worth a line in the journal. -/
inductive Event where
  | begun (input output : Path)
  | noted (note : Note)
  | listing (path : Path)
  | succeeded (summary : Summary)
  | failed (failure : Failure)
deriving DecidableEq

namespace Event

/-- The level of an event. -/
def level : Event → Level
  | begun _ _ | listing _ | succeeded _ => .info
  | noted (.placed _) => .debug
  | noted (.blank _) | noted (.comment _ _) => .trace
  | failed _ => .error

/-- The part of the program that an event comes from. -/
def origin : Event → String
  | begun _ _ | listing _ => "vgacpu_asm::cli"
  | noted _ => "vgacpu_asm::assembler"
  | succeeded _ | failed _ => "vgacpu_asm"

/-- The wording of an event. -/
def message : Event → String
  | begun input output => s!"Assembling {String.ofList input} into {String.ofList output}"
  | noted note => note.message
  | listing path => s!"Writing listing to {String.ofList path}"
  | succeeded summary => summary.message
  | failed failure => failure.message

/-- What stands in front of the message. -/
def heading (event : Event) : Text :=
  '[' :: Text.padRight 5 event.level.name.toList ++ ' ' :: event.origin.toList ++ [']', ' ']

/-- The message with every line after its first indented. -/
def indented (event : Event) : Text :=
  "\n    ".toList.intercalate (event.message.toList.splitOn '\n')

/-- The record of an event: plain text that ends with a line feed, unless a control
    sequence in the message has swallowed it. -/
def record (event : Event) : Text := Text.plain (event.heading ++ event.indented ++ ['\n'])

end Event

end MicroAsm
