/-
  Plain text: a text without the control sequences that terminals act on.

  A sequence starts with ESC.  `[` opens a list of parameters that ends with a
  letter or a sign above `?`; `]` opens a title that ends with BEL; `P`, `X`, `^`
  and `_` open strings that end with the string terminator, the byte 0x9C.  CAN
  and SUB break off any sequence, and a further ESC starts a new one.  Outside of
  sequences, all characters are kept but the control characters other than tab,
  line feed, form feed and carriage return.

  These four also suspend a sequence of the short kinds: the text goes on as if
  outside of it, until a character that is not kept resumes the sequence, or one
  beyond ASCII ends it.  A string takes them in.
-/
import MicroAsm.Text.Basic

namespace MicroAsm

/-- A sequence that acts by itself, as far as it has come. -/
inductive ShortSequence where
  /-- After ESC. -/
  | escape
  /-- After ESC and signs below `0`. -/
  | intermediate
  /-- In a list of parameters. -/
  | parameters
deriving DecidableEq

/-- How far into a control sequence a text has come. -/
inductive ControlState where
  /-- Outside of any sequence. -/
  | ground
  /-- In a short sequence. -/
  | short (sequence : ShortSequence)
  /-- In text that a short sequence is suspended for. -/
  | suspended (sequence : ShortSequence)
  /-- In a title. -/
  | title
  /-- At the head of a device string: nothing yet, parameters, or signs below `0`. -/
  | deviceHead
  | deviceParameters
  | deviceIntermediate
  /-- In a string that the string terminator ends. -/
  | string
deriving DecidableEq

namespace ControlState

/-- Control characters that count as blanks. -/
def isBreak (c : Char) : Bool := c == '\t' || c == '\n' || c == '\x0c' || c == '\r'

/-- Characters that are kept outside of sequences. -/
def isShown (c : Char) : Bool := isBreak c || (0x20 ≤ c.toNat && c.toNat != 0x7F)

/-- Whether the string terminator is among the bytes of `c`. -/
def hasTerminator (c : Char) : Bool := (String.utf8EncodeChar c).contains 0x9C

/-- Whether the code point of `c` lies in a closed range. -/
def within (c : Char) (low high : Nat) : Bool := low ≤ c.toNat && c.toNat ≤ high

/-- What the character after ESC opens. -/
def opened (c : Char) : ControlState :=
  match c with
  | '[' => short .parameters
  | ']' => title
  | 'P' => deviceHead
  | 'X' | '^' | '_' => string
  | _ =>
    if within c 0x20 0x2F then short .intermediate
    else if within c 0x30 0x7E then ground
    else short .escape

/-- The state after `c` in a short sequence that `c` does not suspend. -/
def resume (sequence : ShortSequence) (c : Char) : ControlState :=
  match sequence with
  | .escape => opened c
  | .intermediate => if within c 0x30 0x7E then ground else short .intermediate
  | .parameters => if within c 0x40 0x7E then ground else short .parameters

/-- The state after `c`, and whether `c` is kept, when `c` neither starts nor breaks
    off a sequence. -/
def advance (state : ControlState) (c : Char) : ControlState × Bool :=
  match state with
  | ground => (ground, isShown c)
  | short sequence =>
    if isBreak c then (suspended sequence, true) else (resume sequence c, false)
  | suspended sequence =>
    if isShown c then (if c.toNat < 0x80 then suspended sequence else ground, true)
    else (resume sequence c, false)
  | title => (if c == '\x07' then ground else title, false)
  | deviceHead =>
    (if within c 0x20 0x2F then deviceIntermediate
      else if within c 0x30 0x3F then deviceParameters
      else if within c 0x40 0x7E then string
      else deviceHead, false)
  | deviceParameters =>
    (if within c 0x20 0x2F then deviceIntermediate
      else if within c 0x3C 0x7E then string
      else deviceParameters, false)
  | deviceIntermediate =>
    (if within c 0x30 0x7E then string else deviceIntermediate, false)
  | string => (if hasTerminator c then ground else string, false)

/-- The state after `c`, and whether `c` is kept. -/
def step (state : ControlState) (c : Char) : ControlState × Bool :=
  if c == '\x1b' then (short .escape, false)
  else if c == '\x18' || c == '\x1a' then (ground, false)
  else state.advance c

end ControlState

/-- `t` without control sequences and other control characters. -/
def Text.plain (t : Text) : Text :=
  let (_, kept) := t.foldl
    (fun (state, kept) c =>
      let (next, keep) := ControlState.step state c
      (next, if keep then kept.push c else kept))
    (ControlState.ground, (#[] : Array Char))
  kept.toList

end MicroAsm
