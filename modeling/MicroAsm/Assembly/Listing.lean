/-
  Listings.  After the title and two header lines comes one row per instruction:
  address, bytes, line number, canonical text and source, two spaces between the
  columns.  A column is filled up to its width and never cut.  The last line sums
  up the image.
-/
import MicroAsm.Assembly.Basic
import MicroAsm.Machine.Disassembly

namespace MicroAsm.Listing

/-- What stands between two columns. -/
def gap : Text := [' ', ' ']

/-- The column names. -/
def header : Text := "ADDR  BYTES   LINE  INSTRUCTION           SOURCE".toList

/-- The line under the column names. -/
def rule : Text := "----  -----  -----  --------------------  ------".toList

/-- The canonical text of bytes, or why they are no instruction. -/
def instructionText (bytes : List UInt8) : Text :=
  match decode bytes with
  | .ok instruction => instruction.text
  | .error e => '?' :: '?' :: ' ' :: e.message

/-- The row of one instruction. -/
def row (p : Placement) : Text :=
  Text.hexUpper 4 p.address ++ gap ++
    Text.padRight 5 (bytesText p.bytes) ++ gap ++
    Text.padLeft 5 ' ' (Text.decimal p.line) ++ gap ++
    Text.padRight 20 (instructionText p.bytes) ++ gap ++
    p.source

/-- The last line: instructions, used bytes, capacity and checksum. -/
def trailer (assembly : Assembly) : Text :=
  "; ".toList ++ Text.decimal assembly.instructions.size ++
    " instruction(s), ".toList ++ Text.decimal assembly.image.cursor ++
    " of ".toList ++ Text.decimal assembly.image.capacity ++
    " bytes used, crc32 ".toList ++ Text.hexUpper 8 assembly.image.checksum.toNat

/-- The lines of a listing. -/
def lines (title : Text) (assembly : Assembly) : List Text :=
  title :: header :: rule :: assembly.instructions.toList.map row ++ [trailer assembly]

/-- A listing; every line ends with a line feed. -/
def render (title : Text) (assembly : Assembly) : Text :=
  (lines title assembly).flatMap (· ++ ['\n'])

end MicroAsm.Listing
