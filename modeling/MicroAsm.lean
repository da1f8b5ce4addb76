import MicroAsm.Assembly.Basic
import MicroAsm.Assembly.Listing
import MicroAsm.Assembly.Note
import MicroAsm.Checksum
import MicroAsm.CommandLine.Options
import MicroAsm.CommandLine.Parse
import MicroAsm.CommandLine.Refusal
import MicroAsm.Config.Basic
import MicroAsm.Config.Document
import MicroAsm.Files.Path
import MicroAsm.Files.System
import MicroAsm.Image
import MicroAsm.Machine.Disassembly
import MicroAsm.Machine.Format
import MicroAsm.Machine.Instruction
import MicroAsm.Machine.Operation
import MicroAsm.Main
import MicroAsm.Proofs.Assembly.Capacity
import MicroAsm.Proofs.Assembly.Concatenation
import MicroAsm.Proofs.Assembly.Feeding
import MicroAsm.Proofs.Assembly.Layout
import MicroAsm.Proofs.Assembly.Meaning
import MicroAsm.Proofs.Assembly.Numbering
import MicroAsm.Proofs.Assembly.Readable
import MicroAsm.Proofs.Assembly.Reference
import MicroAsm.Proofs.Assembly.RoundTrip
import MicroAsm.Proofs.Assembly.Run
import MicroAsm.Proofs.Files.Places
import MicroAsm.Proofs.Files.Spelling
import MicroAsm.Proofs.Image
import MicroAsm.Proofs.Listing.Account
import MicroAsm.Proofs.Listing.Alignment
import MicroAsm.Proofs.Listing.Lines
import MicroAsm.Proofs.Machine.Decoding
import MicroAsm.Proofs.Machine.Partition
import MicroAsm.Proofs.Machine.Walk
import MicroAsm.Proofs.Outcome
import MicroAsm.Proofs.Session.Effects
import MicroAsm.Proofs.Session.InputKept
import MicroAsm.Proofs.Session.Stages
import MicroAsm.Proofs.Session.Success
import MicroAsm.Proofs.Statement.Canonical
import MicroAsm.Proofs.Statement.Division
import MicroAsm.Proofs.Statement.Grammar
import MicroAsm.Proofs.Statement.Leftmost
import MicroAsm.Proofs.Statement.LineForm
import MicroAsm.Proofs.Statement.Literal
import MicroAsm.Proofs.Statement.LiteralForm
import MicroAsm.Proofs.Statement.Margins
import MicroAsm.Proofs.Statement.Pieces
import MicroAsm.Proofs.Statement.Reading
import MicroAsm.Proofs.Text.Blanks
import MicroAsm.Proofs.Text.Digits
import MicroAsm.Session.Event
import MicroAsm.Session.Failure
import MicroAsm.Session.Level
import MicroAsm.Session.Run
import MicroAsm.Session.Summary
import MicroAsm.Source
import MicroAsm.Statement.Basic
import MicroAsm.Statement.Defect
import MicroAsm.Statement.Literal
import MicroAsm.Statement.Operands
import MicroAsm.Statement.Parse
import MicroAsm.Text.Basic
import MicroAsm.Text.Combining
import MicroAsm.Text.Numeral
import MicroAsm.Text.Plain
import MicroAsm.Text.Quoted
import MicroAsm.Text.Unprintable
import MicroAsm.Text.Utf8
