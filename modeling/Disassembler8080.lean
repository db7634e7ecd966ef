import Disassembler8080.Address
import Disassembler8080.Assembler
import Disassembler8080.ByteStream
import Disassembler8080.CommandLine.Arguments
import Disassembler8080.CommandLine.Help
import Disassembler8080.DataBlock
import Disassembler8080.Disassembly
import Disassembler8080.Failure
import Disassembler8080.Fetch
import Disassembler8080.Hexadecimal
import Disassembler8080.Host
import Disassembler8080.InstructionForm
import Disassembler8080.Job
import Disassembler8080.Listing.Delivery
import Disassembler8080.Listing.Layout
import Disassembler8080.Listing.Line
import Disassembler8080.LogEvent
import Disassembler8080.LogFilter
import Disassembler8080.Main
import Disassembler8080.MemoryMap
import Disassembler8080.Numeral
import Disassembler8080.Pattern.Brackets
import Disassembler8080.Pattern.CharSet
import Disassembler8080.Pattern.Count
import Disassembler8080.Pattern.Cursor
import Disassembler8080.Pattern.Escape
import Disassembler8080.Pattern.Expression
import Disassembler8080.Pattern.Fault
import Disassembler8080.Pattern.GroupHead
import Disassembler8080.Pattern.Meaning
import Disassembler8080.Pattern.Outline
import Disassembler8080.Pattern.Reading
import Disassembler8080.Pattern.Storage
import Disassembler8080.Pattern.Tree
import Disassembler8080.Pattern.Utf8
import Disassembler8080.Program
import Disassembler8080.Proofs.Supply
import Disassembler8080.Proofs.Tiling
import Disassembler8080.Statement
import Disassembler8080.Sweep
import Disassembler8080.Text.Alphabetic
import Disassembler8080.Text.Bytes
import Disassembler8080.Text.ControlSequence
import Disassembler8080.Text.WhiteSpace
import Disassembler8080.World
import Disassembler8080.Writer
import Disassembler8080.Proofs.Contents
import Disassembler8080.Proofs.Outcome
import Disassembler8080.Proofs.RoundTrip
import Disassembler8080.Proofs.Coverage
import Disassembler8080.Proofs.ForcedData
import Disassembler8080.Proofs.Lines
import Disassembler8080.Proofs.Placement
import Disassembler8080.Proofs.Labels
import Disassembler8080.Proofs.Reassembly
import Disassembler8080.Proofs.Requests
import Disassembler8080.Proofs.Truncation
import Disassembler8080.Proofs.Walk
import Disassembler8080.Proofs.Writing
import Disassembler8080.Proofs.Influence
import Disassembler8080.Proofs.Interruption
import Disassembler8080.Proofs.BlockUnion
import Disassembler8080.Proofs.Underway
import Disassembler8080.Proofs.History
import Disassembler8080.Proofs.FailedRuns
import Disassembler8080.Proofs.Verbosity
import Disassembler8080.Proofs.EntryPoints
import Disassembler8080.Proofs.EmptyBlocks
import Disassembler8080.Proofs.Spelling
import Disassembler8080.Proofs.SignOfNumbers
import Disassembler8080.Proofs.BlockArithmetic
import Disassembler8080.Proofs.SweepLog
import Disassembler8080.Proofs.CommandLines
import Disassembler8080.Proofs.Matching
import Disassembler8080.Proofs.PlainPatterns
