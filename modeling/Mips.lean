import Mips.Assembly.Error
import Mips.Assembly.Program
import Mips.Assembly.Resolution
import Mips.Assembly.Symbols
import Mips.Build
import Mips.CommandLine.Arguments
import Mips.CommandLine.Assembler
import Mips.CommandLine.Debugger
import Mips.CommandLine.Destination
import Mips.CommandLine.Outcome
import Mips.CommandLine.Simulator
import Mips.CommandLine.Tool
import Mips.Debugger.Command
import Mips.Debugger.Output
import Mips.Debugger.Session
import Mips.Debugger.View
import Mips.Instruction.Basic
import Mips.Instruction.Decoding
import Mips.Instruction.Disassembly
import Mips.Log
import Mips.Machine.Basic
import Mips.Machine.Effect
import Mips.Machine.Fault
import Mips.Machine.Registers
import Mips.Machine.Run
import Mips.Machine.Step
import Mips.Main
import Mips.Memory.Data
import Mips.Memory.Segment
import Mips.Memory.Text
import Mips.Mnemonic
import Mips.Operation
import Mips.Register
import Mips.Source.Grammar
import Mips.Source.Line
import Mips.Source.Listing
import Mips.Source.Token
import Mips.Text.Blank
import Mips.Text.Numeral
import Mips.Text.Printable
import Mips.Text.Quoted
import Mips.Word
import Mips.Proofs.Assembly.Denotation
import Mips.Proofs.Assembly.Labels
import Mips.Proofs.Assembly.Meaning
import Mips.Proofs.Instruction.Encoding
import Mips.Proofs.Machine.Architecture
import Mips.Proofs.Machine.Build
import Mips.Proofs.Machine.ControlTransfer
import Mips.Proofs.Machine.Faults
import Mips.Proofs.Machine.History
import Mips.Proofs.Machine.Refinement
import Mips.Proofs.Machine.Steps
import Mips.Proofs.Memory.Text
import Mips.Proofs.Outcome
import Mips.Proofs.Source.Lexing
import Mips.Proofs.Source.Number
import Mips.Proofs.Source.Reading
import Mips.Proofs.Machine.Actions
import Mips.Proofs.Machine.Atomicity
import Mips.Proofs.Assembly.Verdict
import Mips.Proofs.Machine.Invariant
import Mips.Proofs.Machine.Reset
import Mips.Proofs.Source.Concatenation
import Mips.Proofs.Assembly.Resolution
import Mips.Proofs.Assembly.Composition
import Mips.Proofs.Source.WrittenNumber
import Mips.Proofs.Source.SingleLine
import Mips.Proofs.Instruction.Text
import Mips.Proofs.Assembly.Disassembly
import Mips.Proofs.Source.Derivation
import Mips.Proofs.Source.Tracing
import Mips.Proofs.Source.Viability
import Mips.Proofs.Source.Scanning
import Mips.Proofs.Source.Diagnosis
import Mips.Proofs.Machine.Runs
import Mips.Proofs.Machine.Modes
import Mips.Proofs.Memory.Data
import Mips.Proofs.Machine.Capacity
import Mips.Proofs.Debugger.Run
import Mips.Proofs.CommandLine.StepLimit
import Mips.Proofs.Text.Pieces
import Mips.Proofs.Instruction.RoundTrip
import Mips.Proofs.Debugger.Observation
import Mips.Proofs.Source.Layout
import Mips.Proofs.Assembly.Layout
import Mips.Proofs.Assembly.Renaming
import Mips.Proofs.Assembly.Items
import Mips.Proofs.Assembly.Spread
import Mips.Proofs.Assembly.Rewriting
import Mips.Proofs.Source.Spelling
import Mips.Proofs.Assembly.Literals
import Mips.Proofs.Assembly.WellTyped
import Mips.Proofs.Memory.Stores
import Mips.Proofs.Memory.Views
import Mips.Proofs.Machine.Progress
import Mips.Proofs.Machine.Forward
import Mips.Proofs.CommandLine.MachineCode
import Mips.Proofs.Source.RegisterToken
import Mips.Proofs.Source.Tokenization
import Mips.Proofs.Machine.Bounds
import Mips.Proofs.Assembly.SourceMeaning
