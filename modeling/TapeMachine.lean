import TapeMachine.Assembly.Grammar
import TapeMachine.Assembly.Line
import TapeMachine.Assembly.Listing
import TapeMachine.Assembly.Source
import TapeMachine.Buffer
import TapeMachine.Buffer.Lemmas
import TapeMachine.Catalog
import TapeMachine.CommandLine.Options
import TapeMachine.CommandLine.Session
import TapeMachine.Dump
import TapeMachine.Entry
import TapeMachine.Entry.Words
import TapeMachine.Execution.Run
import TapeMachine.Execution.Step
import TapeMachine.Fault
import TapeMachine.Instruction
import TapeMachine.Journal
import TapeMachine.Machine.Basic
import TapeMachine.Machine.Build
import TapeMachine.Machine.Program
import TapeMachine.Machine.Registers
import TapeMachine.Machine.Tape
import TapeMachine.Main
import TapeMachine.Microcode
import TapeMachine.Offset
import TapeMachine.Proofs.Assembly.Edits
import TapeMachine.Proofs.Assembly.Grammar
import TapeMachine.Proofs.Assembly.Meaning
import TapeMachine.Proofs.Assembly.Reading
import TapeMachine.Proofs.Assembly.RoundTrip
import TapeMachine.Proofs.Assembly.Source
import TapeMachine.Proofs.Buffer
import TapeMachine.Proofs.Catalog.Increment
import TapeMachine.Proofs.Catalog.Palindrome
import TapeMachine.Proofs.Catalog.Subtract
import TapeMachine.Proofs.Entry.Codec
import TapeMachine.Proofs.Entry.Fields
import TapeMachine.Proofs.Execution.ActiveState
import TapeMachine.Proofs.Execution.Budget
import TapeMachine.Proofs.Execution.Frame
import TapeMachine.Proofs.Execution.Halted
import TapeMachine.Proofs.Execution.Instruction
import TapeMachine.Proofs.Execution.Noninterference
import TapeMachine.Proofs.Execution.Observers
import TapeMachine.Proofs.Execution.Resumption
import TapeMachine.Proofs.Execution.Run
import TapeMachine.Proofs.Execution.Safety
import TapeMachine.Proofs.Execution.Shown
import TapeMachine.Proofs.Execution.Step
import TapeMachine.Proofs.Execution.Verdict
import TapeMachine.Proofs.Execution.Writes
import TapeMachine.Proofs.Machine.Access
import TapeMachine.Proofs.Machine.Agreement
import TapeMachine.Proofs.Machine.Build
import TapeMachine.Proofs.Machine.Capacity
import TapeMachine.Proofs.Machine.Components
import TapeMachine.Proofs.Machine.Construction
import TapeMachine.Proofs.Machine.Header
import TapeMachine.Proofs.Machine.Image
import TapeMachine.Proofs.Machine.Placement
import TapeMachine.Proofs.Machine.ProgramFrame
import TapeMachine.Proofs.Machine.Retaping
import TapeMachine.Proofs.Machine.Tape
import TapeMachine.Proofs.Machine.Validation
import TapeMachine.Proofs.Machine.Words
import TapeMachine.Proofs.Microcode.Atomicity
import TapeMachine.Proofs.Microcode.Footprint
import TapeMachine.Proofs.Microcode.Pass
import TapeMachine.Proofs.Microcode.Trace
import TapeMachine.Proofs.Microcode.Transition
import TapeMachine.Proofs.Offset
import TapeMachine.Proofs.Snapshot
import TapeMachine.Proofs.Table.Acceptance
import TapeMachine.Proofs.Table.Build
import TapeMachine.Proofs.Turing.Halting
import TapeMachine.Proofs.Turing.Observed
import TapeMachine.Proofs.Turing.Placed
import TapeMachine.Proofs.Turing.Refinement
import TapeMachine.Proofs.Turing.Ribbon
import TapeMachine.Proofs.Turing.Shown
import TapeMachine.Proofs.Turing.Simulation
import TapeMachine.Regions
import TapeMachine.Register
import TapeMachine.Snapshot
import TapeMachine.Storage
import TapeMachine.Storage.Disk
import TapeMachine.Symbol
import TapeMachine.Table
import TapeMachine.Table.Generator
import TapeMachine.Table.Random
import TapeMachine.Table.Row
import TapeMachine.Text.Blank
import TapeMachine.Text.Grid
import TapeMachine.Text.Hidden
import TapeMachine.Text.Lines
import TapeMachine.Text.Numeral
import TapeMachine.Text.Quoted
import TapeMachine.Turing
