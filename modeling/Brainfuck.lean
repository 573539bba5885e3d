import Brainfuck.Op
import Brainfuck.Instruction
import Brainfuck.Program
import Brainfuck.Link
import Brainfuck.Cell
import Brainfuck.Stream
import Brainfuck.Stream.Scripted
import Brainfuck.Tape
import Brainfuck.Machine
import Brainfuck.Machine.Settings
import Brainfuck.Session
import Brainfuck.Proofs.Balance
import Brainfuck.Proofs.Tree
import Brainfuck.Proofs.Pairing
import Brainfuck.Proofs.Step
import Brainfuck.Proofs.Run
import Brainfuck.Proofs.Structured
import Brainfuck.Proofs.Reachable
import Brainfuck.Proofs.Bounds
import Brainfuck.Proofs.Faults
import Brainfuck.Ir.Name
import Brainfuck.Ir.Syntax
import Brainfuck.Ir.Text
import Brainfuck.Native.Emit
import Brainfuck.Ir.Semantics
import Brainfuck.Native.Execute
import Brainfuck.Proofs.Calls
import Brainfuck.Proofs.Traced
import Brainfuck.Proofs.Ir.Run
import Brainfuck.Proofs.Ir.WellFormed
import Brainfuck.Proofs.Native.Emission
import Brainfuck.Proofs.Native.Build
import Brainfuck.Proofs.Native.Compiled
import Brainfuck.Proofs.Native.Execution
import Brainfuck.Proofs.Native.Point
import Brainfuck.Proofs.Native.Streams
import Brainfuck.Proofs.Native.Agreement
import Brainfuck.Text.Printable
import Brainfuck.Text.Basic
import Brainfuck.Numeral.Written
import Brainfuck.Numeral
import Brainfuck.Files
import Brainfuck.CommandLine.Options
import Brainfuck.CommandLine.Parse
import Brainfuck.CommandLine.Usage
import Brainfuck.CommandLine.Run
import Brainfuck.CommandLine.Slices
import Brainfuck.Main
import Brainfuck.Proofs.Native.Naming
import Brainfuck.Proofs.Native.WellFormed
import Brainfuck.Proofs.Ir.Course
import Brainfuck.Proofs.Native.Safety
import Brainfuck.Proofs.Flaky
import Brainfuck.Proofs.Resume
import Brainfuck.Proofs.Stepping
import Brainfuck.Proofs.Lockstep
import Brainfuck.Proofs.Extent
import Brainfuck.Proofs.Truncation
import Brainfuck.Proofs.Narrowing
import Brainfuck.Proofs.Placement
import Brainfuck.Proofs.Ir.Hosts
import Brainfuck.Proofs.Native.Placement
import Brainfuck.Proofs.Accounting
import Brainfuck.Proofs.Native.Accounting
import Brainfuck.Proofs.Lifetime
import Brainfuck.Proofs.Causality
import Brainfuck.Proofs.Native.Causality
import Brainfuck.Proofs.Tracing
import Brainfuck.Proofs.Fitting
import Brainfuck.Proofs.Files
import Brainfuck.Proofs.CommandLine.Slices
import Brainfuck.Proofs.CommandLine.Delivery
import Brainfuck.Proofs.Characters
import Brainfuck.Proofs.Unpaired
import Brainfuck.Proofs.Listing
import Brainfuck.Proofs.Numeral
import Brainfuck.Proofs.Wrapping
