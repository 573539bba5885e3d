import Brainfuck.Ir.Semantics
import Brainfuck.Ir.Text
import Brainfuck.Machine
import Brainfuck.Native.Emit

/-! # Native runs

A linked program is compiled and its code run over a fixed tape of bytes. The code reads and writes
bytes through calls that tell it only whether they succeeded; the failures are kept aside, and the
last of them explains an index that the code returns for an instruction that reads or writes.

Main definitions: `CallLog`, `explain`, `run`. -/

namespace Brainfuck.Native

open Ir

/-- A console, and the failures of the calls made on it, the last one first. -/
structure CallLog (ι ο : Type) where
  /-- The console. -/
  console : Console ι ο
  /-- The failures so far. -/
  failures : List Failure := []

namespace CallLog

variable {ι ο : Type}

/-- Writes a byte; the reply is zero, or one after a failure. -/
def putByte [OutputStream ο] (byte : UInt8) (log : CallLog ι ο) : Int × CallLog ι ο :=
  match log with
  | ⟨console, failures⟩ =>
    match console.writeByte byte.toNat with
    | (.ok (), console) => (0, ⟨console, failures⟩)
    | (.error failure, console) => (1, ⟨console, failure :: failures⟩)

/-- Reads a byte; the reply is the byte, or minus one after a failure. -/
def getByte [InputStream ι] (log : CallLog ι ο) : Int × CallLog ι ο :=
  match log with
  | ⟨console, failures⟩ =>
    match console.readByte with
    | (.ok byte, console) => (byte.toNat, ⟨console, failures⟩)
    | (.error failure, console) => (-1, ⟨console, failure :: failures⟩)

instance [InputStream ι] [OutputStream ο] : Host (CallLog ι ο) where
  putByte := putByte
  getByte := getByte

end CallLog

/-- What a native run comes to. -/
inductive Ending where
  /-- The program ended, and left this tape. -/
  | finished (tape : Array UInt8)
  /-- An instruction was not executed. -/
  | raised (error : RunError)
  /-- The tape could not be made. -/
  | refused (error : TapeSizeError)
  /-- The limit of instructions was reached. -/
  | unfinished
  /-- The code could not go on, which no compiled program comes to. -/
  | stuck (reason : Stuck)
  /-- The code returned a word that explains nothing, which no compiled program comes to. -/
  | unexplained (word : Int)
deriving DecidableEq, Repr

/-- The ending of a native run, and the console afterwards. -/
structure Result (ι ο : Type) where
  /-- The ending. -/
  ending : Ending
  /-- The console afterwards. -/
  console : Console ι ο

/-- Whether a failed call is the fault of the instruction that made it. -/
def isCallError (kind : FailureKind) : Bool := kind.isInputError

/-- The error that a returned index stands for: a move out of the tape, or the last failed call. -/
def explain (program : LinkedProgram) (failures : List Failure) (word : Int) : Ending :=
  match program.instructions[word.toNat]? with
  | none => .unexplained word
  | some linked =>
    let fault (cause : FaultCause) : Ending :=
      .raised (.fault ⟨program.file, linked.instruction, cause⟩)
    match linked.op, failures with
    | .left, _ => fault .seekTooLow
    | .right, _ => fault .seekTooHigh
    | _, [] => .unexplained word
    | _, failure :: _ =>
      if isCallError failure.kind then fault (.io failure) else .raised (.failure failure)

/-- The ending that a step of the code stands for. -/
def conclude {ι ο : Type} (program : LinkedProgram) : Step (CallLog ι ο) → Result ι ο
  | .running state => ⟨.unfinished, state.host.console⟩
  | .stuck reason log => ⟨.stuck reason, log.console⟩
  | .returned word tape log =>
    if word = Build.noFault then ⟨.finished tape, log.console⟩
    else ⟨explain program log.failures word, log.console⟩

/-- Runs compiled code on a new tape. -/
def runUnit {ι ο : Type} [InputStream ι] [OutputStream ο] (limit : Nat) (program : LinkedProgram)
    (unit : CodeUnit) (size : Nat) (console : Console ι ο) : Result ι ο :=
  let start := unit.function.start (Array.replicate size 0) (CallLog.mk console [])
  conclude program (start.run unit.function limit)

/-- The line above the code in the diagnostics. -/
def codeHeading : String := "====== LLVM IR\n"

/-- Compiled code, as the diagnostics show it. -/
def codeText (unit : CodeUnit) : String := codeHeading ++ unit.text ++ "\n"

/-- The line that says that the code has been assembled. -/
def assemblyHeading : String := "============ Assembly\n"

/-- Compiles a program for a tape of the size asked for and runs it. If the console is traced, the
code is printed before it runs. -/
def run {ι ο : Type} [InputStream ι] [OutputStream ο] (limit : Nat) (program : LinkedProgram)
    (size : Int) (console : Console ι ο) : Result ι ο :=
  match requestedSize size with
  | .error error => ⟨.refused error, console⟩
  | .ok size =>
    let unit := compile program size
    let console := console.note (codeText unit)
    match checkAllocation size with
    | .error error => ⟨.refused error, console⟩
    | .ok size => runUnit limit program unit size (console.note assemblyHeading)

end Brainfuck.Native
