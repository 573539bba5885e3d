import Brainfuck.CommandLine.Parse
import Brainfuck.CommandLine.Usage
import Brainfuck.Files
import Brainfuck.Machine.Settings
import Brainfuck.Native.Execute
import Brainfuck.Stream.Scripted

/-! # Running the command line

The tool as a whole: reads the command line, loads the program, links it, and prints it, runs it on
a machine, or compiles and runs it. Errors in the program or the run are reported and give the exit
code one, errors in the command line the exit code two. A tape that cannot be allocated, a
missing cell width, a path with a null character, one that cannot be encoded where the program is
printed or compiled, and a number that has too many digits are not reported but end the tool at
once.

Main definitions: `Abort`, `Report`, `Job`, `prepare`, `run`. -/

namespace Brainfuck.CommandLine

/-! ## Reports -/

/-- What ends the tool without a report. -/
inductive Abort where
  /-- The tape could not be made. -/
  | tape (error : TapeSizeError)
  /-- The command line has taken away the number of bits of a cell. -/
  | cellWidth
  /-- The path is not one. -/
  | path (error : FileError)
  /-- The path cannot be encoded, and a text with it is to be. -/
  | encoding (error : EncodingError)
  /-- A loop start was left without its partner, which happens in no program. -/
  | unpatched
  /-- A failure that no instruction answers for. -/
  | failure (failure : Failure)
deriving DecidableEq, Repr

/-- The text that goes with an abrupt end. -/
def Abort.message : Abort → String
  | .tape error => error.message
  | .cellWidth => "unhashable type: 'list'"
  | .path error => error.message
  | .encoding error => error.message
  | .unpatched => LinkError.unpatchedMessage
  | .failure reason => reason.message

/-- How the tool ends. -/
inductive Finish where
  /-- With an exit code. -/
  | exit (code : Nat)
  /-- Without a report. -/
  | aborted (abort : Abort)
deriving DecidableEq, Repr

/-- A run of the tool: how it ended, what it wrote, and how much input it took. -/
structure Report where
  /-- How it ended. -/
  finish : Finish
  /-- What it wrote to its output. -/
  output : Array UInt8 := #[]
  /-- What it wrote to its diagnostics. -/
  log : String := ""
  /-- How many bytes of input it took. -/
  consumed : Nat := 0
deriving DecidableEq, Repr

/-- The line that reports an error of the program or the run. -/
def errorLine (message : String) : String := toolName ++ ": Error: " ++ message ++ "\n"

/-- The report of a wrong command line. -/
def Report.ofUsageError (error : UsageError) : Report :=
  { finish := .exit 2, log := usage ++ toolName ++ ": error: " ++ error.message ++ "\n" }

/-- The report of an error before the program runs. -/
def Report.failed (message : String) : Report :=
  { finish := .exit 1, log := errorLine message }

/-- The report of an abrupt end before the program runs. -/
def Report.aborted (abort : Abort) : Report := { finish := .aborted abort }

/-- The report of an error before the program runs whose diagnostic may hold a number that cannot be
written out. -/
def Report.failed? : Option String → Report
  | some message => .failed message
  | none => .aborted (.failure .overlong)

/-- The report of a text that was printed. -/
def Report.printed (text : String) : Report :=
  { finish := .exit 0, output := text.toUTF8.data }

/-- The console of the tool. -/
abbrev ToolConsole := Console ScriptedInput ScriptedOutput

/-- The console of the tool before the program runs, with some input. -/
def toolConsole (debug : Bool) (input : List UInt8) : ToolConsole :=
  { input := { remaining := input }, output := {}, tracing := debug }

/-- The report of a run that left the console so. -/
def Report.ofConsole (console : ToolConsole) (finish : Finish) (line : String) : Report :=
  { finish
    output := console.output.stored
    log := console.log ++ line
    consumed := console.input.consumed }

/-- The report of a run that a fault with this diagnostic ended, if it has one that can be written
out. -/
def Report.faulted? (console : ToolConsole) : Option String → Report
  | some message => .ofConsole console (.exit 1) (errorLine message)
  | none => .ofConsole console (.aborted (.failure .overlong)) ""

/-- The report of a run that an error ended. A failure of the operating system, and a fault in
another program, are reported even where no instruction of this program answers for them. -/
def Report.ofRunError (console : ToolConsole) (error : RunError) : Report :=
  match error with
  | .fault fault => .faulted? console fault.message?
  | .failure failure =>
    if failure.kind.isSystem || failure.kind.isFault then
      .ofConsole console (.exit 1) (errorLine failure.message)
    else .ofConsole console (.aborted (.failure failure)) ""

/-- The report of a run on a machine. -/
def Report.ofOutcome (outcome : Outcome ScriptedInput ScriptedOutput) : Report :=
  match outcome.reply with
  | .raised error => .ofRunError outcome.console error
  | _ => .ofConsole outcome.console (.exit 0) ""

/-- The report of a native run. -/
def Report.ofNative (result : Native.Result ScriptedInput ScriptedOutput) : Report :=
  match result.ending with
  | .raised error => .ofRunError result.console error
  | .refused error => .ofConsole result.console (.aborted (.tape error)) ""
  | _ => .ofConsole result.console (.exit 0) ""

/-! ## Jobs -/

/-- What is left to do once the program is linked. -/
inductive Job where
  /-- Print a text. -/
  | print (text : String)
  /-- Run a machine. -/
  | interpret (machine : Machine)
  /-- Compile a program, found at a path, for a tape of a size, and run it. -/
  | compile (path : OsText) (program : LinkedProgram) (size : Int)

/-- Why the listing of a program found at a path cannot be encoded. The path stands in every row, so
only a listing without rows can always be. -/
def listingError? (path : OsText) (program : LinkedProgram) : Option EncodingError :=
  if program.instructions.isEmpty then none else path.encodingError? 0

/-- Settles what to do with a linked program. -/
def prepareLinked (options : Options) (program : LinkedProgram) : Except Report Job :=
  let size := options.cells.getD 0
  if options.list then
    match program.listing? Numeral.standardLimit with
    | none => .error (.aborted (.failure .overlong))
    | some text =>
      match listingError? options.program program with
      | some error => .error (.aborted (.encoding error))
      | none => .ok (.print text)
  else if options.jit then .ok (.compile options.program program size)
  else
    match options.cellBits with
    | none => .error (.aborted .cellWidth)
    | some bits =>
      let settings : MachineSettings := { size, mayGrow := options.extensible, cell := { bits } }
      match settings.build program with
      | .ok machine => .ok (.interpret machine)
      | .error (.tape error) => .error (.aborted (.tape error))
      | .error (.cell error) => .error (.failed error.message)

/-- Links the program of a source and settles what to do with it. -/
def prepare (options : Options) (source : List UInt8) : Except Report Job :=
  match (Program.ofSource options.program.shown source).link with
  | .error (.bracket error) => .error (.failed? error.message?)
  | .error .unpatched => .error (.aborted .unpatched)
  | .ok program => prepareLinked options program

/-- The length of what stands in front of the path in the code of a program. -/
def pathOffset : Nat := "; ModuleID = \"".length

/-- Compiles a program, found at a path, and runs it, unless the path cannot be encoded, which is
noticed once the code has been printed. -/
def compileAndRun (limit : Nat) (path : OsText) (program : LinkedProgram) (size : Int)
    (console : ToolConsole) : Report :=
  match path.encodingError? pathOffset with
  | none => .ofNative (Native.run limit program size console)
  | some error =>
    match requestedSize size with
    | .error error => .aborted (.tape error)
    | .ok size =>
      let console := console.note (Native.codeText (Native.compile program size))
      .ofConsole console (.aborted (.encoding error)) ""

/-- Does a job with the given input. -/
def Job.perform (limit : Nat) (job : Job) (debug : Bool) (input : List UInt8) : Report :=
  match job with
  | .print text => .printed text
  | .interpret machine => .ofOutcome (machine.runTraced limit (toolConsole debug input))
  | .compile path program size =>
    compileAndRun limit path program size (toolConsole debug input)

/-- Does what was prepared, unless something is wrong with it. -/
def carryOut (limit : Nat) (debug : Bool) (input : List UInt8) : Except Report Job → Report
  | .error report => report
  | .ok job => job.perform limit debug input

/-- The report of a path at which there is no program. -/
def Report.ofFileError (error : FileError) : Report :=
  match error.problem with
  | .embeddedNull => .aborted (.path error)
  | _ => .failed error.message

/-- Runs the tool on its arguments and input; `load` gives the bytes at a path. -/
def run (limit : Nat) (dialect : Dialect) (load : OsText → Except FileError (List UInt8))
    (arguments : List OsText) (input : List UInt8) : Report :=
  match parse dialect arguments with
  | .error error => .ofUsageError error
  | .ok .help => .printed help
  | .ok (.run options) =>
    match load options.program with
    | .error error => .ofFileError error
    | .ok source => carryOut limit options.debug input (prepare options source)

end Brainfuck.CommandLine
