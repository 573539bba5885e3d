import Brainfuck.CommandLine.Slices

/-! # The tool

The command line attached to the files, the standard input and the standard outputs of the process.
A machine is run in slices, so that output appears while the program runs, and input is fetched when
it is needed. -/

namespace Brainfuck.CommandLine

/-- The problem with a given error number, which may also be given as its negative word. -/
def numberedProblem (code : UInt32) (details : String) : FileProblem :=
  let number := if code.toNat < 0x80000000 then code.toNat else 0x100000000 - code.toNat
  match number with
  | 2 => .notFound
  | 20 => .notADirectory
  | 21 => .isADirectory
  | 36 => .nameTooLong
  | number => .other number details

/-- The reason for which the operating system refused to read a file. -/
def fileProblem : IO.Error → FileProblem
  | .noFileOrDirectory _ code details => numberedProblem code details
  | .inappropriateType _ code details => numberedProblem code details
  | .permissionDenied _ code details => numberedProblem code details
  | .invalidArgument _ code details => numberedProblem code details
  | .resourceExhausted _ code details => numberedProblem code details
  | .otherError code details => numberedProblem code details
  | error => .other 5 (toString error)

/-- Reads the bytes of a file. -/
def loadFile (path : OsText) : IO (Except FileError (List UInt8)) := do
  if .decoded '\x00' ∈ path then return .error ⟨path, .embeddedNull⟩
  try
    return .ok (← IO.FS.readBinFile path.shown).toList
  catch error => return .error ⟨path, fileProblem error⟩

/-- Writes what a report holds and gives its exit code. -/
def emit (report : Report) : IO UInt32 := do
  let output ← IO.getStdout
  let log ← IO.getStderr
  output.write ⟨report.output⟩
  output.flush
  log.putStr report.log
  match report.finish with
  | .exit code => return UInt32.ofNat code
  | .aborted abort =>
    log.putStrLn (toolName ++ ": " ++ abort.message)
    return 1

/-- The number of steps between two writes to the outputs. -/
def sliceLength : Nat := 100000

/-- The number of bytes of input to ask for at a time. -/
def fetchLength : USize := 4096

/-- Fetches more input. -/
def fetchInput : IO (List UInt8) := do
  let bytes ← (← IO.getStdin).read fetchLength
  return bytes.toList

/-- Reads the standard input to its end. -/
partial def readInput (bytes : Array UInt8) : IO (Array UInt8) := do
  let more ← (← IO.getStdin).read fetchLength
  if more.isEmpty then return bytes else readInput (bytes ++ more.data)

/-- A number of steps, of instructions and of slices that no run reaches. -/
def runLimit : Nat := 0x4000000000000000

/-- Does a job on the standard streams. -/
def Job.start (job : Job) (debug : Bool) : IO UInt32 := do
  match job with
  | .interpret machine =>
    let console := toolConsole debug []
    let put (report : Report) : IO Unit := do
      let _ ← emit report
    match ← runSlices fetchInput put sliceLength runLimit machine console with
    | some report => emit report
    | none => return 0
  | .print _ => emit (job.perform runLimit debug [])
  | .compile _ _ _ => emit (job.perform runLimit debug (← readInput #[]).toList)

/-- Runs the tool on its arguments. -/
def start (arguments : List OsText) : IO UInt32 := do
  match parse .lenient arguments with
  | .error error => emit (.ofUsageError error)
  | .ok .help => emit (.printed help)
  | .ok (.run options) =>
    match ← loadFile options.program with
    | .error error => emit (.ofFileError error)
    | .ok source =>
      match prepare options source with
      | .error report => emit report
      | .ok job => job.start options.debug

end Brainfuck.CommandLine

/-- The entry of the program. -/
def main (arguments : List String) : IO UInt32 :=
  Brainfuck.CommandLine.start (arguments.map Brainfuck.OsText.ofString)
