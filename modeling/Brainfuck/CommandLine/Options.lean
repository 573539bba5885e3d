import Brainfuck.Numeral

/-! # Options of the command line

The switches of the command line, the settings they lead to, and what can be wrong with a command
line.

Main definitions: `Switch`, `Options`, `UsageError`. -/

namespace Brainfuck.CommandLine

/-! ## Switches -/

/-- The switches of the command line. -/
inductive Switch where
  /-- Show the help text. -/
  | help
  /-- The number of cells. -/
  | cells
  /-- Whether the tape may grow. -/
  | extensible
  /-- The number of bits of a cell. -/
  | cellBits
  /-- Whether to compile the program. -/
  | jit
  /-- Whether to print the program only. -/
  | list
  /-- Whether to trace every step. -/
  | debug
deriving DecidableEq, Repr

namespace Switch

/-- All switches, in the order in which the help text lists them. -/
def all : List Switch := [help, cells, extensible, cellBits, jit, list, debug]

/-- How a switch is written: its short form, if it has one, and its long form. -/
def spellings : Switch → List String
  | help => ["-h", "--help"]
  | cells => ["-c", "--cells"]
  | extensible => ["-e", "--extensible"]
  | cellBits => ["--cell-bits"]
  | jit => ["--jit"]
  | list => ["--list"]
  | debug => ["-d", "--debug"]

/-- A switch as diagnostics name it. -/
def display (switch : Switch) : String := "/".intercalate switch.spellings

/-- Whether a switch is followed by a value. -/
def takesValue : Switch → Bool
  | cells => true
  | cellBits => true
  | _ => false

/-- Every spelling with its switch, in the order of the help text. -/
def table : List (String × Switch) :=
  all.flatMap fun switch => switch.spellings.map fun spelling => (spelling, switch)

/-- The switch with a given spelling. -/
def ofSpelling? (spelling : OsText) : Option Switch :=
  spelling.string?.bind fun text => table.lookup text

end Switch

/-! ## Settings -/

/-- What a command line asks for. -/
structure Options where
  /-- The path of the program. -/
  program : OsText
  /-- The number of cells, if one is given. -/
  cells : Option Int := none
  /-- Whether the tape may grow. -/
  extensible : Bool := false
  /-- The number of bits of a cell, unless the command line takes it away. -/
  cellBits : Option Int := some 8
  /-- Whether to compile the program. -/
  jit : Bool := false
  /-- Whether to print the program only. -/
  list : Bool := false
  /-- Whether to trace every step. -/
  debug : Bool := false
deriving DecidableEq, Repr

/-- The numbers of bits that a cell can be asked to have. -/
def cellBitsChoices : List Int := [8, 16, 32]

/-! ## Errors -/

/-- What is wrong with a command line. -/
inductive UsageError where
  /-- An argument abbreviates more than one spelling. -/
  | ambiguous (argument : OsText) (candidates : List String)
  /-- A switch is not followed by the value it takes. -/
  | missingValue (switch : Switch)
  /-- A switch that takes no value is given one. -/
  | ignoredValue (switch : Switch) (value : OsText)
  /-- The number of cells is not a numeral. -/
  | invalidCells (value : OsText)
  /-- The number of cells is not positive. -/
  | notPositive (value : OsText)
  /-- The number of bits is not a numeral. -/
  | invalidBits (value : OsText)
  /-- The number of bits is not one of the choices. -/
  | unknownBits (bits : Int)
  /-- No program is named. -/
  | missingProgram
  /-- Arguments are left over. -/
  | unrecognized (arguments : List OsText)
  /-- A compiled program is asked to run with cells or a tape that it cannot have. -/
  | jitTape
deriving DecidableEq, Repr

/-- A diagnostic about the value of a switch. -/
def Switch.complaint (switch : Switch) (text : String) : String :=
  "argument " ++ switch.display ++ ": " ++ text

/-- The diagnostic for a command line. -/
def UsageError.message : UsageError → String
  | ambiguous argument candidates =>
    "ambiguous option: " ++ argument.shown ++ " could match " ++ ", ".intercalate candidates
  | missingValue switch => switch.complaint "expected one argument"
  | ignoredValue switch value => switch.complaint ("ignored explicit argument " ++ value.quoted)
  | invalidCells value => Switch.cells.complaint ("invalid positive_int value: " ++ value.quoted)
  | notPositive value =>
    Switch.cells.complaint (PositiveIntegerError.message (.notPositive value.shown))
  | invalidBits value => Switch.cellBits.complaint ("invalid int value: " ++ value.quoted)
  | unknownBits bits =>
    Switch.cellBits.complaint ("invalid choice: " ++ toString bits ++ " (choose from " ++
      ", ".intercalate (cellBitsChoices.map toString) ++ ")")
  | missingProgram => "the following arguments are required: program"
  | unrecognized arguments =>
    "unrecognized arguments: " ++ " ".intercalate (arguments.map OsText.shown)
  | jitTape => "--jit runs a fixed tape of 8-bit cells"

end Brainfuck.CommandLine
