import Brainfuck.Numeral.Written
import Brainfuck.Op

/-! # Positioned instructions

An operation together with the place it was read from. Positions are integers, so that a program
can also be assembled from instructions that no source text holds. A place is written out in decimal
digits, unless one of its numbers has more of them than a limit allows. -/

namespace Brainfuck

/-- An operation and the line and column it stands at. A tokenized source counts both from one, and
columns in bytes. -/
structure Instruction where
  /-- What the instruction does. -/
  op : Op
  /-- The line it stands on. -/
  line : Int
  /-- The column it stands in. -/
  column : Int
deriving DecidableEq, Repr

namespace Instruction

/-- The place of an instruction, `line:column`. -/
def place? (limit : Option Nat) (instruction : Instruction) : Option String := do
  let line ← Numeral.write? limit instruction.line
  let column ← Numeral.write? limit instruction.column
  return line ++ ":" ++ column

/-- The row text of an instruction: its place, a blank, and the description of its operation. -/
def text? (limit : Option Nat) (instruction : Instruction) : Option String :=
  (instruction.place? limit).map fun place => place ++ " " ++ instruction.op.description

/-- The text that points a diagnostic at an instruction of a file, `file:line:column: `. -/
def locator? (instruction : Instruction) (file : String) : Option String :=
  (instruction.place? Numeral.standardLimit).map fun place => file ++ ":" ++ place ++ ": "

/-- Whether the numbers of a place can be written out. -/
def fits (limit : Option Nat) (instruction : Instruction) : Bool :=
  Numeral.fits limit instruction.line && Numeral.fits limit instruction.column

theorem place?_eq_some_iff {limit : Option Nat} {instruction : Instruction} {place : String} :
    instruction.place? limit = some place ↔ instruction.fits limit = true ∧
      toString instruction.line ++ ":" ++ toString instruction.column = place := by
  simp [place?, fits, Numeral.write?_eq_some_iff, Option.bind_eq_some_iff, and_assoc]

end Instruction

end Brainfuck
