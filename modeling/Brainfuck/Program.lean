import Brainfuck.Instruction

/-! # Programs and their sources

A source is a sequence of bytes. Reading it keeps every byte that writes an operation and notes its
line and column; lines end at the byte `0x0A` only, and columns count bytes, so any byte sequence is
a source and no character encoding is involved.

Main definitions: `Cursor`, `Program`, `Program.scan`, `Program.ofSource`, `Program.listing?`. -/

namespace Brainfuck

/-- A place in a source: the line and column of the next byte. -/
structure Cursor where
  /-- The line of the next byte. -/
  line : Int
  /-- The column of the next byte. -/
  column : Int
deriving DecidableEq, Repr

namespace Cursor

/-- The place of the first byte of a source. -/
def start : Cursor := ⟨1, 1⟩

/-- The byte that ends a line. -/
def newline : UInt8 := 0x0A

/-- The place after a byte: the next column, or the first column of the next line. -/
def advance (cursor : Cursor) (byte : UInt8) : Cursor :=
  if byte = newline then ⟨cursor.line + 1, 1⟩ else ⟨cursor.line, cursor.column + 1⟩

end Cursor

/-- The rows of a listing of a file, one after the other: the file, a colon, the text of the row and
a line end. There is no listing if one of the texts cannot be written out. -/
def listingOf? (file : String) (texts : List (Option String)) : Option String :=
  texts.foldlM (fun rows text? => text?.map fun text => rows ++ (file ++ ":" ++ text ++ "\n")) ""

/-- The instructions of one file in source order; its brackets need not match. -/
structure Program where
  /-- The name of the file, for diagnostics. -/
  file : String
  /-- The instructions, in source order. -/
  instructions : List Instruction
deriving DecidableEq, Repr

namespace Program

/-- The instruction that a byte at a place is, if it writes an operation. -/
def instructionAt? (cursor : Cursor) (byte : UInt8) : Option Instruction :=
  (Op.ofByte? byte).map fun op => ⟨op, cursor.line, cursor.column⟩

/-- Adds to `found` the instructions of the bytes that start at `cursor`. -/
def scan (cursor : Cursor) (found : Array Instruction) : List UInt8 → Array Instruction
  | [] => found
  | byte :: rest =>
    match instructionAt? cursor byte with
    | some instruction => scan (cursor.advance byte) (found.push instruction) rest
    | none => scan (cursor.advance byte) found rest

/-- The program that a source writes. -/
def ofSource (file : String) (source : List UInt8) : Program :=
  ⟨file, (scan .start #[] source).toList⟩

/-- One row for each instruction, if all their places can be written out. -/
def listing? (limit : Option Nat) (program : Program) : Option String :=
  listingOf? program.file (program.instructions.map (·.text? limit))

@[simp] theorem scan_nil (cursor : Cursor) (found : Array Instruction) :
    scan cursor found [] = found := rfl

/-- One byte is read, then the rest from the place after it. -/
theorem scan_cons (cursor : Cursor) (found : Array Instruction) (byte : UInt8)
    (rest : List UInt8) :
    scan cursor found (byte :: rest) =
      scan (cursor.advance byte) (found ++ (instructionAt? cursor byte).toArray) rest := by
  rw [scan]
  cases instructionAt? cursor byte <;> simp

/-- What was found before stands unchanged in front of what the rest of the source holds. -/
theorem scan_eq_append (cursor : Cursor) (found : Array Instruction) (source : List UInt8) :
    scan cursor found source = found ++ scan cursor #[] source := by
  induction source generalizing cursor found with
  | nil => simp
  | cons byte rest ih =>
    rw [scan_cons, scan_cons, ih, ih (cursor.advance byte) (#[] ++ _)]
    simp

end Program

end Brainfuck
