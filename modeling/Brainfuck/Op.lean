/-! # The eight operations

The alphabet of the language: eight operations, each written as one character. A source code unit
is an operation exactly when it equals one of the eight character codes; every other code is a
comment.

Main definitions: `Op`, `Op.symbol`, `Op.ofCode?`, `Op.description`. -/

namespace Brainfuck

/-- One of the eight operations of the language. -/
inductive Op where
  /-- Move the data pointer one cell to the right. -/
  | right
  /-- Move the data pointer one cell to the left. -/
  | left
  /-- Add one to the current cell. -/
  | add
  /-- Subtract one from the current cell. -/
  | sub
  /-- Write the current cell to the output. -/
  | output
  /-- Read one byte of input into the current cell. -/
  | input
  /-- Begin a loop, which runs while the current cell is not zero. -/
  | loopStart
  /-- End the innermost loop. -/
  | loopEnd
deriving DecidableEq, Repr

namespace Op

/-- All operations, in the order of their indices. -/
def all : List Op :=
  [right, left, add, sub, output, input, loopStart, loopEnd]

/-- The position of an operation in `Op.all`. -/
def index : Op → Nat
  | right => 0
  | left => 1
  | add => 2
  | sub => 3
  | output => 4
  | input => 5
  | loopStart => 6
  | loopEnd => 7

/-- The character that writes an operation. -/
def symbol : Op → Char
  | right => '>'
  | left => '<'
  | add => '+'
  | sub => '-'
  | output => '.'
  | input => ','
  | loopStart => '['
  | loopEnd => ']'

/-- The phrase that names an operation in listings and traces. -/
def description : Op → String
  | right => "Increment current location"
  | left => "Decrement current location"
  | add => "Increment the byte at the current location"
  | sub => "Decrement the byte at the current location"
  | output => "Output the byte at the current location"
  | input => "Store a byte of input at the current location"
  | loopStart => "Start looping"
  | loopEnd => "Stop looping"

/-- The operation written by a character code; no code outside the alphabet denotes one, and codes
are not reduced to bytes first. -/
def ofCode? (code : Int) : Option Op :=
  if code = 0x3E then some right
  else if code = 0x3C then some left
  else if code = 0x2B then some add
  else if code = 0x2D then some sub
  else if code = 0x2E then some output
  else if code = 0x2C then some input
  else if code = 0x5B then some loopStart
  else if code = 0x5D then some loopEnd
  else none

/-- The operation written by a source byte. -/
def ofByte? (byte : UInt8) : Option Op :=
  ofCode? byte.toNat

/-- An operation is read back from the code of its symbol. -/
@[simp] theorem ofCode?_symbol (op : Op) : ofCode? op.symbol.toNat = some op := by
  cases op <;> rfl

/-- A code denotes an operation only if it is the code of its symbol. -/
theorem ofCode?_eq_some_iff {code : Int} {op : Op} :
    ofCode? code = some op ↔ code = op.symbol.toNat := by
  constructor
  · intro h
    simp only [ofCode?] at h
    repeat' split at h
    all_goals cases h
    all_goals assumption
  · rintro rfl
    exact ofCode?_symbol op

end Op

end Brainfuck
