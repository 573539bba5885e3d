/-! # Tapes

A tape is a row of cells and the index of the current one. Its cells hold integers; which integers
they can be is a matter of the cell kind of the machine that writes them.

Main definitions: `TapeSizeError`, `tapeSize`, `Tape`, `Tape.blank`, `Tape.current`, `Tape.write`,
`Tape.moveRight`, `Tape.moveLeft`, `Tape.grow`. -/

namespace Brainfuck

/-! ## Sizes -/

/-- Why a tape of the size asked for cannot be made. -/
inductive TapeSizeError where
  /-- The size is negative. -/
  | negative (size : Int)
  /-- The cells could not be given addresses. -/
  | unaddressable
  /-- The cells do not fit into memory. -/
  | outOfMemory
deriving DecidableEq, Repr

/-- The diagnostic for a tape that cannot be made; running out of memory has no text. -/
def TapeSizeError.message : TapeSizeError → String
  | negative size => "tape size must be positive, got " ++ toString size
  | unaddressable => "cannot fit 'int' into an index-sized integer"
  | outOfMemory => ""

/-- The number of cells of a tape for which no size is asked for. -/
def defaultTapeSize : Nat := 30000

/-- The size of the tape asked for by `size`, where zero asks for the default. -/
def requestedSize (size : Int) : Except TapeSizeError Nat :=
  if size = 0 then .ok defaultTapeSize
  else if size < 0 then .error (.negative size)
  else .ok size.toNat

/-- Refuses a number of cells that has no index of 63 bits or, at eight bytes a cell, no memory. -/
def checkAllocation (size : Nat) : Except TapeSizeError Nat :=
  if size < Nat.pow 2 60 then .ok size
  else if size < Nat.pow 2 63 then .error .outOfMemory
  else .error .unaddressable

/-- The size of a new tape: the one asked for, if it can be allocated. -/
def tapeSize (size : Int) : Except TapeSizeError Nat :=
  requestedSize size >>= checkAllocation

/-- A tape that can be made has at least one cell, and fewer than would need all the memory. -/
theorem tapeSize_eq_ok {size : Int} {count : Nat} (h : tapeSize size = .ok count) :
    0 < count ∧ count < Nat.pow 2 60 := by
  have hdefault : 0 < defaultTapeSize := by decide
  simp only [tapeSize, requestedSize, checkAllocation, bind, Except.bind] at h
  grind

/-- A tape of a positive size that fits into memory can be made. -/
theorem tapeSize_natCast {count : Nat} (hpositive : 0 < count) (hfits : count < Nat.pow 2 60) :
    tapeSize count = .ok count := by
  simp only [tapeSize, requestedSize, checkAllocation, bind, Except.bind, Int.toNat_natCast]
  rw [if_neg (by omega), if_neg (by omega)]
  exact if_pos hfits

/-! ## Cells and the current one -/

/-- A row of cells and the index of the current one. -/
structure Tape where
  /-- The values of the cells. -/
  cells : Array Int
  /-- The index of the current cell. -/
  head : Nat := 0
deriving DecidableEq, Repr

namespace Tape

/-- A tape whose cells all hold `zero`, with the first one current. -/
def blank (size : Nat) (zero : Int) : Tape := ⟨Array.replicate size zero, 0⟩

/-- The number of cells. -/
def size (tape : Tape) : Nat := tape.cells.size

/-- The value of the current cell. -/
@[inline] def current (tape : Tape) : Int := tape.cells.getD tape.head 0

/-- Stores a value in the current cell. -/
@[inline] def write (tape : Tape) (value : Int) : Tape :=
  match tape with
  | ⟨cells, head⟩ => ⟨cells.setIfInBounds head value, head⟩

/-- Whether the current cell is the last one. -/
@[inline] def atLast (tape : Tape) : Bool := tape.head + 1 = tape.cells.size

/-- Makes the next cell current. -/
@[inline] def moveRight (tape : Tape) : Tape :=
  match tape with
  | ⟨cells, head⟩ => ⟨cells, head + 1⟩

/-- Makes the previous cell current. -/
@[inline] def moveLeft (tape : Tape) : Tape :=
  match tape with
  | ⟨cells, head⟩ => ⟨cells, head - 1⟩

/-- Appends a cell. -/
@[inline] def grow (tape : Tape) (value : Int) : Tape :=
  match tape with
  | ⟨cells, head⟩ => ⟨cells.push value, head⟩

@[simp] theorem size_blank (size : Nat) (zero : Int) : (blank size zero).size = size := by
  simp [blank, Tape.size]

@[simp] theorem head_blank (size : Nat) (zero : Int) : (blank size zero).head = 0 := rfl

@[simp] theorem size_write (tape : Tape) (value : Int) : (tape.write value).size = tape.size := by
  simp [write, Tape.size]

@[simp] theorem head_write (tape : Tape) (value : Int) : (tape.write value).head = tape.head := rfl

@[simp] theorem size_moveRight (tape : Tape) : tape.moveRight.size = tape.size := rfl

@[simp] theorem head_moveRight (tape : Tape) : tape.moveRight.head = tape.head + 1 := rfl

@[simp] theorem size_moveLeft (tape : Tape) : tape.moveLeft.size = tape.size := rfl

@[simp] theorem head_moveLeft (tape : Tape) : tape.moveLeft.head = tape.head - 1 := rfl

@[simp] theorem size_grow (tape : Tape) (value : Int) :
    (tape.grow value).size = tape.size + 1 := by
  simp [grow, Tape.size]

@[simp] theorem head_grow (tape : Tape) (value : Int) : (tape.grow value).head = tape.head := rfl

/-- The value stored in a cell of the tape is the one read back. -/
theorem current_write (tape : Tape) (value : Int) (h : tape.head < tape.size) :
    (tape.write value).current = value := by
  have bound : tape.head < tape.cells.size := h
  simp [write, current, bound]

end Tape

end Brainfuck
