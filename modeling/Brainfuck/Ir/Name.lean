import Std.Data.HashMap

/-! # Names of values and blocks

The values and blocks of a function share one scope of names. A name is a stem and a serial number;
a supply hands out the serial numbers of each stem in order, so no name is given twice. The first
name of a stem is the stem alone; a value without a stem is known by its serial number.

Main definitions: `Stem`, `Name`, `Name.text`, `NameSupply`, `NameSupply.fresh`. -/

namespace Brainfuck.Ir

/-- The words that names are made of. -/
inductive Stem where
  /-- No word: the value is known by its serial number. -/
  | unnamed
  /-- The first block. -/
  | entry
  /-- The data pointer. -/
  | pointer
  /-- The data pointer plus one. -/
  | pointerUp
  /-- The data pointer minus one. -/
  | pointerDown
  /-- Whether the data pointer may move. -/
  | inBounds
  /-- The address of the current cell. -/
  | elementAddress
  /-- The current cell. -/
  | element
  /-- The current cell plus one. -/
  | elementUp
  /-- The current cell minus one. -/
  | elementDown
  /-- Whether a byte was written. -/
  | written
  /-- Whether a byte was read. -/
  | haveInput
  /-- The byte read. -/
  | inputByte
  /-- Whether the current cell decides for or against a loop. -/
  | compareZero
  /-- The block that goes on after a check. -/
  | noFault
  /-- The block that a failed check leads to. -/
  | fault
  /-- The first block of a loop. -/
  | loopBody
  /-- The block after a loop. -/
  | postLoop
deriving DecidableEq, Hashable, Repr

namespace Stem

/-- The word itself. -/
def text : Stem → String
  | unnamed => ""
  | entry => "entry"
  | pointer => "dataptr"
  | pointerUp => "inc_dataptr"
  | pointerDown => "dec_dataptr"
  | inBounds => "in_bounds"
  | elementAddress => "element_addr"
  | element => "element"
  | elementUp => "inc_element"
  | elementDown => "dec_element"
  | written => "written"
  | haveInput => "have_input"
  | inputByte => "user_input_i8"
  | compareZero => "compare_zero"
  | noFault => "no_fault"
  | fault => "fault"
  | loopBody => "loop_body"
  | postLoop => "post_loop"

/-- The first serial number of a stem: without a word there has to be a number. -/
def firstSerial : Stem → Nat
  | unnamed => 1
  | _ => 0

end Stem

/-- The name of a value or a block. -/
structure Name where
  /-- Its word. -/
  stem : Stem
  /-- Its number among the names of that word. -/
  serial : Nat
deriving DecidableEq, Hashable, Repr

/-- A name as it is written: the word alone for the serial number zero, else the word, a point and
the number. -/
def Name.text (name : Name) : String :=
  if name.serial = 0 then name.stem.text
  else name.stem.text ++ "." ++ toString name.serial

/-- The next serial number of each stem that has been used. -/
structure NameSupply where
  /-- The next serial numbers. -/
  next : Std.HashMap Stem Nat := {}

namespace NameSupply

/-- The next serial number of a stem. -/
def serial (supply : NameSupply) (stem : Stem) : Nat :=
  supply.next.getD stem stem.firstSerial

/-- A name of the stem that has not been given before. -/
def fresh (supply : NameSupply) (stem : Stem) : Name × NameSupply :=
  let serial := supply.serial stem
  (⟨stem, serial⟩, ⟨supply.next.insert stem (serial + 1)⟩)

theorem serial_empty (stem : Stem) : serial {} stem = stem.firstSerial := by
  simp [serial]

/-- Giving a name uses up one serial number of its stem and none of any other. -/
theorem serial_fresh (supply : NameSupply) (stem other : Stem) :
    (supply.fresh stem).2.serial other =
      if other = stem then supply.serial stem + 1 else supply.serial other := by
  by_cases h : other = stem
  · simp [fresh, serial, h]
  · have h' : stem ≠ other := fun e => h e.symm
    simp [fresh, serial, h, h', Std.HashMap.getD_insert]

end NameSupply

end Brainfuck.Ir
