import Brainfuck.Link
import Brainfuck.Ir.Syntax

/-! # Code for a linked program

A linked program over a fixed tape of bytes becomes one function. Instructions are added to the
block being filled; a check ends that block and opens two more, one that goes on and one that
returns the index of the instruction at fault. A loop opens a block for its body and one for what
follows it; both are remembered until the loop ends.

Main definitions: `Builder`, `Build.instruction`, `Build.function`, `compile`. -/

namespace Brainfuck.Native

open Ir

/-- A block being filled. -/
structure OpenBlock where
  /-- The name of the block. -/
  label : Name
  /-- The instructions it holds so far. -/
  code : Array Instr := #[]

/-- The blocks of a loop whose end has not been reached. -/
structure LoopBlocks where
  /-- The index of the loop start. -/
  opener : Nat
  /-- The number of the first block of the body. -/
  body : Nat
  /-- The number of the block after the loop. -/
  after : Nat
deriving DecidableEq, Repr

/-- A function being built. -/
structure Builder where
  /-- The names still to be given. -/
  names : NameSupply := {}
  /-- The blocks created so far. -/
  blocks : Array OpenBlock := #[]
  /-- The number of the block being filled. -/
  position : Nat := 0
  /-- The loops that have not ended, innermost first. -/
  loops : List LoopBlocks := []
  /-- The functions called so far, in the order of their first calls. -/
  declarations : List Callee := []

/-- Steps of building a function. -/
abbrev Build := StateM Builder

namespace Build

/-! ## Names, blocks and instructions -/

/-- A name that has not been given before. -/
def fresh (stem : Stem) : Build Name := fun builder =>
  match builder with
  | ⟨names, blocks, position, loops, declarations⟩ =>
    let (name, names) := names.fresh stem
    (name, ⟨names, blocks, position, loops, declarations⟩)

/-- Uses up a serial number: instructions without a result take one too. -/
def skipName : Build Unit := do
  let _ ← fresh .unnamed

/-- Adds an instruction to the block being filled. -/
def push (instr : Instr) : Build Unit := fun builder =>
  match builder with
  | ⟨names, blocks, position, loops, declarations⟩ =>
    let blocks := blocks.modify position fun block => { block with code := block.code.push instr }
    ((), ⟨names, blocks, position, loops, declarations⟩)

/-- Creates an empty block and gives its number. -/
def createBlock (stem : Stem) : Build Nat := do
  let label ← fresh stem
  modifyGet fun builder =>
    (builder.blocks.size, { builder with blocks := builder.blocks.push ⟨label, #[]⟩ })

/-- Goes on filling the block of a given number. -/
def moveTo (block : Nat) : Build Unit :=
  modify fun builder => { builder with position := block }

/-- Notes that a function is called. -/
def declare (callee : Callee) : Build Unit :=
  modify fun builder =>
    if callee ∈ builder.declarations then builder
    else { builder with declarations := builder.declarations ++ [callee] }

/-! ## Pieces of code -/

/-- Ends the block being filled with a branch. -/
def branch (condition : Name) (ifTrue ifFalse : Nat) : Build Unit := do
  skipName
  push (.branch condition ifTrue ifFalse)

/-- Ends the block being filled with a return. -/
def ret (value : Int) : Build Unit := do
  skipName
  push (.ret value)

/-- Stores an integer. -/
def store (width : Width) (value : Operand) (address : Name) : Build Unit := do
  skipName
  push (.store width value address)

/-- The names that all code refers to: the tape and the slot of the data pointer. -/
structure Frame where
  /-- The address of the first cell. -/
  tape : Name
  /-- The address of the slot that holds the data pointer. -/
  slot : Name

/-- Reads the data pointer. -/
def pointer (frame : Frame) : Build Name := do
  let result ← fresh .pointer
  push (.load result .word frame.slot)
  return result

/-- Computes the address of the current cell. -/
def elementAddress (frame : Frame) : Build Name := do
  let index ← pointer frame
  let result ← fresh .elementAddress
  push (.element result frame.tape index)
  return result

/-- Reads the current cell, and gives its address as well. -/
def element (frame : Frame) : Build (Name × Name) := do
  let address ← elementAddress frame
  let result ← fresh .element
  push (.load result .byte address)
  return (address, result)

/-- Compares a value with an integer. -/
def compare (stem : Stem) (comparison : Comparison) (width : Width) (left : Name) (right : Int) :
    Build Name := do
  let result ← fresh stem
  push (.compare result comparison width left right)
  return result

/-- Adds an integer to a value, or subtracts it. -/
def arithmetic (stem : Stem) (operation : Arithmetic) (width : Width) (left : Name) (right : Int) :
    Build Name := do
  let result ← fresh stem
  push (.arithmetic result operation width left right)
  return result

/-- Returns the index of the instruction unless `ok` holds, and goes on in a new block. -/
def faultUnless (ok : Name) (index : Nat) : Build Unit := do
  let proceed ← createBlock .noFault
  let fault ← createBlock .fault
  branch ok proceed fault
  moveTo fault
  ret index
  moveTo proceed

/-! ## Instructions -/

/-- Moves the data pointer, if the comparison with the limit allows it. -/
def move (frame : Frame) (index : Nat) (comparison : Comparison) (limit : Int) (stem : Stem)
    (operation : Arithmetic) : Build Unit := do
  let old ← pointer frame
  let inBounds ← compare .inBounds comparison .word old limit
  faultUnless inBounds index
  let new ← arithmetic stem operation .word old 1
  store .word (.named new) frame.slot

/-- Changes the current cell by one. -/
def change (frame : Frame) (stem : Stem) (operation : Arithmetic) : Build Unit := do
  let (address, old) ← element frame
  let new ← arithmetic stem operation .byte old 1
  store .byte (.named new) address

/-- Writes the current cell to the output. -/
def output (frame : Frame) (index : Nat) : Build Unit := do
  let (_, value) ← element frame
  declare .putByte
  let reply ← fresh .unnamed
  push (.put reply value)
  let written ← compare .written .equal .reply reply 0
  faultUnless written index

/-- Reads a byte of input into the current cell. -/
def input (frame : Frame) (index : Nat) : Build Unit := do
  declare .getByte
  let reply ← fresh .unnamed
  push (.get reply)
  let haveInput ← compare .haveInput .signedAtLeast .reply reply 0
  faultUnless haveInput index
  let value ← fresh .inputByte
  push (.truncate value reply)
  let address ← elementAddress frame
  store .byte (.named value) address

/-- Begins a loop: skips it if the current cell is zero, else goes on in its body. -/
def openLoop (frame : Frame) (index : Nat) : Build Unit := do
  let (_, value) ← element frame
  let isZero ← compare .compareZero .equal .byte value 0
  let body ← createBlock .loopBody
  let after ← createBlock .postLoop
  branch isZero after body
  modify fun builder => { builder with loops := ⟨index, body, after⟩ :: builder.loops }
  moveTo body

/-- Ends the loop that begins at `opener`: goes round again unless the current cell is zero. In the
code of a linked program there is always such a loop, and it is the innermost one. -/
def closeLoop (frame : Frame) (opener : Nat) : Build Unit := do
  let builder ← get
  match builder.loops.find? (·.opener = opener) with
  | none => return
  | some loop =>
    set { builder with loops := builder.loops.erase loop }
    let (_, value) ← element frame
    let isNonzero ← compare .compareZero .notEqual .byte value 0
    branch isNonzero loop.body loop.after
    moveTo loop.after

/-- The code of the instruction at an index, for a tape of `size` cells. -/
def instruction (frame : Frame) (size : Int) (index : Nat) (linked : Linked) : Build Unit :=
  match linked with
  | .opener _ _ _ => openLoop frame index
  | .closer _ opener _ => closeLoop frame opener
  | .plain instruction =>
    match instruction.op with
    | .right => move frame index .unsignedLess (size - 1) .pointerUp .add
    | .left => move frame index .notEqual 0 .pointerDown .sub
    | .add => change frame .elementUp .add
    | .sub => change frame .elementDown .sub
    | .output => output frame index
    | .input => input frame index
    -- A linked program holds no bracket as a plain instruction.
    | .loopStart => return
    | .loopEnd => return

/-- The code of the instructions from an index on. -/
def instructions (frame : Frame) (size : Int) (index : Nat) : List Linked → Build Unit
  | [] => return
  | linked :: rest => do
    instruction frame size index linked
    instructions frame size (index + 1) rest

/-- The first block up to the first instruction of the program: the data pointer is set to zero. The
parameter and the value of the function take the first two names. -/
def entry : Build Frame := do
  let tape ← fresh .unnamed
  skipName
  let block ← createBlock .entry
  moveTo block
  let slot ← fresh .unnamed
  push (.reserve slot)
  store .word (.literal 0) slot
  return ⟨tape, slot⟩

/-- The word that the function returns when the program has ended. -/
def noFault : Int := -1

/-- The whole function; gives the name of its parameter. -/
def function (program : LinkedProgram) (size : Int) : Build Name := do
  let frame ← entry
  instructions frame size 0 program.instructions.toList
  ret noFault
  return frame.tape

end Build

/-- The code of a linked program over a tape of `size` cells. -/
def compile (program : LinkedProgram) (size : Int) : CodeUnit :=
  let (parameter, builder) := (Build.function program size).run {}
  { file := program.file
    function :=
      { parameter
        blocks := builder.blocks.map fun block => ⟨block.label, block.code.toList⟩ }
    declarations := builder.declarations }

end Brainfuck.Native
