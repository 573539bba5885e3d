import Brainfuck.Ir.Name

/-! # Single-assignment code

The code of one function over a tape of bytes. The function consists of blocks; blocks are numbered
in the order of their creation, and a branch names its targets by their numbers. Every result is a
name that no other instruction defines.

Main definitions: `Width`, `Instr`, `Block`, `Function`, `CodeUnit`. -/

namespace Brainfuck.Ir

/-- The widths of integers. -/
inductive Width where
  /-- One bit, the outcome of a comparison. -/
  | bit
  /-- Eight bits, a cell. -/
  | byte
  /-- Thirty-two bits, the reply of a call. -/
  | reply
  /-- Sixty-four bits, the data pointer. -/
  | word
deriving DecidableEq, Repr

/-- The number of bits of a width. -/
def Width.bits : Width → Nat
  | bit => 1
  | byte => 8
  | reply => 32
  | word => 64

/-- The two operations on integers, which wrap around. -/
inductive Arithmetic where
  /-- The sum. -/
  | add
  /-- The difference. -/
  | sub
deriving DecidableEq, Repr

/-- The comparisons of integers. -/
inductive Comparison where
  /-- Equal. -/
  | equal
  /-- Not equal. -/
  | notEqual
  /-- Less, as unsigned integers. -/
  | unsignedLess
  /-- Not less, as signed integers. -/
  | signedAtLeast
deriving DecidableEq, Repr

/-- The functions that the code calls and does not define. -/
inductive Callee where
  /-- Writes a byte; the reply is zero if that succeeded. -/
  | putByte
  /-- Reads a byte; the reply is the byte, or negative if that failed. -/
  | getByte
deriving DecidableEq, Repr

/-- The value that a store writes. -/
inductive Operand where
  /-- The value of a name. -/
  | named (name : Name)
  /-- An integer. -/
  | literal (value : Int)
deriving DecidableEq, Repr

/-- One instruction. A branch or a return ends a block. -/
inductive Instr where
  /-- Reserves a slot for a word and gives its address. -/
  | reserve (result : Name)
  /-- Reads an integer from an address. -/
  | load (result : Name) (width : Width) (address : Name)
  /-- Writes an integer to an address. -/
  | store (width : Width) (value : Operand) (address : Name)
  /-- Gives the address of the cell with a given index, which has to be a cell of the tape. -/
  | element (result : Name) (base : Name) (index : Name)
  /-- Adds or subtracts an integer. -/
  | arithmetic (result : Name) (operation : Arithmetic) (width : Width) (left : Name) (right : Int)
  /-- Compares with an integer. -/
  | compare (result : Name) (comparison : Comparison) (width : Width) (left : Name) (right : Int)
  /-- Keeps the low byte of a reply. -/
  | truncate (result : Name) (value : Name)
  /-- Calls the function that writes a byte. -/
  | put (result : Name) (byte : Name)
  /-- Calls the function that reads a byte. -/
  | get (result : Name)
  /-- Goes on in one of two blocks. -/
  | branch (condition : Name) (ifTrue ifFalse : Nat)
  /-- Ends the function with a word. -/
  | ret (value : Int)
deriving DecidableEq, Repr

namespace Instr

/-- Whether an instruction ends a block. -/
def isTerminator : Instr → Bool
  | branch _ _ _ => true
  | ret _ => true
  | _ => false

/-- The name that an instruction defines. -/
def result? : Instr → Option Name
  | reserve result => some result
  | load result _ _ => some result
  | store _ _ _ => none
  | element result _ _ => some result
  | arithmetic result _ _ _ _ => some result
  | compare result _ _ _ _ => some result
  | truncate result _ => some result
  | put result _ => some result
  | get result => some result
  | branch _ _ _ => none
  | ret _ => none

/-- The names whose values an instruction needs. -/
def uses : Instr → List Name
  | reserve _ => []
  | load _ _ address => [address]
  | store _ (.named value) address => [value, address]
  | store _ (.literal _) address => [address]
  | element _ base index => [base, index]
  | arithmetic _ _ _ left _ => [left]
  | compare _ _ _ left _ => [left]
  | truncate _ value => [value]
  | put _ byte => [byte]
  | get _ => []
  | branch condition _ _ => [condition]
  | ret _ => []

/-- The blocks that an instruction can lead to. -/
def targets : Instr → List Nat
  | branch _ ifTrue ifFalse => [ifTrue, ifFalse]
  | _ => []

end Instr

/-- A block: its name and its instructions. -/
structure Block where
  /-- The name that branches refer to. -/
  label : Name
  /-- The instructions, in order. -/
  code : List Instr
deriving DecidableEq, Repr

/-- A function of one parameter, the address of the first cell. -/
structure Function where
  /-- The name of the parameter. -/
  parameter : Name
  /-- The blocks in the order of their creation; the function begins with the first. -/
  blocks : Array Block
deriving DecidableEq, Repr

/-- The function of one program, and the functions it calls. -/
structure CodeUnit where
  /-- The file of the program. -/
  file : String
  /-- The function. -/
  function : Function
  /-- The functions it calls, in the order of their first calls. -/
  declarations : List Callee
deriving DecidableEq, Repr

end Brainfuck.Ir
