import Brainfuck.Ir.Syntax

/-! # Running single-assignment code

The meaning of the code of one function, as a machine that executes an instruction at a time. An
integer of a given width is held as its residue, a natural number below two to that width. The
memory is one slot for a word and a tape of bytes. What no rule allows is stuck: a name without a
value, an address that is no address, a cell outside the tape, the end of a block without a branch.

Main definitions: `Host`, `Value`, `State`, `State.step`, `Function.run`. -/

namespace Brainfuck.Ir

/-! ## Values -/

/-- States of the world that answer the calls of the code with an integer each. -/
class Host (σ : Type) where
  /-- Asked to write a byte. -/
  putByte : UInt8 → σ → Int × σ
  /-- Asked to read a byte. -/
  getByte : σ → Int × σ

/-- What a name stands for. -/
inductive Value where
  /-- An integer, as its residue. -/
  | number (residue : Nat)
  /-- The address of the slot. -/
  | slotAddress
  /-- The address of a cell. -/
  | cellAddress (index : Nat)
deriving DecidableEq, Repr

namespace Width

/-- The number of integers of a width. -/
def modulus (width : Width) : Nat := Nat.pow 2 width.bits

/-- The residue of an integer. -/
def residue (width : Width) (value : Int) : Nat := (value % (width.modulus : Int)).toNat

/-- The signed integer that a residue stands for. -/
def signed (width : Width) (residue : Nat) : Int :=
  if 2 * residue < width.modulus then residue else (residue : Int) - width.modulus

end Width

/-- Adds or subtracts, wrapping around. -/
def Arithmetic.apply (operation : Arithmetic) (width : Width) (left right : Nat) : Nat :=
  match operation with
  | .add => (left + right) % width.modulus
  | .sub => (left + (width.modulus - right)) % width.modulus

/-- Compares two integers of a width. -/
def Comparison.holds (comparison : Comparison) (width : Width) (left right : Nat) : Bool :=
  match comparison with
  | .equal => left = right
  | .notEqual => left ≠ right
  | .unsignedLess => left < right
  | .signedAtLeast => width.signed right ≤ width.signed left

/-- The bit for a truth value. -/
def Value.ofBool (truth : Bool) : Value := .number (if truth then 1 else 0)

/-! ## States -/

/-- Why the code cannot go on. -/
inductive Stuck where
  /-- A name has no value, or not one of the kind needed. -/
  | undefined (name : Name)
  /-- A cell is not one of the tape. -/
  | outOfBounds (index : Nat)
  /-- An address is used for an integer of another width. -/
  | wrongWidth (name : Name)
  /-- A branch leads to a block that does not exist. -/
  | noBlock (block : Nat)
  /-- A block ended without a branch or a return. -/
  | fellThrough
deriving DecidableEq, Repr

/-- The code being run: the instructions left of the current block, the values of the names, the
memory and the world. -/
structure State (σ : Type) where
  /-- The instructions left of the current block. -/
  code : List Instr
  /-- The values of the names defined so far. -/
  values : Std.HashMap Name Value
  /-- The word in the slot. -/
  slot : Nat
  /-- The cells. -/
  tape : Array UInt8
  /-- The world. -/
  host : σ

/-- What a step comes to. -/
inductive Step (σ : Type) where
  /-- The code goes on. -/
  | running (state : State σ)
  /-- The function returned a word. -/
  | returned (value : Int) (tape : Array UInt8) (host : σ)
  /-- The code cannot go on. -/
  | stuck (reason : Stuck) (host : σ)

namespace State

variable {σ : Type}

/-- The integer that a name stands for. -/
def number? (state : State σ) (name : Name) : Option Nat :=
  match state.values[name]? with
  | some (.number residue) => some residue
  | _ => none

/-- Gives a name its value and goes on. -/
@[inline] def define (state : State σ) (rest : List Instr) (name : Name) (value : Value) :
    Step σ :=
  match state with
  | ⟨_, values, slot, tape, host⟩ => .running ⟨rest, values.insert name value, slot, tape, host⟩

/-- Reads an integer from an address. -/
def loadFrom (state : State σ) (rest : List Instr) (result : Name) (width : Width)
    (address : Name) : Step σ :=
  match state.values[address]?, width with
  | some .slotAddress, .word => state.define rest result (.number state.slot)
  | some (.cellAddress index), .byte =>
    match state.tape[index]? with
    | some byte => state.define rest result (.number byte.toNat)
    | none => .stuck (.outOfBounds index) state.host
  | some .slotAddress, _ => .stuck (.wrongWidth address) state.host
  | some (.cellAddress _), _ => .stuck (.wrongWidth address) state.host
  | _, _ => .stuck (.undefined address) state.host

/-- Writes an integer to an address. -/
def storeTo (state : State σ) (rest : List Instr) (width : Width) (value : Nat) (address : Name) :
    Step σ :=
  match state.values[address]?, width with
  | some .slotAddress, .word =>
    match state with
    | ⟨_, values, _, tape, host⟩ => .running ⟨rest, values, value, tape, host⟩
  | some (.cellAddress index), .byte =>
    if index < state.tape.size then
      match state with
      | ⟨_, values, slot, tape, host⟩ =>
        .running ⟨rest, values, slot, tape.setIfInBounds index (UInt8.ofNat value), host⟩
    else .stuck (.outOfBounds index) state.host
  | some .slotAddress, _ => .stuck (.wrongWidth address) state.host
  | some (.cellAddress _), _ => .stuck (.wrongWidth address) state.host
  | _, _ => .stuck (.undefined address) state.host

/-- Computes the address of a cell. The data pointer has to be the index of a cell of the tape. -/
def addressOf (state : State σ) (rest : List Instr) (result base index : Name) : Step σ :=
  match state.values[base]?, state.number? index with
  | some (.cellAddress start), some offset =>
    if start + offset < state.tape.size then
      state.define rest result (.cellAddress (start + offset))
    else .stuck (.outOfBounds (start + offset)) state.host
  | some (.cellAddress _), none => .stuck (.undefined index) state.host
  | _, _ => .stuck (.undefined base) state.host

/-- Goes on in a block. -/
def enter (function : Function) (state : State σ) (block : Nat) : Step σ :=
  match function.blocks[block]? with
  | some block =>
    match state with
    | ⟨_, values, slot, tape, host⟩ => .running ⟨block.code, values, slot, tape, host⟩
  | none => .stuck (.noBlock block) state.host

/-- Executes an instruction, after which `rest` is left of the block. -/
def execute [Host σ] (function : Function) (state : State σ) (instr : Instr) (rest : List Instr) :
    Step σ :=
  match instr with
  | .reserve result => state.define rest result .slotAddress
  | .load result width address => state.loadFrom rest result width address
  | .store width (.literal value) address => state.storeTo rest width (width.residue value) address
  | .store width (.named name) address =>
    match state.number? name with
    | some value => state.storeTo rest width value address
    | none => .stuck (.undefined name) state.host
  | .element result base index => state.addressOf rest result base index
  | .arithmetic result operation width left right =>
    match state.number? left with
    | some value =>
      state.define rest result (.number (operation.apply width value (width.residue right)))
    | none => .stuck (.undefined left) state.host
  | .compare result comparison width left right =>
    match state.number? left with
    | some value =>
      state.define rest result (.ofBool (comparison.holds width value (width.residue right)))
    | none => .stuck (.undefined left) state.host
  | .truncate result name =>
    match state.number? name with
    | some value => state.define rest result (.number (value % Width.byte.modulus))
    | none => .stuck (.undefined name) state.host
  | .put result name =>
    match state.number? name with
    | some value =>
      match state with
      | ⟨_, values, slot, tape, host⟩ =>
        let (reply, host) := Host.putByte (UInt8.ofNat value) host
        .running ⟨rest, values.insert result (.number (Width.reply.residue reply)), slot, tape,
          host⟩
    | none => .stuck (.undefined name) state.host
  | .get result =>
    match state with
    | ⟨_, values, slot, tape, host⟩ =>
      let (reply, host) := Host.getByte host
      .running ⟨rest, values.insert result (.number (Width.reply.residue reply)), slot, tape, host⟩
  | .branch condition ifTrue ifFalse =>
    match state.number? condition with
    | some value => state.enter function (if value = 0 then ifFalse else ifTrue)
    | none => .stuck (.undefined condition) state.host
  | .ret value => .returned value state.tape state.host

/-- Executes the next instruction. -/
def step [Host σ] (function : Function) (state : State σ) : Step σ :=
  match state.code with
  | [] => .stuck .fellThrough state.host
  | instr :: rest => state.execute function instr rest

/-- At most `limit` instructions; the code is still running if the limit came first. -/
def run [Host σ] (function : Function) (limit : Nat) (state : State σ) : Step σ :=
  match limit with
  | 0 => .running state
  | limit + 1 =>
    match state.step function with
    | .running state => state.run function limit
    | ended => ended

end State

/-- The state in which a function starts on a tape: at its first block, with its parameter standing
for the address of the first cell. -/
def Function.start {σ : Type} (function : Function) (tape : Array UInt8) (host : σ) : State σ :=
  { code := match function.blocks[0]? with
      | some block => block.code
      | none => []
    values := ({} : Std.HashMap Name Value).insert function.parameter (.cellAddress 0)
    slot := 0
    tape
    host }

end Brainfuck.Ir
