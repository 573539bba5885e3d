import Brainfuck.Stream

/-! # Scripted streams

Streams held in memory that count their calls and can be told to fail at given calls. Calls are
numbered from zero, and a call that fails is counted like any other.

Main definitions: `Outage`, `ScriptedInput`, `ScriptedOutput`. -/

namespace Brainfuck

/-- The calls that fail: those from `start` on, `count` of them if a count is given. -/
structure Outage where
  /-- The number of the first call that fails. -/
  start : Int
  /-- How many calls fail; without a count all later ones do. -/
  count : Option Int := none
deriving DecidableEq, Repr

namespace Outage

/-- Whether the call with a given number fails. -/
def covers (outage : Outage) (call : Nat) : Bool :=
  outage.start ≤ call &&
    match outage.count with
    | none => true
    | some count => decide ((call : Int) < outage.start + count)

end Outage

/-! ## Input -/

/-- An input that holds its bytes and gives them out in blocks. -/
structure ScriptedInput where
  /-- The bytes not yet given out. -/
  remaining : List UInt8 := []
  /-- The number of bytes of a block. -/
  chunk : Nat := 1
  /-- The calls that fail, and how: with a failure, or without one by giving no bytes. -/
  outage : Option (Outage × Option Failure) := none
  /-- The number of reads made. -/
  reads : Nat := 0
  /-- The number of bytes given out. -/
  consumed : Nat := 0

namespace ScriptedInput

/-- How the next read fails, if it does. -/
def nextFailure? (input : ScriptedInput) : Option (Option Failure) :=
  match input.outage with
  | none => none
  | some (outage, failure) => if outage.covers input.reads then some failure else none

/-- Gives out the next block, or fails as the outage says and gives out nothing. -/
def read (input : ScriptedInput) : ReadReply × ScriptedInput :=
  match input.nextFailure? with
  | some (some failure) => (.failed failure, { input with reads := input.reads + 1 })
  | some none => (.data [], { input with reads := input.reads + 1 })
  | none =>
    let block := input.remaining.take input.chunk
    (.data block,
      { input with
        remaining := input.remaining.drop input.chunk
        reads := input.reads + 1
        consumed := input.consumed + block.length })

instance : InputStream ScriptedInput where
  read := read

end ScriptedInput

/-! ## Output -/

/-- The call of an output that fails. -/
inductive OutputCall where
  /-- Writes fail, and store nothing. -/
  | write
  /-- Flushes fail, after the byte has been stored. -/
  | flush
deriving DecidableEq, Repr

/-- An output that stores the bytes written to it. -/
structure ScriptedOutput where
  /-- The bytes stored. -/
  stored : Array UInt8 := #[]
  /-- The calls that fail, and how: with a failure, or without one by refusing the byte. -/
  outage : Option (Outage × Option Failure) := none
  /-- Which calls the outage is about. -/
  failing : OutputCall := .write
  /-- The number of writes made. -/
  writes : Nat := 0
  /-- The number of flushes made. -/
  flushes : Nat := 0

namespace ScriptedOutput

/-- How the next call of a kind fails, if it does. -/
def nextFailure? (output : ScriptedOutput) (call : OutputCall) (number : Nat) :
    Option (Option Failure) :=
  match output.outage with
  | none => none
  | some (outage, failure) =>
    if output.failing = call ∧ outage.covers number then some failure else none

/-- Stores a byte, or fails as the outage says and stores nothing. -/
def write (byte : UInt8) (output : ScriptedOutput) : WriteReply × ScriptedOutput :=
  match output.nextFailure? .write output.writes with
  | some (some failure) => (.failed failure, { output with writes := output.writes + 1 })
  | some none => (.refused, { output with writes := output.writes + 1 })
  | none =>
    (.accepted,
      { output with stored := output.stored.push byte, writes := output.writes + 1 })

/-- Sends the stored bytes on, or fails as the outage says. -/
def flush (output : ScriptedOutput) : FlushReply × ScriptedOutput :=
  match output.nextFailure? .flush output.flushes with
  | some (some failure) => (.failed failure, { output with flushes := output.flushes + 1 })
  | _ => (.done, { output with flushes := output.flushes + 1 })

instance : OutputStream ScriptedOutput where
  write := write
  flush := flush

end ScriptedOutput

/-- A console without input, whose output takes every byte. -/
def Console.noInput : Console ScriptedInput ScriptedOutput := ⟨{}, {}, false, ""⟩

end Brainfuck
