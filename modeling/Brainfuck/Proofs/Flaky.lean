import Brainfuck.Stream

/-! # Streams with hitches

Streams held in memory that follow a script of hitches: an entry for each of the next calls says
whether and how the call goes wrong, and after the last entry no call does. A read or write that
goes wrong leaves the bytes as they were. A flush that goes wrong does so after its byte has been
stored; so if the byte is written again, it is stored once more.

Main definitions: `FlakyInput`, `FlakyOutput`, `echoed`. Main statements: what reading and writing a
byte can come to (`FlakyInput.readByte_cases`, `FlakyOutput.writeByte_cases`). -/

namespace Brainfuck

/-! ## Scripts -/

section Scripts

variable {α : Type}

/-- The hitch at the next call of a script. -/
def hitch? (script : List (Option α)) : Option α := script.head?.join

/-- The number of hitches still to come. -/
def pending (script : List (Option α)) : Nat := script.countP Option.isSome

theorem pending_append (script script' : List (Option α)) :
    pending (script ++ script') = pending script + pending script' :=
  List.countP_append

theorem pending_tail_le (script : List (Option α)) : pending script.tail ≤ pending script :=
  (List.tail_sublist script).countP_le

/-- A hitch is used up by the call that it is about. -/
theorem pending_tail_of_some {script : List (Option α)} {hitch : α}
    (h : hitch? script = some hitch) : pending script.tail + 1 = pending script := by
  cases script with
  | nil => cases h
  | cons entry rest => simp_all [hitch?, pending]

end Scripts

/-! ## Input -/

/-- How a read goes wrong. -/
inductive ReadHitch where
  /-- It fails. -/
  | failed (failure : Failure)
  /-- It gives no bytes. -/
  | nothing
deriving DecidableEq, Repr

/-- An input that gives out one byte at a time. -/
structure FlakyInput where
  /-- The bytes not yet given out. -/
  remaining : List UInt8 := []
  /-- What goes wrong at the next reads. -/
  hitches : List (Option ReadHitch) := []
deriving DecidableEq, Repr

namespace FlakyInput

/-- Gives out the next byte, or goes wrong as the script says and gives out nothing. -/
def read (input : FlakyInput) : ReadReply × FlakyInput :=
  match hitch? input.hitches, input.remaining with
  | some (.failed failure), _ => (.failed failure, { input with hitches := input.hitches.tail })
  | some .nothing, _ => (.data [], { input with hitches := input.hitches.tail })
  | none, [] => (.data [], { input with hitches := input.hitches.tail })
  | none, byte :: rest => (.data [byte], ⟨rest, input.hitches.tail⟩)

instance : InputStream FlakyInput where
  read := read

/-- Reading gives the next byte, or fails and leaves it there; a hitch or the end of the bytes is
the reason for that. -/
theorem readByte_cases (input : FlakyInput) :
    (∃ byte rest, input.remaining = byte :: rest ∧
      InputStream.readByte input = (.ok byte, ⟨rest, input.hitches.tail⟩)) ∨
    ∃ failure, InputStream.readByte input =
        (.error failure, { input with hitches := input.hitches.tail }) ∧
      (input.remaining = [] ∨ ∃ hitch, hitch? input.hitches = some hitch) := by
  have hread : InputStream.read input = input.read := rfl
  unfold InputStream.readByte
  rw [hread]
  cases hhitch : hitch? input.hitches with
  | some hitch =>
    cases hitch with
    | failed failure => exact .inr ⟨failure, by simp only [read, hhitch], .inr ⟨_, rfl⟩⟩
    | nothing => exact .inr ⟨.exhausted, by simp only [read, hhitch], .inr ⟨_, rfl⟩⟩
  | none =>
    cases hremaining : input.remaining with
    | nil => exact .inr ⟨.exhausted, by simp only [read, hhitch, hremaining], .inl rfl⟩
    | cons byte rest =>
      exact .inl ⟨byte, rest, rfl, by simp only [read, hhitch, hremaining]⟩

end FlakyInput

/-! ## Output -/

/-- How a write goes wrong. -/
inductive WriteHitch where
  /-- It fails. -/
  | failed (failure : Failure)
  /-- The byte is refused. -/
  | refused
deriving DecidableEq, Repr

/-- An output that stores the bytes written to it. -/
structure FlakyOutput where
  /-- The bytes stored. -/
  stored : List UInt8 := []
  /-- What goes wrong at the next writes. -/
  writes : List (Option WriteHitch) := []
  /-- How the next flushes fail. -/
  flushes : List (Option Failure) := []
deriving DecidableEq, Repr

namespace FlakyOutput

/-- Stores a byte, or goes wrong as the script says and stores nothing. -/
def write (byte : UInt8) (output : FlakyOutput) : WriteReply × FlakyOutput :=
  match hitch? output.writes with
  | some (.failed failure) => (.failed failure, { output with writes := output.writes.tail })
  | some .refused => (.refused, { output with writes := output.writes.tail })
  | none =>
    (.accepted, { output with stored := output.stored ++ [byte], writes := output.writes.tail })

/-- Fails as the script says; the stored bytes stay. -/
def flush (output : FlakyOutput) : FlushReply × FlakyOutput :=
  match hitch? output.flushes with
  | some failure => (.failed failure, { output with flushes := output.flushes.tail })
  | none => (.done, { output with flushes := output.flushes.tail })

instance : OutputStream FlakyOutput where
  write := write
  flush := flush

/-- Writing a byte stores it, or stores it and fails at the flush, or fails at the write and stores
nothing. -/
theorem writeByte_cases {value : Int} (h : 0 ≤ value ∧ value < 256) (output : FlakyOutput) :
    (hitch? output.writes = none ∧ hitch? output.flushes = none ∧
      OutputStream.writeByte value output = (.ok (),
        ⟨output.stored ++ [UInt8.ofNat value.toNat], output.writes.tail, output.flushes.tail⟩)) ∨
    (hitch? output.writes = none ∧ ∃ failure, hitch? output.flushes = some failure ∧
      OutputStream.writeByte value output = (.error failure,
        ⟨output.stored ++ [UInt8.ofNat value.toNat], output.writes.tail, output.flushes.tail⟩)) ∨
    ∃ hitch failure, hitch? output.writes = some hitch ∧
      OutputStream.writeByte value output =
        (.error failure, { output with writes := output.writes.tail }) := by
  have hwrite (byte : UInt8) : OutputStream.write byte output = output.write byte := rfl
  have hflush (output : FlakyOutput) : OutputStream.flush output = output.flush := rfl
  unfold OutputStream.writeByte
  rw [if_pos h, hwrite]
  cases hwrites : hitch? output.writes with
  | some hitch =>
    refine .inr (.inr ?_)
    cases hitch with
    | failed failure => exact ⟨_, failure, rfl, by simp only [write, hwrites]⟩
    | refused => exact ⟨_, .refused, rfl, by simp only [write, hwrites]⟩
  | none =>
    cases hflushes : hitch? output.flushes with
    | some failure =>
      exact .inr (.inl ⟨rfl, failure, rfl, by simp only [write, hwrites, hflush, flush, hflushes]⟩)
    | none => exact .inl ⟨rfl, rfl, by simp only [write, hwrites, hflush, flush, hflushes]⟩

end FlakyOutput

/-! ## Echoes -/

/-- What is stored in the end when some bytes are written, each of them again after each flush that
failed: the byte stands once more for each failure. -/
def echoed : List (Option Failure) → List UInt8 → List UInt8
  | [], bytes => bytes
  | _ :: _, [] => []
  | none :: script, byte :: bytes => byte :: echoed script bytes
  | some _ :: script, byte :: bytes => byte :: echoed script (byte :: bytes)

section Echoes

variable {script : List (Option Failure)} {byte : UInt8} {bytes : List UInt8}

@[simp] theorem echoed_nil (script : List (Option Failure)) : echoed script [] = [] := by
  cases script <;> rfl

/-- A byte whose flush succeeds is followed by the next one. -/
theorem echoed_cons_of_none (h : hitch? script = none) :
    echoed script (byte :: bytes) = byte :: echoed script.tail bytes := by
  cases script with
  | nil => rfl
  | cons entry rest =>
    cases entry with
    | none => rfl
    | some failure => cases h

/-- A byte whose flush fails comes again. -/
theorem echoed_cons_of_some {failure : Failure} (h : hitch? script = some failure) :
    echoed script (byte :: bytes) = byte :: echoed script.tail (byte :: bytes) := by
  cases script with
  | nil => cases h
  | cons entry rest =>
    cases entry with
    | none => cases h
    | some failure => rfl

/-- Where no flush fails, every byte is stored once. -/
theorem echoed_of_pending_eq_zero (h : pending script = 0) : echoed script bytes = bytes := by
  induction script generalizing bytes with
  | nil => rfl
  | cons entry rest ih =>
    cases entry with
    | none =>
      cases bytes with
      | nil => rfl
      | cons byte bytes => exact congrArg (byte :: ·) (ih (by simpa [pending] using h))
    | some failure => simp [pending] at h

end Echoes

end Brainfuck
