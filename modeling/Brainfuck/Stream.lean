import Brainfuck.Instruction

/-! # Byte streams

A running program touches the world through two byte streams, each a state with replies: an input
gives bytes, no bytes, or a failure; an output accepts a byte, refuses it, or fails, and is flushed
after every byte it accepted. Nothing is assumed of how replies follow from the state, so a
statement about all streams covers every device, also one that fails at any call.

Main definitions: `Failure`, `InputStream`, `OutputStream`, `InputStream.readByte`,
`OutputStream.writeByte`, `Console`. -/

namespace Brainfuck

/-! ## Failures -/

/-- The conditions that the operating system tells apart when it refuses a call. -/
inductive SystemCondition where
  /-- None of those below. -/
  | general
  /-- The call would have to wait. -/
  | wouldBlock
  /-- The reader at the other end of a pipe has gone. -/
  | brokenPipe
  /-- There is no child process. -/
  | noChild
  /-- The connection was aborted. -/
  | connectionAborted
  /-- The connection was refused. -/
  | connectionRefused
  /-- The connection was reset. -/
  | connectionReset
  /-- The file exists already. -/
  | fileExists
  /-- The file does not exist. -/
  | fileNotFound
  /-- The call was interrupted. -/
  | interrupted
  /-- A directory is there. -/
  | isADirectory
  /-- No directory is there. -/
  | notADirectory
  /-- The call is not permitted. -/
  | notPermitted
  /-- There is no such process. -/
  | noProcess
  /-- The time is up. -/
  | timedOut
deriving DecidableEq, Repr

/-- The condition that an error number stands for. -/
def SystemCondition.ofNumber (number : Int) : SystemCondition :=
  if number = 1 ∨ number = 13 then notPermitted
  else if number = 2 then fileNotFound
  else if number = 3 then noProcess
  else if number = 4 then interrupted
  else if number = 10 then noChild
  else if number = 11 ∨ number = 114 ∨ number = 115 then wouldBlock
  else if number = 17 then fileExists
  else if number = 20 then notADirectory
  else if number = 21 then isADirectory
  else if number = 32 ∨ number = 108 then brokenPipe
  else if number = 103 then connectionAborted
  else if number = 104 then connectionReset
  else if number = 110 then timedOut
  else if number = 111 then connectionRefused
  else general

/-- The kinds of failure that a stream can report. A failure of several kinds counts as the first of
system, invalid value, fault and end of input. -/
inductive FailureKind where
  /-- The operating system refused the call. -/
  | system (condition : SystemCondition)
  /-- There is no more input. -/
  | endOfInput
  /-- The call was made with, or on, something that does not allow it. -/
  | invalidValue
  /-- An instruction of another program was at fault: the stream is itself run by a machine. Such a
  failure may tell the end of input too. -/
  | fault (name file : String) (instruction : Instruction) (endsInput : Bool := false)
  /-- Any other failure, under the name it goes by. -/
  | other (name : String)
deriving DecidableEq, Repr

namespace FailureKind

/-- Whether a failure is one of the operating system's. -/
def isSystem : FailureKind → Bool
  | system _ => true
  | _ => false

/-- Whether a failure is a fault of an instruction, of whatever program. -/
def isFault : FailureKind → Bool
  | fault _ _ _ _ => true
  | _ => false

/-- Whether a failure tells that there is no more input. -/
def isEndOfInput : FailureKind → Bool
  | endOfInput => true
  | fault _ _ _ endsInput => endsInput
  | _ => false

/-- Whether a failed read is an input error of the program rather than a defect of the stream. -/
def isInputError : FailureKind → Bool
  | invalidValue => true
  | kind => kind.isSystem || kind.isEndOfInput

/-- Whether a failed write is an output error of the program; the end of input is not one. -/
def isOutputError : FailureKind → Bool
  | invalidValue => true
  | kind => kind.isSystem

end FailureKind

/-- A failure of a stream: its kind and its text. -/
structure Failure where
  /-- What kind of failure it is. -/
  kind : FailureKind
  /-- The text that describes it. -/
  message : String
deriving DecidableEq, Repr

namespace Failure

/-- A failure that also carries an error number of the operating system. A system failure of no
stated condition has the one that the number stands for. -/
def numbered (kind : FailureKind) (number : Int) (message : String) : Failure :=
  let kind := if kind = .system .general then .system (.ofNumber number) else kind
  ⟨kind, "[Errno " ++ toString number ++ "] " ++ message⟩

/-- The failure of reading when no byte is given. -/
def exhausted : Failure := ⟨.endOfInput, "input stream is exhausted"⟩

/-- The failure of writing when the byte is refused. -/
def refused : Failure := ⟨.system .general, "output stream accepted no bytes"⟩

/-- The failure of writing a value that is not a byte. -/
def notAByte : Failure := ⟨.invalidValue, "bytes must be in range(0, 256)"⟩

/-- The failure of writing out a number that has too many digits. -/
def overlong : Failure := ⟨.invalidValue, Numeral.overlongMessage⟩

end Failure

/-! ## Streams -/

/-- The reply to a read: bytes, of which there may be none, or a failure. -/
inductive ReadReply where
  /-- The bytes read; the first of them is the one asked for. -/
  | data (bytes : List UInt8)
  /-- The read failed. -/
  | failed (failure : Failure)
deriving DecidableEq, Repr

/-- The reply to a write. -/
inductive WriteReply where
  /-- The byte was taken. -/
  | accepted
  /-- The byte was not taken, without a failure. -/
  | refused
  /-- The write failed. -/
  | failed (failure : Failure)
deriving DecidableEq, Repr

/-- The reply to a flush. -/
inductive FlushReply where
  /-- All bytes written so far have gone out. -/
  | done
  /-- The flush failed. -/
  | failed (failure : Failure)
deriving DecidableEq, Repr

/-- States that answer a request for one byte of input. -/
class InputStream (σ : Type) where
  /-- Asks for one byte. -/
  read : σ → ReadReply × σ

/-- States that take bytes of output. -/
class OutputStream (σ : Type) where
  /-- Offers one byte. -/
  write : UInt8 → σ → WriteReply × σ
  /-- Asks for the bytes written so far to be sent on. -/
  flush : σ → FlushReply × σ

/-- Reads one byte: the first of those given. Receiving none counts as the end of input. -/
@[specialize] def InputStream.readByte {σ : Type} [InputStream σ] (stream : σ) :
    Except Failure UInt8 × σ :=
  match read stream with
  | (.data (byte :: _), stream) => (.ok byte, stream)
  | (.data [], stream) => (.error .exhausted, stream)
  | (.failed failure, stream) => (.error failure, stream)

/-- Writes one byte and, if it was accepted, flushes. A value that is not a byte is never offered to
the stream. -/
@[specialize] def OutputStream.writeByte {σ : Type} [OutputStream σ] (value : Int) (stream : σ) :
    Except Failure Unit × σ :=
  if 0 ≤ value ∧ value < 256 then
    match write (UInt8.ofNat value.toNat) stream with
    | (.accepted, stream) =>
      match flush stream with
      | (.done, stream) => (.ok (), stream)
      | (.failed failure, stream) => (.error failure, stream)
    | (.refused, stream) => (.error .refused, stream)
    | (.failed failure, stream) => (.error failure, stream)
  else (.error .notAByte, stream)

/-! ## The console -/

/-- What a running program is attached to: its two streams, whether steps are traced, and the
diagnostic text written so far. -/
structure Console (ι ο : Type) where
  /-- Where input comes from. -/
  input : ι
  /-- Where output goes. -/
  output : ο
  /-- Whether every step is traced. -/
  tracing : Bool := false
  /-- The diagnostic text written so far. -/
  log : String := ""

namespace Console

variable {ι ο : Type}

/-- Appends to the diagnostic text. -/
def print (console : Console ι ο) (text : String) : Console ι ο :=
  { console with log := console.log ++ text }

/-- Appends to the diagnostic text if steps are traced. -/
def note (console : Console ι ο) (text : String) : Console ι ο :=
  if console.tracing then console.print text else console

@[simp] theorem input_note (console : Console ι ο) (text : String) :
    (console.note text).input = console.input := by
  unfold note
  split <;> rfl

@[simp] theorem output_note (console : Console ι ο) (text : String) :
    (console.note text).output = console.output := by
  unfold note
  split <;> rfl

/-- Reads one byte from the input. -/
@[specialize] def readByte [InputStream ι] (console : Console ι ο) :
    Except Failure UInt8 × Console ι ο :=
  match console with
  | ⟨input, output, tracing, log⟩ =>
    match InputStream.readByte input with
    | (reply, input) => (reply, ⟨input, output, tracing, log⟩)

/-- Writes one byte to the output. -/
@[specialize] def writeByte [OutputStream ο] (console : Console ι ο) (value : Int) :
    Except Failure Unit × Console ι ο :=
  match console with
  | ⟨input, output, tracing, log⟩ =>
    match OutputStream.writeByte value output with
    | (reply, output) => (reply, ⟨input, output, tracing, log⟩)

end Console

end Brainfuck
