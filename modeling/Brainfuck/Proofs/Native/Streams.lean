import Brainfuck.Native.Execute
import Brainfuck.Proofs.Calls
import Brainfuck.Proofs.Ir.Run

/-! # Streams of native runs

A native run makes its calls on the streams through the calls of the code. What a call of the code
does to the streams, what it replies, and which calls a whole native run makes on the streams.

Main definitions: `CallLog.streamCalls`, `Native.start`, `Native.calls`. Main statement:
`Native.streams_run`. -/

namespace Brainfuck.Native

open Ir

variable {ι ο : Type}

/-! ## The console of a native run -/

/-- The console when the code starts: the code has been printed if steps are traced. -/
def announced (program : LinkedProgram) (size : Nat) (console : Console ι ο) : Console ι ο :=
  (console.note (codeText (compile program size))).note assemblyHeading

@[simp] theorem streams_announced (program : LinkedProgram) (size : Nat) (console : Console ι ο) :
    (announced program size console).streams = console.streams := by
  simp [announced, Console.streams]

theorem console_conclude (program : LinkedProgram) (step : Step (CallLog ι ο)) :
    (conclude program step).console = step.host.console := by
  cases step with
  | running state => rfl
  | stuck reason log => rfl
  | returned word tape log =>
    rw [conclude]
    split <;> rfl

/-- The state in which the code of a program starts on a tape of `size` cells. -/
def start (program : LinkedProgram) (size : Nat) (console : Console ι ο) : State (CallLog ι ο) :=
  (compile program size).function.start (Array.replicate size 0)
    ⟨announced program size console, []⟩

/-! ## Calls of the code -/

theorem residue_reply (byte : UInt8) : Width.reply.residue byte.toNat = byte.toNat := by
  have hbyte := byte.toNat_lt
  show ((byte.toNat : Int) % 4294967296).toNat = _
  omega

/-- The low byte of a reply that is a byte. -/
theorem ofNat_residue_reply (byte : UInt8) :
    UInt8.ofNat (Width.reply.residue byte.toNat % Width.byte.modulus) = byte := by
  rw [residue_reply]
  apply UInt8.toNat_inj.mp
  have hbyte := byte.toNat_lt
  show byte.toNat % 256 % 256 = _
  omega

/-- A reply that is a byte is not negative. -/
theorem signed_residue_reply_nonneg (byte : UInt8) :
    0 ≤ Width.reply.signed (Width.reply.residue byte.toNat) := by
  rw [residue_reply, Width.signed]
  have hbyte := byte.toNat_lt
  have hsmall : 2 * byte.toNat < Width.reply.modulus := by
    show 2 * byte.toNat < 4294967296
    omega
  rw [if_pos hsmall]
  exact Int.natCast_nonneg _

variable [OutputStream ο]

/-- The calls on the streams that a call of the code makes. -/
def CallLog.streamCalls (call : HostCall) (log : CallLog ι ο) : List StreamCall :=
  match call with
  | .put byte => writeCalls byte.toNat log.console.output
  | .get => [.read]

/-- The calls on the streams that calls of the code make. -/
def streamCalls (made : List (HostCall × CallLog ι ο)) : List StreamCall :=
  made.flatMap fun (call, log) => log.streamCalls call

theorem streamCalls_append (first second : List (HostCall × CallLog ι ο)) :
    streamCalls (first ++ second) = streamCalls first ++ streamCalls second :=
  List.flatMap_append

theorem streamCalls_prefix {first second : List (HostCall × CallLog ι ο)} (h : first <+: second) :
    streamCalls first <+: streamCalls second := by
  obtain ⟨rest, rfl⟩ := h
  rw [streamCalls_append]
  exact List.prefix_append _ _

variable [InputStream ι]

namespace CallLog

/-- Putting a byte writes it: the reply is zero, or one and the failure is kept. -/
theorem putByte_cases (byte : UInt8) (log : CallLog ι ο) :
    (∃ after, OutputStream.writeByte byte.toNat log.console.output = (.ok (), after) ∧
      Host.putByte byte log = (0, ⟨{ log.console with output := after }, log.failures⟩)) ∨
    ∃ failure after, OutputStream.writeByte byte.toNat log.console.output =
        (.error failure, after) ∧
      Host.putByte byte log =
        (1, ⟨{ log.console with output := after }, failure :: log.failures⟩) := by
  -- taken apart, so that the console after the call is the one the definition builds
  obtain ⟨⟨input, output, tracing, text⟩, failures⟩ := log
  cases hwrite : OutputStream.writeByte (byte.toNat : Int) output with
  | mk result after =>
    cases result with
    | ok =>
      refine .inl ⟨after, rfl, ?_⟩
      show putByte byte _ = _
      unfold putByte Console.writeByte
      dsimp only
      rw [hwrite]
    | error failure =>
      refine .inr ⟨failure, after, rfl, ?_⟩
      show putByte byte _ = _
      unfold putByte Console.writeByte
      dsimp only
      rw [hwrite]

/-- Getting a byte reads it: the reply is the byte, or minus one and the failure is kept. -/
theorem getByte_cases (log : CallLog ι ο) :
    (∃ byte after, InputStream.readByte log.console.input = (.ok byte, after) ∧
      Host.getByte log =
        ((byte.toNat : Int), ⟨{ log.console with input := after }, log.failures⟩)) ∨
    ∃ failure after, InputStream.readByte log.console.input = (.error failure, after) ∧
      Host.getByte log = (-1, ⟨{ log.console with input := after }, failure :: log.failures⟩) := by
  cases hread : InputStream.readByte log.console.input with
  | mk result after =>
    cases result with
    | ok byte =>
      refine .inl ⟨byte, after, rfl, ?_⟩
      show getByte log = _
      simp only [getByte, Console.readByte, hread]
    | error failure =>
      refine .inr ⟨failure, after, rfl, ?_⟩
      show getByte log = _
      simp only [getByte, Console.readByte, hread]

/-- The calls on the streams are all that a call of the code does to them. -/
theorem streams_after (call : HostCall) (log : CallLog ι ο) :
    (call.after log).console.streams = replay (log.streamCalls call) log.console.streams := by
  cases call with
  | put byte =>
    rw [streamCalls, Console.streams, Console.streams, replay_writeCalls]
    rcases log.putByte_cases byte with ⟨after, hwrite, hput⟩ | ⟨failure, after, hwrite, hput⟩
    · rw [hwrite, HostCall.after, hput]
    · rw [hwrite, HostCall.after, hput]
  | get =>
    rw [streamCalls, Console.streams, Console.streams, replay_read]
    rcases log.getByte_cases with ⟨byte, after, hread, hget⟩ | ⟨failure, after, hread, hget⟩
    · rw [hread, HostCall.after, hget]
    · rw [hread, HostCall.after, hget]

/-- A call of the code adds nothing to the diagnostic text. -/
theorem log_after (call : HostCall) (log : CallLog ι ο) :
    (call.after log).console.log = log.console.log := by
  cases call with
  | put byte =>
    rcases log.putByte_cases byte with ⟨after, -, hput⟩ | ⟨failure, after, -, hput⟩
    · rw [HostCall.after, hput]
    · rw [HostCall.after, hput]
  | get =>
    rcases log.getByte_cases with ⟨byte, after, -, hget⟩ | ⟨failure, after, -, hget⟩
    · rw [HostCall.after, hget]
    · rw [HostCall.after, hget]

end CallLog

/-- The calls on the streams that the next instruction of the code makes. -/
def nextCalls (state : State (CallLog ι ο)) : List StreamCall :=
  streamCalls (state.call?.map fun call => (call, state.host)).toList

omit [InputStream ι] in
theorem nextCalls_of_call {state : State (CallLog ι ο)} {call : HostCall}
    (h : state.call? = some call) : nextCalls state = state.host.streamCalls call := by
  rw [nextCalls, h]
  exact List.append_nil _

/-- The calls of an instruction of the code are all that it does to the streams. -/
theorem streams_step (function : Function) (state : State (CallLog ι ο)) :
    (state.step function).host.console.streams =
      replay (nextCalls state) state.host.console.streams := by
  rw [State.host_step]
  cases hcall : state.call? with
  | none => simp [nextCalls, hcall, streamCalls, replay]
  | some call =>
    rw [nextCalls_of_call hcall]
    exact CallLog.streams_after call state.host

/-- The calls of a run of the code are all that it does to the streams. -/
theorem streams_run_state (function : Function) (limit : Nat) (state : State (CallLog ι ο)) :
    (state.run function limit).host.console.streams =
      replay (streamCalls (state.calls function limit)) state.host.console.streams := by
  induction limit generalizing state with
  | zero => rfl
  | succ limit ih =>
    have hstep := streams_step function state
    rw [nextCalls] at hstep
    -- the step makes its call, and the rest of the run starts from the streams it leaves
    rw [State.run, State.calls, streamCalls_append, replay_append, ← hstep]
    cases state.step function with
    | running next => exact ih next
    | returned word tape log => rfl
    | stuck reason log => rfl

/-- A run of the code adds nothing to the diagnostic text. -/
theorem log_run_state (function : Function) (limit : Nat) (state : State (CallLog ι ο)) :
    (state.run function limit).host.console.log = state.host.console.log := by
  induction limit generalizing state with
  | zero => rfl
  | succ limit ih =>
    have hstep : (state.step function).host.console.log = state.host.console.log := by
      rw [State.host_step]
      cases state.call? with
      | none => rfl
      | some call => exact CallLog.log_after call state.host
    rw [State.run]
    cases hnext : state.step function with
    | running next =>
      rw [hnext] at hstep
      exact (ih next).trans hstep
    | returned word tape log => rwa [hnext] at hstep
    | stuck reason log => rwa [hnext] at hstep

/-! ## Native runs -/

/-- A native run is a run of the code from there. -/
theorem run_eq {size : Int} {count : Nat} (h : tapeSize size = .ok count) (limit : Nat)
    (program : LinkedProgram) (console : Console ι ο) :
    run limit program size console =
      conclude program
        ((start program count console).run (compile program count).function limit) := by
  cases hrequested : requestedSize size with
  | error error => simp [tapeSize, hrequested, bind, Except.bind] at h
  | ok requested =>
    have hallocated : checkAllocation requested = .ok count := by
      simpa [tapeSize, hrequested, bind, Except.bind] using h
    -- the size asked for is the size allocated, so the code was compiled for it
    have hcount : requested = count := by
      unfold checkAllocation at hallocated
      grind
    subst hcount
    simp only [run, hrequested, hallocated]
    rfl

/-- The calls that at most `limit` instructions of a native run make on the streams. -/
def calls (limit : Nat) (program : LinkedProgram) (size : Int) (console : Console ι ο) :
    List StreamCall :=
  match tapeSize size with
  | .error _ => []
  | .ok count =>
    streamCalls ((start program count console).calls (compile program count).function limit)

theorem calls_eq {size : Int} {count : Nat} (h : tapeSize size = .ok count) (limit : Nat)
    (program : LinkedProgram) (console : Console ι ο) :
    calls limit program size console =
      streamCalls ((start program count console).calls (compile program count).function limit) := by
  rw [calls, h]

/-- The word that the code returns within a limit of instructions. -/
def word? (limit : Nat) (program : LinkedProgram) (size : Int) (console : Console ι ο) :
    Option Int :=
  match tapeSize size with
  | .error _ => none
  | .ok count =>
    match (start program count console).run (compile program count).function limit with
    | .returned word _ _ => some word
    | _ => none

/-- The calls of a native run are all that it does to the streams. -/
theorem streams_run {size : Int} {count : Nat} (h : tapeSize size = .ok count) (limit : Nat)
    (program : LinkedProgram) (console : Console ι ο) :
    (run limit program size console).console.streams =
      replay (calls limit program size console) console.streams := by
  rw [run_eq h, console_conclude, streams_run_state, calls_eq h,
    ← streams_announced program count console]
  rfl

/-- Where steps are not traced, a native run adds nothing to the diagnostic text. -/
theorem log_run {size : Int} {count : Nat} (h : tapeSize size = .ok count) (limit : Nat)
    (program : LinkedProgram) {console : Console ι ο} (htracing : console.tracing = false) :
    (run limit program size console).console.log = console.log := by
  have hannounced : announced program count console = console := by
    simp only [announced, Console.note, htracing, Bool.false_eq_true, if_false]
  rw [run_eq h, console_conclude, log_run_state]
  exact congrArg Console.log hannounced

end Brainfuck.Native
