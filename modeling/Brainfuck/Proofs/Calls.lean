import Brainfuck.Proofs.Run
import Brainfuck.Proofs.Step

/-! # Calls on the streams

The calls that a run makes on its two streams, in order and with their arguments. Replaying the
calls of a run on the streams it started with gives the streams it ends with, so nothing else is
done to them.

Main definitions: `StreamCall`, `replay`, `Machine.calls`. Main statement:
`Machine.streams_run`. -/

namespace Brainfuck

variable {ι ο : Type}

/-- A call on one of the two streams. -/
inductive StreamCall where
  /-- The input is asked for a byte. -/
  | read
  /-- The output is offered a byte. -/
  | write (byte : UInt8)
  /-- The output is flushed. -/
  | flush
deriving DecidableEq, Repr

/-- The two streams of a console. -/
def Console.streams (console : Console ι ο) : ι × ο := (console.input, console.output)

section Replay

variable [InputStream ι] [OutputStream ο]

/-- The streams after some calls. -/
def replay : List StreamCall → ι × ο → ι × ο
  | [], streams => streams
  | .read :: rest, (input, output) => replay rest ((InputStream.read input).2, output)
  | .write byte :: rest, (input, output) => replay rest (input, (OutputStream.write byte output).2)
  | .flush :: rest, (input, output) => replay rest (input, (OutputStream.flush output).2)

theorem replay_append (first second : List StreamCall) (streams : ι × ο) :
    replay (first ++ second) streams = replay second (replay first streams) := by
  induction first generalizing streams with
  | nil => rfl
  | cons call rest ih => cases call <;> exact ih _

/-- The calls of writing a value: a byte is offered and, if it was accepted, flushed. -/
def writeCalls (value : Int) (output : ο) : List StreamCall :=
  if 0 ≤ value ∧ value < 256 then
    match (OutputStream.write (UInt8.ofNat value.toNat) output).1 with
    | .accepted => [.write (UInt8.ofNat value.toNat), .flush]
    | _ => [.write (UInt8.ofNat value.toNat)]
  else []

theorem replay_read (input : ι) (output : ο) :
    replay [.read] (input, output) = ((InputStream.readByte input).2, output) := by
  show ((InputStream.read input).2, output) = _
  rw [InputStream.readByte]
  split <;> simp_all

theorem replay_writeCalls (value : Int) (input : ι) (output : ο) :
    replay (writeCalls value output) (input, output) =
      (input, (OutputStream.writeByte value output).2) := by
  rw [writeCalls, OutputStream.writeByte]
  split
  · cases hwrite : OutputStream.write (UInt8.ofNat value.toNat) output with
    | mk reply after =>
      cases reply with
      | accepted =>
        -- the flush is made on what the write left, whether it fails or not
        simp only [replay, hwrite]
        split <;> simp_all
      | refused => simp only [replay, hwrite]
      | failed failure => simp only [replay, hwrite]
  · rfl

end Replay

namespace Machine

variable [InputStream ι] [OutputStream ο]

/-- The calls of one step. -/
def stepCalls (machine : Machine) (console : Console ι ο) : List StreamCall :=
  match machine.next? with
  | some (.plain instruction) =>
    match instruction.op with
    | .input => [.read]
    | .output => writeCalls (machine.cell.toByte machine.tape.current) console.output
    | _ => []
  | _ => []

/-- The calls of at most `limit` steps. -/
def calls (limit : Nat) (machine : Machine) (console : Console ι ο) : List StreamCall :=
  match limit with
  | 0 => []
  | limit + 1 =>
    machine.stepCalls console ++
      match machine.step console with
      | ⟨.advanced, machine, console⟩ => machine.calls limit console
      | _ => []

variable {machine next : Machine} {console later : Console ι ο}

theorem calls_succ_of_advanced (h : machine.step console = ⟨.advanced, next, later⟩)
    (limit : Nat) :
    machine.calls (limit + 1) console = machine.stepCalls console ++ next.calls limit later := by
  rw [calls, h]

theorem calls_succ_of_ended (h : (machine.step console).reply ≠ .advanced) (limit : Nat) :
    machine.calls (limit + 1) console = machine.stepCalls console := by
  rw [calls]
  split
  · simp_all
  · rw [List.append_nil]

/-- The calls of a run that is taken up follow those of the run that was cut short. -/
theorem calls_add {count : Nat} (h : machine.run count console = ⟨.advanced, next, later⟩)
    (limit : Nat) :
    machine.calls (count + limit) console =
      machine.calls count console ++ next.calls limit later := by
  induction count generalizing machine console with
  | zero =>
    rw [run_zero, Outcome.mk.injEq] at h
    obtain ⟨-, rfl, rfl⟩ := h
    rw [Nat.zero_add]
    rfl
  | succ count ih =>
    rw [Nat.succ_add]
    cases hstep : machine.step console with
    | mk reply machine' console' =>
      by_cases hreply : reply = .advanced
      · subst hreply
        rw [run_succ_of_advanced hstep] at h
        rw [calls_succ_of_advanced hstep, calls_succ_of_advanced hstep, ih h, List.append_assoc]
      · -- the run would not have been cut short
        rw [run_succ_of_ended (by rw [hstep]; exact hreply), hstep, Outcome.mk.injEq] at h
        exact absurd h.1 hreply

/-- A larger limit adds no calls to a run that has ended. -/
theorem calls_add_of_ended {limit : Nat} (h : (machine.run limit console).reply ≠ .advanced)
    (more : Nat) : machine.calls (limit + more) console = machine.calls limit console := by
  induction limit generalizing machine console with
  | zero => exact absurd rfl h
  | succ limit ih =>
    rw [Nat.succ_add]
    cases hstep : machine.step console with
    | mk reply machine' console' =>
      by_cases hreply : reply = .advanced
      · subst hreply
        rw [run_succ_of_advanced hstep] at h
        rw [calls_succ_of_advanced hstep, calls_succ_of_advanced hstep, ih h]
      · have hended : (machine.step console).reply ≠ .advanced := by rw [hstep]; exact hreply
        rw [calls_succ_of_ended hended, calls_succ_of_ended hended]

/-- A larger limit only adds calls. -/
theorem calls_prefix {limit limit' : Nat} (h : limit ≤ limit') (machine : Machine)
    (console : Console ι ο) : machine.calls limit console <+: machine.calls limit' console := by
  obtain ⟨more, rfl⟩ := Nat.le.dest h
  cases hrun : machine.run limit console with
  | mk reply next later =>
    by_cases hreply : reply = .advanced
    · subst hreply
      rw [calls_add hrun]
      exact List.prefix_append _ _
    · have hsame := calls_add_of_ended (by rw [hrun]; exact hreply) more
      exact hsame ▸ List.prefix_rfl

/-- A run that has ended has made all its calls. -/
theorem calls_prefix_of_ended {count : Nat} (h : (machine.run count console).reply ≠ .advanced)
    (limit : Nat) : machine.calls limit console <+: machine.calls count console := by
  rw [← calls_add_of_ended h limit]
  exact calls_prefix (Nat.le_add_left limit count) machine console

/-- The calls of a plain operation are all that it does to the streams. -/
theorem streams_of_effect {instruction : Instruction} {operation : Primitive}
    {error : Option RunError} {after : World ι ο}
    (hnext : machine.next? = some (.plain instruction)) (hop : instruction.op = operation.op)
    (h : operation.Effect machine.rules instruction (machine.world console) error after) :
    (after.input, after.output) = replay (machine.stepCalls console) console.streams := by
  -- a failed call changes its stream like any other
  have hwrite {result : Except Failure Unit} {output : ο} (hop : instruction.op = .output)
      (reply : OutputStream.writeByte (machine.cell.toByte machine.tape.current) console.output =
        (result, output)) :
      (console.input, output) = replay (machine.stepCalls console) console.streams := by
    simp only [stepCalls, hnext, hop, Console.streams, replay_writeCalls, reply]
  have hread {result : Except Failure UInt8} {input : ι} (hop : instruction.op = .input)
      (reply : InputStream.readByte console.input = (result, input)) :
      (input, console.output) = replay (machine.stepCalls console) console.streams := by
    simp only [stepCalls, hnext, hop, Console.streams, replay_read, reply]
  cases h with
  | output reply => exact hwrite hop reply
  | outputFault reply blamed => exact hwrite hop reply
  | outputFailure reply passed => exact hwrite hop reply
  | input reply => exact hread hop reply
  | inputFault reply blamed => exact hread hop reply
  | inputFailure reply passed => exact hread hop reply
  | _ => simp only [stepCalls, hnext, hop, Primitive.op]; rfl

/-- The calls of a step are all that it does to the streams. -/
theorem streams_step (machine : Machine) (console : Console ι ο) :
    (machine.step console).console.streams =
      replay (machine.stepCalls console) console.streams := by
  have hstepped := machine.stepped_step console
  generalize machine.step console = outcome at hstepped
  cases hstepped with
  | finished ended => simp [stepCalls, ended, replay]
  | skipped next zero => simp [stepCalls, next, replay, Console.streams]
  | entered next nonzero => simp [stepCalls, next, replay, Console.streams]
  | returned next => simp [stepCalls, next, replay, Console.streams]
  | passed next bracket =>
    obtain op | op := bracket <;> simp [stepCalls, next, op, replay, Console.streams]
  | completed next op effect =>
    rw [← streams_of_effect next op effect]
    simp [Console.streams]
  | raised next op effect => exact streams_of_effect next op effect

/-- The calls of a run are all that it does to the streams. -/
theorem streams_run (limit : Nat) (machine : Machine) (console : Console ι ο) :
    (machine.run limit console).console.streams =
      replay (machine.calls limit console) console.streams := by
  induction limit generalizing machine console with
  | zero => rfl
  | succ limit ih =>
    have hstreams := machine.streams_step console
    cases hstep : machine.step console with
    | mk reply next later =>
      rw [hstep] at hstreams
      by_cases hreply : reply = .advanced
      · subst hreply
        rw [run_succ_of_advanced hstep, calls_succ_of_advanced hstep, ih, replay_append, hstreams]
      · have hended : (machine.step console).reply ≠ .advanced := by rw [hstep]; exact hreply
        rw [run_succ_of_ended hended, calls_succ_of_ended hended, hstep, hstreams]

end Machine

end Brainfuck
