import Brainfuck.Link
import Brainfuck.Cell
import Brainfuck.Stream
import Brainfuck.Tape

/-! # Machines

A machine runs a linked program over a tape. One step executes the instruction at the program
counter; a step past the last instruction halts the machine. A step that cannot be completed raises
an error and leaves program counter and tape as they were, so it can be tried again.

Steps can be traced: what an executed instruction did is then printed to the diagnostics. A trace
with a number of too many digits cannot be printed; that is an error, too, but the instruction has
been executed.

Main definitions: `Fault`, `RunError`, `Machine`, `Machine.create`, `Machine.execute`,
`Machine.step`, `Machine.run`, `Machine.stepTraced`, `Machine.runTraced`. -/

namespace Brainfuck

/-! ## Errors of a run -/

/-- What an instruction could not do. -/
inductive FaultCause where
  /-- Move left of the first cell. -/
  | seekTooLow
  /-- Move right of the last cell of a tape that may not grow. -/
  | seekTooHigh
  /-- Read or write a byte. -/
  | io (source : Failure)
deriving DecidableEq, Repr

/-- The phrase for what an instruction could not do. -/
def FaultCause.message : FaultCause → String
  | seekTooLow => "moved the data pointer below the first cell"
  | seekTooHigh => "moved the data pointer past the last cell of a fixed size tape"
  | io source => "I/O failed: " ++ source.message

/-- An instruction that could not be executed, and why. -/
structure Fault where
  /-- The file of the program. -/
  file : String
  /-- The instruction. -/
  instruction : Instruction
  /-- What it could not do. -/
  cause : FaultCause
deriving DecidableEq, Repr

/-- The diagnostic for a fault, which points at the instruction, if its place can be written out. -/
def Fault.message? (fault : Fault) : Option String :=
  (fault.instruction.locator? fault.file).map (· ++ fault.cause.message)

/-- Why a step was not completed. -/
inductive RunError where
  /-- The instruction is at fault. -/
  | fault (fault : Fault)
  /-- A stream failed in a way that no instruction answers for; the failure is passed on. -/
  | failure (failure : Failure)
deriving DecidableEq, Repr

/-- Whether an error is a fault of an instruction, of this program or of one that a stream runs. -/
def RunError.isFault : RunError → Bool
  | .fault _ => true
  | .failure reason => reason.kind.isFault

/-! ## Machines -/

/-- Where a machine is in its life. -/
inductive Status where
  /-- It has neither halted nor faulted. -/
  | running
  /-- It has stepped past the end of its program. -/
  | halted
  /-- An instruction was at fault, and the end of the program has not been reached since. -/
  | faulted
deriving DecidableEq, Repr

/-- A linked program being run on a tape. -/
structure Machine where
  /-- The program. -/
  program : LinkedProgram
  /-- The arithmetic of the cells. -/
  cell : CellKind
  /-- Whether moving right of the last cell appends one. -/
  mayGrow : Bool
  /-- The tape. -/
  tape : Tape
  /-- The index of the next instruction. -/
  pc : Nat := 0
  /-- Where the machine is in its life. -/
  status : Status := .running
deriving DecidableEq, Repr

/-- What a step came to. -/
inductive Reply where
  /-- An instruction was executed. -/
  | advanced
  /-- The program had ended. -/
  | finished
  /-- The instruction was not executed. -/
  | raised (error : RunError)
deriving DecidableEq, Repr

/-- A machine and its console after one or more steps, and what the last one came to. -/
structure Outcome (ι ο : Type) where
  /-- What the last step came to. -/
  reply : Reply
  /-- The machine afterwards. -/
  machine : Machine
  /-- The console afterwards. -/
  console : Console ι ο

namespace Machine

variable {ι ο : Type}

/-- A machine at the start of a program, on a new tape of the size asked for. -/
def create (program : LinkedProgram) (cell : CellKind) (mayGrow : Bool) (size : Int) :
    Except TapeSizeError Machine := do
  let size ← tapeSize size
  return { program, cell, mayGrow, tape := .blank size cell.zero }

/-- The instruction at the program counter, if the program has not ended. -/
@[inline] def next? (machine : Machine) : Option Linked :=
  machine.program.instructions[machine.pc]?

/-- The fault of an instruction of the machine's program. -/
def fault (machine : Machine) (linked : Linked) (cause : FaultCause) : RunError :=
  .fault ⟨machine.program.file, linked.instruction, cause⟩

/-- The error of an instruction whose read failed. -/
def inputError (machine : Machine) (linked : Linked) (failure : Failure) : RunError :=
  if failure.kind.isInputError then machine.fault linked (.io failure) else .failure failure

/-- The error of an instruction whose write failed. -/
def outputError (machine : Machine) (linked : Linked) (failure : Failure) : RunError :=
  if failure.kind.isOutputError then machine.fault linked (.io failure) else .failure failure

/-- Puts a tape in place and goes on to the next instruction. -/
@[inline] def proceed (machine : Machine) (update : Tape → Tape) : Machine :=
  match machine with
  | ⟨program, cell, mayGrow, tape, pc, status⟩ =>
    ⟨program, cell, mayGrow, update tape, pc + 1, status⟩

/-- Goes on at a given instruction. -/
@[inline] def jump (machine : Machine) (target : Nat) : Machine :=
  { machine with pc := target }

/-- Executes one instruction. Only a completed instruction changes the machine. -/
@[specialize] def execute [InputStream ι] [OutputStream ο] (machine : Machine) (linked : Linked)
    (console : Console ι ο) : Outcome ι ο :=
  match linked with
  | .opener _ closer _ =>
    if machine.cell.isZero machine.tape.current then
      ⟨.advanced, machine.jump (closer + 1), console⟩
    else ⟨.advanced, machine.jump (machine.pc + 1), console⟩
  | .closer _ opener _ => ⟨.advanced, machine.jump opener, console⟩
  | .plain instruction =>
    match instruction.op with
    | .right =>
      if machine.tape.atLast then
        if machine.mayGrow then
          let zero := machine.cell.zero
          ⟨.advanced, machine.proceed fun tape => (tape.grow zero).moveRight, console⟩
        else ⟨.raised (machine.fault linked .seekTooHigh), machine, console⟩
      else ⟨.advanced, machine.proceed (·.moveRight), console⟩
    | .left =>
      if machine.tape.head = 0 then ⟨.raised (machine.fault linked .seekTooLow), machine, console⟩
      else ⟨.advanced, machine.proceed (·.moveLeft), console⟩
    | .add =>
      let value := machine.cell.increment machine.tape.current
      ⟨.advanced, machine.proceed (·.write value), console⟩
    | .sub =>
      let value := machine.cell.decrement machine.tape.current
      ⟨.advanced, machine.proceed (·.write value), console⟩
    | .output =>
      match console.writeByte (machine.cell.toByte machine.tape.current) with
      | (.ok (), console) => ⟨.advanced, machine.proceed id, console⟩
      | (.error failure, console) =>
        ⟨.raised (machine.outputError linked failure), machine, console⟩
    | .input =>
      match console.readByte with
      | (.ok byte, console) =>
        let value := machine.cell.fromByte byte.toNat
        ⟨.advanced, machine.proceed (·.write value), console⟩
      | (.error failure, console) =>
        ⟨.raised (machine.inputError linked failure), machine, console⟩
    -- A linked program holds no bracket as a plain instruction.
    | .loopStart => ⟨.advanced, machine.proceed id, console⟩
    | .loopEnd => ⟨.advanced, machine.proceed id, console⟩

/-- The status after an error: only a fault changes it. -/
def statusAfter (status : Status) (error : RunError) : Status :=
  if error.isFault then .faulted else status

/-- One step: executes the instruction at the program counter, or halts if there is none. The status
is set, never consulted. -/
@[specialize] def step [InputStream ι] [OutputStream ο] (machine : Machine)
    (console : Console ι ο) : Outcome ι ο :=
  match machine.next? with
  | none => ⟨.finished, { machine with status := .halted }, console⟩
  | some linked =>
    match machine.execute linked console with
    | ⟨.raised error, machine, console⟩ =>
      let status := statusAfter machine.status error
      ⟨.raised error, { machine with status }, console⟩
    | outcome => outcome

/-- The trace of a completed step: the instruction, and the machine after it. There is none if one
of the numbers cannot be written out. -/
def traceText? (machine : Machine) (linked : Linked) : Option String := do
  let instruction ← linked.text? Numeral.standardLimit
  let pc ← Numeral.write? Numeral.standardLimit machine.pc
  let head ← Numeral.write? Numeral.standardLimit machine.tape.head
  let cell ← Numeral.write? Numeral.standardLimit machine.tape.current
  return "*op=" ++ instruction ++ "\n* pc=" ++ pc ++ "\n* dataptr=" ++ head ++ "\n* cell=" ++
    cell ++ "\n\n"

/-- One step that is traced if the console is. A trace that cannot be printed is an error of the
step, though the instruction has been executed. -/
@[specialize] def stepTraced [InputStream ι] [OutputStream ο] (machine : Machine)
    (console : Console ι ο) : Outcome ι ο :=
  let executed? := machine.next?
  match machine.step console with
  | ⟨.advanced, machine, console⟩ =>
    if console.tracing then
      match executed?.bind machine.traceText? with
      | some text => ⟨.advanced, machine, console.print text⟩
      | none => ⟨.raised (.failure .overlong), machine, console⟩
    else ⟨.advanced, machine, console⟩
  | outcome => outcome

/-- At most `limit` steps, up to the first that does not execute an instruction; the reply is
`advanced` if the limit came first. -/
@[specialize] def runBy (step : Machine → Console ι ο → Outcome ι ο) (limit : Nat)
    (machine : Machine) (console : Console ι ο) : Outcome ι ο :=
  match limit with
  | 0 => ⟨.advanced, machine, console⟩
  | limit + 1 =>
    match step machine console with
    | ⟨.advanced, machine, console⟩ => runBy step limit machine console
    | outcome => outcome

/-- At most `limit` steps, none of them traced. -/
def run [InputStream ι] [OutputStream ο] (limit : Nat) (machine : Machine)
    (console : Console ι ο) : Outcome ι ο :=
  runBy step limit machine console

/-- At most `limit` steps, traced if the console is. -/
def runTraced [InputStream ι] [OutputStream ο] (limit : Nat) (machine : Machine)
    (console : Console ι ο) : Outcome ι ο :=
  runBy stepTraced limit machine console

/-! ## Reading the definitions -/

/-- A new machine stands at the start of its program, with the first cell of a blank tape. -/
theorem create_eq_ok_iff {program : LinkedProgram} {cell : CellKind} {mayGrow : Bool} {size : Int}
    {machine : Machine} :
    create program cell mayGrow size = .ok machine ↔
      ∃ count, tapeSize size = .ok count ∧
        machine = { program, cell, mayGrow, tape := .blank count cell.zero } := by
  cases h : tapeSize size with
  | error error => simp [create, h, bind, Except.bind]
  | ok count => simp [create, h, bind, Except.bind, pure, Except.pure, eq_comm]

section RunBy

variable {step : Machine → Console ι ο → Outcome ι ο} {machine next : Machine}
  {console after : Console ι ο}

@[simp] theorem runBy_zero (step : Machine → Console ι ο → Outcome ι ο) (machine : Machine)
    (console : Console ι ο) : runBy step 0 machine console = ⟨.advanced, machine, console⟩ := rfl

/-- A step that executes an instruction is followed by the rest of the run. -/
theorem runBy_succ_of_advanced (h : step machine console = ⟨.advanced, next, after⟩)
    (limit : Nat) : runBy step (limit + 1) machine console = runBy step limit next after := by
  simp [runBy, h]

/-- A step that executes no instruction ends the run. -/
theorem runBy_succ_of_ended (h : (step machine console).reply ≠ .advanced) (limit : Nat) :
    runBy step (limit + 1) machine console = step machine console := by
  rw [runBy]
  split
  · simp_all
  · rfl

end RunBy

section Reading

variable [InputStream ι] [OutputStream ο]

/-- Past the last instruction a step halts the machine. -/
theorem step_of_next?_eq_none {machine : Machine} {console : Console ι ο}
    (h : machine.next? = none) :
    machine.step console = ⟨.finished, { machine with status := .halted }, console⟩ := by
  simp only [step, h]

/-- Where the console is not traced, nothing is. -/
theorem stepTraced_of_untraced {machine : Machine} {console : Console ι ο}
    (h : (machine.step console).console.tracing = false) :
    machine.stepTraced console = machine.step console := by
  unfold stepTraced
  split
  · next hstep =>
    rw [hstep] at h ⊢
    exact if_neg (ne_true_of_eq_false h)
  · rfl

/-- The instruction of a traced step is executed, whether or not the trace can be printed. -/
@[simp] theorem machine_stepTraced (machine : Machine) (console : Console ι ο) :
    (machine.stepTraced console).machine = (machine.step console).machine := by
  unfold stepTraced
  split
  · next hstep =>
    rw [hstep]
    dsimp only
    repeat' split
    all_goals rfl
  · rfl

/-- A traced step that executes no instruction is a step. -/
theorem stepTraced_of_ended {machine : Machine} {console : Console ι ο}
    (h : (machine.step console).reply ≠ .advanced) :
    machine.stepTraced console = machine.step console := by
  unfold stepTraced
  split
  · simp_all
  · rfl

/-- Past the last instruction a traced step halts the machine, too, and prints nothing. -/
theorem stepTraced_of_next?_eq_none {machine : Machine} {console : Console ι ο}
    (h : machine.next? = none) :
    machine.stepTraced console = ⟨.finished, { machine with status := .halted }, console⟩ := by
  rw [stepTraced_of_ended (by rw [step_of_next?_eq_none h]; simp), step_of_next?_eq_none h]

theorem run_zero (machine : Machine) (console : Console ι ο) :
    machine.run 0 console = ⟨.advanced, machine, console⟩ := rfl

theorem run_succ_of_advanced {machine next : Machine} {console after : Console ι ο}
    (h : machine.step console = ⟨.advanced, next, after⟩) (limit : Nat) :
    machine.run (limit + 1) console = next.run limit after :=
  runBy_succ_of_advanced h limit

theorem run_succ_of_ended {machine : Machine} {console : Console ι ο}
    (h : (machine.step console).reply ≠ .advanced) (limit : Nat) :
    machine.run (limit + 1) console = machine.step console :=
  runBy_succ_of_ended h limit

end Reading

end Machine

end Brainfuck
