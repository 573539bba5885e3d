import Brainfuck.Machine
import Brainfuck.Proofs.Tree

/-! # What one step does

The meaning of the plain operations as rules, each with what it needs and what it leaves behind, and
one lemma that says all that a step of a machine can come to.

Main definitions: `World`, `Rules`, `Primitive.Effect`, `Machine.Stepped`. Main statement:
`Machine.stepped_step`, which lists what a step can come to. -/

namespace Brainfuck

variable {ι ο : Type}

/-! ## The meaning of the plain operations -/

/-- What operations act on: the tape and the two streams. -/
@[ext] structure World (ι ο : Type) where
  /-- The tape. -/
  tape : Tape
  /-- The input. -/
  input : ι
  /-- The output. -/
  output : ο

/-- What operations go by: the file they are blamed on, the kind of cell, and whether the tape may
grow. -/
structure Rules where
  /-- The file of the program. -/
  file : String
  /-- The arithmetic of the cells. -/
  cell : CellKind
  /-- Whether moving right of the last cell appends one. -/
  mayGrow : Bool

/-- What a plain operation, written by an instruction, makes of a world: the world afterwards and,
if the operation could not be completed, the error it raises. -/
inductive Primitive.Effect [InputStream ι] [OutputStream ο] (rules : Rules)
    (instruction : Instruction) : Primitive → World ι ο → Option RunError → World ι ο → Prop where
  /-- The next cell becomes the current one. -/
  | right {world : World ι ο} (inside : world.tape.head + 1 ≠ world.tape.size) :
      Effect rules instruction .right world none { world with tape := world.tape.moveRight }
  /-- At the last cell a new one is appended first, if the tape may grow. -/
  | grow {world : World ι ο} (last : world.tape.head + 1 = world.tape.size)
      (mayGrow : rules.mayGrow = true) :
      Effect rules instruction .right world none
        { world with tape := (world.tape.grow rules.cell.zero).moveRight }
  /-- At the last cell of a fixed tape the operation is at fault. -/
  | tooHigh {world : World ι ο} (last : world.tape.head + 1 = world.tape.size)
      (fixed : rules.mayGrow = false) :
      Effect rules instruction .right world
        (some (.fault ⟨rules.file, instruction, .seekTooHigh⟩)) world
  /-- The previous cell becomes the current one. -/
  | left {world : World ι ο} (inside : world.tape.head ≠ 0) :
      Effect rules instruction .left world none { world with tape := world.tape.moveLeft }
  /-- At the first cell the operation is at fault. -/
  | tooLow {world : World ι ο} (first : world.tape.head = 0) :
      Effect rules instruction .left world
        (some (.fault ⟨rules.file, instruction, .seekTooLow⟩)) world
  /-- One is added to the current cell. -/
  | add {world : World ι ο} :
      Effect rules instruction .add world none
        { world with tape := world.tape.write (rules.cell.increment world.tape.current) }
  /-- One is subtracted from the current cell. -/
  | sub {world : World ι ο} :
      Effect rules instruction .sub world none
        { world with tape := world.tape.write (rules.cell.decrement world.tape.current) }
  /-- The low byte of the current cell is written. -/
  | output {world : World ι ο} {after : ο}
      (reply : OutputStream.writeByte (rules.cell.toByte world.tape.current) world.output =
        (.ok (), after)) :
      Effect rules instruction .output world none { world with output := after }
  /-- A write that fails as an output may fail puts the operation at fault. -/
  | outputFault {world : World ι ο} {failure : Failure} {after : ο}
      (reply : OutputStream.writeByte (rules.cell.toByte world.tape.current) world.output =
        (.error failure, after))
      (blamed : failure.kind.isOutputError = true) :
      Effect rules instruction .output world
        (some (.fault ⟨rules.file, instruction, .io failure⟩)) { world with output := after }
  /-- Any other failure of a write is passed on. -/
  | outputFailure {world : World ι ο} {failure : Failure} {after : ο}
      (reply : OutputStream.writeByte (rules.cell.toByte world.tape.current) world.output =
        (.error failure, after))
      (passed : failure.kind.isOutputError = false) :
      Effect rules instruction .output world (some (.failure failure))
        { world with output := after }
  /-- A byte is read into the current cell. -/
  | input {world : World ι ο} {byte : UInt8} {after : ι}
      (reply : InputStream.readByte world.input = (.ok byte, after)) :
      Effect rules instruction .input world none
        { world with tape := world.tape.write (rules.cell.fromByte byte.toNat), input := after }
  /-- A read that fails as an input may fail puts the operation at fault. -/
  | inputFault {world : World ι ο} {failure : Failure} {after : ι}
      (reply : InputStream.readByte world.input = (.error failure, after))
      (blamed : failure.kind.isInputError = true) :
      Effect rules instruction .input world
        (some (.fault ⟨rules.file, instruction, .io failure⟩)) { world with input := after }
  /-- Any other failure of a read is passed on. -/
  | inputFailure {world : World ι ο} {failure : Failure} {after : ι}
      (reply : InputStream.readByte world.input = (.error failure, after))
      (passed : failure.kind.isInputError = false) :
      Effect rules instruction .input world (some (.failure failure))
        { world with input := after }

/-- An operation that raises an error leaves the tape as it was. -/
theorem Primitive.Effect.tape_eq_of_raised [InputStream ι] [OutputStream ο] {rules : Rules}
    {instruction : Instruction} {operation : Primitive} {before after : World ι ο}
    {error : RunError} (h : operation.Effect rules instruction before (some error) after) :
    after.tape = before.tape := by
  cases h <;> rfl

/-- A plain operation has an effect on every world. -/
theorem Primitive.exists_effect [InputStream ι] [OutputStream ο] (operation : Primitive)
    (rules : Rules) (instruction : Instruction) (world : World ι ο) :
    ∃ error after, operation.Effect rules instruction world error after := by
  cases operation with
  | right =>
    by_cases last : world.tape.head + 1 = world.tape.size
    · cases mayGrow : rules.mayGrow with
      | true => exact ⟨_, _, .grow last mayGrow⟩
      | false => exact ⟨_, _, .tooHigh last mayGrow⟩
    · exact ⟨_, _, .right last⟩
  | left =>
    by_cases first : world.tape.head = 0
    · exact ⟨_, _, .tooLow first⟩
    · exact ⟨_, _, .left first⟩
  | add => exact ⟨_, _, .add⟩
  | sub => exact ⟨_, _, .sub⟩
  | output =>
    cases reply : OutputStream.writeByte (rules.cell.toByte world.tape.current) world.output with
    | mk result after =>
      cases result with
      | ok => exact ⟨_, _, .output reply⟩
      | error failure =>
        cases blamed : failure.kind.isOutputError with
        | true => exact ⟨_, _, .outputFault reply blamed⟩
        | false => exact ⟨_, _, .outputFailure reply blamed⟩
  | input =>
    cases reply : InputStream.readByte world.input with
    | mk result after =>
      cases result with
      | ok byte => exact ⟨_, _, .input reply⟩
      | error failure =>
        cases blamed : failure.kind.isInputError with
        | true => exact ⟨_, _, .inputFault reply blamed⟩
        | false => exact ⟨_, _, .inputFailure reply blamed⟩

/-! ## Consoles -/

namespace Console

/-- The console with the streams of a world. -/
def ofWorld (console : Console ι ο) (world : World ι ο) : Console ι ο :=
  { console with input := world.input, output := world.output }

@[simp] theorem input_ofWorld (console : Console ι ο) (world : World ι ο) :
    (console.ofWorld world).input = world.input := rfl

@[simp] theorem output_ofWorld (console : Console ι ο) (world : World ι ο) :
    (console.ofWorld world).output = world.output := rfl

end Console

namespace Machine

/-! ## Executing an instruction -/

/-- What the operations of a machine go by. -/
def rules (machine : Machine) : Rules := ⟨machine.program.file, machine.cell, machine.mayGrow⟩

/-- What the operations of a machine at a console act on. -/
def world (machine : Machine) (console : Console ι ο) : World ι ο :=
  ⟨machine.tape, console.input, console.output⟩

/-- The machine with another tape, at another instruction. -/
def goTo (machine : Machine) (tape : Tape) (pc : Nat) : Machine := { machine with tape, pc }

section Fields

variable (machine : Machine) (tape : Tape) (pc : Nat)

@[simp] theorem program_goTo : (machine.goTo tape pc).program = machine.program := rfl

@[simp] theorem tape_goTo : (machine.goTo tape pc).tape = tape := rfl

@[simp] theorem pc_goTo : (machine.goTo tape pc).pc = pc := rfl

@[simp] theorem goTo_goTo (tape' : Tape) (pc' : Nat) :
    (machine.goTo tape' pc').goTo tape pc = machine.goTo tape pc := rfl

end Fields

section Worlds

variable {machine : Machine} {console : Console ι ο}

theorem world_goTo_ofWorld (after : World ι ο) (pc : Nat) :
    (machine.goTo after.tape pc).world (console.ofWorld after) = after := rfl

theorem world_goTo (pc : Nat) :
    (machine.goTo machine.tape pc).world console = machine.world console := rfl

end Worlds

variable [InputStream ι] [OutputStream ο] {machine : Machine} {console : Console ι ο}
  {instruction : Instruction} {operation : Primitive} {after : World ι ο}

/-- A plain operation that can be completed leaves its world behind and goes on. -/
theorem execute_of_effect (hop : instruction.op = operation.op)
    (h : operation.Effect machine.rules instruction (machine.world console) none after) :
    machine.execute (.plain instruction) console =
      ⟨.advanced, machine.goTo after.tape (machine.pc + 1), console.ofWorld after⟩ := by
  -- the rule says which branch of `execute` is taken, and the branch does what the rule says
  cases h with
  | right inside =>
    have hlast : machine.tape.atLast = false := decide_eq_false inside
    simp only [execute, hop, Primitive.op, hlast, Bool.false_eq_true, if_false]
    rfl
  | grow last mayGrow =>
    have hlast : machine.tape.atLast = true := decide_eq_true last
    have hgrow : machine.mayGrow = true := mayGrow
    simp only [execute, hop, Primitive.op, hlast, hgrow, if_true]
    rfl
  | left inside =>
    have hhead : machine.tape.head ≠ 0 := inside
    simp only [execute, hop, Primitive.op, if_neg hhead]
    rfl
  | add => simp only [execute, hop, Primitive.op]; rfl
  | sub => simp only [execute, hop, Primitive.op]; rfl
  | output reply =>
    have hwrite : OutputStream.writeByte (machine.cell.toByte machine.tape.current)
        console.output = _ := reply
    simp only [execute, hop, Primitive.op, Console.writeByte, hwrite]
    rfl
  | input reply =>
    have hread : InputStream.readByte console.input = _ := reply
    simp only [execute, hop, Primitive.op, Console.readByte, hread]
    rfl

/-- A plain operation that cannot be completed raises its error; only streams have changed. -/
theorem execute_of_effect_raised {error : RunError} (hop : instruction.op = operation.op)
    (h : operation.Effect machine.rules instruction (machine.world console) (some error) after) :
    machine.execute (.plain instruction) console =
      ⟨.raised error, machine, console.ofWorld after⟩ := by
  cases h with
  | tooHigh last fixed =>
    have hlast : machine.tape.atLast = true := decide_eq_true last
    have hfixed : machine.mayGrow = false := fixed
    simp only [execute, hop, Primitive.op, hlast, hfixed, if_true, Bool.false_eq_true, if_false]
    rfl
  | tooLow first =>
    have hhead : machine.tape.head = 0 := first
    simp only [execute, hop, Primitive.op, if_pos hhead]
    rfl
  | outputFault reply blamed =>
    have hwrite : OutputStream.writeByte (machine.cell.toByte machine.tape.current)
        console.output = _ := reply
    simp only [execute, hop, Primitive.op, Console.writeByte, hwrite, outputError, blamed]
    rfl
  | outputFailure reply passed =>
    have hwrite : OutputStream.writeByte (machine.cell.toByte machine.tape.current)
        console.output = _ := reply
    simp only [execute, hop, Primitive.op, Console.writeByte, hwrite, outputError, passed]
    rfl
  | inputFault reply blamed =>
    have hread : InputStream.readByte console.input = _ := reply
    simp only [execute, hop, Primitive.op, Console.readByte, hread, inputError, blamed]
    rfl
  | inputFailure reply passed =>
    have hread : InputStream.readByte console.input = _ := reply
    simp only [execute, hop, Primitive.op, Console.readByte, hread, inputError, passed]
    rfl

/-! ## Making a step -/

/-- A step whose instruction is completed ends with the machine that the instruction leaves. -/
theorem step_of_execute {linked : Linked} {next : Machine} {later : Console ι ο}
    (hnext : machine.next? = some linked)
    (h : machine.execute linked console = ⟨.advanced, next, later⟩) :
    machine.step console = ⟨.advanced, next, later⟩ := by
  simp only [step, hnext, h]

/-- A step whose instruction raises an error changes no more than the status. -/
theorem step_of_execute_raised {linked : Linked} {error : RunError} {later : Console ι ο}
    (hnext : machine.next? = some linked)
    (h : machine.execute linked console = ⟨.raised error, machine, later⟩) :
    machine.step console =
      ⟨.raised error, { machine with status := statusAfter machine.status error }, later⟩ := by
  simp only [step, hnext, h]

/-- The step of a plain operation that can be completed. -/
theorem step_of_effect (hnext : machine.next? = some (.plain instruction))
    (hop : instruction.op = operation.op)
    (h : operation.Effect machine.rules instruction (machine.world console) none after) :
    machine.step console =
      ⟨.advanced, machine.goTo after.tape (machine.pc + 1), console.ofWorld after⟩ :=
  step_of_execute hnext (execute_of_effect hop h)

/-- The step of a plain operation that cannot be completed. -/
theorem step_of_effect_raised {error : RunError}
    (hnext : machine.next? = some (.plain instruction)) (hop : instruction.op = operation.op)
    (h : operation.Effect machine.rules instruction (machine.world console) (some error) after) :
    machine.step console =
      ⟨.raised error, { machine with status := statusAfter machine.status error },
        console.ofWorld after⟩ :=
  step_of_execute_raised hnext (execute_of_effect_raised hop h)

section Brackets

variable {target : Nat} {partner : Instruction}

/-- At a loop start with a zero cell the loop is skipped. -/
theorem step_of_opener_zero (hnext : machine.next? = some (.opener instruction target partner))
    (h : machine.tape.current = 0) :
    machine.step console =
      ⟨.advanced, machine.goTo machine.tape (target + 1), console⟩ := by
  apply step_of_execute hnext
  have hzero : machine.cell.isZero machine.tape.current = true := decide_eq_true h
  simp only [execute, hzero, if_true]
  rfl

/-- At a loop start with another cell the loop is entered. -/
theorem step_of_opener_nonzero (hnext : machine.next? = some (.opener instruction target partner))
    (h : machine.tape.current ≠ 0) :
    machine.step console =
      ⟨.advanced, machine.goTo machine.tape (machine.pc + 1), console⟩ := by
  apply step_of_execute hnext
  have hzero : machine.cell.isZero machine.tape.current = false := decide_eq_false h
  simp only [execute, hzero, Bool.false_eq_true, if_false]
  rfl

/-- At a loop end the machine goes back to the loop start. -/
theorem step_of_closer (hnext : machine.next? = some (.closer instruction target partner)) :
    machine.step console =
      ⟨.advanced, machine.goTo machine.tape target, console⟩ := by
  apply step_of_execute hnext
  simp only [execute]
  rfl

/-- A bracket without a link is passed over; a linked program holds none. -/
theorem step_of_unlinked (hnext : machine.next? = some (.plain instruction))
    (h : instruction.op = .loopStart ∨ instruction.op = .loopEnd) :
    machine.step console =
      ⟨.advanced, machine.goTo machine.tape (machine.pc + 1), console⟩ := by
  apply step_of_execute hnext
  obtain h | h := h <;> simp only [execute, h] <;> rfl

end Brackets

/-! ## Steps and their worlds -/

/-- A plain operation that can be completed leaves its world behind. -/
theorem exists_step_of_effect (hnext : machine.next? = some (.plain instruction))
    (hop : instruction.op = operation.op)
    (h : operation.Effect machine.rules instruction (machine.world console) none after) :
    ∃ later, machine.step console =
        ⟨.advanced, machine.goTo after.tape (machine.pc + 1), later⟩ ∧
      (machine.goTo after.tape (machine.pc + 1)).world later = after :=
  ⟨_, step_of_effect hnext hop h, world_goTo_ofWorld after _⟩

/-- A plain operation that cannot be completed leaves the program counter where it is. -/
theorem exists_step_of_effect_raised {error : RunError}
    (hnext : machine.next? = some (.plain instruction)) (hop : instruction.op = operation.op)
    (h : operation.Effect machine.rules instruction (machine.world console) (some error) after) :
    ∃ last later, machine.step console = ⟨.raised error, last, later⟩ ∧ last.pc = machine.pc ∧
      last.world later = after := by
  refine ⟨_, _, step_of_effect_raised hnext hop h, rfl, ?_⟩
  -- the machine keeps its tape, and so does the operation
  ext1
  · exact h.tape_eq_of_raised.symm
  · rfl
  · rfl

section Brackets

variable {target : Nat} {partner : Instruction} (console)

/-- Skipping a loop leaves the world as it is. -/
theorem exists_step_of_opener_zero
    (hnext : machine.next? = some (.opener instruction target partner))
    (h : machine.tape.current = 0) :
    ∃ later, machine.step console =
        ⟨.advanced, machine.goTo machine.tape (target + 1), later⟩ ∧
      (machine.goTo machine.tape (target + 1)).world later = machine.world console :=
  ⟨_, step_of_opener_zero hnext h, world_goTo _⟩

/-- Entering a loop leaves the world as it is. -/
theorem exists_step_of_opener_nonzero
    (hnext : machine.next? = some (.opener instruction target partner))
    (h : machine.tape.current ≠ 0) :
    ∃ later, machine.step console =
        ⟨.advanced, machine.goTo machine.tape (machine.pc + 1), later⟩ ∧
      (machine.goTo machine.tape (machine.pc + 1)).world later = machine.world console :=
  ⟨_, step_of_opener_nonzero hnext h, world_goTo _⟩

/-- Going back to a loop start leaves the world as it is. -/
theorem exists_step_of_closer
    (hnext : machine.next? = some (.closer instruction target partner)) :
    ∃ later, machine.step console = ⟨.advanced, machine.goTo machine.tape target, later⟩ ∧
      (machine.goTo machine.tape target).world later = machine.world console :=
  ⟨_, step_of_closer hnext, world_goTo _⟩

end Brackets

/-! ## All that a step can come to -/

/-- All that a step of a machine at a console can come to. -/
inductive Stepped (machine : Machine) (console : Console ι ο) : Outcome ι ο → Prop where
  /-- The program had ended. -/
  | finished (ended : machine.next? = none) :
      Stepped machine console ⟨.finished, { machine with status := .halted }, console⟩
  /-- A plain operation was completed. -/
  | completed {instruction : Instruction} {operation : Primitive} {after : World ι ο}
      (next : machine.next? = some (.plain instruction)) (op : instruction.op = operation.op)
      (effect : operation.Effect machine.rules instruction (machine.world console) none after) :
      Stepped machine console
        ⟨.advanced, machine.goTo after.tape (machine.pc + 1), console.ofWorld after⟩
  /-- A plain operation could not be completed. -/
  | raised {instruction : Instruction} {operation : Primitive} {error : RunError}
      {after : World ι ο} (next : machine.next? = some (.plain instruction))
      (op : instruction.op = operation.op)
      (effect :
        operation.Effect machine.rules instruction (machine.world console) (some error) after) :
      Stepped machine console
        ⟨.raised error, { machine with status := statusAfter machine.status error },
          console.ofWorld after⟩
  /-- A loop was skipped. -/
  | skipped {instruction : Instruction} {target : Nat} {partner : Instruction}
      (next : machine.next? = some (.opener instruction target partner))
      (zero : machine.tape.current = 0) :
      Stepped machine console ⟨.advanced, machine.goTo machine.tape (target + 1), console⟩
  /-- A loop was entered. -/
  | entered {instruction : Instruction} {target : Nat} {partner : Instruction}
      (next : machine.next? = some (.opener instruction target partner))
      (nonzero : machine.tape.current ≠ 0) :
      Stepped machine console ⟨.advanced, machine.goTo machine.tape (machine.pc + 1), console⟩
  /-- The machine went back to a loop start. -/
  | returned {instruction : Instruction} {target : Nat} {partner : Instruction}
      (next : machine.next? = some (.closer instruction target partner)) :
      Stepped machine console ⟨.advanced, machine.goTo machine.tape target, console⟩
  /-- A bracket without a link was passed over. -/
  | passed {instruction : Instruction} (next : machine.next? = some (.plain instruction))
      (bracket : instruction.op = .loopStart ∨ instruction.op = .loopEnd) :
      Stepped machine console ⟨.advanced, machine.goTo machine.tape (machine.pc + 1), console⟩

/-- A step comes to one of these. -/
theorem stepped_step (machine : Machine) (console : Console ι ο) :
    machine.Stepped console (machine.step console) := by
  cases hnext : machine.next? with
  | none =>
    rw [step_of_next?_eq_none hnext]
    exact .finished hnext
  | some linked =>
    cases linked with
    | plain instruction =>
      -- brackets first: what remains is a plain operation, which has an effect on every world
      by_cases hs : instruction.op = .loopStart
      · rw [step_of_unlinked hnext (.inl hs)]
        exact .passed hnext (.inl hs)
      · by_cases he : instruction.op = .loopEnd
        · rw [step_of_unlinked hnext (.inr he)]
          exact .passed hnext (.inr he)
        · obtain ⟨operation, hop⟩ := Primitive.exists_op_eq hs he
          obtain ⟨error, after, effect⟩ :=
            operation.exists_effect machine.rules instruction (machine.world console)
          cases error with
          | none =>
            rw [step_of_effect hnext hop.symm effect]
            exact .completed hnext hop.symm effect
          | some error =>
            rw [step_of_effect_raised hnext hop.symm effect]
            exact .raised hnext hop.symm effect
    | opener instruction target partner =>
      by_cases hzero : machine.tape.current = 0
      · rw [step_of_opener_zero hnext hzero]
        exact .skipped hnext hzero
      · rw [step_of_opener_nonzero hnext hzero]
        exact .entered hnext hzero
    | closer instruction target partner =>
      rw [step_of_closer hnext]
      exact .returned hnext

@[simp] theorem program_step (machine : Machine) (console : Console ι ο) :
    (machine.step console).machine.program = machine.program := by
  have hstepped := machine.stepped_step console
  generalize machine.step console = outcome at hstepped
  cases hstepped <;> rfl

/-- A step that executes an instruction keeps the status. -/
theorem status_step_of_advanced {machine : Machine} {console : Console ι ο}
    (h : (machine.step console).reply = .advanced) :
    (machine.step console).machine.status = machine.status := by
  have hstepped := machine.stepped_step console
  generalize machine.step console = outcome at h hstepped
  cases hstepped with
  | finished | raised => cases h
  | completed | skipped | entered | returned | passed => rfl

/-- A step finishes exactly if there is no instruction left. -/
theorem reply_step_eq_finished_iff :
    (machine.step console).reply = .finished ↔ machine.next? = none := by
  have hstepped := machine.stepped_step console
  generalize machine.step console = outcome at hstepped
  cases hstepped <;> simp_all

end Machine

end Brainfuck
