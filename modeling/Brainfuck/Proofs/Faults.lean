import Brainfuck.Proofs.Bounds
import Brainfuck.Proofs.Traced

/-! # Errors of a step

When a step raises an error, which one it is, and what it leaves behind. An error is raised before
anything is changed, so a machine whose step raised one can be stepped again as if nothing had
happened; the streams have seen the call that failed.

Main definitions: `OutputStream.Fails`, `InputStream.Fails`, `Machine.Raises`,
`Machine.FaultsAtomically`. Main statement: the errors of a step are those of `Machine.Raises`
(`Machine.reply_step_eq_raised_iff`). -/

namespace Brainfuck

variable {ι ο : Type}

/-! ## Failed calls -/

/-- How the output of a byte fails: at the write, or at the flush that follows it. -/
inductive OutputStream.Fails [OutputStream ο] (byte : UInt8) (output : ο) : Failure → Prop where
  /-- The write fails. -/
  | write {failure : Failure} (reply : (OutputStream.write byte output).1 = .failed failure) :
      Fails byte output failure
  /-- The byte is not taken, which counts as a failure of the system. -/
  | refused (reply : (OutputStream.write byte output).1 = .refused) :
      Fails byte output .refused
  /-- The byte is taken, and the flush fails. -/
  | flush {failure : Failure} (accepted : (OutputStream.write byte output).1 = .accepted)
      (reply : (OutputStream.flush (OutputStream.write byte output).2).1 = .failed failure) :
      Fails byte output failure

/-- How the input of a byte fails. -/
inductive InputStream.Fails [InputStream ι] (input : ι) : Failure → Prop where
  /-- The read fails. -/
  | read {failure : Failure} (reply : (InputStream.read input).1 = .failed failure) :
      Fails input failure
  /-- No byte is given, which counts as the end of input. -/
  | nothing (reply : (InputStream.read input).1 = .data []) : Fails input .exhausted

/-- Writing a byte fails as the output does. -/
theorem OutputStream.exists_writeByte_eq_error_iff [OutputStream ο] {value : Int}
    (hvalue : 0 ≤ value ∧ value < 256) (output : ο) (failure : Failure) :
    (∃ after, OutputStream.writeByte value output = (.error failure, after)) ↔
      OutputStream.Fails (UInt8.ofNat value.toNat) output failure := by
  rw [OutputStream.writeByte, if_pos hvalue]
  cases hwrite : OutputStream.write (UInt8.ofNat value.toNat) output with
  | mk reply middle =>
    constructor
    · rintro ⟨after, h⟩
      cases reply with
      | accepted =>
        cases hflush : OutputStream.flush middle with
        | mk reply last =>
          cases reply <;> simp only [hflush, Prod.mk.injEq, reduceCtorEq, false_and] at h
          exact .flush (by rw [hwrite]) (by rw [hwrite, hflush, Except.error.inj h.1])
      | refused =>
        simp only [Prod.mk.injEq, Except.error.injEq] at h
        exact h.1 ▸ .refused (by rw [hwrite])
      | failed failure' =>
        simp only [Prod.mk.injEq, Except.error.injEq] at h
        exact .write (by rw [hwrite, h.1])
    · intro h
      cases h with
      | write failed =>
        obtain rfl : reply = .failed failure := by simpa only [hwrite] using failed
        exact ⟨middle, rfl⟩
      | refused refused =>
        obtain rfl : reply = .refused := by simpa only [hwrite] using refused
        exact ⟨middle, rfl⟩
      | flush accepted failed =>
        obtain rfl : reply = .accepted := by simpa only [hwrite] using accepted
        simp only [hwrite] at failed
        cases hflush : OutputStream.flush middle with
        | mk answer last =>
          obtain rfl : answer = .failed failure := by simpa only [hflush] using failed
          exact ⟨last, by simp only [hflush]⟩

/-- Reading a byte fails as the input does. -/
theorem InputStream.exists_readByte_eq_error_iff [InputStream ι] (input : ι) (failure : Failure) :
    (∃ after, InputStream.readByte input = (.error failure, after)) ↔
      InputStream.Fails input failure := by
  rw [InputStream.readByte]
  cases hread : InputStream.read input with
  | mk reply after =>
    constructor
    · rintro ⟨after', h⟩
      cases reply with
      | data bytes =>
        cases bytes with
        | nil =>
          simp only [Prod.mk.injEq, Except.error.injEq] at h
          exact h.1 ▸ .nothing (by rw [hread])
        | cons byte rest => simp at h
      | failed failure' =>
        simp only [Prod.mk.injEq, Except.error.injEq] at h
        exact .read (by rw [hread, h.1])
    · intro h
      cases h with
      | read failed =>
        obtain rfl : reply = .failed failure := by simpa only [hread] using failed
        exact ⟨after, rfl⟩
      | nothing empty =>
        obtain rfl : reply = .data [] := by simpa only [hread] using empty
        exact ⟨after, rfl⟩

namespace FailureKind

/-- The failures of a write that an instruction is at fault for. -/
theorem isOutputError_iff {kind : FailureKind} :
    kind.isOutputError = true ↔ kind.isSystem = true ∨ kind = .invalidValue := by
  cases kind <;> simp [isOutputError, isSystem]

/-- The failures of a read that an instruction is at fault for. -/
theorem isInputError_iff {kind : FailureKind} :
    kind.isInputError = true ↔
      kind.isSystem = true ∨ kind.isEndOfInput = true ∨ kind = .invalidValue := by
  cases kind <;> simp [isInputError, isSystem, isEndOfInput]

end FailureKind

/-- A number that is given with a failure changes nothing about who answers for it. -/
theorem Failure.blame_numbered (kind : FailureKind) (number : Int) (message : String) :
    (numbered kind number message).kind.isInputError = kind.isInputError ∧
      (numbered kind number message).kind.isOutputError = kind.isOutputError ∧
      (numbered kind number message).kind.isFault = kind.isFault := by
  by_cases hgeneral : kind = .system .general
  · rw [hgeneral]
    exact ⟨rfl, rfl, rfl⟩
  · simp only [numbered, if_neg hgeneral, and_self]

/-! ## The errors of a step -/

namespace Machine

/-- The byte that a machine would write. -/
def outputByte (machine : Machine) : UInt8 :=
  UInt8.ofNat (machine.cell.toByte machine.tape.current).toNat

/-- The operation at the program counter. -/
def nextOp? (machine : Machine) : Option Op := machine.next?.map Linked.op

/-- The next instruction of a machine is a given operation, and no linked bracket. -/
def NextIs (machine : Machine) (op : Op) : Prop :=
  ∃ instruction, machine.next? = some (.plain instruction) ∧ instruction.op = op

/-- The errors that a step of a machine at a console can raise, and when. -/
inductive Raises [InputStream ι] [OutputStream ο] (machine : Machine) (console : Console ι ο)
    (instruction : Instruction) : RunError → Prop where
  /-- A move left of the first cell. -/
  | tooLow (op : instruction.op = .left) (first : machine.tape.head = 0) :
      Raises machine console instruction
        (.fault ⟨machine.program.file, instruction, .seekTooLow⟩)
  /-- A move right of the last cell of a fixed tape. -/
  | tooHigh (op : instruction.op = .right) (last : machine.tape.head + 1 = machine.tape.size)
      (fixed : machine.mayGrow = false) :
      Raises machine console instruction
        (.fault ⟨machine.program.file, instruction, .seekTooHigh⟩)
  /-- An output that fails as an output may fail. -/
  | outputFault {failure : Failure} (op : instruction.op = .output)
      (fails : OutputStream.Fails machine.outputByte console.output failure)
      (blamed : failure.kind.isOutputError = true) :
      Raises machine console instruction
        (.fault ⟨machine.program.file, instruction, .io failure⟩)
  /-- An output that fails in another way. -/
  | outputFailure {failure : Failure} (op : instruction.op = .output)
      (fails : OutputStream.Fails machine.outputByte console.output failure)
      (passed : failure.kind.isOutputError = false) :
      Raises machine console instruction (.failure failure)
  /-- An input that fails as an input may fail. -/
  | inputFault {failure : Failure} (op : instruction.op = .input)
      (fails : InputStream.Fails console.input failure)
      (blamed : failure.kind.isInputError = true) :
      Raises machine console instruction
        (.fault ⟨machine.program.file, instruction, .io failure⟩)
  /-- An input that fails in another way. -/
  | inputFailure {failure : Failure} (op : instruction.op = .input)
      (fails : InputStream.Fails console.input failure)
      (passed : failure.kind.isInputError = false) :
      Raises machine console instruction (.failure failure)

section Steps

variable [InputStream ι] [OutputStream ο] {machine : Machine} {console : Console ι ο}
  {instruction : Instruction} {error : RunError}

/-- An operation that cannot be completed raises one of these errors. -/
theorem Raises.of_effect {operation : Primitive} {after : World ι ο}
    (hop : instruction.op = operation.op)
    (h : operation.Effect machine.rules instruction (machine.world console) (some error) after) :
    machine.Raises console instruction error := by
  have hwrite (failure : Failure) := OutputStream.exists_writeByte_eq_error_iff
    (machine.cell.toByte_bounds machine.tape.current) console.output failure
  have hread := InputStream.exists_readByte_eq_error_iff console.input
  cases h with
  | tooHigh last fixed => exact .tooHigh hop last fixed
  | tooLow first => exact .tooLow hop first
  | outputFault reply blamed => exact .outputFault hop ((hwrite _).mp ⟨_, reply⟩) blamed
  | outputFailure reply passed => exact .outputFailure hop ((hwrite _).mp ⟨_, reply⟩) passed
  | inputFault reply blamed => exact .inputFault hop ((hread _).mp ⟨_, reply⟩) blamed
  | inputFailure reply passed => exact .inputFailure hop ((hread _).mp ⟨_, reply⟩) passed

/-- Each of these errors is that of an operation that cannot be completed. -/
theorem Raises.exists_effect (h : machine.Raises console instruction error) :
    ∃ (operation : Primitive) (after : World ι ο), instruction.op = operation.op ∧
      operation.Effect machine.rules instruction (machine.world console) (some error) after := by
  have hwrite (failure : Failure) := OutputStream.exists_writeByte_eq_error_iff
    (machine.cell.toByte_bounds machine.tape.current) console.output failure
  have hread := InputStream.exists_readByte_eq_error_iff console.input
  cases h with
  | tooLow op first => exact ⟨.left, _, op, .tooLow first⟩
  | tooHigh op last fixed => exact ⟨.right, _, op, .tooHigh last fixed⟩
  | outputFault op fails blamed =>
    obtain ⟨after, reply⟩ := (hwrite _).mpr fails
    exact ⟨.output, _, op, .outputFault reply blamed⟩
  | outputFailure op fails passed =>
    obtain ⟨after, reply⟩ := (hwrite _).mpr fails
    exact ⟨.output, _, op, .outputFailure reply passed⟩
  | inputFault op fails blamed =>
    obtain ⟨after, reply⟩ := (hread _).mpr fails
    exact ⟨.input, _, op, .inputFault reply blamed⟩
  | inputFailure op fails passed =>
    obtain ⟨after, reply⟩ := (hread _).mpr fails
    exact ⟨.input, _, op, .inputFailure reply passed⟩

/-- The errors that a step raises. -/
theorem reply_step_eq_raised_iff :
    (machine.step console).reply = .raised error ↔
      ∃ instruction, machine.next? = some (.plain instruction) ∧
        machine.Raises console instruction error := by
  constructor
  · intro h
    have hstepped := machine.stepped_step console
    generalize machine.step console = outcome at h hstepped
    cases hstepped with
    | raised next op effect =>
      cases h
      exact ⟨_, next, .of_effect op effect⟩
    | _ => cases h
  · rintro ⟨instruction, next, h⟩
    obtain ⟨operation, after, op, effect⟩ := h.exists_effect
    rw [step_of_effect_raised next op effect]

/-- The data pointer is too low exactly if a move left starts at the first cell. -/
theorem exists_seekTooLow_iff :
    (∃ fault, (machine.step console).reply = .raised (.fault fault) ∧ fault.cause = .seekTooLow) ↔
      machine.NextIs .left ∧ machine.tape.head = 0 := by
  constructor
  · rintro ⟨fault, h, hcause⟩
    obtain ⟨instruction, hnext, hraises⟩ := reply_step_eq_raised_iff.mp h
    cases hraises with
    | tooLow op first => exact ⟨⟨instruction, hnext, op⟩, first⟩
    | _ => cases hcause
  · rintro ⟨⟨instruction, hnext, op⟩, first⟩
    exact ⟨_, reply_step_eq_raised_iff.mpr ⟨instruction, hnext, .tooLow op first⟩, rfl⟩

/-- It is too high exactly if a move right starts at the last cell of a fixed tape. -/
theorem exists_seekTooHigh_iff :
    (∃ fault, (machine.step console).reply = .raised (.fault fault) ∧ fault.cause = .seekTooHigh) ↔
      machine.NextIs .right ∧ machine.tape.head + 1 = machine.tape.size ∧
        machine.mayGrow = false := by
  constructor
  · rintro ⟨fault, h, hcause⟩
    obtain ⟨instruction, hnext, hraises⟩ := reply_step_eq_raised_iff.mp h
    cases hraises with
    | tooHigh op last fixed => exact ⟨⟨instruction, hnext, op⟩, last, fixed⟩
    | _ => cases hcause
  · rintro ⟨⟨instruction, hnext, op⟩, last, fixed⟩
    exact ⟨_, reply_step_eq_raised_iff.mpr ⟨instruction, hnext, .tooHigh op last fixed⟩, rfl⟩

/-- An instruction is at fault for a failed call exactly if it may be blamed for the failure. -/
theorem exists_io_iff (failure : Failure) :
    (∃ fault, (machine.step console).reply = .raised (.fault fault) ∧ fault.cause = .io failure) ↔
      (machine.NextIs .output ∧ OutputStream.Fails machine.outputByte console.output failure ∧
        failure.kind.isOutputError = true) ∨
      (machine.NextIs .input ∧ InputStream.Fails console.input failure ∧
        failure.kind.isInputError = true) := by
  constructor
  · rintro ⟨fault, h, hcause⟩
    obtain ⟨instruction, hnext, hraises⟩ := reply_step_eq_raised_iff.mp h
    cases hraises with
    | outputFault op fails blamed =>
      cases hcause
      exact .inl ⟨⟨instruction, hnext, op⟩, fails, blamed⟩
    | inputFault op fails blamed =>
      cases hcause
      exact .inr ⟨⟨instruction, hnext, op⟩, fails, blamed⟩
    | _ => cases hcause
  · rintro (⟨⟨instruction, hnext, op⟩, fails, blamed⟩ | ⟨⟨instruction, hnext, op⟩, fails, blamed⟩)
    · exact ⟨_, reply_step_eq_raised_iff.mpr ⟨instruction, hnext, .outputFault op fails blamed⟩,
        rfl⟩
    · exact ⟨_, reply_step_eq_raised_iff.mpr ⟨instruction, hnext, .inputFault op fails blamed⟩,
        rfl⟩

/-- Exactly the other failures are passed on as they are. -/
theorem reply_step_eq_failure_iff (failure : Failure) :
    (machine.step console).reply = .raised (.failure failure) ↔
      (machine.NextIs .output ∧ OutputStream.Fails machine.outputByte console.output failure ∧
        failure.kind.isOutputError = false) ∨
      (machine.NextIs .input ∧ InputStream.Fails console.input failure ∧
        failure.kind.isInputError = false) := by
  rw [reply_step_eq_raised_iff]
  constructor
  · rintro ⟨instruction, hnext, hraises⟩
    cases hraises with
    | outputFailure op fails passed => exact .inl ⟨⟨instruction, hnext, op⟩, fails, passed⟩
    | inputFailure op fails passed => exact .inr ⟨⟨instruction, hnext, op⟩, fails, passed⟩
  · rintro (⟨⟨instruction, hnext, op⟩, fails, passed⟩ | ⟨⟨instruction, hnext, op⟩, fails, passed⟩)
    · exact ⟨instruction, hnext, .outputFailure op fails passed⟩
    · exact ⟨instruction, hnext, .inputFailure op fails passed⟩

/-- A step that raises an error changes no more than the status. -/
theorem machine_step_of_raised (h : (machine.step console).reply = .raised error) :
    (machine.step console).machine =
      { machine with status := statusAfter machine.status error } := by
  have hstepped := machine.stepped_step console
  generalize machine.step console = outcome at h hstepped
  cases hstepped with
  | raised next op effect =>
    cases h
    rfl
  | _ => cases h

/-- No step raises the error of a trace that cannot be printed: a stream that fails in that way is
blamed on the instruction. -/
theorem reply_step_ne_overlong : (machine.step console).reply ≠ .raised (.failure .overlong) := by
  intro h
  obtain ⟨instruction, hnext, hraises⟩ := reply_step_eq_raised_iff.mp h
  cases hraises with
  | outputFailure op fails passed => cases passed
  | inputFailure op fails passed => cases passed

/-- A traced step raises that error exactly if its trace cannot be printed. -/
theorem reply_stepTraced_eq_overlong_iff :
    (machine.stepTraced console).reply = .raised (.failure .overlong) ↔
      machine.Untraceable console := by
  constructor
  · intro h
    refine Classical.not_not.mp fun huntraceable => ?_
    rw [reply_stepTraced huntraceable] at h
    exact reply_step_ne_overlong h
  · intro h
    rw [h.stepTraced_eq]

end Steps

/-! ## Errors in linked programs -/

/-- What the errors of a step keep to, for a machine that runs a linked program; the step may be
traced. -/
structure FaultsAtomically [InputStream ι] [OutputStream ο] (source : Program) (machine : Machine)
    (console : Console ι ο) : Prop where
  /-- Whatever error is raised, nothing but the status changes: the program counter, the tape, the
  settings and the program stay as they were. -/
  kept : ∀ error, (machine.stepTraced console).reply = .raised error →
    (machine.stepTraced console).machine =
      { machine with status := (machine.stepTraced console).machine.status }
  /-- A fault leaves the machine faulted, also one of another program that a stream passes on. -/
  faulted : ∀ error, (machine.stepTraced console).reply = .raised error → error.isFault = true →
    (machine.stepTraced console).machine.status = .faulted
  /-- Any other error leaves the status as it was. -/
  unmarked : ∀ error, (machine.stepTraced console).reply = .raised error →
    error.isFault = false → (machine.stepTraced console).machine.status = machine.status
  /-- A fault of the machine's own names the file and the instruction at the program counter. -/
  named : ∀ fault, (machine.stepTraced console).reply = .raised (.fault fault) →
    fault.file = source.file ∧ source.instructions[machine.pc]? = some fault.instruction
  /-- The data pointer is too low exactly if a move left starts at the first cell. -/
  tooLow : (∃ fault, (machine.stepTraced console).reply = .raised (.fault fault) ∧
      fault.cause = .seekTooLow) ↔
    machine.nextOp? = some .left ∧ machine.tape.head = 0
  /-- It is too high exactly if a move right starts at the last cell of a fixed tape. -/
  tooHigh : (∃ fault, (machine.stepTraced console).reply = .raised (.fault fault) ∧
      fault.cause = .seekTooHigh) ↔
    machine.nextOp? = some .right ∧ machine.tape.head + 1 = machine.tape.size ∧
      machine.mayGrow = false
  /-- An instruction is at fault for a failed call exactly if the output fails by the system or by
  an invalid value, or the input does or comes to its end; that failure is the cause. -/
  io : ∀ failure, (∃ fault, (machine.stepTraced console).reply = .raised (.fault fault) ∧
      fault.cause = .io failure) ↔
    (machine.nextOp? = some .output ∧
      OutputStream.Fails machine.outputByte console.output failure ∧
      (failure.kind.isSystem = true ∨ failure.kind = .invalidValue)) ∨
    (machine.nextOp? = some .input ∧ InputStream.Fails console.input failure ∧
      (failure.kind.isSystem = true ∨ failure.kind.isEndOfInput = true ∨
        failure.kind = .invalidValue))
  /-- Exactly the other failures are passed on as they are. -/
  passed : ∀ failure, (machine.stepTraced console).reply = .raised (.failure failure) ↔
    (machine.nextOp? = some .output ∧
      OutputStream.Fails machine.outputByte console.output failure ∧
      ¬ (failure.kind.isSystem = true ∨ failure.kind = .invalidValue)) ∨
    (machine.nextOp? = some .input ∧ InputStream.Fails console.input failure ∧
      ¬ (failure.kind.isSystem = true ∨ failure.kind.isEndOfInput = true ∨
        failure.kind = .invalidValue))
  /-- Otherwise the step returns: the program and the tape are read within their bounds, and what
  is written is a byte. -/
  within : machine.StepsWithin console

section Linked

variable [InputStream ι] [OutputStream ο] {source : Program} {linked : LinkedProgram}
  {machine : Machine}

/-- In a linked program the operations other than brackets stand as plain instructions. -/
theorem nextOp?_eq_some_iff (h : Paired source linked) (hprogram : machine.program = linked)
    (operation : Primitive) :
    machine.nextOp? = some operation.op ↔ machine.NextIs operation.op := by
  constructor
  · intro hop
    obtain ⟨entry, hnext, hentry⟩ := Option.map_eq_some_iff.mp hop
    have hmem : entry ∈ linked.instructions := by
      rw [← hprogram]
      exact Array.mem_of_getElem? hnext
    obtain ⟨instruction, rfl⟩ := (h.plain entry hmem).mpr
      ⟨hentry ▸ operation.op_ne_loopStart, hentry ▸ operation.op_ne_loopEnd⟩
    exact ⟨instruction, hnext, hentry⟩
  · rintro ⟨instruction, hnext, hop⟩
    rw [nextOp?, hnext]
    exact congrArg some hop

/-- The instruction at the program counter is the one of the source. -/
theorem getElem?_pc_of_next? (h : Paired source linked) (hprogram : machine.program = linked)
    {entry : Linked} (hnext : machine.next? = some entry) :
    source.instructions[machine.pc]? = some entry.instruction := by
  rw [next?, hprogram] at hnext
  rw [← h.instructions, List.getElem?_map, Array.getElem?_toList, hnext, Option.map_some]

/-- Whatever was done to a machine of a linked program before, a step that raises an error changes
nothing but the status, and the error is determined by the operation, the tape and the streams. The
step may be traced, if its trace can be printed. -/
theorem faultsAtomically_of_reached {kinds : List CellKind} (hlink : source.link = .ok linked)
    (hreached : machine.Reached linked kinds) (console : Console ι ο)
    (htrace : ¬ machine.Untraceable console) : machine.FaultsAtomically source console := by
  have hpaired := Program.paired_of_link_eq_ok hlink
  obtain ⟨hbounds, hprogram⟩ := hreached.inBounds hpaired.jumpsInside
  have hop := nextOp?_eq_some_iff hpaired hprogram
  have hleft : machine.nextOp? = some .left ↔ machine.NextIs .left := hop .left
  have hright : machine.nextOp? = some .right ↔ machine.NextIs .right := hop .right
  have houtput : machine.nextOp? = some .output ↔ machine.NextIs .output := hop .output
  have hinput : machine.nextOp? = some .input ↔ machine.NextIs .input := hop .input
  -- a trace that can be printed changes neither the reply nor the machine
  have hreply := reply_stepTraced htrace
  have hmachine {error : RunError} (h : (machine.stepTraced console).reply = .raised error) :
      (machine.stepTraced console).machine =
        { machine with status := statusAfter machine.status error } := by
    rw [machine_stepTraced, machine_step_of_raised (hreply.symm.trans h)]
  refine {
    kept := ?kept
    faulted := ?faulted
    unmarked := ?unmarked
    named := ?named
    tooLow := ?tooLow
    tooHigh := ?tooHigh
    io := ?io
    passed := ?passed
    within := hbounds.stepsWithin console }
  case kept =>
    intro error h
    rw [hmachine h]
  case faulted =>
    intro error h hfault
    rw [hmachine h, statusAfter, if_pos hfault]
  case unmarked =>
    intro error h hfault
    rw [hmachine h, statusAfter, if_neg (ne_true_of_eq_false hfault)]
  all_goals rw [hreply]
  case named =>
    intro fault h
    obtain ⟨instruction, hnext, hraises⟩ := reply_step_eq_raised_iff.mp h
    have hsource := getElem?_pc_of_next? hpaired hprogram hnext
    have hfile : machine.program.file = source.file := by rw [hprogram, hpaired.file]
    cases hraises <;> exact ⟨hfile, hsource⟩
  case tooLow =>
    rw [hleft]
    exact exists_seekTooLow_iff
  case tooHigh =>
    rw [hright]
    exact exists_seekTooHigh_iff
  case io =>
    intro failure
    rw [houtput, hinput, ← FailureKind.isOutputError_iff, ← FailureKind.isInputError_iff]
    exact exists_io_iff failure
  case passed =>
    intro failure
    rw [houtput, hinput, ← FailureKind.isOutputError_iff, ← FailureKind.isInputError_iff,
      Bool.not_eq_true, Bool.not_eq_true]
    exact reply_step_eq_failure_iff failure

end Linked

/-- A console whose output takes every byte and then fails to send it on. -/
def cloggedOutput : Console ScriptedInput ScriptedOutput :=
  ⟨{}, { outage := some (⟨0, none⟩, some ⟨.system .brokenPipe, "gone"⟩), failing := .flush }, false,
    ""⟩

/-- A machine that has already faulted faults again where it stands, and its byte has gone out
twice. -/
theorem faultsAtomically_clogged :
    ∃ program first, (Program.ofSource "dot.bf" [0x2b, 0x2e]).link = .ok program ∧
      MachineSettings.build ⟨1, false, {}⟩ program = .ok first ∧
      (first.run 2 cloggedOutput).machine.status = .faulted ∧
      (first.run 2 cloggedOutput).machine.FaultsAtomically
        (Program.ofSource "dot.bf" [0x2b, 0x2e]) (first.run 2 cloggedOutput).console ∧
      ((first.run 2 cloggedOutput).machine.stepTraced
        (first.run 2 cloggedOutput).console).console.output.stored = #[1, 1] := by
  have hlink : (Program.ofSource "dot.bf" [0x2b, 0x2e]).link = .ok _ := rfl
  refine ⟨_, _, hlink, rfl, rfl, ?_, rfl⟩
  exact faultsAtomically_of_reached hlink
    ⟨⟨1, false, {}⟩, _, [], rfl, evolves_run 2 _ cloggedOutput, rfl⟩ _
    (not_untraceable_of_untraced rfl)

/-- A step whose trace cannot be printed raises an error once the machine has gone on. -/
theorem Untraceable.not_faultsAtomically [InputStream ι] [OutputStream ο] {machine : Machine}
    {console : Console ι ο} (h : machine.Untraceable console)
    (hmoved : (machine.step console).machine.pc ≠ machine.pc) (source : Program) :
    (machine.stepTraced console).reply = .raised (.failure .overlong) ∧
      ¬ machine.FaultsAtomically source console := by
  have hreply : (machine.stepTraced console).reply = .raised (.failure .overlong) := by
    rw [h.stepTraced_eq]
  refine ⟨hreply, fun hatomic => hmoved ?_⟩
  have hkept := hatomic.kept _ hreply
  rw [machine_stepTraced] at hkept
  rw [hkept]

/-- A console whose steps are traced. -/
def tracedConsole : Console ScriptedInput ScriptedOutput := ⟨{}, {}, true, ""⟩

/-- A console whose input is run by a machine that faults. -/
def relayedFault : Console ScriptedInput ScriptedOutput :=
  ⟨{ outage := some (⟨0, none⟩, some ⟨.fault "SeekTooLow" "inner.bf" ⟨.left, 7, 7⟩, "too low"⟩) },
    {}, false, ""⟩

/-- Not every step that raises an error leaves the machine as it was: a cell of 20000 bits goes from
zero to a number of more than 6000 digits, which a trace cannot show, when the instruction has been
executed. And not every fault names the instruction at the program counter: a read that fails with
the fault of another program passes on that program's file. -/
theorem exists_unkept_and_exists_foreign :
    (∃ program first, (Program.ofSource "wide.bf" [0x2d, 0x2b]).link = .ok program ∧
      MachineSettings.build ⟨1, false, { bits := 20000 }⟩ program = .ok first ∧
      (first.stepTraced tracedConsole).reply = .raised (.failure .overlong) ∧
      ¬ first.FaultsAtomically (Program.ofSource "wide.bf" [0x2d, 0x2b]) tracedConsole) ∧
    ∃ program first failure, (Program.ofSource "outer.bf" [0x2c]).link = .ok program ∧
      MachineSettings.build ⟨1, false, {}⟩ program = .ok first ∧
      (first.stepTraced relayedFault).reply = .raised (.failure failure) ∧
      (first.stepTraced relayedFault).machine.status = .faulted ∧
      failure.kind = .fault "SeekTooLow" "inner.bf" ⟨.left, 7, 7⟩ := by
  constructor
  · have hlink : (Program.ofSource "wide.bf" [0x2d, 0x2b]).link = .ok _ := rfl
    refine ⟨_, _, hlink, rfl, ?_⟩
    apply Untraceable.not_faultsAtomically
    · exact untraceable_of_wide rfl rfl rfl Nat.one_pos rfl (by decide +kernel)
    · exact Nat.one_ne_zero
  · exact ⟨_, _, _, rfl, rfl, rfl, rfl, rfl⟩

end Machine

end Brainfuck
