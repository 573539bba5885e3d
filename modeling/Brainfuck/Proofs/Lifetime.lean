import Brainfuck.Proofs.Calls
import Brainfuck.Proofs.Faults

/-! # The life of a machine

A machine is stepped and run, at whatever consoles, traced or not, and the steps that are made are
recorded. Its status follows from these steps although no step looks at it: a machine has halted
exactly if a step was made just past its program, and is faulted exactly if a step raised a fault
and none was made there since. A trace that cannot be printed is an error that leaves the status
alone.

Main definitions: `StepRecord`, `Machine.Lived`, `Reply.isFault`, `Status.Passes`, `Status.ToldBy`,
`Machine.AtRest`, `Machine.LifeCycle`. Main statements: a step, a run and any calls keep a machine
on course (`Machine.OnCourse.stepTraced`, `Machine.OnCourse.runTraced`, `Machine.OnCourse.lived`),
and so every machine of a linked program has this life cycle (`Machine.lifeCycle_of_lived`). -/

namespace Brainfuck

/-! ## Recorded lives -/

/-- A step that was made: the machine that it found, and what it came to. -/
structure StepRecord where
  /-- The machine before the step. -/
  before : Machine
  /-- What the step came to. -/
  reply : Reply

namespace Machine

section Records

variable {ι ο : Type} [InputStream ι] [OutputStream ο]

/-- The record of one step. -/
def stepRecord (machine : Machine) (console : Console ι ο) : StepRecord :=
  ⟨machine, (machine.stepTraced console).reply⟩

/-- The records of at most `limit` steps, the first one first. -/
def records (limit : Nat) (machine : Machine) (console : Console ι ο) : List StepRecord :=
  match limit with
  | 0 => []
  | limit + 1 =>
    machine.stepRecord console ::
      match machine.stepTraced console with
      | ⟨.advanced, machine, console⟩ => machine.records limit console
      | _ => []

variable {machine next : Machine} {console later : Console ι ο}

theorem records_succ_of_advanced (h : machine.stepTraced console = ⟨.advanced, next, later⟩)
    (limit : Nat) :
    machine.records (limit + 1) console =
      machine.stepRecord console :: next.records limit later := by
  rw [records, h]

theorem records_succ_of_ended (h : (machine.stepTraced console).reply ≠ .advanced) (limit : Nat) :
    machine.records (limit + 1) console = [machine.stepRecord console] := by
  rw [records]
  split
  · simp_all
  · rfl

end Records

/-- A machine became another one by calls of two kinds, each at a console of its own: single steps
and runs. The records of all the steps made are listed, the last one last. -/
inductive Lived (first : Machine) : List StepRecord → Machine → Prop where
  /-- No call was made. -/
  | new : Lived first [] first
  /-- A step was made. -/
  | step {history : List StepRecord} {machine : Machine} {ι ο : Type} [InputStream ι]
      [OutputStream ο] (console : Console ι ο) :
      Lived first history machine →
        Lived first (history ++ [machine.stepRecord console]) (machine.stepTraced console).machine
  /-- A run was made, to its end or to where it was cut short. -/
  | run {history : List StepRecord} {machine : Machine} {ι ο : Type} [InputStream ι]
      [OutputStream ο] (limit : Nat) (console : Console ι ο) :
      Lived first history machine →
        Lived first (history ++ machine.records limit console)
          (machine.runTraced limit console).machine

end Machine

/-! ## What a call does to the status -/

/-- Whether a step raised a fault. -/
def Reply.isFault : Reply → Bool
  | .raised error => error.isFault
  | _ => false

/-- What a call that came to a reply may make of the status of a machine. Nothing leads back to a
running machine, and nothing away from a halted one. -/
inductive Status.Passes : Status → Reply → Status → Prop where
  /-- A call that executes instructions keeps the status; a halted machine executes none. -/
  | advanced {status : Status} (alive : status ≠ .halted) : Passes status .advanced status
  /-- A call that finds the end of the program halts the machine, whatever it was. -/
  | finished {status : Status} : Passes status .finished .halted
  /-- A fault leaves a machine faulted; a halted machine raises none. -/
  | faulted {status : Status} {error : RunError} (fault : error.isFault = true)
      (alive : status ≠ .halted) : Passes status (.raised error) .faulted
  /-- Any other error leaves the status as it was. -/
  | failed {status : Status} {error : RunError} (other : error.isFault = false)
      (alive : status ≠ .halted) : Passes status (.raised error) status

/-- Only a call that finds the end of the program leaves a machine halted. -/
theorem Status.Passes.eq_finished {status : Status} {reply : Reply}
    (h : status.Passes reply .halted) : reply = .finished := by
  cases h with
  | finished => rfl
  | advanced alive => exact absurd rfl alive
  | failed other alive => exact absurd rfl alive

/-- A call that executes instructions and one after it are together what the second one is. -/
theorem Status.Passes.trans {first middle last : Status} {reply : Reply}
    (h : first.Passes .advanced middle) (h' : middle.Passes reply last) :
    first.Passes reply last := by
  cases h
  exact h'

/-- A status is the one that the steps made tell, if the program ends at `size`. -/
structure Status.ToldBy (size : Nat) (history : List StepRecord) (status : Status) : Prop where
  /-- The machine has halted exactly if a step was made just past the program. -/
  halted_iff : status = .halted ↔ ∃ record ∈ history, record.before.pc = size
  /-- It is faulted exactly if a step raised a fault and none was made just past the program. -/
  faulted_iff : status = .faulted ↔
    (∃ record ∈ history, record.reply.isFault = true) ∧
      ∀ record ∈ history, record.before.pc ≠ size

/-- Passing on as one more step does keeps the status told. -/
theorem Status.ToldBy.passes {size : Nat} {history : List StepRecord} {status after : Status}
    {before : Machine} {reply : Reply} (h : status.ToldBy size history)
    (hpasses : status.Passes reply after) (hfinishes : reply = .finished ↔ before.pc = size) :
    after.ToldBy size (history ++ [⟨before, reply⟩]) := by
  have hfaulted := h.faulted_iff
  have hnone : (∀ record ∈ history, record.before.pc ≠ size) ↔ status ≠ .halted := by
    rw [ne_eq, h.halted_iff]
    simp
  rw [hnone] at hfaulted
  -- a step was made just past the program if one was before or if this one was; likewise for faults
  constructor
  · simp only [List.mem_append, List.mem_singleton, or_and_right, exists_or, exists_eq_left,
      ← h.halted_iff, ← hfinishes]
    cases hpasses <;> simp_all
  · simp only [List.mem_append, List.mem_singleton, or_and_right, exists_or, exists_eq_left, or_imp,
      forall_and, forall_eq, hnone, ne_eq, ← hfinishes]
    cases hpasses <;> cases status <;> simp_all [Reply.isFault]

namespace Machine

/-- No call changes the machine, calls a stream or raises an error: each finds the end of the
program, now and after any further calls. -/
structure AtRest (machine : Machine) : Prop where
  /-- A step finds the end of the program and changes nothing. -/
  step : ∀ {ι ο : Type} [InputStream ι] [OutputStream ο] (console : Console ι ο),
    machine.stepTraced console = ⟨.finished, machine, console⟩
  /-- So does a run. -/
  run : ∀ {ι ο : Type} [InputStream ι] [OutputStream ο] (limit : Nat) (console : Console ι ο),
    machine.runTraced (limit + 1) console = ⟨.finished, machine, console⟩
  /-- Neither calls a stream. -/
  calls : ∀ {ι ο : Type} [InputStream ι] [OutputStream ο] (limit : Nat) (console : Console ι ο),
    machine.stepCalls console = [] ∧ machine.calls limit console = []
  /-- However the machine lives on, it stays what it is, and all steps find the end. -/
  later : ∀ {history : List StepRecord} {last : Machine}, machine.Lived history last →
    last = machine ∧ ∀ record ∈ history, record.reply = .finished

/-- What holds of a machine of a program after the steps of its history, for whatever call is made
next. -/
structure LifeCycle (program : LinkedProgram) (history : List StepRecord) (machine : Machine) :
    Prop where
  /-- A step finds no instruction exactly just past the program. -/
  finishes : ∀ {ι ο : Type} [InputStream ι] [OutputStream ο] (console : Console ι ο),
    (machine.stepTraced console).reply = .finished ↔ machine.pc = program.size
  /-- What a step does to the status. -/
  stepPasses : ∀ {ι ο : Type} [InputStream ι] [OutputStream ο] (console : Console ι ο),
    machine.status.Passes (machine.stepTraced console).reply
      (machine.stepTraced console).machine.status
  /-- What a run does to the status, also where its limit cuts it short. -/
  runPasses : ∀ {ι ο : Type} [InputStream ι] [OutputStream ο] (limit : Nat)
      (console : Console ι ο),
    machine.status.Passes (machine.runTraced (limit + 1) console).reply
      (machine.runTraced (limit + 1) console).machine.status
  /-- A run that ends without an error ends halted, just past the program. -/
  returns : ∀ {ι ο : Type} [InputStream ι] [OutputStream ο] (limit : Nat) (console : Console ι ο),
    (machine.runTraced limit console).reply = .finished →
      (machine.runTraced limit console).machine.status = .halted ∧
        (machine.runTraced limit console).machine.pc = program.size
  /-- A halted machine is at rest. -/
  rests : machine.status = .halted → machine.AtRest
  /-- The status is the one that the steps made tell. -/
  told : machine.status.ToldBy program.size history

/-! ## One step -/

/-- What is kept along the life of a machine of a program. -/
structure OnCourse (program : LinkedProgram) (history : List StepRecord) (machine : Machine) :
    Prop where
  /-- The machine runs the program. -/
  runs : machine.program = program
  /-- It is in bounds, with some kinds of cell. -/
  inBounds : ∃ kinds, machine.InBounds kinds
  /-- A halted machine stands just past the program. -/
  ended : machine.status = .halted → machine.pc = program.size
  /-- The status is the one that the steps made tell. -/
  told : machine.status.ToldBy program.size history

/-- A new machine is running, and no step has been made. -/
theorem onCourse_build {settings : MachineSettings} {program : LinkedProgram} {machine : Machine}
    (hjumps : program.JumpsInside) (h : settings.build program = .ok machine) :
    machine.OnCourse program [] := by
  have hbounds := inBounds_build hjumps h
  obtain ⟨kind, hcreate⟩ := MachineSettings.create_of_build h
  obtain ⟨count, -, rfl⟩ := create_eq_ok_iff.mp hcreate
  exact ⟨rfl, ⟨_, hbounds⟩, by simp, by simp, by simp⟩

section Steps

variable {ι ο : Type} [InputStream ι] [OutputStream ο] {program : LinkedProgram}
  {history : List StepRecord} {machine : Machine}

namespace OnCourse

/-- A step finds no instruction exactly just past the program. -/
theorem finishes (h : machine.OnCourse program history) (console : Console ι ο) :
    (machine.stepTraced console).reply = .finished ↔ machine.pc = program.size := by
  obtain ⟨kinds, hbounds⟩ := h.inBounds
  rw [← h.runs, reply_stepTraced_eq_finished_iff]
  exact (hbounds.stepsWithin console).fetched

/-- A machine with an instruction to execute has not halted. -/
theorem ne_halted (h : machine.OnCourse program history) {linked : Linked}
    (hnext : machine.next? = some linked) : machine.status ≠ .halted := by
  intro hhalted
  have hpc := pc_lt_of_next? hnext
  rw [h.runs, h.ended hhalted] at hpc
  exact Nat.lt_irrefl _ hpc

/-- What a step does to the status, before it is traced. -/
theorem passes_step (h : machine.OnCourse program history) (console : Console ι ο) :
    machine.status.Passes (machine.step console).reply (machine.step console).machine.status := by
  have hstepped := machine.stepped_step console
  generalize machine.step console = outcome at hstepped
  cases hstepped with
  | finished ended => exact .finished
  | completed next op effect => exact .advanced (h.ne_halted next)
  | @raised instruction operation error after next op effect =>
    cases hfault : error.isFault with
    | true =>
      rw [statusAfter, if_pos hfault]
      exact .faulted hfault (h.ne_halted next)
    | false =>
      rw [statusAfter, if_neg (ne_true_of_eq_false hfault)]
      exact .failed hfault (h.ne_halted next)
  | skipped next zero => exact .advanced (h.ne_halted next)
  | entered next nonzero => exact .advanced (h.ne_halted next)
  | returned next => exact .advanced (h.ne_halted next)
  | passed next bracket => exact .advanced (h.ne_halted next)

/-- What a step does to the status; a trace that cannot be printed leaves it alone. -/
theorem passes_stepTraced (h : machine.OnCourse program history) (console : Console ι ο) :
    machine.status.Passes (machine.stepTraced console).reply
      (machine.stepTraced console).machine.status := by
  have hpasses := h.passes_step console
  have htraced := machine.traced_stepTraced console
  generalize machine.stepTraced console = outcome at htraced
  cases htraced with
  | silent _ => exact hpasses
  | printed tracing fetched step written =>
    rw [step] at hpasses
    exact hpasses
  | @overlong linked next later tracing fetched step unwritten =>
    rw [step] at hpasses
    dsimp only at hpasses ⊢
    generalize next.status = status at hpasses ⊢
    cases hpasses
    exact .failed rfl (h.ne_halted fetched)

/-- A machine that a step leaves halted stands just past the program. -/
theorem ended_stepTraced (h : machine.OnCourse program history) (console : Console ι ο)
    (hhalted : (machine.stepTraced console).machine.status = .halted) :
    (machine.stepTraced console).machine.pc = program.size := by
  have hpasses := h.passes_stepTraced console
  rw [hhalted] at hpasses
  have hreply := hpasses.eq_finished
  rw [machine_stepTraced, step_of_next?_eq_none
    (reply_step_eq_finished_iff.mp (reply_stepTraced_eq_finished_iff.mp hreply))]
  exact (h.finishes console).mp hreply

/-- A step keeps a machine on course. -/
theorem stepTraced (h : machine.OnCourse program history) (console : Console ι ο) :
    (machine.stepTraced console).machine.OnCourse program
      (history ++ [machine.stepRecord console]) := by
  obtain ⟨kinds, hbounds⟩ := h.inBounds
  refine ⟨?_, ⟨kinds, ?_⟩, h.ended_stepTraced console,
    h.told.passes (h.passes_stepTraced console) (h.finishes console)⟩
  · rw [machine_stepTraced, program_step, h.runs]
  · rw [machine_stepTraced]
    exact (hbounds.step console).1

/-! ## Any number of steps -/

/-- A run keeps a machine on course. -/
theorem runTraced (h : machine.OnCourse program history) (limit : Nat) (console : Console ι ο) :
    (machine.runTraced limit console).machine.OnCourse program
      (history ++ machine.records limit console) := by
  induction limit generalizing machine console history with
  | zero => simpa [records, Machine.runTraced] using h
  | succ limit ih =>
    cases hstep : machine.stepTraced console with
    | mk reply next later =>
      have hnext := h.stepTraced console
      rw [hstep] at hnext
      by_cases hreply : reply = .advanced
      · subst hreply
        rw [Machine.runTraced, runBy_succ_of_advanced hstep, records_succ_of_advanced hstep,
          List.append_cons]
        exact ih hnext later
      · have hended : (machine.stepTraced console).reply ≠ .advanced := by
          rw [hstep]
          exact hreply
        rw [Machine.runTraced, runBy_succ_of_ended hended, records_succ_of_ended hended, hstep]
        exact hnext

/-- What a run does to the status. -/
theorem passes_runTraced (h : machine.OnCourse program history) (limit : Nat)
    (console : Console ι ο) :
    machine.status.Passes (machine.runTraced (limit + 1) console).reply
      (machine.runTraced (limit + 1) console).machine.status := by
  induction limit generalizing machine console history with
  | zero =>
    rw [Nat.zero_add, Machine.runTraced, runBy_one]
    exact h.passes_stepTraced console
  | succ limit ih =>
    have hfirst := h.passes_stepTraced console
    cases hstep : machine.stepTraced console with
    | mk reply next later =>
      have hnext := h.stepTraced console
      rw [hstep] at hnext hfirst
      by_cases hreply : reply = .advanced
      · subst hreply
        rw [Machine.runTraced, runBy_succ_of_advanced hstep]
        exact hfirst.trans (ih hnext later)
      · rw [Machine.runTraced, runBy_succ_of_ended (by rw [hstep]; exact hreply), hstep]
        exact hfirst

/-- A run that ends without an error ends halted, just past the program. -/
theorem returns_runTraced (h : machine.OnCourse program history) (limit : Nat)
    (console : Console ι ο) (hreply : (machine.runTraced limit console).reply = .finished) :
    (machine.runTraced limit console).machine.status = .halted ∧
      (machine.runTraced limit console).machine.pc = program.size := by
  cases limit with
  | zero => cases hreply
  | succ limit =>
    have hpasses := h.passes_runTraced limit console
    rw [hreply] at hpasses
    have hhalted : (machine.runTraced (limit + 1) console).machine.status = .halted := by
      generalize (machine.runTraced (limit + 1) console).machine.status = status at hpasses
      cases hpasses
      rfl
    exact ⟨hhalted, (h.runTraced (limit + 1) console).ended hhalted⟩

end OnCourse

/-- Any calls keep a machine on course. -/
theorem OnCourse.lived {first : Machine} {later : List StepRecord}
    (h : first.OnCourse program history) (hlived : first.Lived later machine) :
    machine.OnCourse program (history ++ later) := by
  induction hlived with
  | new => rwa [List.append_nil]
  | step console _ ih =>
    rw [← List.append_assoc]
    exact ih.stepTraced console
  | run limit console _ ih =>
    rw [← List.append_assoc]
    exact ih.runTraced limit console

end Steps

/-! ## The end of a life -/

/-- A halted machine without an instruction is at rest. -/
theorem atRest_of_halted {machine : Machine} (hnext : machine.next? = none)
    (hhalted : machine.status = .halted) : machine.AtRest := by
  have hsame : { machine with status := .halted } = machine := by rw [← hhalted]
  have hstep {ι ο : Type} [InputStream ι] [OutputStream ο] (console : Console ι ο) :
      machine.stepTraced console = ⟨.finished, machine, console⟩ := by
    rw [stepTraced_of_next?_eq_none hnext, hsame]
  have hended {ι ο : Type} [InputStream ι] [OutputStream ο] (console : Console ι ο) :
      (machine.stepTraced console).reply ≠ .advanced := by
    simp [hstep]
  have hrun {ι ο : Type} [InputStream ι] [OutputStream ο] (limit : Nat) (console : Console ι ο) :
      machine.runTraced (limit + 1) console = ⟨.finished, machine, console⟩ := by
    rw [runTraced, runBy_succ_of_ended (hended console), hstep]
  refine ⟨hstep, hrun, ?_, ?_⟩
  · intro ι ο _ _ limit console
    have hcalls : machine.stepCalls console = [] := by simp only [stepCalls, hnext]
    cases limit with
    | zero => exact ⟨hcalls, rfl⟩
    | succ limit =>
      have hstill : (machine.step console).reply ≠ .advanced := by
        simp [step_of_next?_eq_none hnext]
      exact ⟨hcalls, by rw [calls_succ_of_ended hstill, hcalls]⟩
  · intro history last hlived
    -- each further call finds the same machine
    induction hlived with
    | new => exact ⟨rfl, by simp⟩
    | step console _ ih =>
      obtain ⟨rfl, hhistory⟩ := ih
      rw [stepRecord, hstep]
      exact ⟨rfl, by simpa [or_imp, forall_and] using hhistory⟩
    | run limit console _ ih =>
      obtain ⟨rfl, hhistory⟩ := ih
      cases limit with
      | zero => exact ⟨rfl, by simpa [records] using hhistory⟩
      | succ limit =>
        rw [hrun, records_succ_of_ended (hended console), stepRecord, hstep]
        exact ⟨rfl, by simpa [or_imp, forall_and] using hhistory⟩

/-- Whatever steps and runs were made on a machine of a linked program, at whatever consoles: where
it stands in its life is told by the steps made, each further call passes its status on as allowed,
and a halted machine stays at rest. -/
theorem lifeCycle_of_lived {source : Program} {program : LinkedProgram}
    {settings : MachineSettings} {first machine : Machine} {history : List StepRecord}
    (hlink : source.link = .ok program) (hbuild : settings.build program = .ok first)
    (hlived : first.Lived history machine) : machine.LifeCycle program history := by
  have hjumps := (Program.paired_of_link_eq_ok hlink).jumpsInside
  have hcourse : machine.OnCourse program history := (onCourse_build hjumps hbuild).lived hlived
  refine ⟨hcourse.finishes, hcourse.passes_stepTraced, hcourse.passes_runTraced,
    hcourse.returns_runTraced, ?_, hcourse.told⟩
  intro hhalted
  have hnext : machine.next? = none := by
    rw [next?, Array.getElem?_eq_none_iff, hcourse.runs]
    exact Nat.le_of_eq (hcourse.ended hhalted).symm
  exact atRest_of_halted hnext hhalted

/-- A console whose reads fail in a way that no instruction answers for. -/
def interruptedInput : Console ScriptedInput ScriptedOutput :=
  ⟨{ outage := some (⟨0, none⟩, some ⟨.other "Interrupt", "stopped"⟩) }, {}, false, ""⟩

/-- A console with one byte of input. -/
def oneByteInput : Console ScriptedInput ScriptedOutput := ⟨{ remaining := [7] }, {}, false, ""⟩

/-- A machine that copies a byte finds no input and is faulted, is interrupted and stays so, is
passed the fault of another machine, and is given its byte and halts. -/
theorem lifeCycle_retried :
    ∃ program first, (Program.ofSource "copy.bf" [0x2c, 0x2e]).link = .ok program ∧
      MachineSettings.build ⟨1, false, {}⟩ program = .ok first ∧
      ∃ early faulted late halted, first.Lived early faulted ∧ first.Lived (early ++ late) halted ∧
        faulted.status = .faulted ∧ faulted.LifeCycle program early ∧
        early.map (·.reply) = [.raised (.fault ⟨"copy.bf", ⟨.input, 1, 1⟩, .io .exhausted⟩),
          .raised (.failure ⟨.other "Interrupt", "stopped"⟩),
          .raised (.failure ⟨.fault "SeekTooLow" "inner.bf" ⟨.left, 7, 7⟩, "too low"⟩)] ∧
        halted.status = .halted ∧ halted.LifeCycle program (early ++ late) ∧
        late.map (·.reply) = [.advanced, .advanced, .finished, .finished] := by
  have hlink : (Program.ofSource "copy.bf" [0x2c, 0x2e]).link = .ok _ := rfl
  have hfaulted (first : Machine) :=
    (((@Lived.new first).step Console.noInput).step interruptedInput).step relayedFault
  have hhalted (first : Machine) := ((hfaulted first).run 9 oneByteInput).step Console.noInput
  simp only [List.append_assoc _ (records _ _ _)] at hhalted
  exact ⟨_, _, hlink, rfl, _, _, _, _, hfaulted _, hhalted _, rfl,
    @lifeCycle_of_lived _ _ ⟨1, false, {}⟩ _ _ _ hlink rfl (hfaulted _), rfl, rfl,
    @lifeCycle_of_lived _ _ ⟨1, false, {}⟩ _ _ _ hlink rfl (hhalted _), rfl⟩

end Machine

end Brainfuck
