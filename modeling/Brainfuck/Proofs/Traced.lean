import Brainfuck.Proofs.Calls

/-! # Traced steps

Tracing is done once an instruction has been executed. A traced step leaves the machine that the
step leaves and does the same to the streams. It comes to the same, too, and adds its trace to the
diagnostic text, unless the trace holds a number that cannot be written out.

Main definitions: `Machine.Traced`, `Machine.Untraceable`. Main statements: what a traced step can
come to (`Machine.traced_stepTraced`), and that a wide cell is enough for a trace that cannot be
printed (`Machine.untraceable_of_wide`). -/

namespace Brainfuck.Machine

variable {ι ο : Type} [InputStream ι] [OutputStream ο] {machine : Machine} {console : Console ι ο}

/-- A step leaves the diagnostic text as it is, and neither begins nor stops tracing. -/
theorem log_and_tracing_step (machine : Machine) (console : Console ι ο) :
    (machine.step console).console.log = console.log ∧
      (machine.step console).console.tracing = console.tracing := by
  have hstepped := machine.stepped_step console
  generalize machine.step console = outcome at hstepped
  cases hstepped <;> exact ⟨rfl, rfl⟩

/-- A step that executes an instruction has found one. -/
theorem exists_next?_of_advanced (h : (machine.step console).reply = .advanced) :
    ∃ linked, machine.next? = some linked := by
  cases hnext : machine.next? with
  | none =>
    rw [reply_step_eq_finished_iff.mpr hnext] at h
    cases h
  | some linked => exact ⟨linked, rfl⟩

/-- All that a traced step can come to, by what the step comes to. -/
inductive Traced (machine : Machine) (console : Console ι ο) : Outcome ι ο → Prop where
  /-- Nothing is traced, or no instruction was executed. -/
  | silent (h : console.tracing = false ∨ (machine.step console).reply ≠ .advanced) :
      Traced machine console (machine.step console)
  /-- The trace of the executed instruction was printed. -/
  | printed {linked : Linked} {next : Machine} {later : Console ι ο} {text : String}
      (tracing : console.tracing = true) (fetched : machine.next? = some linked)
      (step : machine.step console = ⟨.advanced, next, later⟩)
      (written : next.traceText? linked = some text) :
      Traced machine console ⟨.advanced, next, later.print text⟩
  /-- The trace of the executed instruction could not be printed. -/
  | overlong {linked : Linked} {next : Machine} {later : Console ι ο}
      (tracing : console.tracing = true) (fetched : machine.next? = some linked)
      (step : machine.step console = ⟨.advanced, next, later⟩)
      (unwritten : next.traceText? linked = none) :
      Traced machine console ⟨.raised (.failure .overlong), next, later⟩

/-- A traced step comes to one of these. -/
theorem traced_stepTraced (machine : Machine) (console : Console ι ο) :
    machine.Traced console (machine.stepTraced console) := by
  by_cases hreply : (machine.step console).reply = .advanced
  · cases htracing : console.tracing with
    | false =>
      rw [stepTraced_of_untraced ((machine.log_and_tracing_step console).2.trans htracing)]
      exact .silent (.inl htracing)
    | true =>
      obtain ⟨linked, hnext⟩ := exists_next?_of_advanced hreply
      cases hstep : machine.step console with
      | mk reply next later =>
        obtain rfl : reply = .advanced := by rw [hstep] at hreply; exact hreply
        have hlater : later.tracing = true := by
          have hsame := (machine.log_and_tracing_step console).2
          rw [hstep] at hsame
          exact hsame.trans htracing
        simp only [stepTraced, hstep, hlater, if_true, hnext, Option.bind_some]
        cases htext : next.traceText? linked with
        | none => exact .overlong htracing hnext hstep htext
        | some text => exact .printed htracing hnext hstep htext
  · rw [stepTraced_of_ended hreply]
    exact .silent (.inr hreply)

/-- A traced step does to the streams what the step does. -/
theorem streams_stepTraced (machine : Machine) (console : Console ι ο) :
    (machine.stepTraced console).console.streams = (machine.step console).console.streams := by
  have htraced := machine.traced_stepTraced console
  generalize machine.stepTraced console = outcome at htraced
  cases htraced with
  | silent h => rfl
  | printed tracing fetched step written =>
    rw [step]
    rfl
  | overlong tracing fetched step unwritten => rw [step]

/-- A traced step neither begins nor stops tracing. -/
theorem tracing_stepTraced (machine : Machine) (console : Console ι ο) :
    (machine.stepTraced console).console.tracing = console.tracing := by
  have hsame := (machine.log_and_tracing_step console).2
  have htraced := machine.traced_stepTraced console
  generalize machine.stepTraced console = outcome at htraced
  cases htraced with
  | silent h => exact hsame
  | printed tracing fetched step written =>
    rw [step] at hsame
    exact hsame
  | overlong tracing fetched step unwritten =>
    rw [step] at hsame
    exact hsame

/-- A traced step finds the end of the program where the step does. -/
theorem reply_stepTraced_eq_finished_iff :
    (machine.stepTraced console).reply = .finished ↔ (machine.step console).reply = .finished := by
  have htraced := machine.traced_stepTraced console
  generalize machine.stepTraced console = outcome at htraced
  cases htraced with
  | silent h => rfl
  | printed tracing fetched step written => rw [step]
  | overlong tracing fetched step unwritten => simp [step]

/-- A traced step that goes well executes an instruction. -/
theorem reply_step_of_stepTraced_advanced (h : (machine.stepTraced console).reply = .advanced) :
    (machine.step console).reply = .advanced := by
  have htraced := machine.traced_stepTraced console
  generalize machine.stepTraced console = outcome at h htraced
  cases htraced with
  | silent hsilent => exact h
  | printed tracing fetched step written => rw [step]
  | overlong tracing fetched step unwritten => rw [step]

/-- What is to be printed of a step that executes an instruction, if its numbers can be written
out. -/
def stepText? (machine : Machine) (console : Console ι ο) : Option String :=
  machine.next?.bind (machine.step console).machine.traceText?

/-- Where nothing is traced, a traced step is a step. -/
theorem stepTraced_eq (h : console.tracing = false) :
    machine.stepTraced console = machine.step console :=
  stepTraced_of_untraced ((machine.log_and_tracing_step console).2.trans h)

/-- So is a traced run a run. -/
theorem runTraced_eq (h : console.tracing = false) (limit : Nat) :
    machine.runTraced limit console = machine.run limit console := by
  induction limit generalizing machine console with
  | zero => rfl
  | succ limit ih =>
    have hsame : machine.stepTraced console = machine.step console := stepTraced_eq h
    have htracing := (machine.log_and_tracing_step console).2
    cases hstep : machine.step console with
    | mk reply next later =>
      rw [hstep] at hsame htracing
      by_cases hreply : reply = .advanced
      · subst hreply
        rw [runTraced, runBy_succ_of_advanced hsame, run_succ_of_advanced hstep]
        exact ih (htracing.trans h)
      · rw [runTraced, runBy_succ_of_ended (by rw [hsame]; exact hreply), hsame,
          run_succ_of_ended (by rw [hstep]; exact hreply), hstep]

/-- The step of a machine executes an instruction whose trace is to be printed and cannot be. -/
structure Untraceable (machine : Machine) (console : Console ι ο) : Prop where
  /-- Steps are traced. -/
  tracing : console.tracing = true
  /-- An instruction is executed. -/
  executed : (machine.step console).reply = .advanced
  /-- Some number in its trace has too many digits. -/
  overlong : machine.stepText? console = none

/-- A trace that cannot be printed is an error, and that is all. -/
theorem Untraceable.stepTraced_eq (h : machine.Untraceable console) :
    machine.stepTraced console =
      ⟨.raised (.failure .overlong), (machine.step console).machine,
        (machine.step console).console⟩ := by
  have htraced := machine.traced_stepTraced console
  generalize machine.stepTraced console = outcome at htraced
  cases htraced with
  | silent hsilent =>
    rcases hsilent with hsilent | hsilent
    · cases h.tracing.symm.trans hsilent
    · exact absurd h.executed hsilent
  | printed tracing fetched step written =>
    have hoverlong := h.overlong
    rw [stepText?, fetched, step, Option.bind_some, written] at hoverlong
    cases hoverlong
  | overlong tracing fetched step unwritten => rw [step]

/-- A traced step comes to what the step comes to, unless its trace cannot be printed. -/
theorem reply_stepTraced (h : ¬ machine.Untraceable console) :
    (machine.stepTraced console).reply = (machine.step console).reply := by
  have htraced := machine.traced_stepTraced console
  generalize machine.stepTraced console = outcome at htraced
  cases htraced with
  | silent hsilent => rfl
  | printed tracing fetched step written => rw [step]
  | overlong tracing fetched step unwritten =>
    refine absurd ⟨tracing, ?_, ?_⟩ h
    · rw [step]
    · rw [stepText?, fetched, step, Option.bind_some, unwritten]

/-- Consoles that are traced alike, and that the step does not tell apart, are not told apart by the
traced step either. -/
theorem reply_stepTraced_congr {other : Console ι ο} (htracing : console.tracing = other.tracing)
    (hreply : (machine.step console).reply = (machine.step other).reply)
    (hmachine : (machine.step console).machine = (machine.step other).machine) :
    (machine.stepTraced console).reply = (machine.stepTraced other).reply := by
  have hsame : machine.Untraceable console ↔ machine.Untraceable other := by
    constructor
    · rintro ⟨tracing, executed, overlong⟩
      exact ⟨htracing ▸ tracing, hreply ▸ executed, by rwa [stepText?, ← hmachine]⟩
    · rintro ⟨tracing, executed, overlong⟩
      exact ⟨htracing ▸ tracing, hreply ▸ executed, by rwa [stepText?, hmachine]⟩
  by_cases h : machine.Untraceable console
  · rw [h.stepTraced_eq, (hsame.mp h).stepTraced_eq]
  · rw [reply_stepTraced h, reply_stepTraced (mt hsame.mpr h), hreply]

/-- What a traced step adds to the diagnostic text. -/
def printed (machine : Machine) (console : Console ι ο) : String :=
  if console.tracing = true ∧ (machine.stepTraced console).reply = .advanced then
    (machine.stepText? console).getD ""
  else ""

theorem log_stepTraced_eq (machine : Machine) (console : Console ι ο) :
    (machine.stepTraced console).console.log = console.log ++ machine.printed console := by
  have hlog := (machine.log_and_tracing_step console).1
  have htraced := machine.traced_stepTraced console
  unfold printed
  generalize machine.stepTraced console = outcome at htraced
  cases htraced with
  | silent hsilent =>
    have hquiet : ¬ (console.tracing = true ∧ (machine.step console).reply = .advanced) := by
      rintro ⟨htracing, hadvanced⟩
      rcases hsilent with hsilent | hsilent
      · cases htracing.symm.trans hsilent
      · exact hsilent hadvanced
    rw [if_neg hquiet, hlog, String.append_empty]
  | printed tracing fetched step written =>
    rw [step] at hlog
    rw [if_pos ⟨tracing, rfl⟩, stepText?, fetched, step, Option.bind_some, written, ← hlog]
    rfl
  | overlong tracing fetched step unwritten =>
    rw [step] at hlog
    rw [if_neg (by simp), String.append_empty]
    exact hlog

/-- Where nothing is traced, every step can be. -/
theorem not_untraceable_of_untraced (h : console.tracing = false) :
    ¬ machine.Untraceable console := by
  intro huntraceable
  cases huntraceable.tracing.symm.trans h

/-- A cell wide enough for a number of too many digits comes to hold one: it is there that a traced
step executes an instruction and raises an error all the same. -/
theorem untraceable_of_wide {instruction : Instruction} (tracing : console.tracing = true)
    (next : machine.next? = some (.plain instruction)) (op : instruction.op = .sub)
    (inside : machine.tape.head < machine.tape.size) (zero : machine.tape.current = 0)
    (wide : Nat.pow 10 Numeral.digitLimit ≤ machine.cell.mask) : machine.Untraceable console := by
  have hexecuted : machine.step console =
      ⟨.advanced, machine.proceed (·.write (machine.cell.decrement 0)), console⟩ := by
    simp only [step, next, execute, op, zero]
  refine ⟨tracing, by rw [hexecuted], ?_⟩
  have hcurrent : (machine.proceed (·.write (machine.cell.decrement 0))).tape.current =
      machine.cell.mask :=
    (machine.tape.current_write _ inside).trans machine.cell.decrement_zero
  have hcell : Numeral.write? Numeral.standardLimit (machine.cell.mask : Int) = none := by
    rw [Numeral.write?, if_neg]
    simpa [Numeral.fits, Numeral.standardLimit] using wide
  rw [stepText?, hexecuted, next, Option.bind_some, traceText?, hcurrent, hcell]
  simp

end Brainfuck.Machine
