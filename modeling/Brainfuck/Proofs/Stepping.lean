import Brainfuck.Proofs.Calls

/-! # Steps on end

Steps made one after another, each whatever the one before came to: also past the end of the
program, and again after an error. A run makes the same steps, up to the first that does not execute
an instruction.

Main definitions: `Machine.steps`, `Machine.stepsCalls`. Main statement:
`Machine.exists_steps_eq_run`. -/

namespace Brainfuck.Machine

variable {ι ο : Type} [InputStream ι] [OutputStream ο]

/-- What the last of `count` steps comes to, each of them made whatever the one before came to. -/
def steps (count : Nat) (machine : Machine) (console : Console ι ο) : Outcome ι ο :=
  match count with
  | 0 => ⟨.advanced, machine, console⟩
  | count + 1 =>
    let before := machine.steps count console
    before.machine.step before.console

/-- The calls of `count` steps, each of them made whatever the one before came to. -/
def stepsCalls (count : Nat) (machine : Machine) (console : Console ι ο) : List StreamCall :=
  match count with
  | 0 => []
  | count + 1 =>
    let before := machine.steps count console
    machine.stepsCalls count console ++ before.machine.stepCalls before.console

section Reading

variable (count : Nat) (machine : Machine) (console : Console ι ο)

@[simp] theorem steps_zero : machine.steps 0 console = ⟨.advanced, machine, console⟩ := rfl

theorem steps_succ :
    machine.steps (count + 1) console =
      (machine.steps count console).machine.step (machine.steps count console).console := rfl

theorem stepsCalls_succ :
    machine.stepsCalls (count + 1) console =
      machine.stepsCalls count console ++
        (machine.steps count console).machine.stepCalls (machine.steps count console).console := rfl

end Reading

/-! ## What steps leave alone -/

@[simp] theorem rules_step (machine : Machine) (console : Console ι ο) :
    (machine.step console).machine.rules = machine.rules := by
  have hstepped := machine.stepped_step console
  generalize machine.step console = outcome at hstepped
  cases hstepped <;> rfl

@[simp] theorem rules_steps (count : Nat) (machine : Machine) (console : Console ι ο) :
    (machine.steps count console).machine.rules = machine.rules := by
  induction count with
  | zero => rfl
  | succ count ih => rw [steps_succ, rules_step, ih]

@[simp] theorem program_steps (count : Nat) (machine : Machine) (console : Console ι ο) :
    (machine.steps count console).machine.program = machine.program := by
  induction count with
  | zero => rfl
  | succ count ih => rw [steps_succ, program_step, ih]

@[simp] theorem cell_steps (count : Nat) (machine : Machine) (console : Console ι ο) :
    (machine.steps count console).machine.cell = machine.cell :=
  congrArg Rules.cell (rules_steps count machine console)

@[simp] theorem mayGrow_steps (count : Nat) (machine : Machine) (console : Console ι ο) :
    (machine.steps count console).machine.mayGrow = machine.mayGrow :=
  congrArg Rules.mayGrow (rules_steps count machine console)

/-- The calls are all that steps do to the streams. -/
theorem streams_steps (count : Nat) (machine : Machine) (console : Console ι ο) :
    (machine.steps count console).console.streams =
      replay (machine.stepsCalls count console) console.streams := by
  induction count with
  | zero => rfl
  | succ count ih => rw [steps_succ, stepsCalls_succ, streams_step, replay_append, ih]

/-! ## Runs are steps -/

variable {machine : Machine} {console : Console ι ο}

theorem calls_one (machine : Machine) (console : Console ι ο) :
    machine.calls 1 console = machine.stepCalls console := by
  rw [calls]
  split <;> simp [calls]

/-- As long as every step executes an instruction, steps are a run. -/
theorem steps_eq_run {count : Nat}
    (h : ∀ earlier < count, (machine.steps earlier console).reply = .advanced) :
    machine.steps count console = machine.run count console ∧
      machine.stepsCalls count console = machine.calls count console := by
  induction count with
  | zero => exact ⟨rfl, rfl⟩
  | succ count ih =>
    obtain ⟨hrun, hcalls⟩ := ih fun earlier hearlier => h earlier (Nat.lt_succ_of_lt hearlier)
    have hadvanced := h count (Nat.lt_succ_self count)
    constructor
    · rw [steps_succ, hrun, run_succ_of_reply_eq_advanced]
      rw [← hrun]
      exact hadvanced
    · cases hbefore : machine.steps count console with
      | mk reply next later =>
        rw [hbefore] at hrun hadvanced
        obtain rfl : reply = .advanced := hadvanced
        rw [stepsCalls_succ, hcalls, calls_add hrun.symm, calls_one, hbefore]

/-- A run comes to what the first step came to that did not execute an instruction. -/
theorem run_eq_steps {count limit : Nat} (hle : count ≤ limit)
    (h : ∀ earlier < count, (machine.steps earlier console).reply = .advanced)
    (hended : (machine.steps count console).reply ≠ .advanced) :
    machine.run limit console = machine.steps count console ∧
      machine.calls limit console = machine.stepsCalls count console := by
  obtain ⟨hrun, hcalls⟩ := steps_eq_run h
  rw [hrun] at hended
  obtain ⟨more, rfl⟩ := Nat.le.dest hle
  exact ⟨by rw [run_add_of_ended hended, hrun], by rw [calls_add_of_ended hended, hcalls]⟩

/-- A run is a number of steps, all of which but the last execute an instruction; there are fewer
than its limit only if the last one does not. -/
theorem exists_steps_eq_run (limit : Nat) (machine : Machine) (console : Console ι ο) :
    ∃ count ≤ limit, machine.run limit console = machine.steps count console ∧
      machine.calls limit console = machine.stepsCalls count console ∧
      (∀ earlier < count, (machine.steps earlier console).reply = .advanced) ∧
      (count < limit → (machine.steps count console).reply ≠ .advanced) := by
  induction limit with
  | zero => exact ⟨0, Nat.le_refl 0, rfl, rfl, by simp, by simp⟩
  | succ limit ih =>
    obtain ⟨count, hle, hrun, hcalls, hearlier, hended⟩ := ih
    by_cases hreply : (machine.steps count console).reply = .advanced
    · -- the limit came first, so there is one step more
      have hcount : count = limit := by
        by_cases hlt : count < limit
        · exact absurd hreply (hended hlt)
        · omega
      subst hcount
      have hall : ∀ earlier < count + 1, (machine.steps earlier console).reply = .advanced := by
        intro earlier hlt
        by_cases heq : earlier = count
        · rw [heq, hreply]
        · exact hearlier earlier (by omega)
      obtain ⟨hsteps, hmade⟩ := steps_eq_run hall
      exact ⟨count + 1, Nat.le_refl _, hsteps.symm, hmade.symm, hall, by simp⟩
    · obtain ⟨hsteps, hmade⟩ := run_eq_steps (Nat.le_succ_of_le hle) hearlier hreply
      exact ⟨count, Nat.le_succ_of_le hle, hsteps, hmade, hearlier, fun _ => hreply⟩

/-- Runs whose steps give the same replies are made of the same number of steps. -/
theorem exists_steps_eq_runs {other : Machine} {console' : Console ι ο} {limit : Nat}
    (h : ∀ step ≤ limit,
      (machine.steps step console).reply = (other.steps step console').reply) :
    ∃ count ≤ limit, (machine.run limit console = machine.steps count console ∧
        machine.calls limit console = machine.stepsCalls count console) ∧
      other.run limit console' = other.steps count console' ∧
      other.calls limit console' = other.stepsCalls count console' := by
  obtain ⟨count, hle, hrun, hcalls, hearlier, hended⟩ := exists_steps_eq_run limit machine console
  have hearlier' : ∀ earlier < count, (other.steps earlier console').reply = .advanced := by
    intro earlier hlt
    rw [← h earlier (by omega)]
    exact hearlier earlier hlt
  refine ⟨count, hle, ⟨hrun, hcalls⟩, ?_⟩
  by_cases hlt : count < limit
  · have hlast : (other.steps count console').reply ≠ .advanced := by
      rw [← h count hle]
      exact hended hlt
    exact run_eq_steps hle hearlier' hlast
  · obtain rfl : count = limit := by omega
    obtain ⟨hsteps, hmade⟩ := steps_eq_run hearlier'
    exact ⟨hsteps.symm, hmade.symm⟩

end Brainfuck.Machine
