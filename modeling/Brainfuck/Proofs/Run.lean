import Brainfuck.Machine

/-! # Runs in parts

A run that was cut short by its limit can be taken up where it stopped, and a run that has ended
stays as it is under a larger limit, whether its steps are traced or not. -/

namespace Brainfuck.Machine

variable {ι ο : Type}

/-! ## Runs by any step -/

section RunBy

variable {step : Machine → Console ι ο → Outcome ι ο} {machine next : Machine}
  {console later : Console ι ο}

/-- A run of one step. -/
theorem runBy_one (step : Machine → Console ι ο → Outcome ι ο) (machine : Machine)
    (console : Console ι ο) : runBy step 1 machine console = step machine console := by
  cases hstep : step machine console with
  | mk reply next later =>
    by_cases hreply : reply = .advanced
    · rw [hreply] at hstep ⊢
      rw [runBy_succ_of_advanced hstep, runBy_zero]
    · rw [runBy_succ_of_ended (by rw [hstep]; exact hreply), hstep]

/-- A step that executes an instruction is followed by the rest of the run from what it left. -/
theorem runBy_succ_of_reply (h : (step machine console).reply = .advanced) (limit : Nat) :
    runBy step (limit + 1) machine console =
      runBy step limit (step machine console).machine (step machine console).console :=
  runBy_succ_of_advanced (by rw [← h]) limit

/-- A run is taken up where its limit cut it short. -/
theorem runBy_add {count : Nat} (h : runBy step count machine console = ⟨.advanced, next, later⟩)
    (limit : Nat) : runBy step (count + limit) machine console = runBy step limit next later := by
  induction count generalizing machine console with
  | zero =>
    rw [runBy_zero, Outcome.mk.injEq] at h
    obtain ⟨-, rfl, rfl⟩ := h
    rw [Nat.zero_add]
  | succ count ih =>
    rw [Nat.succ_add]
    cases hstep : step machine console with
    | mk reply machine' console' =>
      by_cases hreply : reply = .advanced
      · subst hreply
        rw [runBy_succ_of_advanced hstep] at h ⊢
        exact ih h
      · rw [runBy_succ_of_ended (by rw [hstep]; exact hreply), hstep, Outcome.mk.injEq] at h
        exact absurd h.1 hreply

/-- A larger limit changes nothing about a run that has ended. -/
theorem runBy_add_of_ended {limit : Nat} (h : (runBy step limit machine console).reply ≠ .advanced)
    (more : Nat) :
    runBy step (limit + more) machine console = runBy step limit machine console := by
  induction limit generalizing machine console with
  | zero => exact absurd rfl h
  | succ limit ih =>
    rw [Nat.succ_add]
    cases hstep : step machine console with
    | mk reply machine' console' =>
      by_cases hreply : reply = .advanced
      · subst hreply
        rw [runBy_succ_of_advanced hstep] at h ⊢
        rw [runBy_succ_of_advanced hstep]
        exact ih h
      · have hended : (step machine console).reply ≠ .advanced := by rw [hstep]; exact hreply
        rw [runBy_succ_of_ended hended, runBy_succ_of_ended hended]

/-- Two limits under which a run ends give the same outcome. -/
theorem runBy_eq_runBy_of_ended {first second : Nat}
    (hfirst : (runBy step first machine console).reply ≠ .advanced)
    (hsecond : (runBy step second machine console).reply ≠ .advanced) :
    runBy step first machine console = runBy step second machine console := by
  rw [← runBy_add_of_ended hfirst second, ← runBy_add_of_ended hsecond first, Nat.add_comm]

/-- A run that ends goes on from where a limit has cut it short. -/
theorem exists_runBy_eq_of_ended {count limit : Nat}
    (h : runBy step count machine console = ⟨.advanced, next, later⟩)
    (hended : (runBy step limit machine console).reply ≠ .advanced) :
    ∃ more, limit = count + more ∧
      runBy step limit machine console = runBy step more next later := by
  rcases Nat.le_total count limit with hle | hle
  · obtain ⟨more, rfl⟩ := Nat.le.dest hle
    exact ⟨more, rfl, runBy_add h more⟩
  · obtain ⟨more, rfl⟩ := Nat.le.dest hle
    rw [runBy_add_of_ended hended more] at h
    exact absurd (congrArg Outcome.reply h) hended

end RunBy

/-! ## Runs without a trace -/

section Run

variable [InputStream ι] [OutputStream ο] {machine next : Machine} {console later : Console ι ο}

/-- Past the last instruction a run ends. -/
theorem run_succ_of_next?_eq_none (h : machine.next? = none) (limit : Nat) :
    machine.run (limit + 1) console = ⟨.finished, { machine with status := .halted }, console⟩ := by
  rw [run_succ_of_ended (by rw [step_of_next?_eq_none h]; simp), step_of_next?_eq_none h]

/-- A step that raises an error ends a run. -/
theorem run_succ_of_raised {error : RunError}
    (h : machine.step console = ⟨.raised error, next, later⟩) (limit : Nat) :
    machine.run (limit + 1) console = ⟨.raised error, next, later⟩ := by
  rw [run_succ_of_ended (by rw [h]; simp), h]

theorem run_one (machine : Machine) (console : Console ι ο) :
    machine.run 1 console = machine.step console :=
  runBy_one _ machine console

theorem run_add {count : Nat} (h : machine.run count console = ⟨.advanced, next, later⟩)
    (limit : Nat) : machine.run (count + limit) console = next.run limit later :=
  runBy_add h limit

/-- A run that was cut short is followed by one step more. -/
theorem run_succ_of_reply_eq_advanced {limit : Nat}
    (h : (machine.run limit console).reply = .advanced) :
    machine.run (limit + 1) console =
      (machine.run limit console).machine.step (machine.run limit console).console := by
  cases hrun : machine.run limit console with
  | mk reply next later =>
    rw [hrun] at h
    obtain rfl : reply = .advanced := h
    rw [run_add hrun, run_one]

theorem run_add_of_ended {limit : Nat} (h : (machine.run limit console).reply ≠ .advanced)
    (more : Nat) : machine.run (limit + more) console = machine.run limit console :=
  runBy_add_of_ended h more

/-- Two limits under which a run ends give the same outcome. -/
theorem run_eq_run_of_ended {first second : Nat}
    (hfirst : (machine.run first console).reply ≠ .advanced)
    (hsecond : (machine.run second console).reply ≠ .advanced) :
    machine.run first console = machine.run second console :=
  runBy_eq_runBy_of_ended hfirst hsecond

/-- One step on, a run that has not stopped at once. -/
theorem run_of_step {limit : Nat} (hstep : machine.step console = ⟨.advanced, next, later⟩)
    (h : (machine.run limit console).reply ≠ .advanced) :
    ∃ rest, limit = rest + 1 ∧ machine.run limit console = next.run rest later := by
  cases limit with
  | zero => exact absurd rfl h
  | succ rest => exact ⟨rest, rfl, run_succ_of_advanced hstep rest⟩

end Run

/-! ## Traced runs -/

/-- A traced run that ends goes on from where a limit has cut it short. -/
theorem exists_runTraced_eq_of_ended [InputStream ι] [OutputStream ο] {machine next : Machine}
    {console later : Console ι ο} {count limit : Nat}
    (h : machine.runTraced count console = ⟨.advanced, next, later⟩)
    (hended : (machine.runTraced limit console).reply ≠ .advanced) :
    ∃ more, limit = count + more ∧ machine.runTraced limit console = next.runTraced more later :=
  exists_runBy_eq_of_ended h hended

end Brainfuck.Machine
