import Brainfuck.Proofs.Stepping

/-! # How far a tape extends

What steps do to the tape of a machine: where the data pointer can get to, how many cells there are
then, and which of them are as they were.

Main definitions: `Tape.view`, `Machine.TapeStep`, `Machine.farthest`. Main statements:
`Machine.size_steps`, `Machine.view_steps` and `Machine.isTooHigh_step_iff`. -/

namespace Brainfuck

variable {ι ο : Type}

/-! ## Cells, also past the end -/

namespace Tape

/-- The value of a cell; past the end of the tape, that of a new one. -/
def view (zero : Int) (tape : Tape) (index : Nat) : Int := tape.cells.getD index zero

section View

variable (zero value : Int) (tape : Tape) (index : Nat)

@[simp] theorem view_moveRight : tape.moveRight.view zero index = tape.view zero index := rfl

/-- A new cell holds what was seen in its place. -/
@[simp] theorem view_grow : (tape.grow zero).view zero index = tape.view zero index := by
  simp only [view, grow, Array.getD_eq_getD_getElem?, Array.getElem?_push]
  grind

/-- A write is seen in the current cell and in no other. -/
theorem view_write (h : tape.head < tape.size) :
    (tape.write value).view zero index =
      if index = tape.head then value else tape.view zero index := by
  have hbound : tape.head < tape.cells.size := h
  simp only [view, write, Array.getD_eq_getD_getElem?, Array.getElem?_setIfInBounds]
  grind

theorem view_blank (size : Nat) : (blank size zero).view zero index = zero := by
  simp only [view, blank, Array.getD_eq_getD_getElem?, Array.getElem?_replicate]
  grind

/-- The current cell is seen at the data pointer. -/
theorem view_head (h : tape.head < tape.size) : tape.view zero tape.head = tape.current := by
  have hbound : tape.head < tape.cells.size := h
  simp [view, current, hbound]

end View

end Tape

/-! ## What one step does to a tape -/

/-- An instruction could not move right of the last cell. -/
def Reply.IsTooHigh (reply : Reply) : Prop :=
  ∃ file instruction, reply = .raised (.fault ⟨file, instruction, .seekTooHigh⟩)

namespace Machine

/-- The next instruction is to move right. -/
def AtRight (machine : Machine) : Prop :=
  ∃ instruction, machine.next? = some (.plain instruction) ∧ instruction.op = .right

/-- All that a step can do to a tape whose data pointer is on it. -/
inductive TapeStep (machine : Machine) : Tape → Prop where
  /-- The tape stays as it is. -/
  | same : TapeStep machine machine.tape
  /-- The next cell becomes the current one. -/
  | right (atRight : machine.AtRight) (inside : machine.tape.head + 1 < machine.tape.size) :
      TapeStep machine machine.tape.moveRight
  /-- A cell is appended and becomes the current one. -/
  | grow (atRight : machine.AtRight) (last : machine.tape.head + 1 = machine.tape.size)
      (mayGrow : machine.mayGrow = true) :
      TapeStep machine (machine.tape.grow machine.cell.zero).moveRight
  /-- The previous cell becomes the current one. -/
  | left (inside : machine.tape.head ≠ 0) : TapeStep machine machine.tape.moveLeft
  /-- A value is stored in the current cell. -/
  | write (value : Int) : TapeStep machine (machine.tape.write value)

section Step

variable [InputStream ι] [OutputStream ο] {machine : Machine}

theorem tapeStep_step (hhead : machine.tape.head < machine.tape.size) (console : Console ι ο) :
    machine.TapeStep (machine.step console).machine.tape := by
  have hstepped := machine.stepped_step console
  generalize machine.step console = outcome at hstepped
  cases hstepped with
  | finished ended => exact .same
  | completed next op effect =>
    cases effect with
    | right inside =>
      have hinside : machine.tape.head + 1 ≠ machine.tape.size := inside
      exact .right ⟨_, next, op⟩ (by omega)
    | grow last mayGrow => exact .grow ⟨_, next, op⟩ last mayGrow
    | left inside => exact .left inside
    | add => exact .write _
    | sub => exact .write _
    | output reply => exact .same
    | input reply => exact .write _
  | raised next op effect => exact .same
  | skipped next zero => exact .same
  | entered next nonzero => exact .same
  | returned next => exact .same
  | passed next bracket => exact .same

/-- At the last cell of a fixed tape a move right is at fault. -/
theorem step_of_tooHigh {instruction : Instruction}
    (hnext : machine.next? = some (.plain instruction)) (hop : instruction.op = .right)
    (hlast : machine.tape.head + 1 = machine.tape.size) (hfixed : machine.mayGrow = false)
    (console : Console ι ο) :
    machine.step console =
      ⟨.raised (.fault ⟨machine.program.file, instruction, .seekTooHigh⟩),
        { machine with status := .faulted }, console⟩ := by
  have heffect : Primitive.right.Effect machine.rules instruction (machine.world console)
      (some (.fault ⟨machine.program.file, instruction, .seekTooHigh⟩)) (machine.world console) :=
    .tooHigh hlast hfixed
  have hright : instruction.op = Primitive.right.op := hop
  exact step_of_effect_raised hnext hright heffect

/-- A step is stopped at the end of the tape exactly at a move right of the last cell of a fixed
one. -/
theorem isTooHigh_step_iff (machine : Machine) (console : Console ι ο) :
    (machine.step console).reply.IsTooHigh ↔
      machine.AtRight ∧ machine.tape.head + 1 = machine.tape.size ∧ machine.mayGrow = false := by
  constructor
  · rintro ⟨file, instruction, hreply⟩
    have hstepped := machine.stepped_step console
    generalize machine.step console = outcome at hstepped hreply
    cases hstepped with
    | raised next op effect =>
      cases effect with
      | tooHigh last fixed => exact ⟨⟨_, next, op⟩, last, fixed⟩
      | tooLow first => cases hreply
      | outputFault reply blamed => cases hreply
      | outputFailure reply passed => cases hreply
      | inputFault reply blamed => cases hreply
      | inputFailure reply passed => cases hreply
    | _ => cases hreply
  · rintro ⟨⟨instruction, hnext, hop⟩, hlast, hfixed⟩
    rw [step_of_tooHigh hnext hop hlast hfixed]
    exact ⟨_, _, rfl⟩

/-- A step that was stopped at the end of the tape is stopped there again. -/
theorem isTooHigh_step_step {console : Console ι ο}
    (h : (machine.step console).reply.IsTooHigh) (later : Console ι ο) :
    ((machine.step console).machine.step later).reply.IsTooHigh := by
  obtain ⟨⟨instruction, hnext, hop⟩, hlast, hfixed⟩ := (isTooHigh_step_iff machine console).mp h
  rw [step_of_tooHigh hnext hop hlast hfixed, isTooHigh_step_iff]
  exact ⟨⟨instruction, hnext, hop⟩, hlast, hfixed⟩

variable {tape : Tape}

/-- The data pointer stays on the tape and moves by one cell at most. -/
theorem TapeStep.head (h : machine.TapeStep tape)
    (hhead : machine.tape.head < machine.tape.size) :
    tape.head < tape.size ∧ tape.head ≤ machine.tape.head + 1 := by
  cases h with
  | same => exact ⟨hhead, by omega⟩
  | right atRight inside => simpa using inside
  | grow atRight last mayGrow => simp only [Tape.head_moveRight, Tape.size_moveRight,
      Tape.head_grow, Tape.size_grow]; omega
  | left inside => simp only [Tape.head_moveLeft, Tape.size_moveLeft]; omega
  | write value => exact ⟨by simpa using hhead, by simp⟩

/-- The tape ends where it did, or with the current cell. -/
theorem TapeStep.size_eq (h : machine.TapeStep tape)
    (hhead : machine.tape.head < machine.tape.size) :
    tape.size = max machine.tape.size (1 + tape.head) := by
  cases h with
  | same => omega
  | right atRight inside => simp only [Tape.head_moveRight, Tape.size_moveRight]; omega
  | grow atRight last mayGrow => simp only [Tape.head_moveRight, Tape.size_moveRight,
      Tape.head_grow, Tape.size_grow]; omega
  | left inside => simp only [Tape.head_moveLeft, Tape.size_moveLeft]; omega
  | write value => simp only [Tape.size_write, Tape.head_write]; omega

theorem TapeStep.size_eq_of_fixed (h : machine.TapeStep tape) (hfixed : machine.mayGrow = false) :
    tape.size = machine.tape.size := by
  cases h with
  | grow atRight last mayGrow => rw [hfixed] at mayGrow; cases mayGrow
  | write value => exact Tape.size_write _ _
  | _ => rfl

/-- A step changes no cell but the current one. -/
theorem TapeStep.view_eq (h : machine.TapeStep tape)
    (hhead : machine.tape.head < machine.tape.size) {index : Nat}
    (hindex : machine.tape.head ≠ index) :
    tape.view machine.cell.zero index = machine.tape.view machine.cell.zero index := by
  cases h with
  | same => rfl
  | right atRight inside => rfl
  | grow atRight last mayGrow => simp
  | left inside => rfl
  | write value => rw [Tape.view_write _ _ _ _ hhead, if_neg (Ne.symm hindex)]

/-- Only a move to the right takes the data pointer to a higher cell. -/
theorem TapeStep.atRight (h : machine.TapeStep tape) (hmoved : machine.tape.head < tape.head) :
    machine.AtRight := by
  cases h with
  | right atRight inside => exact atRight
  | grow atRight last mayGrow => exact atRight
  | same => omega
  | left inside => simp only [Tape.head_moveLeft] at hmoved; omega
  | write value => simp only [Tape.head_write] at hmoved; omega

/-- On a growable tape a move to the right leads one cell on. -/
theorem head_step_of_atRight (h : machine.AtRight) (hgrow : machine.mayGrow = true)
    (console : Console ι ο) :
    (machine.step console).machine.tape.head = machine.tape.head + 1 := by
  obtain ⟨instruction, hnext, hop⟩ := h
  have hright : instruction.op = Primitive.right.op := hop
  by_cases hlast : machine.tape.head + 1 = machine.tape.size
  · have heffect : Primitive.right.Effect machine.rules instruction (machine.world console) none
        _ := .grow hlast hgrow
    rw [step_of_effect hnext hright heffect]
    rfl
  · have heffect : Primitive.right.Effect machine.rules instruction (machine.world console) none
        _ := .right hlast
    rw [step_of_effect hnext hright heffect]
    rfl

end Step

/-! ## What steps do to a tape -/

section Steps

variable [InputStream ι] [OutputStream ο]

/-- The largest index that the data pointer has been at, at first or after one of `count` steps. -/
def farthest (count : Nat) (machine : Machine) (console : Console ι ο) : Nat :=
  match count with
  | 0 => machine.tape.head
  | count + 1 =>
    max (machine.farthest count console) (machine.steps (count + 1) console).machine.tape.head

variable {machine : Machine} (console : Console ι ο)

theorem head_steps_lt_size (h : machine.tape.head < machine.tape.size) (count : Nat) :
    (machine.steps count console).machine.tape.head <
      (machine.steps count console).machine.tape.size := by
  induction count with
  | zero => exact h
  | succ count ih => exact ((tapeStep_step ih _).head ih).1

theorem tapeStep_steps (h : machine.tape.head < machine.tape.size) (count : Nat) :
    (machine.steps count console).machine.TapeStep
      (machine.steps (count + 1) console).machine.tape :=
  tapeStep_step (head_steps_lt_size console h count) _

theorem head_steps_succ_le (h : machine.tape.head < machine.tape.size) (count : Nat) :
    (machine.steps (count + 1) console).machine.tape.head ≤
      (machine.steps count console).machine.tape.head + 1 :=
  ((tapeStep_steps console h count).head (head_steps_lt_size console h count)).2

/-- The tape ends where it did at first, or with the farthest cell that was reached. -/
theorem size_steps (h : machine.tape.head < machine.tape.size) (count : Nat) :
    (machine.steps count console).machine.tape.size =
      max machine.tape.size (1 + machine.farthest count console) := by
  induction count with
  | zero => simp only [steps_zero, farthest]; omega
  | succ count ih =>
    rw [(tapeStep_steps console h count).size_eq (head_steps_lt_size console h count), ih, farthest]
    omega

theorem size_steps_of_fixed (h : machine.tape.head < machine.tape.size)
    (hfixed : machine.mayGrow = false) (count : Nat) :
    (machine.steps count console).machine.tape.size = machine.tape.size := by
  induction count with
  | zero => rfl
  | succ count ih =>
    rw [(tapeStep_steps console h count).size_eq_of_fixed (by simpa using hfixed), ih]

/-- A cell that the data pointer was never at looks as it did. -/
theorem view_steps (h : machine.tape.head < machine.tape.size) {count index : Nat}
    (hindex : ∀ step < count, (machine.steps step console).machine.tape.head ≠ index) :
    (machine.steps count console).machine.tape.view machine.cell.zero index =
      machine.tape.view machine.cell.zero index := by
  induction count with
  | zero => rfl
  | succ count ih =>
    have hstep := (tapeStep_steps console h count).view_eq (head_steps_lt_size console h count)
      (hindex count (Nat.lt_succ_self count))
    rw [cell_steps] at hstep
    rw [hstep, ih fun step hlt => hindex step (Nat.lt_succ_of_lt hlt)]

/-- Once stopped at the end of the tape, a machine stays there. -/
theorem isTooHigh_steps {console : Console ι ο} {count : Nat}
    (h : (machine.steps count console).reply.IsTooHigh) (more : Nat) :
    (machine.steps (count + more) console).reply.IsTooHigh := by
  induction more with
  | zero => exact h
  | succ more ih =>
    cases hcount : count + more with
    | zero =>
      rw [hcount] at ih
      obtain ⟨file, instruction, hreply⟩ := ih
      cases hreply
    | succ before =>
      rw [hcount] at ih
      rw [← Nat.add_assoc, hcount, steps_succ]
      exact isTooHigh_step_step ih _

end Steps

end Machine

end Brainfuck
