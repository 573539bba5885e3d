import Brainfuck.Proofs.Extent
import Brainfuck.Proofs.Lockstep
import Brainfuck.Stream.Scripted

/-! # Fixed tapes are growable tapes cut off

A tape that may grow is a tape without end, of which the cells come into being as the data pointer
gets to them. A fixed tape is its beginning: a program does the same on it until it would leave it.

Main definitions: `Tape.SameView`, `Machine.Truncates`, `Machine.HaltsAlike`. Main statement:
`Machine.truncates_of_create`. -/

namespace Brainfuck

variable {ι ο : Type}

/-! ## Tapes that look the same -/

namespace Tape

/-- The data pointers are at the same cell of both tapes, and all cells look the same. -/
structure SameView (zero : Int) (first second : Tape) : Prop where
  /-- The data pointers are the same. -/
  head : first.head = second.head
  /-- The first data pointer is on its tape. -/
  inside : first.head < first.size
  /-- The second data pointer is on its tape. -/
  inside' : second.head < second.size
  /-- All cells look the same. -/
  view : ∀ index, first.view zero index = second.view zero index

variable {zero : Int} {first second : Tape}

theorem SameView.symm (h : SameView zero first second) : SameView zero second first :=
  ⟨h.head.symm, h.inside', h.inside, fun index => (h.view index).symm⟩

theorem SameView.trans {third : Tape} (h : SameView zero first second)
    (h' : SameView zero second third) : SameView zero first third :=
  ⟨h.head.trans h'.head, h.inside, h'.inside', fun index => (h.view index).trans (h'.view index)⟩

theorem SameView.current (h : SameView zero first second) : first.current = second.current := by
  rw [← view_head zero first h.inside, ← view_head zero second h.inside', h.view, h.head]

/-- The same value is written to both tapes. -/
theorem SameView.write (h : SameView zero first second) (value : Int) :
    SameView zero (first.write value) (second.write value) := by
  refine ⟨h.head, by simpa using h.inside, by simpa using h.inside', ?_⟩
  intro index
  rw [view_write _ _ _ _ h.inside, view_write _ _ _ _ h.inside', h.head, h.view]

theorem SameView.moveLeft (h : SameView zero first second) :
    SameView zero first.moveLeft second.moveLeft := by
  have hinside := h.inside
  have hinside' := h.inside'
  refine ⟨congrArg (· - 1) h.head, ?_, ?_, h.view⟩
  · simp only [head_moveLeft, size_moveLeft]
    omega
  · simp only [head_moveLeft, size_moveLeft]
    omega

/-- Operations keep tapes that look the same so, whether the one or the other may grow. -/
theorem kept_sameView {rules rules' : Rules} (hcell : rules.cell = rules'.cell) :
    Kept (SameView zero) rules rules' where
  head h := h.head
  byte h := by rw [h.current, hcell]
  left h _ := h.moveLeft
  increment h := by
    rw [h.current, hcell]
    exact h.write _
  decrement h := by
    rw [h.current, hcell]
    exact h.write _
  store byte h := by
    rw [hcell]
    exact h.write _

/-- A move to the right leads a growable tape to where it leads a fixed one, if that has a cell
there. -/
theorem SameView.right {rules rules' : Rules} (h : SameView rules.cell.zero first second)
    (hgrow : rules.mayGrow = true) (hbelow : first.head + 1 < second.size) :
    Option.Rel (SameView rules.cell.zero) (first.right? rules) (second.right? rules') := by
  have hhead := h.head
  have hinside := h.inside
  have hsecond : second.right? rules' = some second.moveRight := by
    unfold right?
    rw [if_neg (by omega)]
  rw [hsecond]
  unfold right?
  by_cases hlast : first.head + 1 = first.size
  · rw [if_pos hlast, if_pos hgrow]
    refine .some ⟨?_, ?_, ?_, ?_⟩
    · simpa using hhead
    · simp only [head_moveRight, head_grow, size_moveRight, size_grow]
      omega
    · simp only [head_moveRight, size_moveRight]
      omega
    · intro index
      rw [view_moveRight, view_moveRight, view_grow, h.view]
  · rw [if_neg hlast]
    refine .some ⟨?_, ?_, ?_, h.view⟩
    · simpa using hhead
    · simp only [head_moveRight, size_moveRight]
      omega
    · simp only [head_moveRight, size_moveRight]
      omega

end Tape

namespace Machine

/-! ## A growable and a fixed tape side by side -/

/-- A machine with a growable and one with a fixed tape that are otherwise at the same. -/
structure Beside (growable fixed : Machine) : Prop where
  /-- The programs are the same. -/
  program : growable.program = fixed.program
  /-- The cells are of the same kind. -/
  cell : growable.cell = fixed.cell
  /-- The first tape may grow. -/
  grows : growable.mayGrow = true
  /-- The second tape may not. -/
  stays : fixed.mayGrow = false
  /-- The program counters are the same. -/
  pc : growable.pc = fixed.pc
  /-- The statuses are the same. -/
  status : growable.status = fixed.status
  /-- The tapes look the same. -/
  tape : growable.tape.SameView growable.cell.zero fixed.tape

theorem beside_of_create {program : LinkedProgram} {cell : CellKind} {size size' : Int}
    {growable fixed : Machine} (hgrowable : create program cell true size = .ok growable)
    (hfixed : create program cell false size' = .ok fixed) : Beside growable fixed := by
  obtain ⟨count, hcount, rfl⟩ := create_eq_ok_iff.mp hgrowable
  obtain ⟨count', hcount', rfl⟩ := create_eq_ok_iff.mp hfixed
  refine ⟨rfl, rfl, rfl, rfl, rfl, rfl, rfl, ?_, ?_, ?_⟩
  · simpa using (tapeSize_eq_ok hcount).1
  · simpa using (tapeSize_eq_ok hcount').1
  · intro index
    rw [Tape.view_blank, Tape.view_blank]

end Machine

/-- A property holds of a step and of none before it. -/
def FirstStep (property : Nat → Prop) (step : Nat) : Prop :=
  property step ∧ ∀ earlier < step, ¬ property earlier

/-- Properties that are absent up to the same steps appear at the same step. -/
theorem firstStep_congr {property property' : Nat → Prop}
    (h : ∀ count, (∀ step ≤ count, ¬ property step) ↔ ∀ step ≤ count, ¬ property' step)
    (count : Nat) : FirstStep property count ↔ FirstStep property' count := by
  have aux {p q : Nat → Prop} (h : ∀ count, (∀ step ≤ count, ¬ p step) ↔ ∀ step ≤ count, ¬ q step)
      (hfirst : FirstStep p count) : FirstStep q count := by
    obtain ⟨hat, hearlier⟩ := hfirst
    have hbefore : ∀ earlier < count, ¬ q earlier := by
      intro earlier hlt
      exact (h earlier).mp (fun step hle => hearlier step (by omega)) earlier (Nat.le_refl _)
    refine ⟨Classical.byContradiction fun hnot => ?_, hbefore⟩
    have hnone := (h count).mpr fun step hle => by
      by_cases heq : step = count
      · rwa [heq]
      · exact hbefore step (by omega)
    exact hnone count (Nat.le_refl _) hat
  exact ⟨aux h, aux fun count => (h count).symm⟩

section Views

variable {zero : Int} {first second third : Outcome ι ο}

theorem Outcome.Agrees.symm (h : first.Agrees (Tape.SameView zero) second) :
    second.Agrees (Tape.SameView zero) first :=
  ⟨h.reply.symm, h.abreast.pc.symm, h.abreast.status.symm, h.abreast.tape.symm,
    h.abreast.streams.symm⟩

theorem Outcome.Agrees.trans (h : first.Agrees (Tape.SameView zero) second)
    (h' : second.Agrees (Tape.SameView zero) third) : first.Agrees (Tape.SameView zero) third :=
  ⟨h.reply.trans h'.reply, h.abreast.pc.trans h'.abreast.pc,
    h.abreast.status.trans h'.abreast.status, h.abreast.tape.trans h'.abreast.tape,
    h.abreast.streams.trans h'.abreast.streams⟩

end Views

namespace Machine

variable [InputStream ι] [OutputStream ο] {growable fixed : Machine} {console : Console ι ο}
  {count : Nat}

/-- The data pointer stays below a size, at first and during `count` steps. -/
def StaysBelow (size count : Nat) (machine : Machine) (console : Console ι ο) : Prop :=
  ∀ step ≤ count, (machine.steps step console).machine.tape.head < size

theorem StaysBelow.mono {size count' : Nat} (h : growable.StaysBelow size count console)
    (hle : count' ≤ count) : growable.StaysBelow size count' console :=
  fun step hstep => h step (Nat.le_trans hstep hle)

/-- As long as the data pointer stays below the size of the fixed tape, the machines are in
lockstep. -/
theorem Beside.lockstep (h : Beside growable fixed)
    (hbelow : growable.StaysBelow fixed.tape.size count console) :
    Lockstep (Tape.SameView growable.cell.zero) growable fixed console console count := by
  refine Abreast.lockstep ⟨h.pc, h.status, h.tape, rfl⟩ (Tape.kept_sameView h.cell)
    (h.program ▸ .refl _) ?_
  intro step hstep hsofar
  constructor
  · intro instruction partner target hnext
    rw [hsofar.abreast.tape.current]
  · intro instruction hnext hop
    have hmoved := head_step_of_atRight ⟨instruction, hnext, hop⟩
      (by simpa using h.grows) (growable.steps step console).console
    have hzero : growable.cell.zero =
        (growable.steps step console).machine.rules.cell.zero := by
      rw [rules_steps]
      rfl
    rw [hzero]
    apply Tape.SameView.right (hzero ▸ hsofar.abreast.tape)
    · rw [rules_steps]
      exact h.grows
    · rw [size_steps_of_fixed console h.tape.inside' h.stays, ← hmoved]
      exact hbelow (step + 1) hstep

theorem Beside.agrees (h : Beside growable fixed)
    (hbelow : growable.StaysBelow fixed.tape.size count console) :
    (growable.steps count console).Agrees (Tape.SameView growable.cell.zero)
        (fixed.steps count console) ∧
      growable.stepsCalls count console = fixed.stepsCalls count console :=
  ⟨Lockstep.agrees h.program fun _ hle => h.lockstep (hbelow.mono hle), (h.lockstep hbelow).calls⟩

/-- A growable tape has no last cell. -/
theorem not_isTooHigh_steps (hgrows : growable.mayGrow = true) (console : Console ι ο)
    (count : Nat) : ¬ (growable.steps count console).reply.IsTooHigh := by
  cases count with
  | zero =>
    rintro ⟨file, instruction, hreply⟩
    cases hreply
  | succ count =>
    rw [steps_succ, isTooHigh_step_iff, mayGrow_steps, hgrows]
    simp

/-- Where the data pointer of the growable tape leaves the fixed one, that is at its end. -/
theorem Beside.isTooHigh (h : Beside growable fixed)
    (hbelow : growable.StaysBelow fixed.tape.size count console)
    (hleaves : (growable.steps (count + 1) console).machine.tape.head = fixed.tape.size) :
    (fixed.steps (count + 1) console).reply.IsTooHigh := by
  have hbefore := hbelow count (Nat.le_refl count)
  have hone := head_steps_succ_le console h.tape.inside count
  obtain ⟨hpc, -, hview, -⟩ := (h.lockstep hbelow).abreast
  obtain ⟨instruction, hnext, hop⟩ :=
    (tapeStep_steps console h.tape.inside count).atRight (by omega)
  rw [steps_succ, isTooHigh_step_iff, size_steps_of_fixed console h.tape.inside' h.stays,
    mayGrow_steps, ← hview.head]
  refine ⟨⟨instruction, ?_, hop⟩, by omega, h.stays⟩
  rw [← hnext, next?, next?, program_steps, program_steps, h.program, hpc]

/-- The data pointer gets past the end of the fixed tape by way of its end only. -/
theorem Beside.staysBelow_iff_ne (h : Beside growable fixed) :
    growable.StaysBelow fixed.tape.size count console ↔
      ∀ step ≤ count, (growable.steps step console).machine.tape.head ≠ fixed.tape.size := by
  constructor
  · intro hbelow step hstep
    exact Nat.ne_of_lt (hbelow step hstep)
  · intro hne step
    induction step with
    | zero =>
      intro _
      exact h.tape.head ▸ h.tape.inside'
    | succ step ih =>
      intro hstep
      have hbefore := ih (by omega)
      have hone := head_steps_succ_le console h.tape.inside step
      have hthis := hne (step + 1) hstep
      omega

/-- The data pointer of the growable tape stays on the fixed one exactly as long as that does not
stop its machine. -/
theorem Beside.staysBelow_iff_not_isTooHigh (h : Beside growable fixed) :
    growable.StaysBelow fixed.tape.size count console ↔
      ∀ step ≤ count, ¬ (fixed.steps step console).reply.IsTooHigh := by
  constructor
  · intro hbelow step hstep
    rw [← (h.agrees (hbelow.mono hstep)).1.reply]
    exact not_isTooHigh_steps h.grows console step
  · intro hgoes
    rw [h.staysBelow_iff_ne]
    intro step
    induction step using Nat.strongRecOn with
    | ind step ih =>
      intro hstep hleaves
      cases step with
      | zero => exact absurd hleaves (Nat.ne_of_lt (h.tape.head ▸ h.tape.inside'))
      | succ before =>
        -- it was below at every earlier step, so this is where it leaves
        have hbelow : growable.StaysBelow fixed.tape.size before console :=
          h.staysBelow_iff_ne.mpr fun earlier hle => ih earlier (by omega) (by omega)
        exact hgoes (before + 1) hstep (h.isTooHigh hbelow hleaves)

/-- A machine that has halted was never stopped at the end of its tape. -/
theorem not_isTooHigh_of_finished (h : (fixed.steps count console).reply = .finished) :
    ∀ step ≤ count, ¬ (fixed.steps step console).reply.IsTooHigh := by
  intro step hstep hstopped
  obtain ⟨more, rfl⟩ := Nat.le.dest hstep
  obtain ⟨file, instruction, hreply⟩ := isTooHigh_steps hstopped more
  rw [h] at hreply
  cases hreply

/-- If the machine on the fixed tape halts, the growable one gets along with its cells. -/
theorem Beside.staysBelow_of_finished (h : Beside growable fixed)
    (hfinished : (fixed.steps count console).reply = .finished) :
    growable.StaysBelow fixed.tape.size count console :=
  h.staysBelow_iff_not_isTooHigh.mpr (not_isTooHigh_of_finished hfinished)

/-! ## The fixed tape as a truncation -/

/-- What becomes of a machine on a fixed tape is what becomes of one on a growable tape, up to where
its data pointer leaves the fixed one. -/
structure Truncates (growable fixed : Machine) (console : Console ι ο) : Prop where
  /-- As long as the data pointer stays on the fixed tape, all steps are the same. -/
  follows : ∀ count, growable.StaysBelow fixed.tape.size count console →
    (growable.steps count console).Agrees (Tape.SameView growable.cell.zero)
        (fixed.steps count console) ∧
      growable.stepsCalls count console = fixed.stepsCalls count console
  /-- The machine on the fixed tape is first stopped by the step that first takes the data pointer
  of the other past it. -/
  stops : ∀ count,
    FirstStep (fun step => (fixed.steps step console).reply.IsTooHigh) count ↔
      FirstStep (fun step =>
        (growable.steps step console).machine.tape.head = fixed.tape.size) count
  /-- The machine on the growable tape is never stopped. -/
  goesOn : ∀ count, ¬ (growable.steps count console).reply.IsTooHigh
  /-- The growable tape ends where it did at first, or with the farthest cell that was reached. -/
  size : ∀ count, (growable.steps count console).machine.tape.size =
    max growable.tape.size (1 + growable.farthest count console)
  /-- Cells that were never reached are as new. -/
  untouched : ∀ count index,
    (∀ step ≤ count, (growable.steps step console).machine.tape.head ≠ index) →
    index < (growable.steps count console).machine.tape.size →
    (growable.steps count console).machine.tape.cells[index]? = some growable.cell.zero

/-- If the first machine halts, so does the second, and all is the same on both but for where the
tapes end. -/
structure HaltsAlike (first second : Machine) (console : Console ι ο) : Prop where
  /-- The machine halts after a number of steps, whatever the ones before came to. -/
  steps : ∀ count, (first.steps count console).reply = .finished →
    (first.steps count console).Agrees (Tape.SameView first.cell.zero)
        (second.steps count console) ∧
      first.stepsCalls count console = second.stepsCalls count console
  /-- A run of the machine halts. -/
  run : ∀ limit, (first.run limit console).reply = .finished →
    (first.run limit console).Agrees (Tape.SameView first.cell.zero) (second.run limit console) ∧
      first.calls limit console = second.calls limit console

/-- A run that halts is alike if all its steps are. -/
theorem haltsAlike_of_steps {first second : Machine}
    (h : ∀ count, (first.steps count console).reply = .finished → ∀ step ≤ count,
      (first.steps step console).Agrees (Tape.SameView first.cell.zero)
          (second.steps step console) ∧
        first.stepsCalls step console = second.stepsCalls step console) :
    HaltsAlike first second console := by
  refine ⟨fun count hfinished => h count hfinished count (Nat.le_refl count), ?_⟩
  intro limit hfinished
  obtain ⟨count, hle, hrun, hcalls, hearlier, -⟩ := exists_steps_eq_run limit first console
  rw [hrun] at hfinished
  have hsame := h count hfinished
  have hlast := hsame count (Nat.le_refl count)
  -- the second run is made of the same steps
  have hearlier' : ∀ earlier < count, (second.steps earlier console).reply = .advanced := by
    intro earlier hlt
    rw [← (hsame earlier (Nat.le_of_lt hlt)).1.reply]
    exact hearlier earlier hlt
  have hended : (second.steps count console).reply ≠ .advanced := by
    rw [← hlast.1.reply, hfinished]
    simp
  obtain ⟨hrun', hcalls'⟩ := run_eq_steps hle hearlier' hended
  rw [hrun, hrun', hcalls, hcalls']
  exact hlast

theorem Beside.truncates (h : Beside growable fixed)
    (hnew : ∀ index, growable.tape.view growable.cell.zero index = growable.cell.zero)
    (console : Console ι ο) : Truncates growable fixed console where
  follows count hbelow := h.agrees hbelow
  stops := firstStep_congr fun count =>
    h.staysBelow_iff_not_isTooHigh.symm.trans h.staysBelow_iff_ne
  goesOn := not_isTooHigh_steps h.grows console
  size := size_steps console h.tape.inside
  untouched count index hnever hindex := by
    have hview := view_steps console h.tape.inside fun step hlt => hnever step (Nat.le_of_lt hlt)
    rw [hnew] at hview
    have hbound : index < (growable.steps count console).machine.tape.cells.size := hindex
    simpa [Tape.view, hbound] using hview

/-- If a machine halts on a fixed tape, so it does on a growable one. -/
theorem Beside.haltsAlike (h : Beside growable fixed) (console : Console ι ο) :
    HaltsAlike fixed growable console := by
  apply haltsAlike_of_steps
  intro count hfinished step hstep
  obtain ⟨hagrees, hcalls⟩ := h.agrees ((h.staysBelow_of_finished hfinished).mono hstep)
  exact ⟨h.cell ▸ hagrees.symm, hcalls.symm⟩

/-- If a machine halts on a fixed tape, so it does on a larger one. -/
theorem Beside.haltsAlike_larger {larger : Machine} (h : Beside growable fixed)
    (hlarger : Beside growable larger) (hsize : fixed.tape.size ≤ larger.tape.size)
    (console : Console ι ο) : HaltsAlike fixed larger console := by
  apply haltsAlike_of_steps
  intro count hfinished step hstep
  have hbelow := (h.staysBelow_of_finished hfinished).mono hstep
  obtain ⟨hagrees, hcalls⟩ := h.agrees hbelow
  obtain ⟨hagrees', hcalls'⟩ := hlarger.agrees fun earlier hle =>
    Nat.lt_of_lt_of_le (hbelow earlier hle) hsize
  exact ⟨h.cell ▸ hagrees.symm.trans hagrees', hcalls.symm.trans hcalls'⟩

/-- A fixed tape is a growable tape cut off: a machine on it does what one on a growable tape does
until the data pointer of that leaves it, and is stopped there. If it halts, it halts in the same
way on every larger fixed tape and on every growable one. -/
theorem truncates_of_create {program : LinkedProgram} {cell : CellKind} {size size' : Int}
    {growable fixed : Machine} (hgrowable : create program cell true size = .ok growable)
    (hfixed : create program cell false size' = .ok fixed) (console : Console ι ο) :
    Truncates growable fixed console ∧
      ∀ (mayGrow : Bool) (otherSize : Int) (other : Machine),
        create program cell mayGrow otherSize = .ok other →
        (mayGrow = true ∨ fixed.tape.size ≤ other.tape.size) → HaltsAlike fixed other console := by
  have hbeside := beside_of_create hgrowable hfixed
  constructor
  · apply hbeside.truncates
    obtain ⟨count, -, rfl⟩ := create_eq_ok_iff.mp hgrowable
    intro index
    exact Tape.view_blank _ _ _
  · intro mayGrow otherSize other hother hlarger
    cases mayGrow with
    | true => exact (beside_of_create hother hfixed).haltsAlike console
    | false =>
      have hsize : fixed.tape.size ≤ other.tape.size := by simpa using hlarger
      exact hbeside.haltsAlike_larger (beside_of_create hgrowable hother) hsize console

/-- A loop that goes right forever. -/
def rightward : LinkedProgram :=
  ⟨"right.bf", #[.plain ⟨.add, 1, 1⟩, .opener ⟨.loopStart, 1, 2⟩ 4 ⟨.loopEnd, 1, 5⟩,
    .plain ⟨.right, 1, 3⟩, .plain ⟨.add, 1, 4⟩, .closer ⟨.loopEnd, 1, 5⟩ 1 ⟨.loopStart, 1, 2⟩]⟩

/-- On a tape of two cells the loop is stopped by the step that takes it to the third cell of a
growable one. -/
theorem truncates_rightward :
    ∃ growable fixed,
      (Program.ofSource "right.bf" [0x2b, 0x5b, 0x3e, 0x2b, 0x5d]).link = .ok rightward ∧
      create rightward .byte true 1 = .ok growable ∧ create rightward .byte false 2 = .ok fixed ∧
      FirstStep (fun step => (fixed.steps step .noInput).reply.IsTooHigh) 7 ∧
      (growable.steps 7 .noInput).machine.tape = ⟨#[1, 1, 0], 2⟩ := by
  have hgrowable : create rightward .byte true 1 = .ok _ := rfl
  have hfixed : create rightward .byte false 2 = .ok _ := rfl
  refine ⟨_, _, rfl, hgrowable, hfixed, ?_, by decide⟩
  exact ((truncates_of_create hgrowable hfixed .noInput).1.stops 7).mpr ⟨by decide, by decide⟩

end Machine

end Brainfuck
