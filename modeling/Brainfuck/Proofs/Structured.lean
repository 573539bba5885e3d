import Brainfuck.Proofs.Run
import Brainfuck.Proofs.Step

/-! # Structured loops

The meaning of a tree without a program counter: its operations take effect one after the other, and
a loop runs its body as long as the current cell is not zero. A run of the machine on the linked
program ends exactly as this evaluation does.

Main definitions: `Conclusion`, `Tree.Evaluates`, `LinkedProgram.Placed`. Main statements: when a
run finishes and when it raises an error (`Machine.exists_run_eq_finished_iff`,
`Machine.exists_run_eq_raised_iff`). -/

namespace Brainfuck

variable {ι ο : Type}

/-! ## Evaluating a tree -/

/-- What the evaluation of a tree comes to. -/
inductive Conclusion (ι ο : Type) where
  /-- All of the tree was evaluated. -/
  | finished (world : World ι ο)
  /-- The instruction at an index raised an error. -/
  | raised (index : Nat) (error : RunError) (world : World ι ο)

/-- A tree whose first instruction has the index `base` evaluates, from a world, to a conclusion. -/
inductive Tree.Evaluates [InputStream ι] [OutputStream ο] (rules : Rules) :
    Nat → Tree → World ι ο → Conclusion ι ο → Prop where
  /-- Nothing is left to do. -/
  | done {base : Nat} {world : World ι ο} :
      Evaluates rules base .done world (.finished world)
  /-- A plain operation is completed and the rest evaluated. -/
  | plain {base : Nat} {operation : Primitive} {place : Cursor} {rest : Tree}
      {world middle : World ι ο} {conclusion : Conclusion ι ο}
      (effect : operation.Effect rules (place.instruction operation.op) world none middle)
      (after : Evaluates rules (base + 1) rest middle conclusion) :
      Evaluates rules base (.plain operation place rest) world conclusion
  /-- A plain operation raises an error. -/
  | plainRaised {base : Nat} {operation : Primitive} {place : Cursor} {rest : Tree}
      {world last : World ι ο} {error : RunError}
      (effect : operation.Effect rules (place.instruction operation.op) world (some error) last) :
      Evaluates rules base (.plain operation place rest) world (.raised base error last)
  /-- A loop is over when the current cell is zero. -/
  | loopOver {base : Nat} {start : Cursor} {body : Tree} {finish : Cursor} {rest : Tree}
      {world : World ι ο} {conclusion : Conclusion ι ο} (zero : world.tape.current = 0)
      (after : Evaluates rules (base + body.length + 2) rest world conclusion) :
      Evaluates rules base (.loop start body finish rest) world conclusion
  /-- While it is not, the body is evaluated and then the loop again. -/
  | loopTurn {base : Nat} {start : Cursor} {body : Tree} {finish : Cursor} {rest : Tree}
      {world middle : World ι ο} {conclusion : Conclusion ι ο}
      (nonzero : world.tape.current ≠ 0)
      (turn : Evaluates rules (base + 1) body world (.finished middle))
      (again : Evaluates rules base (.loop start body finish rest) middle conclusion) :
      Evaluates rules base (.loop start body finish rest) world conclusion
  /-- An error in the body ends the loop. -/
  | loopRaised {base : Nat} {start : Cursor} {body : Tree} {finish : Cursor} {rest : Tree}
      {world last : World ι ο} {index : Nat} {error : RunError}
      (nonzero : world.tape.current ≠ 0)
      (turn : Evaluates rules (base + 1) body world (.raised index error last)) :
      Evaluates rules base (.loop start body finish rest) world (.raised index error last)

/-! ## Where a tree stands in a program -/

/-- The index after a plain operation and what follows it. -/
theorem Tree.add_length_plain (base : Nat) (operation : Primitive) (place : Cursor) (rest : Tree) :
    base + (Tree.plain operation place rest).length = base + 1 + rest.length := by
  rw [Tree.length]
  omega

/-- The index after a loop and what follows it. -/
theorem Tree.add_length_loop (base : Nat) (start : Cursor) (body : Tree) (finish : Cursor)
    (rest : Tree) :
    base + (Tree.loop start body finish rest).length = base + body.length + 2 + rest.length := by
  rw [Tree.length]
  omega

/-- The entries stand in the program from an index on. -/
def LinkedProgram.Placed (program : LinkedProgram) (base : Nat) (entries : List Linked) : Prop :=
  ∀ offset, offset < entries.length → program.instructions[base + offset]? = entries[offset]?

namespace LinkedProgram.Placed

variable {program : LinkedProgram} {base : Nat} {entry : Linked} {entries others : List Linked}

theorem head (h : program.Placed base (entry :: entries)) :
    program.instructions[base]? = some entry := by
  simpa using h 0 (by simp)

theorem tail (h : program.Placed base (entry :: entries)) :
    program.Placed (base + 1) entries := by
  intro offset hoffset
  have hentry := h (offset + 1) (by simpa using hoffset)
  rw [List.getElem?_cons_succ] at hentry
  rw [← hentry, Nat.add_assoc, Nat.add_comm 1]

theorem left (h : program.Placed base (entries ++ others)) : program.Placed base entries := by
  intro offset hoffset
  rw [h offset (by rw [List.length_append]; omega), List.getElem?_append_left hoffset]

theorem right (h : program.Placed base (entries ++ others)) :
    program.Placed (base + entries.length) others := by
  intro offset hoffset
  rw [Nat.add_assoc, h _ (by rw [List.length_append]; omega),
    List.getElem?_append_right (by omega), Nat.add_sub_cancel_left]

end LinkedProgram.Placed

section Loop

variable {program : LinkedProgram} {base : Nat} {start finish : Cursor} {body rest : Tree}

/-- The parts of a loop that stands in a program. -/
theorem LinkedProgram.Placed.loop
    (h : program.Placed base ((Tree.loop start body finish rest).layout base)) :
    program.instructions[base]? =
        some (.opener (start.instruction .loopStart) (base + body.length + 1)
          (finish.instruction .loopEnd)) ∧
      program.Placed (base + 1) (body.layout (base + 1)) ∧
      program.instructions[base + 1 + body.length]? =
        some (.closer (finish.instruction .loopEnd) base (start.instruction .loopStart)) ∧
      program.Placed (base + body.length + 2) (rest.layout (base + body.length + 2)) := by
  rw [Tree.layout] at h
  have hright := h.tail.right
  rw [Tree.length_layout] at hright
  have hrest := hright.tail
  have hbase : base + 1 + body.length + 1 = base + body.length + 2 := by omega
  rw [hbase] at hrest
  exact ⟨h.head, h.tail.left, hright.head, hrest⟩

end Loop

namespace Machine

variable [InputStream ι] [OutputStream ο] {machine next : Machine} {console later : Console ι ο}

/-! ## Evaluations are runs -/

/-- The machine comes to a conclusion: it arrives at the given instruction in the final world, or
raises the error. -/
def Arrives (machine : Machine) (console : Console ι ο) (pc : Nat) : Conclusion ι ο → Prop
  | .finished after => ∃ count later,
      machine.run count console = ⟨.advanced, machine.goTo after.tape pc, later⟩ ∧
      (machine.goTo after.tape pc).world later = after
  | .raised index error after => ∃ count last later,
      machine.run count console = ⟨.raised error, last, later⟩ ∧
      last.pc = index ∧ last.world later = after

/-- What the machine comes to after some steps, it comes to. -/
theorem Arrives.of_run {count pc middle : Nat} {tape : Tape} {conclusion : Conclusion ι ο}
    (hrun : machine.run count console = ⟨.advanced, machine.goTo tape middle, later⟩)
    (h : (machine.goTo tape middle).Arrives later pc conclusion) :
    machine.Arrives console pc conclusion := by
  cases conclusion with
  | finished after =>
    obtain ⟨more, final, hmore, hworld⟩ := h
    exact ⟨count + more, final, by rw [run_add hrun, hmore, goTo_goTo], hworld⟩
  | raised index error after =>
    obtain ⟨more, last, final, hmore, hpc, hworld⟩ := h
    exact ⟨count + more, last, final, by rw [run_add hrun, hmore], hpc, hworld⟩

/-- What the machine comes to after one step, it comes to. -/
theorem Arrives.of_step {pc middle : Nat} {tape : Tape} {conclusion : Conclusion ι ο}
    (hstep : machine.step console = ⟨.advanced, machine.goTo tape middle, later⟩)
    (h : (machine.goTo tape middle).Arrives later pc conclusion) :
    machine.Arrives console pc conclusion := by
  have hrun : machine.run 1 console = ⟨.advanced, machine.goTo tape middle, later⟩ := by
    rw [run_succ_of_advanced hstep, run_zero]
  exact .of_run hrun h

/-- A tree that stands at the program counter is run as it evaluates. -/
theorem arrives_of_evaluates {rules : Rules} {base : Nat} {tree : Tree} {world : World ι ο}
    {conclusion : Conclusion ι ο} (h : tree.Evaluates rules base world conclusion)
    (hworld : machine.world console = world) (hrules : machine.rules = rules)
    (hpc : machine.pc = base)
    (placed : machine.program.Placed base (tree.layout base)) :
    machine.Arrives console (base + tree.length) conclusion := by
  -- the induction is on the evaluation, in which a turn of a loop is smaller than the loop
  induction h generalizing machine console with
  | done =>
    subst hpc hworld
    exact ⟨0, console, rfl, rfl⟩
  | @plain base operation place rest _ middle conclusion effect _ ih =>
    subst hrules hpc hworld
    obtain ⟨later, hstep, hmiddle⟩ := exists_step_of_effect placed.head rfl effect
    rw [Tree.add_length_plain]
    exact .of_step hstep (ih hmiddle rfl rfl placed.tail)
  | @plainRaised base operation place rest _ last error effect =>
    subst hrules hpc hworld
    obtain ⟨final, later, hstep, hpc, hlast⟩ := exists_step_of_effect_raised placed.head rfl effect
    refine ⟨1, final, later, ?_, hpc, hlast⟩
    exact run_succ_of_raised hstep 0
  | @loopOver base start body finish rest _ conclusion zero _ ih =>
    subst hrules hpc hworld
    obtain ⟨hopener, -, -, hrest⟩ := placed.loop
    obtain ⟨later, hstep, hsame⟩ := exists_step_of_opener_zero console hopener zero
    rw [Tree.add_length_loop]
    exact .of_step hstep (ih hsame rfl rfl hrest)
  | @loopTurn base start body finish rest _ middle conclusion nonzero _ _ ihTurn ihAgain =>
    subst hrules hpc hworld
    obtain ⟨hopener, hbody, hcloser, -⟩ := placed.loop
    -- one turn: into the body, through it, and from the loop end back to the loop start
    obtain ⟨entered, henter, hsame⟩ := exists_step_of_opener_nonzero console hopener nonzero
    obtain ⟨count, inside, hturn, hmiddle⟩ := ihTurn hsame rfl rfl hbody
    rw [goTo_goTo] at hturn hmiddle
    have hnext : (machine.goTo middle.tape (machine.pc + 1 + body.length)).next? = _ := hcloser
    obtain ⟨returned, hback, hsame⟩ := exists_step_of_closer inside hnext
    have harrives := ihAgain (hsame.trans hmiddle) rfl rfl placed
    exact .of_step henter (.of_run hturn (.of_step hback harrives))
  | @loopRaised base start body finish rest _ last index error nonzero _ ih =>
    subst hrules hpc hworld
    obtain ⟨hopener, hbody, -, -⟩ := placed.loop
    obtain ⟨entered, henter, hsame⟩ := exists_step_of_opener_nonzero console hopener nonzero
    exact .of_step henter (ih hsame rfl rfl hbody)

/-! ## Runs are evaluations -/

/-- A run under a limit goes through a conclusion: it goes on from the given instruction in the
final world, or ends with the error. -/
def Passes (machine : Machine) (console : Console ι ο) (limit pc : Nat) : Conclusion ι ο → Prop
  | .finished after => ∃ rest later, rest ≤ limit ∧
      machine.run limit console = (machine.goTo after.tape pc).run rest later ∧
      (machine.goTo after.tape pc).world later = after
  | .raised index error after => ∃ last later,
      machine.run limit console = ⟨.raised error, last, later⟩ ∧
      last.pc = index ∧ last.world later = after

/-- What the rest of a run goes through, the run goes through. -/
theorem Passes.of_run {limit rest pc middle : Nat} {tape : Tape} {conclusion : Conclusion ι ο}
    (hrest : rest ≤ limit)
    (hrun : machine.run limit console = (machine.goTo tape middle).run rest later)
    (h : (machine.goTo tape middle).Passes later rest pc conclusion) :
    machine.Passes console limit pc conclusion := by
  cases conclusion with
  | finished after =>
    obtain ⟨less, final, hless, hmore, hworld⟩ := h
    exact ⟨less, final, by omega, by rw [hrun, hmore, goTo_goTo], hworld⟩
  | raised index error after =>
    obtain ⟨last, final, hmore, hpc, hworld⟩ := h
    exact ⟨last, final, by rw [hrun, hmore], hpc, hworld⟩

/-- A run that ends, started at a tree, evaluates the tree. -/
theorem exists_evaluates_of_run {limit : Nat} {tree : Tree}
    (placed : machine.program.Placed machine.pc (tree.layout machine.pc))
    (ended : (machine.run limit console).reply ≠ .advanced) :
    ∃ conclusion, tree.Evaluates machine.rules machine.pc (machine.world console) conclusion ∧
      machine.Passes console limit (machine.pc + tree.length) conclusion := by
  -- Every part of a tree is reached by at least one step, also a loop that is run again, so the
  -- induction is on the limit.
  induction limit using Nat.strongRecOn generalizing tree machine console with
  | ind limit ih =>
    cases tree with
    | done => exact ⟨_, .done, limit, console, Nat.le_refl limit, rfl, rfl⟩
    | plain operation place rest =>
      obtain ⟨error, after, effect⟩ := operation.exists_effect machine.rules
        (place.instruction operation.op) (machine.world console)
      cases error with
      | none =>
        obtain ⟨later, hstep, hafter⟩ := exists_step_of_effect placed.head rfl effect
        obtain ⟨less, rfl, hrun⟩ := run_of_step hstep ended
        rw [hrun] at ended
        obtain ⟨conclusion, hevaluates, hpasses⟩ := ih less (by omega) placed.tail ended
        rw [hafter] at hevaluates
        refine ⟨conclusion, .plain effect hevaluates, ?_⟩
        rw [Tree.add_length_plain]
        exact .of_run (by omega) hrun hpasses
      | some error =>
        obtain ⟨last, later, hstep, hpc, hlast⟩ :=
          exists_step_of_effect_raised placed.head rfl effect
        refine ⟨_, .plainRaised effect, last, later, ?_, hpc, hlast⟩
        -- a run that has ended has made at least one step
        cases limit with
        | zero => exact absurd rfl ended
        | succ limit => exact run_succ_of_raised hstep limit
    | loop start body finish rest =>
      obtain ⟨hopener, hbody, hcloser, hrest⟩ := placed.loop
      by_cases zero : (machine.world console).tape.current = 0
      · obtain ⟨later, hstep, hsame⟩ := exists_step_of_opener_zero console hopener zero
        obtain ⟨less, rfl, hrun⟩ := run_of_step hstep ended
        rw [hrun] at ended
        obtain ⟨conclusion, hevaluates, hpasses⟩ := ih less (by omega) hrest ended
        rw [hsame] at hevaluates
        refine ⟨conclusion, .loopOver zero hevaluates, ?_⟩
        rw [Tree.add_length_loop]
        exact .of_run (by omega) hrun hpasses
      · obtain ⟨entered, henter, hsame⟩ := exists_step_of_opener_nonzero console hopener zero
        obtain ⟨less, rfl, hrun⟩ := run_of_step henter ended
        rw [hrun] at ended
        obtain ⟨turn, hturn, hpasses⟩ := ih less (by omega) hbody ended
        rw [hsame] at hturn
        cases turn with
        | raised index error last =>
          exact ⟨_, .loopRaised zero hturn, .of_run (by omega) hrun hpasses⟩
        | finished middle =>
          -- the body is through, and the loop end leads back to the loop start
          obtain ⟨left, inside, hleft, hpassed, hmiddle⟩ := hpasses
          rw [goTo_goTo, pc_goTo] at hpassed hmiddle
          rw [hpassed] at ended hrun
          have hnext : (machine.goTo middle.tape (machine.pc + 1 + body.length)).next? = _ :=
            hcloser
          obtain ⟨returned, hback, hsame⟩ := exists_step_of_closer inside hnext
          rw [goTo_goTo, tape_goTo] at hback hsame
          obtain ⟨again, rfl, hrunBack⟩ := run_of_step hback ended
          rw [hrunBack] at ended hrun
          have hplaced : (machine.goTo middle.tape machine.pc).program.Placed machine.pc
              ((Tree.loop start body finish rest).layout machine.pc) := placed
          obtain ⟨conclusion, hevaluates, hpasses⟩ := ih again (by omega) hplaced ended
          rw [hsame.trans hmiddle] at hevaluates
          exact ⟨conclusion, .loopTurn zero hturn hevaluates, .of_run (by omega) hrun hpasses⟩

/-! ## The whole program -/

variable {tree : Tree}

section Whole

variable (hprogram : machine.program.instructions = (tree.layout 0).toArray)
  (hpc : machine.pc = 0)
include hprogram hpc

theorem placed_of_layout :
    machine.program.Placed machine.pc (tree.layout machine.pc) := by
  intro offset _
  rw [hpc, hprogram, Nat.zero_add, List.getElem?_toArray]

/-- A machine at the start of a laid-out tree finishes exactly as the tree evaluates. -/
theorem exists_run_eq_finished_iff {after : World ι ο} :
    (∃ limit last later, machine.run limit console = ⟨.finished, last, later⟩ ∧
        last.world later = after) ↔
      tree.Evaluates machine.rules 0 (machine.world console) (.finished after) := by
  have placed := placed_of_layout hprogram hpc
  have hnext (tape : Tape) : (machine.goTo tape (machine.pc + tree.length)).next? = none := by
    simp [next?, hprogram, hpc]
  constructor
  · rintro ⟨limit, last, later, hrun, rfl⟩
    have ended : (machine.run limit console).reply ≠ .advanced := by simp [hrun]
    obtain ⟨conclusion, hevaluates, hpasses⟩ := exists_evaluates_of_run placed ended
    rw [hpc] at hevaluates
    cases conclusion with
    | raised index error world =>
      -- the run would have raised an error
      obtain ⟨_, _, hraised, -⟩ := hpasses
      simp [hrun] at hraised
    | finished after =>
      -- the run goes on past the last instruction, where there is nothing left but to finish
      obtain ⟨rest, final, -, hrest, hafter⟩ := hpasses
      rw [hrest] at hrun ended
      cases rest with
      | zero => exact absurd rfl ended
      | succ rest =>
        rw [run_succ_of_next?_eq_none (hnext after.tape), Outcome.mk.injEq] at hrun
        obtain ⟨-, rfl, rfl⟩ := hrun
        rw [← hafter] at hevaluates
        exact hevaluates
  · intro h
    rw [hpc] at placed
    obtain ⟨count, later, hrun, hafter⟩ := arrives_of_evaluates h rfl rfl hpc placed
    rw [← hpc] at hrun
    have hfinal := run_add hrun 1
    rw [run_succ_of_next?_eq_none (hnext after.tape)] at hfinal
    exact ⟨count + 1, _, later, hfinal, hafter⟩

/-- A machine at the start of a laid-out tree raises an error exactly as the tree evaluates. -/
theorem exists_run_eq_raised_iff {index : Nat} {error : RunError} {after : World ι ο} :
    (∃ limit last later, machine.run limit console = ⟨.raised error, last, later⟩ ∧
        last.pc = index ∧ last.world later = after) ↔
      tree.Evaluates machine.rules 0 (machine.world console) (.raised index error after) := by
  have placed := placed_of_layout hprogram hpc
  have hnext (tape : Tape) : (machine.goTo tape (machine.pc + tree.length)).next? = none := by
    simp [next?, hprogram, hpc]
  constructor
  · rintro ⟨limit, last, later, hrun, rfl, rfl⟩
    have ended : (machine.run limit console).reply ≠ .advanced := by simp [hrun]
    obtain ⟨conclusion, hevaluates, hpasses⟩ := exists_evaluates_of_run placed ended
    rw [hpc] at hevaluates
    cases conclusion with
    | raised index error' world =>
      obtain ⟨_, _, hraised, rfl, rfl⟩ := hpasses
      rw [hrun, Outcome.mk.injEq, Reply.raised.injEq] at hraised
      obtain ⟨rfl, rfl, rfl⟩ := hraised
      exact hevaluates
    | finished after =>
      -- the run would have finished
      obtain ⟨rest, final, -, hrest, hafter⟩ := hpasses
      rw [hrest] at hrun ended
      cases rest with
      | zero => exact absurd rfl ended
      | succ rest => simp [run_succ_of_next?_eq_none (hnext after.tape)] at hrun
  · intro h
    rw [hpc] at placed
    exact arrives_of_evaluates h rfl rfl hpc placed

end Whole

end Machine

/-- A linked program does what its tree means: a run on it finishes in a given world exactly if the
tree evaluates to that world, and raises a given error at a given instruction in a given world
exactly if the tree does. Every balanced list of instructions is some tree, written out. -/
theorem run_link_flatten_iff_evaluates [InputStream ι] [OutputStream ο] :
    (∀ (file : String) (tree : Tree), ∃ program,
      (Program.mk file tree.flatten).link = .ok program ∧
      ∀ (cell : CellKind) (mayGrow : Bool) (size : Int) (machine : Machine)
        (console : Console ι ο), Machine.create program cell mayGrow size = .ok machine →
        (∀ after : World ι ο,
          (∃ limit last later, machine.run limit console = ⟨.finished, last, later⟩ ∧
              last.world later = after) ↔
            tree.Evaluates ⟨file, cell, mayGrow⟩ 0 (machine.world console) (.finished after)) ∧
        (∀ (index : Nat) (error : RunError) (after : World ι ο),
          (∃ limit last later, machine.run limit console = ⟨.raised error, last, later⟩ ∧
              last.pc = index ∧ last.world later = after) ↔
            tree.Evaluates ⟨file, cell, mayGrow⟩ 0 (machine.world console)
              (.raised index error after))) ∧
      ∀ instructions, Balanced instructions → ∃ tree : Tree, tree.flatten = instructions := by
  refine ⟨?_, fun instructions => balanced_iff_exists_flatten.mp⟩
  intro file tree
  refine ⟨_, Program.link_eq_ok_iff.mpr ⟨tree, rfl, rfl⟩, ?_⟩
  intro cell mayGrow size machine console hcreate
  obtain ⟨count, -, rfl⟩ := Machine.create_eq_ok_iff.mp hcreate
  exact ⟨fun after => Machine.exists_run_eq_finished_iff rfl rfl,
    fun index error after => Machine.exists_run_eq_raised_iff rfl rfl⟩

end Brainfuck
