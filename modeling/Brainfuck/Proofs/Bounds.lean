import Brainfuck.Proofs.Pairing
import Brainfuck.Proofs.Reachable
import Brainfuck.Proofs.Step
import Brainfuck.Stream.Scripted

/-! # Machines stay within bounds

Whatever is done to a machine of a linked program, its data pointer stays on the tape, its program
counter stays in the program or just past it, the tape never shrinks and grows by one cell in a step
at most, and a cell holds either a value that fits the widest cell so far or the value of a new
cell.

Main definitions: `Attainable`, `Machine.InBounds`, `Machine.StepsWithin`. -/

namespace Brainfuck

variable {ι ο : Type}

/-! ## Values of cells -/

/-- The number of bits of the widest cell among some kinds of cell. -/
def widest (kinds : List CellKind) : Nat :=
  kinds.foldr (fun kind bits => max kind.bits bits) 0

/-- A value fits the widest of the cells, or is the value of a new one. -/
def Attainable (kinds : List CellKind) (value : Int) : Prop :=
  (0 ≤ value ∧ value < (Nat.pow 2 (widest kinds) : Nat)) ∨ ∃ kind ∈ kinds, value = kind.zero

theorem bits_le_widest {kinds : List CellKind} {kind : CellKind} (h : kind ∈ kinds) :
    kind.bits ≤ widest kinds := by
  induction kinds with
  | nil => simp at h
  | cons first rest ih =>
    rcases List.mem_cons.mp h with rfl | h
    · exact Nat.le_max_left _ _
    · exact Nat.le_trans (ih h) (Nat.le_max_right _ _)

theorem widest_le_widest {kinds more : List CellKind} (h : kinds ⊆ more) :
    widest kinds ≤ widest more := by
  induction kinds with
  | nil => exact Nat.zero_le _
  | cons first rest ih =>
    rw [List.cons_subset] at h
    exact Nat.max_le.mpr ⟨bits_le_widest h.1, ih h.2⟩

/-- A value below the modulus of one of the kinds is attainable. -/
theorem attainable_of_lt_modulus {kinds : List CellKind} {kind : CellKind} (h : kind ∈ kinds)
    {value : Int} (hnonneg : 0 ≤ value) (hlt : value < kind.modulus) :
    Attainable kinds value := by
  have hpow : kind.modulus ≤ Nat.pow 2 (widest kinds) :=
    Nat.pow_le_pow_right (by omega) (bits_le_widest h)
  exact .inl ⟨hnonneg, by omega⟩

theorem Attainable.mono {kinds more : List CellKind} {value : Int} (h : Attainable kinds value)
    (hmore : kinds ⊆ more) : Attainable more value := by
  rcases h with ⟨hnonneg, hlt⟩ | ⟨kind, hkind, rfl⟩
  · have hpow : Nat.pow 2 (widest kinds) ≤ Nat.pow 2 (widest more) :=
      Nat.pow_le_pow_right (by omega) (widest_le_widest hmore)
    exact .inl ⟨hnonneg, by omega⟩
  · exact .inr ⟨kind, hmore hkind, rfl⟩

/-- What is written to the output is a byte. -/
theorem CellKind.toByte_bounds (kind : CellKind) (value : Int) :
    0 ≤ kind.toByte value ∧ kind.toByte value < 256 := by
  unfold CellKind.toByte
  omega

/-! ## Tapes -/

namespace Tape

theorem mem_cells_write {tape : Tape} {value other : Int} (h : other ∈ (tape.write value).cells) :
    other = value ∨ other ∈ tape.cells := by
  obtain ⟨index, hindex⟩ := Array.mem_iff_getElem?.mp h
  simp only [write, Array.getElem?_setIfInBounds] at hindex
  split at hindex
  · split at hindex
    · exact .inl (Option.some.inj hindex).symm
    · cases hindex
  · exact .inr (Array.mem_iff_getElem?.mpr ⟨index, hindex⟩)

theorem mem_cells_grow {tape : Tape} {value other : Int} (h : other ∈ (tape.grow value).cells) :
    other = value ∨ other ∈ tape.cells := by
  rcases Array.mem_push.mp h with h | h
  · exact .inr h
  · exact .inl h

/-- The current cell is one of the tape, if the data pointer is on it. -/
theorem getElem?_head {tape : Tape} (h : tape.head < tape.size) :
    tape.cells[tape.head]? = some tape.current := by
  have hbound : tape.head < tape.cells.size := h
  simp [current, hbound]

end Tape

/-- A completed operation keeps the data pointer on the tape and adds one cell at most; what the
cells hold they held before, or it fits a cell, or it is the value of a new one. -/
theorem Primitive.Effect.bounds [InputStream ι] [OutputStream ο] {rules : Rules}
    {instruction : Instruction} {operation : Primitive} {before after : World ι ο}
    (h : operation.Effect rules instruction before none after)
    (hhead : before.tape.head < before.tape.size) :
    after.tape.head < after.tape.size ∧ before.tape.size ≤ after.tape.size ∧
      after.tape.size ≤ before.tape.size + 1 ∧
      ∀ value ∈ after.tape.cells, value ∈ before.tape.cells ∨
        (0 ≤ value ∧ value < rules.cell.modulus) ∨ value = rules.cell.zero := by
  -- what the operations write is wrapped, and the other cells stay as they are
  have written (value : Int) : ∀ other ∈ (before.tape.write (rules.cell.wrap value)).cells,
      other ∈ before.tape.cells ∨ (0 ≤ other ∧ other < rules.cell.modulus) ∨
        other = rules.cell.zero := by
    intro other hother
    rcases Tape.mem_cells_write hother with rfl | hother
    · exact .inr (.inl ⟨rules.cell.wrap_nonneg value, rules.cell.wrap_lt value⟩)
    · exact .inl hother
  cases h with
  | right inside =>
    refine ⟨?_, by simp, by simp, fun value hvalue => .inl hvalue⟩
    simp only [Tape.head_moveRight, Tape.size_moveRight]
    omega
  | grow last mayGrow =>
    refine ⟨?_, by simp, by simp, ?_⟩
    · simp only [Tape.head_moveRight, Tape.size_moveRight, Tape.head_grow, Tape.size_grow]
      omega
    · intro value hvalue
      rcases Tape.mem_cells_grow hvalue with rfl | hvalue
      · exact .inr (.inr rfl)
      · exact .inl hvalue
  | left inside =>
    refine ⟨?_, by simp, by simp, fun value hvalue => .inl hvalue⟩
    simp only [Tape.head_moveLeft, Tape.size_moveLeft]
    omega
  | add => exact ⟨by simpa using hhead, by simp, by simp, written _⟩
  | sub => exact ⟨by simpa using hhead, by simp, by simp, written _⟩
  | output reply => exact ⟨hhead, by simp, by simp, fun value hvalue => .inl hvalue⟩
  | input reply => exact ⟨by simpa using hhead, by simp, by simp, written _⟩

/-! ## Jumps -/

/-- Every bracket of the program leads to an instruction of it. -/
def LinkedProgram.JumpsInside (program : LinkedProgram) : Prop :=
  ∀ (index target : Nat) (entry : Linked), program.instructions[index]? = some entry →
    entry.target? = some target → target < program.size

/-- The brackets of a linked program lead to instructions of it. -/
theorem Paired.jumpsInside {program : Program} {linked : LinkedProgram}
    (h : Paired program linked) : linked.JumpsInside := by
  intro index target entry hentry htarget
  cases entry with
  | plain instruction => cases htarget
  | opener instruction closer partner =>
    cases htarget
    exact (h.partner index target instruction partner hentry).2.1
  | closer instruction opener partner =>
    cases htarget
    obtain ⟨hopener, -⟩ := h.origin target index partner instruction hentry
    exact (Array.getElem?_eq_some_iff.mp hopener).1

/-! ## Machines -/

namespace Machine

/-- The data pointer is on the tape, the program counter in the program or just past it, and the
cells hold values that the kinds of cell allow, the machine's own being one of them. -/
structure InBounds (kinds : List CellKind) (machine : Machine) : Prop where
  /-- The data pointer is on the tape. -/
  head : machine.tape.head < machine.tape.size
  /-- The program counter is in the program or just past it. -/
  pc : machine.pc ≤ machine.program.size
  /-- The brackets lead to instructions of the program. -/
  jumps : machine.program.JumpsInside
  /-- The machine's kind of cell is one of those listed. -/
  cell : machine.cell ∈ kinds
  /-- The cells hold values that were possible. -/
  values : ∀ value ∈ machine.tape.cells, Attainable kinds value

variable {machine : Machine} {kinds : List CellKind}

theorem InBounds.mono {more : List CellKind} (h : machine.InBounds kinds) (hmore : kinds ⊆ more) :
    machine.InBounds more :=
  ⟨h.head, h.pc, h.jumps, hmore h.cell, fun value hvalue => (h.values value hvalue).mono hmore⟩

/-- The instruction at the program counter is one of the program. -/
theorem pc_lt_of_next? {linked : Linked} (h : machine.next? = some linked) :
    machine.pc < machine.program.size :=
  (Array.getElem?_eq_some_iff.mp h).1

/-- Going on at another instruction of the program keeps a machine in bounds. -/
theorem InBounds.goTo (h : machine.InBounds kinds) {target : Nat}
    (htarget : target ≤ machine.program.size) :
    (machine.goTo machine.tape target).InBounds kinds :=
  ⟨h.head, htarget, h.jumps, h.cell, h.values⟩

/-- A new machine is in bounds. -/
theorem inBounds_create {program : LinkedProgram} {kind : CellKind} {mayGrow : Bool} {size : Int}
    (hjumps : program.JumpsInside) (h : create program kind mayGrow size = .ok machine) :
    machine.InBounds [kind] := by
  obtain ⟨count, hcount, rfl⟩ := create_eq_ok_iff.mp h
  refine ⟨?_, Nat.zero_le _, hjumps, List.mem_singleton_self _, ?_⟩
  · simpa using (tapeSize_eq_ok hcount).1
  · intro value hvalue
    exact .inr ⟨kind, List.mem_singleton_self _, Array.eq_of_mem_replicate hvalue⟩

theorem inBounds_build {settings : MachineSettings} {program : LinkedProgram}
    (hjumps : program.JumpsInside) (h : settings.build program = .ok machine) :
    machine.InBounds [machine.cell] := by
  obtain ⟨kind, hcreate⟩ := MachineSettings.create_of_build h
  have hbounds := inBounds_create hjumps hcreate
  obtain ⟨count, -, rfl⟩ := create_eq_ok_iff.mp hcreate
  exact hbounds

variable [InputStream ι] [OutputStream ο]

/-- A step keeps a machine in bounds, and its tape grows by one cell at most. -/
theorem InBounds.step (h : machine.InBounds kinds) (console : Console ι ο) :
    (machine.step console).machine.InBounds kinds ∧
      machine.tape.size ≤ (machine.step console).machine.tape.size ∧
      (machine.step console).machine.tape.size ≤ machine.tape.size + 1 := by
  have hstepped := machine.stepped_step console
  generalize machine.step console = outcome at hstepped
  cases hstepped with
  | finished ended => exact ⟨⟨h.head, h.pc, h.jumps, h.cell, h.values⟩, by simp, by simp⟩
  | completed next op effect =>
    -- there was an instruction at the program counter, so the next index is in the program or just
    -- past it
    obtain ⟨hhead, hmore, hone, hvalues⟩ := effect.bounds h.head
    refine ⟨⟨hhead, pc_lt_of_next? next, h.jumps, h.cell, ?_⟩, hmore, hone⟩
    intro value hvalue
    rcases hvalues value hvalue with hvalue | ⟨hnonneg, hlt⟩ | rfl
    · exact h.values value hvalue
    · exact attainable_of_lt_modulus h.cell hnonneg hlt
    · exact .inr ⟨machine.cell, h.cell, rfl⟩
  | raised next op effect => exact ⟨⟨h.head, h.pc, h.jumps, h.cell, h.values⟩, by simp, by simp⟩
  | skipped next zero => exact ⟨h.goTo (h.jumps _ _ _ next rfl), by simp, by simp⟩
  | entered next nonzero => exact ⟨h.goTo (pc_lt_of_next? next), by simp, by simp⟩
  | returned next => exact ⟨h.goTo (Nat.le_of_lt (h.jumps _ _ _ next rfl)), by simp, by simp⟩
  | passed next bracket => exact ⟨h.goTo (pc_lt_of_next? next), by simp, by simp⟩

/-- What becomes of a machine in bounds is in bounds, and its tape has not shrunk. -/
theorem InBounds.evolves {last : Machine} {changes : List CellKind} (h : machine.InBounds kinds)
    (hevolves : machine.Evolves changes last) :
    last.InBounds (changes ++ kinds) ∧ last.program = machine.program ∧
      machine.tape.size ≤ last.tape.size := by
  induction hevolves with
  | refl => exact ⟨h, rfl, Nat.le_refl _⟩
  | step console _ ih =>
    obtain ⟨hbounds, hprogram, hsize⟩ := ih
    obtain ⟨hnext, hmore, -⟩ := hbounds.step console
    exact ⟨hnext, (program_step _ console).trans hprogram, Nat.le_trans hsize hmore⟩
  | setGrowth mayGrow _ ih =>
    obtain ⟨hbounds, hprogram, hsize⟩ := ih
    exact ⟨⟨hbounds.head, hbounds.pc, hbounds.jumps, hbounds.cell, hbounds.values⟩, hprogram,
      hsize⟩
  | setCell cell _ ih =>
    obtain ⟨hbounds, hprogram, hsize⟩ := ih
    -- the cells keep values of the old kinds, so these stay listed
    have hwider := hbounds.mono (List.subset_cons_self cell _)
    exact ⟨⟨hwider.head, hwider.pc, hwider.jumps, List.mem_cons_self, hwider.values⟩, hprogram,
      hsize⟩

/-- A reached machine of a program with jumps inside it is in bounds. -/
theorem Reached.inBounds {program : LinkedProgram} (hjumps : program.JumpsInside)
    (h : machine.Reached program kinds) : machine.InBounds kinds ∧ machine.program = program := by
  obtain ⟨settings, first, changes, hbuild, hevolves, rfl⟩ := h
  obtain ⟨hbounds, hprogram, -⟩ := (inBounds_build hjumps hbuild).evolves hevolves
  obtain ⟨kind, hcreate⟩ := MachineSettings.create_of_build hbuild
  obtain ⟨count, -, rfl⟩ := create_eq_ok_iff.mp hcreate
  exact ⟨hbounds, hprogram⟩

/-- What a step keeps to. -/
structure StepsWithin (machine : Machine) (console : Console ι ο) : Prop where
  /-- The step finds no instruction only just past the program. -/
  fetched : (machine.step console).reply = .finished ↔ machine.pc = machine.program.size
  /-- The current cell is a cell of the tape. -/
  current : machine.tape.cells[machine.tape.head]? = some machine.tape.current
  /-- So is the one that a trace shows after the step. -/
  shown : (machine.step console).machine.tape.cells[(machine.step console).machine.tape.head]? =
    some (machine.step console).machine.tape.current
  /-- What would be written is a byte. -/
  written : 0 ≤ machine.cell.toByte machine.tape.current ∧
    machine.cell.toByte machine.tape.current < 256
  /-- The tape does not shrink. -/
  kept : machine.tape.size ≤ (machine.step console).machine.tape.size
  /-- The tape grows by one cell at most. -/
  grown : (machine.step console).machine.tape.size ≤ machine.tape.size + 1

theorem InBounds.stepsWithin (h : machine.InBounds kinds) (console : Console ι ο) :
    machine.StepsWithin console where
  fetched := by
    have hpc := h.pc
    rw [reply_step_eq_finished_iff, next?, Array.getElem?_eq_none_iff]
    exact ⟨fun hsize => Nat.le_antisymm hpc hsize, fun heq => Nat.le_of_eq heq.symm⟩
  current := Tape.getElem?_head h.head
  shown := Tape.getElem?_head (h.step console).1.head
  written := machine.cell.toByte_bounds _
  kept := (h.step console).2.1
  grown := (h.step console).2.2

end Machine

/-- Whatever a session does with the machines of a linked source, and wherever a run of one is
interrupted: the machine is in bounds, with the kinds of cell that it has had so far; every step
that could follow keeps to the program, the tape and the bytes; and no command shrinks a tape. -/
theorem Session.inBounds_performAll [InputStream ι] [OutputStream ο] {file : String}
    {source : List UInt8} {program : LinkedProgram}
    (hlink : (Program.ofSource file source).link = .ok program) {bound : Nat}
    {console : Console ι ο} {commands : List (Command ι ο)} {number : Nat} {machine : Machine}
    (hmachine :
      (performAll bound ⟨program, #[], console⟩ commands).2.machines[number]? = some machine) :
    (∀ (limit : Nat) (current later : Console ι ο),
      (machine.run limit current).machine.InBounds
          (kindsUsed bound number ⟨program, #[], console⟩ commands) ∧
        (machine.run limit current).machine.program = program ∧
        (machine.run limit current).machine.StepsWithin later) ∧
      ∀ command : Command ι ο, ∃ next : Machine,
        ((performAll bound ⟨program, #[], console⟩ commands).2.perform bound
          command).2.machines[number]? = some next ∧ machine.tape.size ≤ next.tape.size := by
  have hjumps := (Program.paired_of_link_eq_ok hlink).jumpsInside
  obtain ⟨held, hheld, hreached⟩ := reached_performAll hmachine
  obtain ⟨hbounds, hprogram⟩ := hreached.inBounds hjumps
  -- an interrupted run is a number of steps, and a command is a number of steps or a change of
  -- settings
  constructor
  · intro limit current later
    obtain ⟨hrun, hsame, -⟩ := hbounds.evolves (machine.evolves_run limit current)
    exact ⟨hrun.mono hheld, hsame.trans hprogram, hrun.stepsWithin later⟩
  · intro command
    obtain ⟨next, changes, hnext, -, hevolves⟩ := evolves_perform command hmachine
    exact ⟨next, hnext, (hbounds.evolves hevolves).2.2⟩

/-- Commands that grow the tape of a machine with wide cells, and run on with narrow cells and a
tape that is fixed. -/
def Session.growThenFix : List (Command ScriptedInput ScriptedOutput) :=
  [.create ⟨1, true, ⟨16, some 300⟩⟩, .drive 0 (.atMost 3), .adjust 0 (some false) (some ⟨4, none⟩),
    .drive 0 .toEnd]

/-- A machine that was about to leave its tape is in bounds. -/
theorem Session.inBounds_growThenFix :
    ∃ program machine,
      (Program.ofSource "loop.bf" [0x2b, 0x5b, 0x3e, 0x5d]).link = .ok program ∧
      (performAll 9 ⟨program, #[], {}, {}, false, ""⟩ growThenFix).2.machines[0]? = some machine ∧
      machine.status = .faulted ∧ machine.tape = ⟨#[301, 300], 1⟩ ∧
      machine.InBounds (kindsUsed 9 0 ⟨program, #[], {}, {}, false, ""⟩ growThenFix) := by
  have hlink : (Program.ofSource "loop.bf" [0x2b, 0x5b, 0x3e, 0x5d]).link = .ok _ := rfl
  refine ⟨_, _, hlink, rfl, rfl, rfl, ?_⟩
  exact ((inBounds_performAll hlink rfl).1 0 ⟨{}, {}, false, ""⟩ ⟨{}, {}, false, ""⟩).1

end Brainfuck
