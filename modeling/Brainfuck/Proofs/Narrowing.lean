import Brainfuck.Proofs.Lockstep
import Brainfuck.Proofs.Pairing
import Brainfuck.Stream.Scripted

/-! # Narrow cells are wide cells reduced

Reducing every cell to fewer bits commutes with all that a program does to cells, as long as eight
bits are left for input and output. Only the test of a loop start can tell the difference: a wide
cell that is not zero may be zero once it is reduced.

Main definitions: `CellKind.Narrows`, `Tape.Narrows`, `Machine.TestsAlike`. Main statement:
`Machine.narrows_of_create`. -/

namespace Brainfuck

variable {ι ο : Type}

/-! ## Kinds of cell -/

/-- A kind of cell has fewer bits than another, but at least those of a byte; new cells of both hold
zero. -/
structure CellKind.Narrows (wide narrow : CellKind) : Prop where
  /-- There are at least the bits of a byte. -/
  byte : 8 ≤ narrow.bits
  /-- There are no more bits than in the wide cell. -/
  bits : narrow.bits ≤ wide.bits
  /-- A new wide cell holds zero. -/
  wideZero : wide.zero = 0
  /-- A new narrow cell holds zero. -/
  narrowZero : narrow.zero = 0

namespace CellKind.Narrows

variable {wide narrow : CellKind}

theorem modulus_dvd (h : wide.Narrows narrow) : (narrow.modulus : Int) ∣ wide.modulus :=
  Int.natCast_dvd_natCast.mpr (Nat.pow_dvd_pow 2 h.bits)

theorem byte_dvd (h : wide.Narrows narrow) : (256 : Int) ∣ narrow.modulus :=
  Int.natCast_dvd_natCast.mpr (Nat.pow_dvd_pow 2 h.byte)

/-- To wrap a value around to the wide cell first makes no difference to the narrow one. -/
theorem wrap_wrap (h : wide.Narrows narrow) (value : Int) :
    narrow.wrap (wide.wrap value) = narrow.wrap value :=
  Int.emod_emod_of_dvd value h.modulus_dvd

theorem increment_wrap (h : wide.Narrows narrow) (value : Int) :
    narrow.increment (narrow.wrap value) = narrow.wrap (wide.increment value) := by
  unfold increment
  rw [h.wrap_wrap]
  unfold wrap
  rw [Int.emod_add_emod]

theorem decrement_wrap (h : wide.Narrows narrow) (value : Int) :
    narrow.decrement (narrow.wrap value) = narrow.wrap (wide.decrement value) := by
  unfold decrement
  rw [h.wrap_wrap]
  unfold wrap
  rw [Int.emod_sub_emod]

theorem toByte_wrap (h : wide.Narrows narrow) (value : Int) :
    narrow.toByte (narrow.wrap value) = wide.toByte value := by
  unfold toByte wrap
  rw [Int.emod_emod_of_dvd value h.byte_dvd]

theorem fromByte_eq (h : wide.Narrows narrow) (byte : Int) :
    narrow.fromByte byte = narrow.wrap (wide.fromByte byte) := by
  unfold fromByte
  rw [h.wrap_wrap]

end CellKind.Narrows

/-! ## Tapes -/

/-- The cells of the second tape are those of the first, reduced to a kind of cell. -/
structure Tape.Narrows (narrow : CellKind) (first second : Tape) : Prop where
  /-- The data pointers are the same. -/
  head : first.head = second.head
  /-- The cells are reduced. -/
  cells : second.cells = first.cells.map narrow.wrap

namespace Tape.Narrows

variable {wide narrow : CellKind} {first second : Tape}

theorem size (h : Narrows narrow first second) : first.size = second.size := by
  simp [Tape.size, h.cells]

theorem current (h : Narrows narrow first second) : second.current = narrow.wrap first.current := by
  simp only [Tape.current, h.cells, h.head, Array.getD_eq_getD_getElem?, Array.getElem?_map]
  cases first.cells[second.head]? with
  | none => exact narrow.wrap_zero.symm
  | some value => rfl

/-- A reduced value is written to the second tape. -/
theorem write (h : Narrows narrow first second) (value : Int) :
    Narrows narrow (first.write value) (second.write (narrow.wrap value)) where
  head := h.head
  cells := by simp [Tape.write, h.cells, h.head, Array.map_setIfInBounds]

theorem moveLeft (h : Narrows narrow first second) :
    Narrows narrow first.moveLeft second.moveLeft :=
  ⟨congrArg (· - 1) h.head, h.cells⟩

theorem moveRight (h : Narrows narrow first second) :
    Narrows narrow first.moveRight second.moveRight :=
  ⟨congrArg (· + 1) h.head, h.cells⟩

theorem grow (h : Narrows narrow first second) : Narrows narrow (first.grow 0) (second.grow 0) where
  head := h.head
  cells := by simp [Tape.grow, h.cells, narrow.wrap_zero]

/-- A move to the right is possible on both tapes or on neither. -/
theorem right (h : Narrows narrow first second) {rules rules' : Rules}
    (hcell : rules.cell.zero = 0) (hcell' : rules'.cell.zero = 0)
    (hgrow : rules.mayGrow = rules'.mayGrow) :
    Option.Rel (Narrows narrow) (first.right? rules) (second.right? rules') := by
  unfold right?
  rw [hcell, hcell', hgrow, h.head, h.size]
  by_cases hlast : second.head + 1 = second.size
  · rw [if_pos hlast, if_pos hlast]
    cases rules'.mayGrow with
    | true => exact .some h.grow.moveRight
    | false => exact .none
  · rw [if_neg hlast, if_neg hlast]
    exact .some h.moveRight

end Tape.Narrows

/-- Operations keep a tape reduced. -/
theorem Tape.kept_narrows {rules rules' : Rules} (h : rules.cell.Narrows rules'.cell) :
    Kept (Narrows rules'.cell) rules rules' where
  head hnarrows := hnarrows.head
  byte hnarrows := by rw [hnarrows.current, h.toByte_wrap]
  left hnarrows _ := hnarrows.moveLeft
  increment hnarrows := by
    rw [hnarrows.current, h.increment_wrap]
    exact hnarrows.write _
  decrement hnarrows := by
    rw [hnarrows.current, h.decrement_wrap]
    exact hnarrows.write _
  store byte hnarrows := by
    rw [h.fromByte_eq]
    exact hnarrows.write _

/-! ## Machines -/

/-- The openers of the program are loop starts. -/
def LinkedProgram.OpenersStart (program : LinkedProgram) : Prop :=
  ∀ (index target : Nat) (instruction partner : Instruction),
    program.instructions[index]? = some (.opener instruction target partner) →
    instruction.op = .loopStart

/-- The openers of a linked program are loop starts. -/
theorem Paired.openersStart {source : Program} {program : LinkedProgram}
    (h : Paired source program) : program.OpenersStart := by
  intro index target instruction partner hentry
  exact (h.opener _ (Array.mem_of_getElem? hentry)).mp ⟨_, _, _, rfl⟩

/-- The instructions of a linked program are those of its source. -/
theorem Paired.mem_of_getElem? {source : Program} {program : LinkedProgram}
    (h : Paired source program) {index : Nat} {entry : Linked}
    (hentry : program.instructions[index]? = some entry) :
    entry.instruction ∈ source.instructions := by
  rw [← h.instructions]
  exact List.mem_map_of_mem (Array.mem_toList_iff.mpr (Array.mem_of_getElem? hentry))

namespace Machine

variable [InputStream ι] [OutputStream ο] {program : LinkedProgram} {wide narrow : Machine}
  {console : Console ι ο} {count : Nat}

/-- Each loop start that is executed in the first `count` steps tests a cell that is zero, or that
is not zero when reduced to a kind of cell. -/
def TestsAlike (kind : CellKind) (count : Nat) (machine : Machine) (console : Console ι ο) : Prop :=
  ∀ step < count,
    (machine.steps step console).machine.next?.map Linked.op = some .loopStart →
    (machine.steps step console).machine.tape.current = 0 ∨
      ¬ (kind.modulus : Int) ∣ (machine.steps step console).machine.tape.current

instance (kind : CellKind) (count : Nat) (machine : Machine) (console : Console ι ο) :
    Decidable (machine.TestsAlike kind count console) :=
  inferInstanceAs (Decidable (∀ step < count, _ → _))

/-- A machine with wide cells beside one with narrow cells, otherwise at the same. -/
structure Narrows (wide narrow : Machine) : Prop where
  /-- The program is the same. -/
  program : wide.program = narrow.program
  /-- The kinds of cell are a wide and a narrow one. -/
  cell : wide.cell.Narrows narrow.cell
  /-- Both tapes may grow, or none. -/
  mayGrow : wide.mayGrow = narrow.mayGrow
  /-- The program counters are the same. -/
  pc : wide.pc = narrow.pc
  /-- The statuses are the same. -/
  status : wide.status = narrow.status
  /-- The cells are reduced. -/
  tape : wide.tape.Narrows narrow.cell narrow.tape

theorem narrows_create {kind kind' : CellKind} (hkinds : kind.Narrows kind') {mayGrow : Bool}
    {size : Int} (hwide : create program kind mayGrow size = .ok wide)
    (hnarrow : create program kind' mayGrow size = .ok narrow) : wide.Narrows narrow := by
  obtain ⟨cells, hcells, rfl⟩ := create_eq_ok_iff.mp hwide
  obtain ⟨cells', hcells', rfl⟩ := create_eq_ok_iff.mp hnarrow
  obtain rfl : cells = cells' := Except.ok.inj (hcells.symm.trans hcells')
  refine ⟨rfl, hkinds, rfl, rfl, rfl, rfl, ?_⟩
  simp [Tape.blank, hkinds.wideZero, hkinds.narrowZero, CellKind.wrap_zero]

/-- As long as the tests come out the same, the machines are in lockstep. -/
theorem Narrows.lockstep (h : wide.Narrows narrow) (hopeners : wide.program.OpenersStart)
    (htests : wide.TestsAlike narrow.cell count console) :
    Lockstep (Tape.Narrows narrow.cell) wide narrow console console count := by
  have hkept : Tape.Kept (Tape.Narrows narrow.cell) wide.rules narrow.rules :=
    @Tape.kept_narrows wide.rules narrow.rules h.cell
  refine Abreast.lockstep ⟨h.pc, h.status, h.tape, rfl⟩ hkept (h.program ▸ .refl _) ?_
  intro step hstep hsofar
  constructor
  · intro instruction partner target hnext
    have hentry := hnext
    rw [next?, program_steps] at hentry
    have hop : instruction.op = .loopStart := hopeners _ _ _ _ hentry
    have htest := htests step hstep (by rw [hnext]; exact congrArg some hop)
    rw [hsofar.abreast.tape.current, CellKind.wrap_eq_zero_iff]
    rcases htest with hzero | hmultiple
    · simp [hzero]
    · constructor
      · intro hzero
        simp [hzero]
      · intro hdvd
        exact absurd hdvd hmultiple
  · intro instruction hnext hop
    rw [rules_steps, rules_steps]
    exact hsofar.abreast.tape.right h.cell.wideZero h.cell.narrowZero h.mayGrow

/-- As long as the tests come out the same, so does all else. -/
theorem Narrows.agrees (h : wide.Narrows narrow) (hopeners : wide.program.OpenersStart)
    (htests : wide.TestsAlike narrow.cell count console) :
    (wide.steps count console).Agrees (Tape.Narrows narrow.cell) (narrow.steps count console) ∧
      wide.stepsCalls count console = narrow.stepsCalls count console := by
  have hlockstep : ∀ step ≤ count,
      Lockstep (Tape.Narrows narrow.cell) wide narrow console console step := by
    intro step hle
    exact h.lockstep hopeners fun earlier hlt => htests earlier (by omega)
  exact ⟨Lockstep.agrees h.program hlockstep, (hlockstep count (Nat.le_refl count)).calls⟩

/-- A program without loop starts makes no tests. -/
theorem testsAlike_of_straight {source : Program} (h : Paired source wide.program)
    (hstraight : ∀ instruction ∈ source.instructions, instruction.op ≠ .loopStart)
    (kind : CellKind) (count : Nat) (console : Console ι ο) :
    wide.TestsAlike kind count console := by
  intro step _ hop
  obtain ⟨entry, hentry, hstart⟩ := Option.map_eq_some_iff.mp hop
  rw [next?, program_steps] at hentry
  exact absurd hstart (hstraight entry.instruction (h.mem_of_getElem? hentry))

/-- Runs in which all tests come out the same agree. -/
theorem Narrows.agrees_run (h : wide.Narrows narrow) (hopeners : wide.program.OpenersStart)
    {limit : Nat} (htests : wide.TestsAlike narrow.cell limit console) :
    (wide.run limit console).Agrees (Tape.Narrows narrow.cell) (narrow.run limit console) ∧
      wide.calls limit console = narrow.calls limit console := by
  have hagrees : ∀ step ≤ limit,
      (wide.steps step console).Agrees (Tape.Narrows narrow.cell) (narrow.steps step console) ∧
        wide.stepsCalls step console = narrow.stepsCalls step console :=
    fun step hle => h.agrees hopeners fun earlier hlt => htests earlier (by omega)
  obtain ⟨count, hle, ⟨hwide, hwideCalls⟩, hnarrow, hnarrowCalls⟩ :=
    exists_steps_eq_runs fun step hstep => (hagrees step hstep).1.reply
  rw [hwide, hwideCalls, hnarrow, hnarrowCalls]
  exact hagrees count hle

/-- A machine with narrow cells does what one with wide cells does, with every cell reduced, as long
as no loop start tests a wide cell that is zero only when reduced. So without loop starts the width
cannot be told, neither step by step nor from a run. -/
theorem narrows_of_create {source : Program} (hlink : source.link = .ok program)
    {kind kind' : CellKind} (hkinds : kind.Narrows kind') {mayGrow : Bool} {size : Int}
    (hwide : create program kind mayGrow size = .ok wide)
    (hnarrow : create program kind' mayGrow size = .ok narrow) (console : Console ι ο) :
    (∀ count, wide.TestsAlike kind' count console →
      (wide.steps count console).Agrees (Tape.Narrows kind') (narrow.steps count console) ∧
        wide.stepsCalls count console = narrow.stepsCalls count console) ∧
      ((∀ instruction ∈ source.instructions, instruction.op ≠ .loopStart) → ∀ count,
        ((wide.steps count console).Agrees (Tape.Narrows kind') (narrow.steps count console) ∧
          wide.stepsCalls count console = narrow.stepsCalls count console) ∧
        (wide.run count console).Agrees (Tape.Narrows kind') (narrow.run count console) ∧
          wide.calls count console = narrow.calls count console) := by
  have hnarrows := narrows_create hkinds hwide hnarrow
  have hpaired : Paired source wide.program := by
    obtain ⟨cells, -, rfl⟩ := create_eq_ok_iff.mp hwide
    exact Program.paired_of_link_eq_ok hlink
  obtain ⟨cells, -, rfl⟩ := create_eq_ok_iff.mp hnarrow
  constructor
  · intro count htests
    exact hnarrows.agrees hpaired.openersStart htests
  · intro hstraight count
    have htests := testsAlike_of_straight hpaired hstraight kind' count console
    exact ⟨hnarrows.agrees hpaired.openersStart htests,
      hnarrows.agrees_run hpaired.openersStart htests⟩

/-- A loop whose cell wraps around and is never a multiple of two. -/
def oddLoop : LinkedProgram :=
  ⟨"odd.bf", #[.plain ⟨.sub, 1, 1⟩, .opener ⟨.loopStart, 1, 2⟩ 5 ⟨.loopEnd, 1, 6⟩,
    .plain ⟨.output, 1, 3⟩, .plain ⟨.add, 1, 4⟩, .plain ⟨.add, 1, 5⟩,
    .closer ⟨.loopEnd, 1, 6⟩ 1 ⟨.loopStart, 1, 2⟩]⟩

/-- Eight and sixteen bits give the same output, and cells that are the same when reduced. -/
theorem narrows_oddLoop :
    ∃ wide narrow,
      (Program.ofSource "odd.bf" [0x2d, 0x5b, 0x2e, 0x2b, 0x2b, 0x5d]).link = .ok oddLoop ∧
      create oddLoop ⟨16, by decide, 0⟩ true 1 = .ok wide ∧
      create oddLoop .byte true 1 = .ok narrow ∧
      (wide.steps 3 .noInput).machine.tape = ⟨#[65535], 0⟩ ∧
      (wide.steps 13 .noInput).Agrees (Tape.Narrows .byte) (narrow.steps 13 .noInput) ∧
      wide.stepsCalls 13 .noInput = [.write 255, .flush, .write 1, .flush, .write 3, .flush] := by
  have hwide : create oddLoop ⟨16, by decide, 0⟩ true 1 = .ok _ := rfl
  have hnarrow : create oddLoop .byte true 1 = .ok _ := rfl
  have hlink : (Program.ofSource "odd.bf" [0x2d, 0x5b, 0x2e, 0x2b, 0x2b, 0x5d]).link =
    .ok oddLoop := rfl
  refine ⟨_, _, hlink, hwide, hnarrow, by decide, ?_, by decide⟩
  exact ((narrows_of_create hlink ⟨by decide, by decide, rfl, rfl⟩ hwide hnarrow .noInput).1 13
    (by decide)).1

end Machine

end Brainfuck
