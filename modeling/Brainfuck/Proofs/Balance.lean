import Brainfuck.Link

/-! # Balanced brackets

A list of instructions is balanced when no beginning of it holds more loop ends than loop starts,
and the whole of it holds as many of the one as of the other. Reading it with some loops open
already is the same, counted from that depth.

Main definitions: `Balanced`, `BalancedFrom`. Main statement: linking blames no bracket exactly if a
program is balanced (`Program.link_ne_bracket_iff`). -/

namespace Brainfuck

/-! ## Counting brackets -/

/-- The number of loop starts. -/
def starts (instructions : List Instruction) : Nat :=
  instructions.countP (·.op = .loopStart)

/-- The number of loop ends. -/
def ends (instructions : List Instruction) : Nat :=
  instructions.countP (·.op = .loopEnd)

/-- No beginning holds more loop ends than loop starts, and the whole holds as many of both. -/
def Balanced (instructions : List Instruction) : Prop :=
  (∀ count, ends (instructions.take count) ≤ starts (instructions.take count)) ∧
    ends instructions = starts instructions

/-- The instructions close exactly `depth` loops that were open before them, and no more than are
open at any time. -/
def BalancedFrom (depth : Nat) (instructions : List Instruction) : Prop :=
  (∀ count, ends (instructions.take count) ≤ depth + starts (instructions.take count)) ∧
    ends instructions = depth + starts instructions

theorem balancedFrom_zero_iff {instructions : List Instruction} :
    BalancedFrom 0 instructions ↔ Balanced instructions := by
  simp [BalancedFrom, Balanced]

@[simp] theorem starts_nil : starts [] = 0 := rfl

@[simp] theorem ends_nil : ends [] = 0 := rfl

theorem starts_cons (instruction : Instruction) (rest : List Instruction) :
    starts (instruction :: rest) =
      starts rest + if instruction.op = .loopStart then 1 else 0 := by
  simp [starts, List.countP_cons]

theorem ends_cons (instruction : Instruction) (rest : List Instruction) :
    ends (instruction :: rest) = ends rest + if instruction.op = .loopEnd then 1 else 0 := by
  simp [ends, List.countP_cons]

/-! ## Balance from a depth, instruction by instruction -/

@[simp] theorem balancedFrom_nil_iff {depth : Nat} : BalancedFrom depth [] ↔ depth = 0 := by
  simp [BalancedFrom, eq_comm]

/-- A condition on all beginnings, read off the empty one and those that hold the first element. -/
theorem forall_take_cons_iff {motive : List Instruction → Prop} {instruction : Instruction}
    {rest : List Instruction} :
    (∀ count, motive ((instruction :: rest).take count)) ↔
      motive [] ∧ ∀ count, motive (instruction :: rest.take count) := by
  constructor
  · intro h
    exact ⟨h 0, fun count => h (count + 1)⟩
  · rintro ⟨hnil, hcons⟩ (_ | count)
    · exact hnil
    · exact hcons count

variable {instruction : Instruction} {depth : Nat} {rest : List Instruction}

theorem balancedFrom_start_iff (h : instruction.op = .loopStart) :
    BalancedFrom depth (instruction :: rest) ↔ BalancedFrom (depth + 1) rest := by
  have start (l : List Instruction) : starts (instruction :: l) = starts l + 1 := by
    simp [starts_cons, h]
  have stop (l : List Instruction) : ends (instruction :: l) = ends l := by
    simp [ends_cons, h]
  unfold BalancedFrom
  rw [forall_take_cons_iff (motive := fun l => ends l ≤ depth + starts l)]
  simp only [start, stop, ends_nil, starts_nil]
  constructor
  · rintro ⟨⟨-, within⟩, total⟩
    exact ⟨fun count => by have := within count; omega, by omega⟩
  · rintro ⟨within, total⟩
    exact ⟨⟨by omega, fun count => by have := within count; omega⟩, by omega⟩

theorem balancedFrom_end_iff (h : instruction.op = .loopEnd) :
    BalancedFrom depth (instruction :: rest) ↔ 0 < depth ∧ BalancedFrom (depth - 1) rest := by
  have start (l : List Instruction) : starts (instruction :: l) = starts l := by
    simp [starts_cons, h]
  have stop (l : List Instruction) : ends (instruction :: l) = ends l + 1 := by
    simp [ends_cons, h]
  unfold BalancedFrom
  rw [forall_take_cons_iff (motive := fun l => ends l ≤ depth + starts l)]
  simp only [start, stop, ends_nil, starts_nil]
  constructor
  · rintro ⟨⟨-, within⟩, total⟩
    -- the beginning that holds the loop end alone shows that a loop is open
    have first := within 0
    simp only [List.take_zero, ends_nil, starts_nil] at first
    exact ⟨by omega, fun count => by have := within count; omega, by omega⟩
  · rintro ⟨positive, within, total⟩
    exact ⟨⟨by omega, fun count => by have := within count; omega⟩, by omega⟩

theorem balancedFrom_plain_iff (hs : instruction.op ≠ .loopStart)
    (he : instruction.op ≠ .loopEnd) :
    BalancedFrom depth (instruction :: rest) ↔ BalancedFrom depth rest := by
  have start (l : List Instruction) : starts (instruction :: l) = starts l := by
    simp [starts_cons, hs]
  have stop (l : List Instruction) : ends (instruction :: l) = ends l := by
    simp [ends_cons, he]
  unfold BalancedFrom
  rw [forall_take_cons_iff (motive := fun l => ends l ≤ depth + starts l)]
  simp [start, stop]

/-! ## Linking blames a bracket exactly if a program is not balanced -/

namespace Program

/-- Linking on blames no bracket exactly if the rest of the program closes the loops that are open.
-/
theorem linkFrom_ne_bracket_iff (file : String) (loops : List OpenLoop)
    (linked : Array (Option Linked)) (instructions : List Instruction) :
    (∀ error, linkFrom file loops linked instructions ≠ .error (.bracket error)) ↔
      BalancedFrom loops.length instructions := by
  induction instructions generalizing loops linked with
  | nil => cases loops <;> simp
  | cons instruction rest ih =>
    -- a loop start adds an open loop, a loop end takes one away, all else leaves them as they are
    by_cases hs : instruction.op = .loopStart
    · rw [linkFrom_start _ _ _ _ hs, ih, balancedFrom_start_iff hs, List.length_cons]
    · by_cases he : instruction.op = .loopEnd
      · rw [balancedFrom_end_iff he]
        cases loops with
        | nil => simp [linkFrom_end_nil _ _ _ he]
        | cons innermost outer => simp [linkFrom_end_cons _ _ _ _ he, ih]
      · rw [linkFrom_plain _ _ _ _ hs he, ih, balancedFrom_plain_iff hs he]

/-- No bracket of a program is blamed exactly if its brackets are balanced. -/
theorem link_ne_bracket_iff (program : Program) :
    (∀ error, program.link ≠ .error (.bracket error)) ↔ Balanced program.instructions := by
  rw [link, linkFrom_ne_bracket_iff, List.length_nil, balancedFrom_zero_iff]

end Program

end Brainfuck
