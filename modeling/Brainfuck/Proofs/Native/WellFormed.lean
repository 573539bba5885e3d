import Brainfuck.Proofs.Native.Naming

/-! # Compiled code is well-formed

A build fills one block at a time. The others are through, except for the blocks after the open
loops, which are still empty. An instruction of a linked program goes on in its block, or it ends
the block and goes on in a new one, or it goes on in the block after the innermost open loop; so
every block is through in the end. Apart from the tape and the slot, a block needs values of its own
or of the block that checked something and leads to it, and to such a block no other leads.

Main definitions: `Emission`, `Builder.Shaped`, `Builder.Flowing`, `ClosesLoops`. Main statement:
the code of a linked program is well-formed, declares what it calls, and its loops are closed in
order (`wellFormed_compile`). -/

namespace Brainfuck.Native

open Ir Build

/-! ## What an instruction emits -/

/-- The names that all code refers to. -/
def IsFrame (name : Name) : Prop := name = frame.tape ∨ name = frame.slot

/-- What one instruction of a linked program does to a build. -/
inductive Emission (before after : Builder) : Prop where
  /-- Code is added to the block being filled. -/
  | straight {here : List Instr} (hemitted : before.Adds after here) (hhere : Straight here)
      (hsupplied : Supplied IsFrame here)
  /-- A check ends the block; the build goes on in a new block, which knows what the old one
  defines, and another new block returns. -/
  | check {body next : List Instr} {condition : Name} {word : Int}
      (hemitted : before.Emitted after before.size (before.size + 2) before.loops
        (body ++ [.branch condition before.size (before.size + 1)]) next [.ret word])
      (hbody : Straight body) (hnext : Straight next)
      (hhere : Supplied IsFrame (body ++ [.branch condition before.size (before.size + 1)]))
      (hsupplied : Supplied (fun name => IsFrame name ∨ name ∈ results body) next)
  /-- A loop begins; the build goes on in the first of two new blocks. -/
  | opened {index : Nat} {body : List Instr} {condition : Name}
      (hemitted : before.Emitted after before.size (before.size + 2)
        (⟨index, before.size, before.size + 1⟩ :: before.loops)
        (body ++ [.branch condition (before.size + 1) before.size]) [] [])
      (hbody : Straight body)
      (hhere : Supplied IsFrame (body ++ [.branch condition (before.size + 1) before.size]))
  /-- The innermost loop ends; the build goes on in the block after it. -/
  | closed {loop : LoopBlocks} {outer : List LoopBlocks} {body : List Instr} {condition : Name}
      (hloops : before.loops = loop :: outer)
      (hemitted : before.Emitted after loop.after before.size outer
        (body ++ [.branch condition loop.body loop.after]) [] [])
      (hbody : Straight body)
      (hhere : Supplied IsFrame (body ++ [.branch condition loop.body loop.after]))

section Instructions

variable {before : Builder}

theorem straight_elementCode (pointer address element : Nat) :
    Straight (elementCode frame pointer address element) := by
  simp [elementCode, Straight, Instr.isTerminator]

/-- Reading the current cell needs the tape and the slot, and what follows can use the cell and its
address. -/
theorem supplied_elementCode_append {pointer address element : Nat} {rest : List Instr}
    (h : Supplied (fun name => IsFrame name ∨ name = ⟨.elementAddress, address⟩ ∨
      name = ⟨.element, element⟩) rest) :
    Supplied IsFrame (elementCode frame pointer address element ++ rest) := by
  refine supplied_append.mpr ⟨?_, h.mono ?_⟩
  · simp [elementCode, Supplied, IsFrame, Instr.uses, Instr.result?]
  · intro name hname
    refine hname.imp_right ?_
    rintro (rfl | rfl) <;> simp [elementCode, results, Instr.result?]

theorem emission_move (index : Nat) (comparison : Comparison) (limit : Int) (stem : Stem)
    (operation : Arithmetic) (h : before.position < before.size) :
    Emission before (move frame index comparison limit stem operation before).2 := by
  obtain ⟨pointer, inBounds, moved, after, hmove, hemitted⟩ :=
    exists_emitted_move frame index comparison limit stem operation h
  rw [hmove]
  have hchecked : before.Emitted after before.size (before.size + 2) before.loops
      ([.load ⟨.pointer, pointer⟩ .word frame.slot,
        .compare ⟨.inBounds, inBounds⟩ comparison .word ⟨.pointer, pointer⟩ limit] ++
        [.branch ⟨.inBounds, inBounds⟩ before.size (before.size + 1)]) _ _ := hemitted
  refine .check hchecked ?_ ?_ ?_ ?_
  · simp [Straight, Instr.isTerminator]
  · simp [Straight, Instr.isTerminator]
  · simp [Supplied, IsFrame, Instr.uses, Instr.result?]
  · simp [Supplied, IsFrame, results, Instr.uses, Instr.result?]

theorem emission_change (stem : Stem) (operation : Arithmetic)
    (h : before.position < before.size) :
    Emission before (change frame stem operation before).2 := by
  obtain ⟨pointer, address, element, changed, after, hchange, hadds⟩ :=
    exists_adds_change frame stem operation h
  rw [hchange]
  refine .straight hadds ((straight_elementCode _ _ _).append ?_)
    (supplied_elementCode_append ?_)
  · simp [Straight, Instr.isTerminator]
  · simp [Supplied, Instr.uses, Instr.result?]

theorem emission_output (index : Nat) (h : before.position < before.size) :
    Emission before (output frame index before).2 := by
  obtain ⟨pointer, address, element, reply, written, after, -, houtput, hemitted⟩ :=
    exists_emitted_output frame index h
  rw [houtput]
  have hchecked : before.Emitted after before.size (before.size + 2) before.loops
      ((elementCode frame pointer address element ++
        [.put ⟨.unnamed, reply⟩ ⟨.element, element⟩,
          .compare ⟨.written, written⟩ .equal .reply ⟨.unnamed, reply⟩ 0]) ++
        [.branch ⟨.written, written⟩ before.size (before.size + 1)]) [] [.ret index] := by
    rw [List.append_assoc]
    exact hemitted
  refine .check hchecked ((straight_elementCode _ _ _).append ?_) ?_ ?_ trivial
  · simp [Straight, Instr.isTerminator]
  · simp [Straight]
  · rw [List.append_assoc]
    refine supplied_elementCode_append ?_
    simp [Supplied, Instr.uses, Instr.result?]

theorem emission_input (index : Nat) (h : before.position < before.size) :
    Emission before (input frame index before).2 := by
  obtain ⟨reply, haveInput, byte, pointer, address, after, -, hinput, hemitted⟩ :=
    exists_emitted_input frame index h
  rw [hinput]
  have hchecked : before.Emitted after before.size (before.size + 2) before.loops
      ([.get ⟨.unnamed, reply⟩,
        .compare ⟨.haveInput, haveInput⟩ .signedAtLeast .reply ⟨.unnamed, reply⟩ 0] ++
        [.branch ⟨.haveInput, haveInput⟩ before.size (before.size + 1)]) _ _ := hemitted
  refine .check hchecked ?_ ?_ ?_ ?_
  · simp [Straight, Instr.isTerminator]
  · simp [Straight, Instr.isTerminator]
  · simp [Supplied, Instr.uses, Instr.result?]
  · -- the new block uses the reply, which the old one defines
    simp [Supplied, IsFrame, results, Instr.uses, Instr.result?]

/-- A plain operation goes on in its block, or checks something. -/
theorem emission_plain {instruction : Instruction} {operation : Primitive}
    (hop : instruction.op = operation.op) (h : before.position < before.size) (size : Int)
    (index : Nat) :
    Emission before (Build.instruction frame size index (.plain instruction) before).2 := by
  cases operation with
  | right =>
    simp only [Build.instruction, hop, Primitive.op]
    exact emission_move index _ _ _ _ h
  | left =>
    simp only [Build.instruction, hop, Primitive.op]
    exact emission_move index _ _ _ _ h
  | add =>
    simp only [Build.instruction, hop, Primitive.op]
    exact emission_change _ _ h
  | sub =>
    simp only [Build.instruction, hop, Primitive.op]
    exact emission_change _ _ h
  | output =>
    simp only [Build.instruction, hop, Primitive.op]
    exact emission_output index h
  | input =>
    simp only [Build.instruction, hop, Primitive.op]
    exact emission_input index h

/-- A test ends its block and needs nothing but the tape and the slot. -/
theorem exists_testCode_eq (comparison : Comparison) (pointer address element tested : Nat)
    (ifTrue ifFalse : Nat) :
    ∃ body, testCode frame comparison pointer address element tested ifTrue ifFalse =
        body ++ [.branch ⟨.compareZero, tested⟩ ifTrue ifFalse] ∧ Straight body ∧
      Supplied IsFrame (body ++ [.branch ⟨.compareZero, tested⟩ ifTrue ifFalse]) := by
  refine ⟨elementCode frame pointer address element ++
    [.compare ⟨.compareZero, tested⟩ comparison .byte ⟨.element, element⟩ 0], ?_,
    (straight_elementCode _ _ _).append ?_, ?_⟩
  · rw [testCode, List.append_assoc]
    rfl
  · simp [Straight, Instr.isTerminator]
  · rw [List.append_assoc]
    refine supplied_elementCode_append ?_
    simp [Supplied, Instr.uses, Instr.result?]

theorem emission_openLoop (index : Nat) (h : before.position < before.size) :
    Emission before (openLoop frame index before).2 := by
  obtain ⟨pointer, address, element, tested, after, hopen, hemitted⟩ :=
    exists_emitted_openLoop frame index h
  obtain ⟨body, hcode, hbody, hsupplied⟩ := exists_testCode_eq .equal pointer address element
    tested (before.size + 1) before.size
  rw [hcode] at hemitted
  rw [hopen]
  exact .opened hemitted hbody hsupplied

theorem emission_closeLoop {loop : LoopBlocks} {outer : List LoopBlocks}
    (hloops : before.loops = loop :: outer) (h : before.position < before.size) :
    Emission before (closeLoop frame loop.opener before).2 := by
  have hfind : before.loops.find? (·.opener = loop.opener) = some loop := by
    rw [hloops]
    simp
  obtain ⟨pointer, address, element, tested, after, hclose, hemitted⟩ :=
    exists_emitted_closeLoop frame loop.opener hfind h
  obtain ⟨body, hcode, hbody, hsupplied⟩ := exists_testCode_eq .notEqual pointer address element
    tested loop.body loop.after
  rw [hcode, hloops, List.erase_cons_head] at hemitted
  rw [hclose]
  exact .closed hloops hemitted hbody hsupplied

end Instructions

/-! ## Blocks are through -/

namespace Builder

/-- One block is being filled, those after the open loops are empty, and the others are through.
Branches lead to blocks that exist, but not to the first. -/
structure Shaped (builder : Builder) : Prop where
  /-- The block being filled exists. -/
  position : builder.position < builder.size
  /-- The block being filled has not ended. -/
  straight : Straight (builder.code builder.position)
  /-- The blocks of the open loops exist. -/
  loops : ∀ loop ∈ builder.loops, 0 < loop.body ∧ loop.body < builder.size ∧
    0 < loop.after ∧ loop.after < builder.size
  /-- The blocks after the open loops are empty. -/
  empty : ∀ loop ∈ builder.loops, builder.code loop.after = []
  /-- The blocks that will still be filled are all different. -/
  distinct : (builder.position :: builder.loops.map LoopBlocks.after).Nodup
  /-- The other blocks have ended. -/
  terminated : ∀ block, block < builder.size →
    block ∉ builder.position :: builder.loops.map LoopBlocks.after →
      Terminated (builder.code block)
  /-- Branches lead to blocks that exist, but not to the first. -/
  targets : ∀ block, ∀ instr ∈ builder.code block, ∀ target ∈ instr.targets,
    0 < target ∧ target < builder.size

namespace Emitted

variable {before after : Builder} {position size : Nat} {loops : List LoopBlocks}
  {here next fault : List Instr}

/-- An instruction of a block stood there before, or was added to it. -/
theorem mem_code (h : Emitted before after position size loops here next fault) {block : Nat}
    {instr : Instr} (hinstr : instr ∈ after.code block) :
    instr ∈ before.code block ∨ (block = before.position ∧ instr ∈ here) ∨ instr ∈ next ∨
      instr ∈ fault := by
  rw [h.code, List.mem_append] at hinstr
  grind

/-- A block that existed and was not being filled stays as it was. -/
theorem code_of_ne (h : Emitted before after position size loops here next fault) {block : Nat}
    (hblock : block < before.size) (hposition : block ≠ before.position) :
    after.code block = before.code block := by
  rw [h.code, if_neg hposition, if_neg (by omega), if_neg (by omega), List.append_nil]

theorem code_position (h : Emitted before after position size loops here next fault) :
    after.code before.position = before.code before.position ++ here := by
  rw [h.code, if_pos rfl]

/-- The first new block holds what was added to it. -/
theorem code_size (h : Emitted before after position size loops here next fault)
    (hposition : before.position < before.size) : after.code before.size = next := by
  rw [h.code, code_eq_nil (Nat.le_refl _), if_neg (by omega), if_pos rfl]
  rfl

/-- The second new block holds what was added to it. -/
theorem code_size_succ (h : Emitted before after position size loops here next fault)
    (hposition : before.position < before.size) : after.code (before.size + 1) = fault := by
  rw [h.code, code_eq_nil (Nat.le_succ _), if_neg (by omega), if_neg (by omega), if_pos rfl]
  rfl

end Emitted

section Shape

variable {before after : Builder} {position size : Nat} {loops : List LoopBlocks}
  {here next fault : List Instr}

namespace Shaped

/-- The blocks after the open loops are not the one being filled. -/
theorem after_ne_position (h : before.Shaped) {loop : LoopBlocks} (hloop : loop ∈ before.loops) :
    loop.after ≠ before.position := by
  rintro heq
  exact (List.nodup_cons.mp h.distinct).1 (heq ▸ List.mem_map_of_mem hloop)

/-- A new block is none of those after the open loops. -/
theorem not_mem_of_size_le (h : before.Shaped) {block : Nat} (hblock : before.size ≤ block) :
    block ∉ before.loops.map LoopBlocks.after := by
  rintro hmem
  obtain ⟨loop, hloop, rfl⟩ := List.mem_map.mp hmem
  have := h.loops loop hloop
  omega

/-- The blocks after the open loops stay empty. -/
theorem code_after_eq_nil (h : before.Shaped)
    (hemitted : Emitted before after position size loops here next fault) {loop : LoopBlocks}
    (hloop : loop ∈ before.loops) : after.code loop.after = [] := by
  rw [hemitted.code_of_ne (h.loops loop hloop).2.2.2 (h.after_ne_position hloop)]
  exact h.empty loop hloop

/-- Where the block being filled ends, the old blocks have ended except those after the open
loops. -/
theorem terminated_of_emitted {body : List Instr} {last : Instr} (h : before.Shaped)
    (hemitted : Emitted before after position size loops (body ++ [last]) next fault)
    (hbody : Straight body) (hlast : last.isTerminator = true) {block : Nat}
    (hblock : block < before.size) (hloops : block ∉ before.loops.map LoopBlocks.after) :
    Terminated (after.code block) := by
  by_cases hposition : block = before.position
  · rw [hposition, hemitted.code_position, ← List.append_assoc]
    exact (h.straight.append hbody).terminated hlast
  · rw [hemitted.code_of_ne hblock hposition]
    exact h.terminated block hblock fun hmem => (List.mem_cons.mp hmem).elim hposition hloops

/-- Branches lead to blocks that exist if those that were added do. -/
theorem targets_of_emitted (h : before.Shaped)
    (hemitted : Emitted before after position size loops here next fault)
    (hsize : before.size ≤ size)
    (hadded : ∀ target ∈ (here ++ next ++ fault).flatMap Instr.targets,
      0 < target ∧ target < size) :
    ∀ block, ∀ instr ∈ after.code block, ∀ target ∈ instr.targets,
      0 < target ∧ target < after.size := by
  intro block instr hinstr target htarget
  rw [hemitted.size]
  rcases hemitted.mem_code hinstr with hold | hnew
  · obtain ⟨hzero, hlt⟩ := h.targets block instr hold target htarget
    exact ⟨hzero, Nat.lt_of_lt_of_le hlt hsize⟩
  · refine hadded target (List.mem_flatMap.mpr ⟨instr, ?_, htarget⟩)
    grind

/-- Code that is added to the block being filled leaves that block to be filled. -/
theorem of_straight (h : before.Shaped) (hemitted : before.Adds after here)
    (hhere : Straight here) : after.Shaped := by
  have hposition := h.position
  refine ⟨?_, ?_, ?_, ?_, ?_, ?_, h.targets_of_emitted hemitted (Nat.le_refl _) ?_⟩
  · exact hemitted.position_lt hposition
  · rw [hemitted.position, hemitted.code_position]
    exact h.straight.append hhere
  · rw [hemitted.loops, hemitted.size]
    exact h.loops
  · rw [hemitted.loops]
    intro loop hloop
    exact h.code_after_eq_nil hemitted hloop
  · rw [hemitted.position, hemitted.loops]
    exact h.distinct
  · rw [hemitted.position, hemitted.loops, hemitted.size]
    intro block hblock hother
    rw [hemitted.code_of_ne hblock (List.ne_of_not_mem_cons hother)]
    exact h.terminated block hblock hother
  · simp [hhere.targets]

/-- A check leaves the first of two new blocks to be filled; the other one returns. -/
theorem of_check (h : before.Shaped) {body : List Instr} {condition : Name} {word : Int}
    (hemitted : before.Emitted after before.size (before.size + 2) before.loops
      (body ++ [.branch condition before.size (before.size + 1)]) next [.ret word])
    (hbody : Straight body) (hnext : Straight next) : after.Shaped := by
  have hposition := h.position
  refine ⟨?_, ?_, ?_, ?_, ?_, ?_, h.targets_of_emitted hemitted (by omega) ?_⟩
  · rw [hemitted.position, hemitted.size]
    omega
  · rw [hemitted.position, hemitted.code_size hposition]
    exact hnext
  · rw [hemitted.loops, hemitted.size]
    intro loop hloop
    have := h.loops loop hloop
    omega
  · rw [hemitted.loops]
    intro loop hloop
    exact h.code_after_eq_nil hemitted hloop
  · rw [hemitted.position, hemitted.loops]
    exact List.nodup_cons.mpr
      ⟨h.not_mem_of_size_le (Nat.le_refl _), (List.nodup_cons.mp h.distinct).2⟩
  · rw [hemitted.position, hemitted.loops, hemitted.size]
    intro block hblock hother
    have hne := List.ne_of_not_mem_cons hother
    -- the new block that is not filled further returns
    by_cases hfault : block = before.size + 1
    · rw [hfault, hemitted.code_size_succ hposition]
      exact ⟨[], _, rfl, rfl, by simp [Straight]⟩
    · exact h.terminated_of_emitted hemitted hbody rfl (by omega)
        (List.not_mem_of_not_mem_cons hother)
  · simp [hbody.targets, hnext.targets, Instr.targets]
    omega

/-- The beginning of a loop leaves the first of two new blocks to be filled, and the other one for
what comes after the loop. -/
theorem of_opened (h : before.Shaped) {index : Nat} {body : List Instr} {condition : Name}
    (hemitted : before.Emitted after before.size (before.size + 2)
      (⟨index, before.size, before.size + 1⟩ :: before.loops)
      (body ++ [.branch condition (before.size + 1) before.size]) [] [])
    (hbody : Straight body) : after.Shaped := by
  have hposition := h.position
  refine ⟨?_, ?_, ?_, ?_, ?_, ?_, h.targets_of_emitted hemitted (by omega) ?_⟩
  · rw [hemitted.position, hemitted.size]
    omega
  · rw [hemitted.position, hemitted.code_size hposition]
    simp [Straight]
  · rw [hemitted.loops, hemitted.size]
    intro loop hloop
    rcases List.mem_cons.mp hloop with rfl | hloop
    · show 0 < before.size ∧ before.size < _ ∧ 0 < before.size + 1 ∧ before.size + 1 < _
      omega
    · have := h.loops loop hloop
      omega
  · rw [hemitted.loops]
    intro loop hloop
    rcases List.mem_cons.mp hloop with rfl | hloop
    · exact hemitted.code_size_succ hposition
    · exact h.code_after_eq_nil hemitted hloop
  · rw [hemitted.position, hemitted.loops]
    have hbody := h.not_mem_of_size_le (Nat.le_refl _)
    have hafter := h.not_mem_of_size_le (Nat.le_succ _)
    have hrest := (List.nodup_cons.mp h.distinct).2
    simp [List.nodup_cons, hbody, hafter, hrest]
  · rw [hemitted.position, hemitted.loops, hemitted.size]
    intro block hblock hother
    simp only [List.map_cons, List.mem_cons, not_or] at hother
    exact h.terminated_of_emitted hemitted hbody rfl (by omega) hother.2.2
  · simp [hbody.targets, Instr.targets]
    omega

/-- The end of the innermost loop leaves the block after it to be filled. -/
theorem of_closed (h : before.Shaped) {loop : LoopBlocks} {outer : List LoopBlocks}
    {body : List Instr} {condition : Name} (hloops : before.loops = loop :: outer)
    (hemitted : before.Emitted after loop.after before.size outer
      (body ++ [.branch condition loop.body loop.after]) [] [])
    (hbody : Straight body) : after.Shaped := by
  have hmem : loop ∈ before.loops := hloops ▸ List.mem_cons_self
  have houter : ∀ other ∈ outer, other ∈ before.loops := fun other hother =>
    hloops ▸ List.mem_cons_of_mem loop hother
  have hplace := h.loops loop hmem
  have hdistinct := (List.nodup_cons.mp h.distinct).2
  rw [hloops] at hdistinct
  refine ⟨?_, ?_, ?_, ?_, ?_, ?_, h.targets_of_emitted hemitted (Nat.le_refl _) ?_⟩
  · rw [hemitted.position, hemitted.size]
    omega
  · rw [hemitted.position, h.code_after_eq_nil hemitted hmem]
    simp [Straight]
  · rw [hemitted.loops, hemitted.size]
    intro other hother
    exact h.loops other (houter other hother)
  · rw [hemitted.loops]
    intro other hother
    exact h.code_after_eq_nil hemitted (houter other hother)
  · rw [hemitted.position, hemitted.loops]
    exact hdistinct
  · rw [hemitted.position, hemitted.loops, hemitted.size]
    intro block hblock hother
    refine h.terminated_of_emitted hemitted hbody rfl hblock ?_
    rw [hloops]
    exact hother
  · simp [hbody.targets, Instr.targets]
    omega

/-- What an instruction emits leaves one block to be filled, and the others through. -/
theorem of_emission (h : before.Shaped) (hemission : Emission before after) : after.Shaped := by
  cases hemission with
  | straight hemitted hhere _ => exact h.of_straight hemitted hhere
  | check hemitted hbody hnext _ _ => exact h.of_check hemitted hbody hnext
  | opened hemitted hbody _ => exact h.of_opened hemitted hbody
  | closed hloops hemitted hbody _ => exact h.of_closed hloops hemitted hbody

end Shaped

end Shape

/-! ## Values reach their uses -/

/-- Control can go from one block to another. -/
def Flows (builder : Builder) (first second : Nat) : Prop :=
  ∃ instr ∈ builder.code first, second ∈ instr.targets

/-- Only one block leads to another, and no open loop can still lead to it. -/
structure OnlyFrom (builder : Builder) (origin block : Nat) : Prop where
  /-- The block is not the first. -/
  ne_zero : block ≠ 0
  /-- The block does not lead to itself. -/
  ne : origin ≠ block
  /-- No other block leads to it. -/
  only : ∀ first, builder.Flows first block → first = origin
  /-- No open loop can still lead to it. -/
  loops : ∀ loop ∈ builder.loops, loop.body ≠ block ∧ loop.after ≠ block

/-- The values that a block can use without defining them: the tape, the slot, and what the only
block that leads to it defines. -/
def Available (builder : Builder) (block : Nat) (name : Name) : Prop :=
  name = frame.tape ∨ (block ≠ 0 ∧ name = frame.slot) ∨
    ∃ origin, builder.OnlyFrom origin block ∧ name ∈ results (builder.code origin)

/-- The first block defines the slot, and all blocks have the values they need. -/
structure Flowing (builder : Builder) : Prop where
  /-- The first block defines the slot. -/
  slot : frame.slot ∈ results (builder.code 0)
  /-- The values that a block needs are available to it. -/
  supplied : ∀ block, Supplied (builder.Available block) (builder.code block)

section Flow

variable {before after : Builder} {position size : Nat} {loops : List LoopBlocks}
  {here next fault : List Instr} {origin block : Nat} {name : Name}

theorem Emitted.results_subset (h : Emitted before after position size loops here next fault)
    (block : Nat) : results (before.code block) ⊆ results (after.code block) := by
  rw [h.code, results, results, List.filterMap_append]
  exact List.subset_append_left _ _

section Added

variable (hemitted : Emitted before after position size loops here next fault)
  -- what is added leads to new blocks and to those of the open loops, and opens new ones only
  (htargets : ∀ target ∈ (here ++ next ++ fault).flatMap Instr.targets,
    before.size ≤ target ∨ ∃ loop ∈ before.loops, target = loop.body ∨ target = loop.after)
  (hloops : ∀ loop ∈ loops,
    loop ∈ before.loops ∨ (before.size ≤ loop.body ∧ before.size ≤ loop.after))
include hemitted htargets hloops

/-- A block that only one leads to stays so. -/
theorem OnlyFrom.of_emitted (h : before.OnlyFrom origin block) (hblock : block < before.size) :
    after.OnlyFrom origin block where
  ne_zero := h.ne_zero
  ne := h.ne
  only first := by
    rintro ⟨instr, hinstr, htarget⟩
    rcases hemitted.mem_code hinstr with hold | hnew
    · exact h.only first ⟨instr, hold, htarget⟩
    · -- what was added leads to a new block or to one of an open loop, and so not to this one
      have hadded := htargets block (List.mem_flatMap.mpr ⟨instr, by grind, htarget⟩)
      rcases hadded with hlt | ⟨loop, hloop, heq⟩
      · omega
      · have := h.loops loop hloop
        omega
  loops loop hloop := by
    rw [hemitted.loops] at hloop
    rcases hloops loop hloop with hold | hnew
    · exact h.loops loop hold
    · omega

theorem Available.of_emitted (h : before.Available block name) (hblock : block < before.size) :
    after.Available block name := by
  refine h.imp_right (Or.imp_right ?_)
  rintro ⟨origin, honly, hname⟩
  exact ⟨origin, honly.of_emitted hemitted htargets hloops hblock,
    hemitted.results_subset origin hname⟩

/-- Code that needs no more than what is available leaves the values reaching their uses. -/
theorem Flowing.of_emitted (h : before.Flowing) (hhere : Supplied IsFrame here)
    (hnext : Supplied (fun name => IsFrame name ∨ after.Available before.size name) next)
    (hfault : Supplied IsFrame fault) : after.Flowing where
  slot := hemitted.results_subset 0 h.slot
  supplied block := by
    -- the first block defines the slot itself, and the others have it from there
    have hframe : ∀ name, IsFrame name →
        after.Available block name ∨ name ∈ results (before.code block) := by
      rintro name (rfl | rfl)
      · exact .inl (.inl rfl)
      · by_cases hzero : block = 0
        · exact .inr (hzero ▸ h.slot)
        · exact .inl (.inr (.inl ⟨hzero, rfl⟩))
    rw [hemitted.code]
    refine supplied_append.mpr ⟨?_, ?_⟩
    · by_cases hblock : block < before.size
      · exact (h.supplied block).mono fun name hname =>
          hname.of_emitted hemitted htargets hloops hblock
      · rw [code_eq_nil (by omega)]
        trivial
    · split
      · exact hhere.mono hframe
      · split
        next hblock =>
          subst hblock
          exact hnext.mono fun name hname => hname.elim (hframe name) .inl
        next =>
          split
          · exact hfault.mono hframe
          · trivial

end Added

/-- What an instruction emits leaves the values reaching their uses. -/
theorem Flowing.of_emission (h : before.Flowing) (hshaped : before.Shaped)
    (hemission : Emission before after) : after.Flowing := by
  have hposition := hshaped.position
  cases hemission with
  | straight hemitted hhere hsupplied =>
    refine h.of_emitted hemitted ?_ (fun loop hloop => .inl hloop) hsupplied trivial trivial
    simp [hhere.targets]
  | @check body next _ _ hemitted hbody hnext hhere hsupplied =>
    refine h.of_emitted hemitted ?_ (fun loop hloop => .inl hloop) hhere (hsupplied.mono ?_)
      (by simp [Supplied, Instr.uses])
    · simp [hbody.targets, hnext.targets, Instr.targets]
    · -- only the block that was being filled leads to the new one
      have honly : after.OnlyFrom before.position before.size := by
        refine ⟨by omega, by omega, ?_, ?_⟩
        · rintro first ⟨instr, hinstr, htarget⟩
          rcases hemitted.mem_code hinstr with hold | ⟨hfirst, -⟩ | hnew | hnew
          · have := hshaped.targets first instr hold _ htarget
            omega
          · exact hfirst
          · rw [Instr.targets_of_isTerminator (hnext instr hnew)] at htarget
            cases htarget
          · rw [List.mem_singleton.mp hnew] at htarget
            cases htarget
        · intro loop hloop
          rw [hemitted.loops] at hloop
          have := hshaped.loops loop hloop
          omega
      rintro name (hname | hname)
      · exact .inl hname
      · refine .inr (.inr (.inr ⟨_, honly, ?_⟩))
        rw [hemitted.code_position, results, List.filterMap_append, List.filterMap_append]
        exact List.mem_append_right _ (List.mem_append_left _ hname)
  | opened hemitted hbody hhere =>
    refine h.of_emitted hemitted ?_ ?_ hhere trivial trivial
    · simp [hbody.targets, Instr.targets]
    · intro loop hloop
      rcases List.mem_cons.mp hloop with rfl | hloop
      · exact .inr ⟨Nat.le_refl _, Nat.le_succ _⟩
      · exact .inl hloop
  | @closed loop outer _ _ hloops hemitted hbody hhere =>
    refine h.of_emitted hemitted ?_ ?_ hhere trivial trivial
    · simp only [hbody.targets, Instr.targets, List.append_nil, List.flatMap_append,
        List.nil_append, List.flatMap_cons, List.flatMap_nil]
      intro target htarget
      refine .inr ⟨loop, hloops ▸ List.mem_cons_self, ?_⟩
      simpa using htarget
    · intro other hother
      exact .inl (hloops ▸ List.mem_cons_of_mem loop hother)

end Flow

end Builder

/-! ## The whole build -/

section Compiled

open Builder

variable {program : LinkedProgram} {size : Int}

theorem code_entryBuilder : entryBuilder.code 0 =
    [.reserve frame.slot, .store .word (.literal 0) frame.slot] := by
  rw [← frame_entry]
  rfl

theorem shaped_entryBuilder : entryBuilder.Shaped := by
  have hsize : entryBuilder.size = 1 := rfl
  have hloops : entryBuilder.loops = [] := rfl
  have hposition : entryBuilder.position = 0 := rfl
  have hstraight : Straight (entryBuilder.code 0) := by
    rw [code_entryBuilder]
    simp [Straight, Instr.isTerminator]
  refine ⟨by omega, hposition ▸ hstraight, ?_, ?_, ?_, ?_, ?_⟩
  · simp [hloops]
  · simp [hloops]
  · simp [hloops]
  · intro block hblock hother
    exact absurd (List.mem_singleton.mpr (by omega)) hother
  · intro block instr hinstr target htarget
    by_cases hblock : block = 0
    · rw [hblock] at hinstr
      rw [Instr.targets_of_isTerminator (hstraight instr hinstr)] at htarget
      cases htarget
    · rw [code_eq_nil (by omega)] at hinstr
      cases hinstr

theorem flowing_entryBuilder : entryBuilder.Flowing where
  slot := by simp [code_entryBuilder, results, Instr.result?]
  supplied block := by
    by_cases hblock : block = 0
    · rw [hblock, code_entryBuilder]
      simp [Supplied, Instr.uses, Instr.result?]
    · have hsize : entryBuilder.size = 1 := rfl
      rw [code_eq_nil (by omega)]
      trivial

section Loops

variable {tree : Tree} {first : Nat} {start finish : Cursor} {body : Tree}

/-- When the end of a loop is reached, the loop is the innermost open one. -/
theorem loops_of_loopAt (htree : program.instructions = (tree.layout 0).toArray)
    (hloop : tree.LoopAt first start body finish) :
    (stage program size (first + body.length + 1)).loops =
      ⟨first, (stage program size first).size, (stage program size first).size + 1⟩ ::
        (stage program size first).loops := by
  have hopener := hloop.getElem?_layout_start 0
  rw [← List.getElem?_toArray, ← htree] at hopener
  have hstage := stage_succ size hopener
  obtain ⟨_, _, _, _, opened, hopen, hopened⟩ :=
    exists_emitted_openLoop frame first (sound_stage program size first).position
  simp only [Build.instruction, hopen] at hstage
  rw [(encloses_body htree hloop).loops, hstage, hopened.loops]

end Loops

section Linked

variable {source : Program} (hlink : source.link = .ok program)
include hlink

/-- When a loop end is reached, the innermost open loop is the one that it ends. -/
theorem exists_loops_eq_cons {index opener : Nat} {instruction partner : Instruction}
    (hentry : program.instructions[index]? = some (.closer instruction opener partner))
    (size : Int) :
    ∃ loop outer, (stage program size index).loops = loop :: outer ∧ loop.opener = opener := by
  obtain ⟨tree, -, rfl⟩ := Program.link_eq_ok_iff.mp hlink
  have hlayout := hentry
  rw [List.getElem?_toArray] at hlayout
  obtain ⟨_, _, _, hloop, rfl, rfl, -⟩ := Tree.exists_loopAt_closer hlayout
  exact ⟨_, _, loops_of_loopAt rfl hloop, rfl⟩

/-- Every instruction of a linked program does to the build what an instruction can do. -/
theorem emission_stage {index : Nat} (hindex : index < program.size) (size : Int) :
    Emission (stage program size index) (stage program size (index + 1)) := by
  have hposition := (sound_stage program size index).position
  have hentry : program.instructions[index]? = some program.instructions[index] :=
    Array.getElem?_eq_getElem hindex
  rw [stage_succ size hentry]
  generalize program.instructions[index] = entry at hentry
  cases entry with
  | opener instruction target partner => exact emission_openLoop index hposition
  | closer instruction opener partner =>
    obtain ⟨loop, outer, hloops, rfl⟩ := exists_loops_eq_cons hlink hentry size
    exact emission_closeLoop hloops hposition
  | plain instruction =>
    have hmem := Array.mem_of_getElem? hentry
    obtain ⟨hs, he⟩ :=
      ((Program.paired_of_link_eq_ok hlink).plain _ hmem).mp ⟨instruction, rfl⟩
    obtain ⟨operation, hop⟩ := Primitive.exists_op_eq hs he
    exact emission_plain hop.symm hposition size index

/-- One block is being filled after any number of instructions, and the values reach their uses. -/
theorem shaped_flowing_stage {index : Nat} (hindex : index ≤ program.size) (size : Int) :
    (stage program size index).Shaped ∧ (stage program size index).Flowing := by
  induction index with
  | zero => exact ⟨shaped_entryBuilder, flowing_entryBuilder⟩
  | succ index ih =>
    obtain ⟨hshaped, hflowing⟩ := ih (Nat.le_of_succ_le hindex)
    have hemission := emission_stage hlink hindex size
    exact ⟨hshaped.of_emission hemission, hflowing.of_emission hshaped hemission⟩

/-- No loop is open after all instructions. -/
theorem loops_stage_size (size : Int) : (stage program size program.size).loops = [] := by
  obtain ⟨tree, -, rfl⟩ := Program.link_eq_ok_iff.mp hlink
  rw [stage_size]
  exact (encloses_layout tree size 0 sound_entryBuilder).loops

end Linked

/-! ## The compiled function -/

/-- The code of the blocks of the compiled function is that of the build. -/
theorem code_of_getElem?_blocks {number : Nat} {block : Block}
    (h : (compile program size).function.blocks[number]? = some block) :
    number < (completed program size).size ∧ block.code = (completed program size).code number := by
  simp only [compile, StateT.run, function_eq, Array.getElem?_map, Option.map_eq_some_iff] at h
  obtain ⟨openBlock, hblock, rfl⟩ := h
  obtain ⟨hnumber, -⟩ := Array.getElem?_eq_some_iff.mp hblock
  exact ⟨hnumber, by simp only [Builder.code, hblock]⟩

theorem size_blocks_compile :
    (compile program size).function.blocks.size = (completed program size).size := by
  simp only [compile, StateT.run, function_eq, Array.size_map]
  rfl

/-- Control flows in the compiled function as in the build. -/
theorem flows_of_flows_compile {first second : Nat}
    (h : (compile program size).function.Flows first second) :
    (completed program size).Flows first second := by
  obtain ⟨block, hblock, instr, hinstr, htarget⟩ := h
  rw [(code_of_getElem?_blocks hblock).2] at hinstr
  exact ⟨instr, hinstr, htarget⟩

/-- A value that is available to a block is the parameter, or another block that dominates it
defines the value. -/
theorem exists_dominates_of_available {number : Nat} {name : Name}
    (hflowing : (completed program size).Flowing)
    (h : (completed program size).Available number name) :
    name = (compile program size).function.parameter ∨
      ∃ other definer, other ≠ number ∧
        (compile program size).function.blocks[other]? = some definer ∧
        (compile program size).function.Dominates other number ∧ name ∈ results definer.code := by
  -- a block that defines something exists
  have hdefiner {other : Nat} (hname : name ∈ results ((completed program size).code other)) :
      ∃ definer, (compile program size).function.blocks[other]? = some definer ∧
        name ∈ results definer.code := by
    have hother : other < (completed program size).size := by
      refine Decidable.byContradiction fun hother => ?_
      rw [code_eq_nil (by omega)] at hname
      cases hname
    obtain ⟨label, hblock⟩ := hasBlock_compile program size hother
    exact ⟨_, hblock, hname⟩
  rcases h with rfl | ⟨hnumber, rfl⟩ | ⟨origin, honly, hname⟩
  · exact .inl (parameter_compile program size).symm
  · obtain ⟨definer, hblock, hdefines⟩ := hdefiner hflowing.slot
    exact .inr ⟨0, definer, Ne.symm hnumber, hblock,
      Function.dominates_zero _ number, hdefines⟩
  · obtain ⟨definer, hblock, hdefines⟩ := hdefiner hname
    refine .inr ⟨origin, definer, honly.ne, hblock, ?_, hdefines⟩
    exact Function.dominates_of_flows honly.ne_zero fun first hflows =>
      honly.only first (flows_of_flows_compile hflows)

/-- During a build, the loop that a loop end ends is found; it is the innermost open one, and it is
open no more afterwards. In the end no loop is open. -/
structure ClosesLoops (program : LinkedProgram) (size : Int) : Prop where
  /-- The innermost open loop is found and closed. -/
  closer : ∀ (index opener : Nat) (instruction partner : Instruction),
    program.instructions[index]? = some (.closer instruction opener partner) →
      ∃ loop outer, (stage program size index).loops = loop :: outer ∧
        (stage program size index).loops.find? (·.opener = opener) = some loop ∧
        (stage program size (index + 1)).loops = outer
  /-- No loop is open in the end. -/
  done : (completed program size).loops = []

theorem closesLoops_of_link {source : Program} (hlink : source.link = .ok program) (size : Int) :
    ClosesLoops program size where
  closer index opener instruction partner hentry := by
    obtain ⟨loop, outer, hloops, rfl⟩ := exists_loops_eq_cons hlink hentry size
    have hfind : (stage program size index).loops.find? (·.opener = loop.opener) = some loop := by
      rw [hloops]
      simp
    obtain ⟨_, _, _, _, closed, hclose, hclosed⟩ := exists_emitted_closeLoop frame loop.opener
      hfind (sound_stage program size index).position
    refine ⟨loop, outer, hloops, hfind, ?_⟩
    have hstage := stage_succ size hentry
    simp only [Build.instruction, hclose] at hstage
    rw [hstage, hclosed.loops, hloops, List.erase_cons_head]
  done := by
    obtain ⟨after, hret, hadds⟩ :=
      exists_ret noFault (sound_stage program size program.size).position
    rw [completed, hret, hadds.loops, loops_stage_size hlink]

/-- The code of a linked program is well-formed for every size of the tape. It declares the
functions that its operations call, each once, and no other; and every loop end finds its loop as
the innermost open one. -/
theorem wellFormed_compile {source : Program} (hlink : source.link = .ok program) (size : Int) :
    (compile program size).function.WellFormed ∧
      Declares (source.instructions.map (·.op)) (compile program size).declarations ∧
      ClosesLoops program size := by
  refine ⟨?_, declares_compile hlink size, closesLoops_of_link hlink size⟩
  obtain ⟨hshaped, hflowing⟩ := shaped_flowing_stage hlink (Nat.le_refl _) size
  have hloops := loops_stage_size hlink size
  obtain ⟨after, hret, hadds⟩ := exists_ret noFault hshaped.position
  -- the return ends the last block, and needs and leads to nothing
  have hcompleted : completed program size = after := by rw [completed, hret]
  rw [← hcompleted] at hadds
  have hended : Emitted _ (completed program size) _ _ _ ([] ++ [.ret noFault]) [] [] := hadds
  have hflowing' : (completed program size).Flowing :=
    hflowing.of_emitted hadds (by simp [Instr.targets]) (fun loop hloop => .inl hloop)
      (by simp [Supplied, Instr.uses]) trivial trivial
  have htargets := hshaped.targets_of_emitted hadds (Nat.le_refl _) (by simp [Instr.targets])
  refine ⟨?_, ?_, ?_, ?_, ?_⟩
  · rw [size_blocks_compile, hadds.size]
    exact Nat.zero_lt_of_lt hshaped.position
  · intro block hblock
    obtain ⟨number, hnumber⟩ := Array.mem_iff_getElem?.mp hblock
    obtain ⟨hlt, hcode⟩ := code_of_getElem?_blocks hnumber
    rw [hcode]
    refine hshaped.terminated_of_emitted hended (by simp [Straight]) rfl ?_ ?_
    · rwa [hadds.size] at hlt
    · rw [hloops]
      simp
  · exact List.pairwise_map.mpr ((nodup_names_compile program size).imp fun hne htext =>
      hne (Name.text_injective htext))
  · intro first second hflows
    obtain ⟨instr, hinstr, htarget⟩ := flows_of_flows_compile hflows
    rw [size_blocks_compile]
    exact htargets first instr hinstr second htarget
  · intro number block before instr rest hblock hcode name hname
    obtain ⟨-, hcode'⟩ := code_of_getElem?_blocks hblock
    have hsupplied := hflowing'.supplied number
    rw [← hcode', hcode] at hsupplied
    -- a value is available to the block, or it is defined before the instruction
    rcases (supplied_append.mp hsupplied).2.1 name hname with havailable | hdefined
    · rcases exists_dominates_of_available hflowing' havailable with hparameter | hother
      · exact .inl hparameter
      · exact .inr (.inr hother)
    · exact .inr (.inl hdefined)

/-- A program with a check after a read, and a loop in a loop. -/
theorem wellFormed_compile_nested :
    ∃ program, (Program.ofSource "nested.bf" [0x2c, 0x5b, 0x3e, 0x5b, 0x2e, 0x5d, 0x5d]).link =
        .ok program ∧
      (compile program 3).function.WellFormed ∧
      Declares [.input, .loopStart, .right, .loopStart, .output, .loopEnd, .loopEnd]
        (compile program 3).declarations ∧
      ClosesLoops program 3 := by
  have hlink : (Program.ofSource "nested.bf"
    [0x2c, 0x5b, 0x3e, 0x5b, 0x2e, 0x5d, 0x5d]).link = .ok _ := rfl
  exact ⟨_, hlink, wellFormed_compile hlink 3⟩

end Compiled

end Brainfuck.Native
