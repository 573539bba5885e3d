import Brainfuck.Proofs.Native.Emission
import Brainfuck.Proofs.Tree

/-! # How a build goes on

A build only adds: from any point on, blocks are created and code is appended to them. Emitting a
laid-out tree closes the loops that it opens, and leaves no code behind in the blocks it found
except in the one being filled. So the block that a loop start creates for what follows the loop is
still empty when the loop ends.

Main definitions: `Builder.Extends`, `Builder.Sound`, `Builder.Encloses`. Main statement: emitting a
laid-out tree encloses its loops (`Build.encloses_layout`). -/

namespace Brainfuck.Native

open Ir Build

/-- The names of the tape and of the slot in every compiled function. -/
def frame : Frame := ⟨⟨.unnamed, 1⟩, ⟨.unnamed, 3⟩⟩

/-! ## Builds that go on -/

namespace Builder

variable {before middle after last : Builder}

/-- A later point of a build: no code was taken away. -/
structure Extends (before last : Builder) : Prop where
  /-- Blocks are only created. -/
  size : before.size ≤ last.size
  /-- Code is only added. -/
  code : ∀ block, before.code block <+: last.code block

theorem Extends.refl (builder : Builder) : Extends builder builder :=
  ⟨Nat.le_refl _, fun _ => List.prefix_rfl⟩

theorem Extends.trans (h : Extends before middle) (h' : Extends middle last) :
    Extends before last :=
  ⟨Nat.le_trans h.size h'.size, fun block => (h.code block).trans (h'.code block)⟩

/-- The code added to a block since a point of the build. -/
def since (before last : Builder) (block : Nat) : List Instr :=
  (last.code block).drop (before.code block).length

/-- The code that follows a point of the build: what is added to the block being filled. -/
def rest (before last : Builder) : List Instr := before.since last before.position

theorem Extends.code_eq (h : Extends before last) (block : Nat) :
    last.code block = before.code block ++ before.since last block := by
  obtain ⟨added, hadded⟩ := h.code block
  rw [since, ← hadded, List.drop_left]

namespace Emitted

variable {position size : Nat} {loops : List LoopBlocks} {here next fault : List Instr}

theorem extends_of_le (h : Emitted before after position size loops here next fault)
    (hsize : before.size ≤ size) : Extends before after :=
  ⟨by rw [h.size]; exact hsize, fun block => by rw [h.code]; exact List.prefix_append _ _⟩

/-- The code that follows begins with what was emitted. -/
theorem rest_eq (h : Emitted before after position size loops here next fault)
    (hlast : Extends after last) :
    before.rest last = here ++ after.since last before.position := by
  rw [rest, since, hlast.code_eq, h.code, if_pos rfl, List.append_assoc, List.drop_left]

/-- The first new block begins with what was emitted for it. -/
theorem code_next (h : Emitted before after position size loops here next fault)
    (hlast : Extends after last) (hposition : before.position < before.size) :
    last.code before.size = next ++ after.since last before.size := by
  rw [hlast.code_eq, h.code, code_eq_nil (Nat.le_refl _), if_neg (by omega), if_pos rfl]
  rfl

/-- The second new block begins with what was emitted for it. -/
theorem code_fault (h : Emitted before after position size loops here next fault)
    (hlast : Extends after last) (hposition : before.position < before.size) :
    last.code (before.size + 1) = fault ++ after.since last (before.size + 1) := by
  rw [hlast.code_eq, h.code, code_eq_nil (Nat.le_succ _), if_neg (by omega), if_neg (by omega),
    if_pos rfl]
  rfl

end Emitted

/-! ## Sound points of a build -/

/-- A point from which instructions can be emitted: the blocks that the build will go on in exist,
and the names of the tape and of the slot have been given. -/
structure Sound (builder : Builder) : Prop where
  /-- The block being filled exists. -/
  position : builder.position < builder.size
  /-- The blocks after the open loops exist. -/
  loops : ∀ loop ∈ builder.loops, loop.after < builder.size
  /-- No other value will have the serial number of the tape or of the slot. -/
  serial : 3 < builder.serial

/-- What is emitted from a sound point leads to a sound point. -/
theorem Sound.of_emitted {position size : Nat} {loops : List LoopBlocks}
    {here next fault : List Instr} (hsound : before.Sound)
    (h : Emitted before after position size loops here next fault) (hposition : position < size)
    (hloops : ∀ loop ∈ loops, loop.after < size) : after.Sound where
  position := by rw [h.position, h.size]; exact hposition
  loops := by rw [h.loops, h.size]; exact hloops
  serial := Nat.lt_of_lt_of_le hsound.serial h.serial

end Builder

namespace Build

open Builder

variable {before : Builder}

/-- A plain operation leaves the open loops alone. It stays in its block, or it is a check and goes
on in the first of two new blocks. -/
theorem exists_emitted_plain {instruction : Instruction} {operation : Primitive}
    (hop : instruction.op = operation.op) (h : before.position < before.size) (size : Int)
    (index : Nat) :
    ∃ position count here next fault after,
      Build.instruction frame size index (.plain instruction) before = ((), after) ∧
      Emitted before after position count before.loops here next fault ∧
      ((position = before.position ∧ count = before.size) ∨
        (position = before.size ∧ count = before.size + 2)) := by
  cases operation with
  | right =>
    obtain ⟨_, _, _, after, hmove, hemitted⟩ :=
      exists_emitted_move frame index .unsignedLess (size - 1) .pointerUp .add h
    exact ⟨_, _, _, _, _, after, by simp only [Build.instruction, hop, Primitive.op, hmove],
      hemitted, .inr ⟨rfl, rfl⟩⟩
  | left =>
    obtain ⟨_, _, _, after, hmove, hemitted⟩ :=
      exists_emitted_move frame index .notEqual 0 .pointerDown .sub h
    exact ⟨_, _, _, _, _, after, by simp only [Build.instruction, hop, Primitive.op, hmove],
      hemitted, .inr ⟨rfl, rfl⟩⟩
  | add =>
    obtain ⟨_, _, _, _, after, hchange, hadds⟩ := exists_adds_change frame .elementUp .add h
    exact ⟨_, _, _, _, _, after, by simp only [Build.instruction, hop, Primitive.op, hchange],
      hadds, .inl ⟨rfl, rfl⟩⟩
  | sub =>
    obtain ⟨_, _, _, _, after, hchange, hadds⟩ := exists_adds_change frame .elementDown .sub h
    exact ⟨_, _, _, _, _, after, by simp only [Build.instruction, hop, Primitive.op, hchange],
      hadds, .inl ⟨rfl, rfl⟩⟩
  | output =>
    obtain ⟨_, _, _, _, _, after, -, houtput, hemitted⟩ := exists_emitted_output frame index h
    exact ⟨_, _, _, _, _, after, by simp only [Build.instruction, hop, Primitive.op, houtput],
      hemitted, .inr ⟨rfl, rfl⟩⟩
  | input =>
    obtain ⟨_, _, _, _, _, after, -, hinput, hemitted⟩ := exists_emitted_input frame index h
    exact ⟨_, _, _, _, _, after, by simp only [Build.instruction, hop, Primitive.op, hinput],
      hemitted, .inr ⟨rfl, rfl⟩⟩

/-- Emitting an instruction leads from a sound point to a sound point. -/
theorem sound_instruction (hsound : before.Sound) (size : Int) (index : Nat) (entry : Linked) :
    ((instruction frame size index entry) before).2.Sound ∧
      Extends before ((instruction frame size index entry) before).2 := by
  have hposition := hsound.position
  have hloops : ∀ loop ∈ before.loops, loop.after < before.size + 2 := fun loop hloop =>
    Nat.lt_add_right 2 (hsound.loops loop hloop)
  cases entry with
  | opener instruction target partner =>
    obtain ⟨_, _, _, _, after, hopen, hemitted⟩ := exists_emitted_openLoop frame index hposition
    simp only [Build.instruction, hopen]
    refine ⟨hsound.of_emitted hemitted (by omega) ?_, hemitted.extends_of_le (by omega)⟩
    intro loop hloop
    rcases List.mem_cons.mp hloop with rfl | hloop
    · show before.size + 1 < before.size + 2
      omega
    · exact hloops loop hloop
  | closer instruction target partner =>
    cases hfind : before.loops.find? (·.opener = target) with
    | none =>
      -- a loop end that finds no open loop emits nothing; no linked program has one
      have hget : (get : Build Builder) before = (before, before) := rfl
      simp only [Build.instruction, closeLoop, bind_eq hget, hfind]
      exact ⟨hsound, .refl before⟩
    | some loop =>
      obtain ⟨_, _, _, _, after, hclose, hemitted⟩ :=
        exists_emitted_closeLoop frame target hfind hposition
      simp only [Build.instruction, hclose]
      refine ⟨hsound.of_emitted hemitted (hsound.loops loop (List.mem_of_find?_eq_some hfind)) ?_,
        hemitted.extends_of_le (Nat.le_refl _)⟩
      intro loop' hloop'
      exact hsound.loops loop' (List.mem_of_mem_erase hloop')
  | plain instruction =>
    -- brackets without a link emit nothing
    by_cases hs : instruction.op = .loopStart
    · simp only [Build.instruction, hs]
      exact ⟨hsound, .refl before⟩
    by_cases he : instruction.op = .loopEnd
    · simp only [Build.instruction, he]
      exact ⟨hsound, .refl before⟩
    obtain ⟨operation, hop⟩ := Primitive.exists_op_eq hs he
    obtain ⟨_, _, _, _, _, after, hinstruction, hemitted, ⟨rfl, rfl⟩ | ⟨rfl, rfl⟩⟩ :=
      exists_emitted_plain hop.symm hposition size index
    -- the build stays in its block, or goes on in the first of two new ones
    · rw [hinstruction]
      exact ⟨hsound.of_emitted hemitted hposition hsound.loops,
        hemitted.extends_of_le (Nat.le_refl _)⟩
    · rw [hinstruction]
      exact ⟨hsound.of_emitted hemitted (by omega) hloops, hemitted.extends_of_le (by omega)⟩

/-- Emitting instructions leads from a sound point to a sound point. -/
theorem sound_instructions (hsound : before.Sound) (size : Int) (index : Nat)
    (entries : List Linked) :
    ((instructions frame size index entries) before).2.Sound ∧
      Extends before ((instructions frame size index entries) before).2 := by
  induction entries generalizing before index with
  | nil => exact ⟨hsound, .refl before⟩
  | cons entry entries ih =>
    obtain ⟨hsound', hextends⟩ := sound_instruction hsound size index entry
    obtain ⟨hsound'', hextends'⟩ := ih hsound' (index + 1)
    exact ⟨hsound'', hextends.trans hextends'⟩

/-- Emitting two lists of instructions emits the one, then the other. -/
theorem instructions_append (size : Int) (index : Nat) (entries others : List Linked)
    (before : Builder) :
    (instructions frame size index (entries ++ others)) before =
      (instructions frame size (index + entries.length) others)
        ((instructions frame size index entries) before).2 := by
  induction entries generalizing before index with
  | nil => rfl
  | cons entry entries ih =>
    have hindex : index + (entry :: entries).length = index + 1 + entries.length := by
      rw [List.length_cons]
      omega
    rw [hindex]
    exact ih (index + 1) _

end Build

/-! ## Parts of a build that close the loops they open -/

/-- A part of a build that leaves the open loops as they were, and no code behind in the blocks that
it found, except in the one being filled. -/
structure Builder.Encloses (before after : Builder) : Prop where
  /-- The open loops are the same. -/
  loops : after.loops = before.loops
  /-- The other blocks are the same. -/
  code : ∀ block, block < before.size → block ≠ before.position →
    after.code block = before.code block
  /-- The build goes on in the block that was being filled, or in a new one. -/
  position : after.position = before.position ∨ before.size ≤ after.position
  /-- Blocks are only created. -/
  size : before.size ≤ after.size

namespace Builder.Encloses

variable {before middle after : Builder}

theorem refl (builder : Builder) : Encloses builder builder :=
  ⟨rfl, fun _ _ _ => rfl, .inl rfl, Nat.le_refl _⟩

theorem trans (h : Encloses before middle) (h' : Encloses middle after) :
    Encloses before after where
  loops := h'.loops.trans h.loops
  code block hblock hposition := by
    have hsize := h.size
    -- in between, the block being filled is the first one or a new one, but not this one
    have hmiddle : block ≠ middle.position := by
      obtain heq | hnew := h.position <;> omega
    rw [h'.code block (by omega) hmiddle, h.code block hblock hposition]
  position := by
    have hsize := h.size
    rcases h'.position with heq | hnew
    · rw [heq]
      exact h.position
    · omega
  size := Nat.le_trans h.size h'.size

/-- What leaves the open loops alone encloses nothing else. -/
theorem of_emitted {position count : Nat} {here next fault : List Instr}
    (h : Emitted before after position count before.loops here next fault)
    (hplace : (position = before.position ∧ count = before.size) ∨
      (position = before.size ∧ count = before.size + 2)) : Encloses before after where
  loops := h.loops
  code block hblock hposition := by
    rw [h.code, if_neg hposition, if_neg (by omega), if_neg (by omega), List.append_nil]
  position := by
    have := h.position
    omega
  size := by
    have := h.size
    omega

end Builder.Encloses

namespace Build

open Builder

variable {before opened inside closed : Builder}

/-- A loop that was begun, and whose body is through, ends with a test that leads to its two blocks;
the build goes on in the second, which has no code yet. -/
theorem exists_emitted_closeLoop_of_encloses {index : Nat} {here : List Instr}
    (hopened : Emitted before opened before.size (before.size + 2)
      (⟨index, before.size, before.size + 1⟩ :: before.loops) here [] [])
    (hinside : opened.Encloses inside) (hposition : inside.position < inside.size) :
    ∃ pointer address element tested closed, closeLoop frame index inside = ((), closed) ∧
      Emitted inside closed (before.size + 1) inside.size before.loops
        (testCode frame .notEqual pointer address element tested before.size (before.size + 1))
        [] [] ∧
      closed.code (before.size + 1) = opened.code (before.size + 1) := by
  have hloops : inside.loops = _ := hinside.loops.trans hopened.loops
  have hfind : inside.loops.find? (·.opener = index) =
      some ⟨index, before.size, before.size + 1⟩ := by
    rw [hloops]
    simp
  obtain ⟨pointer, address, element, tested, closed, hclose, hclosed⟩ :=
    exists_emitted_closeLoop frame index hfind hposition
  rw [hloops, List.erase_cons_head] at hclosed
  refine ⟨pointer, address, element, tested, closed, hclose, hclosed, ?_⟩
  -- the body is filled into its own block and into new ones, so the block after the loop is empty
  have hplace := hinside.position
  have hcount := hinside.size
  rw [hopened.position, hopened.size] at hplace
  rw [hopened.size] at hcount
  rw [hclosed.code, if_neg (by omega), ite_self, ite_self, List.append_nil]
  exact hinside.code _ (by rw [hopened.size]; omega) (by rw [hopened.position]; omega)

/-- A loop, from its start to its end, closes the loops it opens. -/
theorem encloses_loop {index : Nat} {here there : List Instr}
    (hopened : Emitted before opened before.size (before.size + 2)
      (⟨index, before.size, before.size + 1⟩ :: before.loops) here [] [])
    (hinside : opened.Encloses inside)
    (hclosed : Emitted inside closed (before.size + 1) inside.size before.loops there [] []) :
    before.Encloses closed := by
  have hsize := hinside.size
  have hplace := hinside.position
  rw [hopened.size, hopened.position] at hplace
  rw [hopened.size] at hsize
  refine ⟨hclosed.loops, ?_, ?_, ?_⟩
  · -- the end of the loop fills a block of the body, and the body the blocks of the loop
    intro block hblock hposition
    rw [hclosed.code, if_neg (by omega), ite_self, ite_self, List.append_nil,
      hinside.code block (by rw [hopened.size]; omega) (by rw [hopened.position]; omega),
      hopened.code, if_neg hposition, ite_self, ite_self, List.append_nil]
  · rw [hclosed.position]
    omega
  · rw [hclosed.size]
    omega

section Layout

variable {start finish : Cursor} {body rest : Tree} {base : Nat} {size : Int}

/-- Emitting a laid-out loop emits its start, its body and its end, then what follows it. -/
theorem instructions_layout_loop (hopen : openLoop frame base before = ((), opened))
    (hbody : ((instructions frame size (base + 1) (body.layout (base + 1))) opened).2 = inside)
    (hclose : closeLoop frame base inside = ((), closed)) :
    (instructions frame size base ((Tree.loop start body finish rest).layout base)) before =
      (instructions frame size (base + body.length + 2) (rest.layout (base + body.length + 2)))
        closed := by
  have hindex : base + 1 + body.length + 1 = base + body.length + 2 := by omega
  rw [Tree.layout, instructions, Build.instruction, bind_eq hopen, instructions_append, hbody,
    instructions, Build.instruction, bind_eq hclose, Tree.length_layout, hindex]

end Layout

/-- Emitting a laid-out tree closes the loops it opens. -/
theorem encloses_layout (tree : Tree) (size : Int) (base : Nat) (hsound : before.Sound) :
    before.Encloses ((instructions frame size base (tree.layout base)) before).2 := by
  induction tree generalizing before base with
  | done => exact .refl before
  | plain operation place rest ih =>
    obtain ⟨_, _, _, _, _, after, hinstruction, hemitted, hplace⟩ :=
      exists_emitted_plain (place.op_instruction operation.op) hsound.position size base
    have hafter := (sound_instruction hsound size base
      (.plain (place.instruction operation.op))).1
    rw [hinstruction] at hafter
    rw [Tree.layout, instructions, bind_eq hinstruction]
    exact (Encloses.of_emitted hemitted hplace).trans (ih (base + 1) hafter)
  | loop start body finish rest ihBody ihRest =>
    obtain ⟨_, _, _, _, opened, hopen, hopened⟩ :=
      exists_emitted_openLoop frame base hsound.position
    have hsoundOpened := (sound_instruction hsound size base
      (.opener (start.instruction .loopStart) 0 (finish.instruction .loopEnd))).1
    simp only [Build.instruction, hopen] at hsoundOpened
    have hinside := ihBody (base + 1) hsoundOpened
    have hsoundInside :=
      (sound_instructions hsoundOpened size (base + 1) (body.layout (base + 1))).1
    generalize hbody :
      ((instructions frame size (base + 1) (body.layout (base + 1))) opened).2 = inside
      at hinside hsoundInside
    -- the loops open after the body are those open before it, so the loop end finds its own first
    obtain ⟨_, _, _, _, closed, hclose, hclosed, -⟩ :=
      exists_emitted_closeLoop_of_encloses hopened hinside hsoundInside.position
    have hsoundClosed := (sound_instruction hsoundInside size (base + 1 + body.length)
      (.closer (finish.instruction .loopEnd) base (start.instruction .loopStart))).1
    simp only [Build.instruction, hclose] at hsoundClosed
    rw [instructions_layout_loop hopen hbody hclose]
    exact (encloses_loop hopened hinside hclosed).trans
      (ihRest (base + body.length + 2) hsoundClosed)

end Build

end Brainfuck.Native
