import Brainfuck.Native.Emit

/-! # What is emitted

A view of a function being built, in which it is no more than the code of its blocks, and what every
piece of a build adds to it. The code that follows a point of the build is what the rest of the
build adds to the block being filled there.

Main definitions: `Builder.code`, `Builder.Emitted`, `Builder.Adds`. Main statements: what each
instruction emits (`Build.exists_emitted_move` and its siblings). -/

namespace Brainfuck.Native

open Ir

namespace Builder

/-! ## The code of a block -/

/-- The code of a block so far; a block that does not exist has none. -/
def code (builder : Builder) (block : Nat) : List Instr :=
  match builder.blocks[block]? with
  | some block => block.code.toList
  | none => []

/-- The number of blocks. -/
def size (builder : Builder) : Nat := builder.blocks.size

/-- The serial number of the next value without a word. -/
def serial (builder : Builder) : Nat := builder.names.serial .unnamed

theorem code_eq_nil {builder : Builder} {block : Nat} (h : builder.size ≤ block) :
    builder.code block = [] := by
  unfold size at h
  simp [code, h]

/-- Between two points of a build, code was added to the block being filled and to at most two new
blocks, and the build came to a position, a number of blocks and open loops. -/
structure Emitted (before after : Builder) (position size : Nat) (loops : List LoopBlocks)
    (here next fault : List Instr) : Prop where
  /-- The code that was added. -/
  code : ∀ block, after.code block = before.code block ++
    if block = before.position then here
    else if block = before.size then next
    else if block = before.size + 1 then fault else []
  /-- The block being filled afterwards. -/
  position : after.position = position
  /-- The number of blocks afterwards. -/
  size : after.size = size
  /-- The open loops afterwards. -/
  loops : after.loops = loops
  /-- Serial numbers only go up. -/
  serial : before.serial ≤ after.serial

/-- Between two points of a build, code was added to the block being filled, and nothing else. -/
abbrev Adds (before after : Builder) (code : List Instr) : Prop :=
  Emitted before after before.position before.size before.loops code [] []

namespace Emitted

variable {before middle after : Builder} {position size : Nat} {loops : List LoopBlocks}
  {here here' next fault : List Instr}

/-- What is added first stands first. -/
theorem after_adds (hadds : Adds before middle here')
    (h : Emitted middle after position size loops here next fault) :
    Emitted before after position size loops (here' ++ here) next fault where
  code block := by
    -- the block being filled and the number of blocks are those of the point before
    rw [h.code, hadds.code, hadds.position, hadds.size]
    grind
  position := h.position
  size := h.size
  loops := h.loops
  serial := Nat.le_trans hadds.serial h.serial

/-- What is added after a check goes to the first of the two new blocks. -/
theorem then_adds
    (h : Emitted before middle before.size (before.size + 2) loops here [] fault)
    (hposition : before.position < before.size) (hadds : Adds middle after next) :
    Emitted before after before.size (before.size + 2) loops here next fault where
  code block := by
    -- the block being filled is now the first new one, which is not the one of the point before
    rw [hadds.code, h.code, h.position, h.size]
    grind
  position := hadds.position.trans h.position
  size := hadds.size.trans h.size
  loops := hadds.loops.trans h.loops
  serial := Nat.le_trans h.serial hadds.serial

end Emitted

namespace Adds

variable {before middle after : Builder} {first second : List Instr}

/-- What is added in two steps is added. -/
theorem append (h : Adds before middle first) (h' : Adds middle after second) :
    Adds before after (first ++ second) := by
  have hemitted := h.after_adds h'
  rwa [h.position, h.size, h.loops] at hemitted

/-- The block being filled exists afterwards if it existed before. -/
theorem position_lt (h : Adds before after first) (hposition : before.position < before.size) :
    after.position < after.size := by
  rw [h.position, h.size]
  exact hposition

end Adds

end Builder

namespace Build

/-! ## Steps of a build -/

/-- A step of a build is followed by what its result leads to. -/
theorem bind_eq {α β : Type} {first : Build α} {builder middle : Builder} {result : α}
    (h : first builder = (result, middle)) (rest : α → Build β) :
    (first >>= rest) builder = rest result middle := by
  simp only [bind, StateT.bind, h]

open Builder

variable {before : Builder}

/-- Giving a name adds no code. -/
theorem exists_fresh (stem : Stem) (before : Builder) :
    ∃ serial after, fresh stem before = (⟨stem, serial⟩, after) ∧ Adds before after [] ∧
      (stem = .unnamed → before.serial ≤ serial) := by
  refine ⟨_, _, rfl, ⟨?_, rfl, rfl, rfl, ?_⟩, ?_⟩
  · intro block
    simp only [ite_self, List.append_nil]
    rfl
  · -- only a name without a word takes a serial number of those without a word
    show before.serial ≤ (before.names.fresh stem).2.serial .unnamed
    rw [NameSupply.serial_fresh]
    split
    · subst stem
      exact Nat.le_succ _
    · exact Nat.le_refl _
  · rintro rfl
    exact Nat.le_refl _

/-- A serial number is used up without adding code. -/
theorem exists_skipName (before : Builder) :
    ∃ after, skipName before = ((), after) ∧ Adds before after [] := by
  obtain ⟨serial, after, hfresh, hadds, -⟩ := exists_fresh .unnamed before
  refine ⟨after, ?_, hadds⟩
  rw [skipName, bind_eq hfresh]
  rfl

/-- An instruction is added to the block being filled. -/
theorem exists_push (instr : Instr) (h : before.position < before.size) :
    ∃ after, push instr before = ((), after) ∧ Adds before after [instr] := by
  refine ⟨_, rfl, ⟨?_, rfl, ?_, rfl, Nat.le_refl _⟩⟩
  · intro block
    unfold Builder.size at h
    simp only [Builder.code, Array.getElem?_modify]
    by_cases hblock : block = before.position
    · subst hblock
      simp [h]
    · rw [if_neg (Ne.symm hblock), if_neg hblock]
      simp
  · simp [Builder.size]

/-- An instruction without a result takes a serial number and is added. -/
theorem exists_skipName_push (instr : Instr) (h : before.position < before.size) :
    ∃ after, (do skipName; push instr : Build Unit) before = ((), after) ∧
      Adds before after [instr] := by
  obtain ⟨middle, hskip, hmiddle⟩ := exists_skipName before
  obtain ⟨after, hpush, hafter⟩ := exists_push instr (hmiddle.position_lt h)
  exact ⟨after, by rw [bind_eq hskip, hpush], hmiddle.append hafter⟩

theorem exists_branch (condition : Name) (ifTrue ifFalse : Nat)
    (h : before.position < before.size) :
    ∃ after, branch condition ifTrue ifFalse before = ((), after) ∧
      Adds before after [.branch condition ifTrue ifFalse] :=
  exists_skipName_push (.branch condition ifTrue ifFalse) h

theorem exists_ret (value : Int) (h : before.position < before.size) :
    ∃ after, ret value before = ((), after) ∧ Adds before after [.ret value] :=
  exists_skipName_push (.ret value) h

theorem exists_store (width : Width) (value : Operand) (address : Name)
    (h : before.position < before.size) :
    ∃ after, store width value address before = ((), after) ∧
      Adds before after [.store width value address] :=
  exists_skipName_push (.store width value address) h

/-- An instruction with a result takes a name for it and is added. -/
theorem exists_fresh_push (stem : Stem) (instr : Name → Instr)
    (h : before.position < before.size) :
    ∃ serial middle after, fresh stem before = (⟨stem, serial⟩, middle) ∧
      push (instr ⟨stem, serial⟩) middle = ((), after) ∧
      Adds before after [instr ⟨stem, serial⟩] ∧ (stem = .unnamed → before.serial ≤ serial) := by
  obtain ⟨serial, middle, hfresh, hmiddle, hserial⟩ := exists_fresh stem before
  obtain ⟨after, hpush, hafter⟩ := exists_push (instr ⟨stem, serial⟩) (hmiddle.position_lt h)
  exact ⟨serial, middle, after, hfresh, hpush, hmiddle.append hafter, hserial⟩

theorem declare_eq (callee : Callee) (before : Builder) :
    declare callee before =
      ((), if callee ∈ before.declarations then before
        else { before with declarations := before.declarations ++ [callee] }) := rfl

/-- Noting a call adds no code. -/
theorem exists_declare (callee : Callee) (before : Builder) :
    ∃ after, declare callee before = ((), after) ∧ Adds before after [] := by
  by_cases h : callee ∈ before.declarations
  · refine ⟨before, ?_, ⟨by simp, rfl, rfl, rfl, Nat.le_refl _⟩⟩
    rw [declare_eq, if_pos h]
  · refine ⟨{ before with declarations := before.declarations ++ [callee] }, ?_,
      ⟨by simp [Builder.code], rfl, rfl, rfl, Nat.le_refl _⟩⟩
    rw [declare_eq, if_neg h]

theorem moveTo_eq (block : Nat) (before : Builder) :
    moveTo block before = ((), { before with position := block }) := rfl

/-! ## Pieces of code -/

theorem exists_pointer (frame : Frame) (h : before.position < before.size) :
    ∃ pointer after, Build.pointer frame before = (⟨.pointer, pointer⟩, after) ∧
      Adds before after [.load ⟨.pointer, pointer⟩ .word frame.slot] := by
  obtain ⟨pointer, middle, after, hfresh, hpush, hafter, -⟩ :=
    exists_fresh_push .pointer (.load · .word frame.slot) h
  refine ⟨pointer, after, ?_, hafter⟩
  rw [Build.pointer, bind_eq hfresh, bind_eq hpush]
  rfl

theorem exists_elementAddress (frame : Frame) (h : before.position < before.size) :
    ∃ pointer address after,
      elementAddress frame before = (⟨.elementAddress, address⟩, after) ∧
      Adds before after [.load ⟨.pointer, pointer⟩ .word frame.slot,
        .element ⟨.elementAddress, address⟩ frame.tape ⟨.pointer, pointer⟩] := by
  obtain ⟨pointer, middle, hpointer, hmiddle⟩ := exists_pointer frame h
  obtain ⟨address, named, after, hfresh, hpush, hafter, -⟩ := exists_fresh_push .elementAddress
    (.element · frame.tape ⟨.pointer, pointer⟩) (hmiddle.position_lt h)
  refine ⟨pointer, address, after, ?_, hmiddle.append hafter⟩
  rw [elementAddress, bind_eq hpointer, bind_eq hfresh, bind_eq hpush]
  rfl

/-- The code that reads the current cell. -/
def elementCode (frame : Frame) (pointer address element : Nat) : List Instr :=
  [.load ⟨.pointer, pointer⟩ .word frame.slot,
    .element ⟨.elementAddress, address⟩ frame.tape ⟨.pointer, pointer⟩,
    .load ⟨.element, element⟩ .byte ⟨.elementAddress, address⟩]

theorem exists_element (frame : Frame) (h : before.position < before.size) :
    ∃ pointer address element after,
      Build.element frame before =
        ((⟨.elementAddress, address⟩, ⟨.element, element⟩), after) ∧
      Adds before after (elementCode frame pointer address element) := by
  obtain ⟨pointer, address, middle, haddress, hmiddle⟩ := exists_elementAddress frame h
  obtain ⟨element, named, after, hfresh, hpush, hafter, -⟩ := exists_fresh_push .element
    (.load · .byte ⟨.elementAddress, address⟩) (hmiddle.position_lt h)
  refine ⟨pointer, address, element, after, ?_, hmiddle.append hafter⟩
  rw [Build.element, bind_eq haddress, bind_eq hfresh, bind_eq hpush]
  rfl

theorem exists_compare (stem : Stem) (comparison : Comparison) (width : Width) (left : Name)
    (right : Int) (h : before.position < before.size) :
    ∃ result after, compare stem comparison width left right before = (⟨stem, result⟩, after) ∧
      Adds before after [.compare ⟨stem, result⟩ comparison width left right] := by
  obtain ⟨result, middle, after, hfresh, hpush, hafter, -⟩ :=
    exists_fresh_push stem (.compare · comparison width left right) h
  refine ⟨result, after, ?_, hafter⟩
  rw [compare, bind_eq hfresh, bind_eq hpush]
  rfl

theorem exists_arithmetic (stem : Stem) (operation : Arithmetic) (width : Width) (left : Name)
    (right : Int) (h : before.position < before.size) :
    ∃ result after, arithmetic stem operation width left right before = (⟨stem, result⟩, after) ∧
      Adds before after [.arithmetic ⟨stem, result⟩ operation width left right] := by
  obtain ⟨result, middle, after, hfresh, hpush, hafter, -⟩ :=
    exists_fresh_push stem (.arithmetic · operation width left right) h
  refine ⟨result, after, ?_, hafter⟩
  rw [arithmetic, bind_eq hfresh, bind_eq hpush]
  rfl

/-- A new block has no code yet. -/
theorem exists_createBlock (stem : Stem) (before : Builder) :
    ∃ after, createBlock stem before = (before.size, after) ∧
      Emitted before after before.position (before.size + 1) before.loops [] [] [] := by
  obtain ⟨label, named, hfresh, hnamed, -⟩ := exists_fresh stem before
  refine ⟨{ named with blocks := named.blocks.push ⟨⟨stem, label⟩, #[]⟩ }, ?_, ?_, hnamed.position,
    ?_, hnamed.loops, hnamed.serial⟩
  · rw [createBlock, bind_eq hfresh, ← hnamed.size]
    rfl
  · intro block
    have hcode := hnamed.code block
    simp only [ite_self, List.append_nil] at hcode ⊢
    rw [← hcode]
    simp only [Builder.code, Array.getElem?_push]
    by_cases hblock : block = named.blocks.size
    · subst hblock
      simp
    · rw [if_neg hblock]
  · rw [← hnamed.size]
    simp [Builder.size]

/-- Two new blocks have no code yet. -/
theorem exists_createBlock_createBlock (first second : Stem) (before : Builder) :
    ∃ middle after, createBlock first before = (before.size, middle) ∧
      createBlock second middle = (before.size + 1, after) ∧
      Emitted before after before.position (before.size + 2) before.loops [] [] [] := by
  obtain ⟨middle, hfirst, hmiddle⟩ := exists_createBlock first before
  obtain ⟨after, hsecond, hafter⟩ := exists_createBlock second middle
  rw [hmiddle.size] at hsecond hafter
  refine ⟨middle, after, hfirst, hsecond, ?_, ?_, hafter.size, ?_, ?_⟩
  · intro block
    rw [hafter.code, hmiddle.code]
    simp
  · rw [hafter.position, hmiddle.position]
  · rw [hafter.loops, hmiddle.loops]
  · exact Nat.le_trans hmiddle.serial hafter.serial

/-- A check ends the block being filled with a branch to two new blocks. The first is filled from
there on, and the second returns the index of the instruction. -/
theorem exists_faultUnless (ok : Name) (index : Nat) (h : before.position < before.size) :
    ∃ after, faultUnless ok index before = ((), after) ∧
      Emitted before after before.size (before.size + 2) before.loops
        [.branch ok before.size (before.size + 1)] [] [.ret index] := by
  obtain ⟨proceed, created, hproceed, hfault, hcreated⟩ :=
    exists_createBlock_createBlock .noFault .fault before
  have hposition : created.position < created.size := by
    rw [hcreated.position, hcreated.size]
    omega
  obtain ⟨branched, hbranch, hbranched⟩ :=
    exists_branch ok before.size (before.size + 1) hposition
  have hsize : branched.size = before.size + 2 := hbranched.size.trans hcreated.size
  have hposition' : before.size + 1 < branched.size := by omega
  obtain ⟨returned, hret, hreturned⟩ := exists_ret index
    (show { branched with position := before.size + 1 : Builder }.position < branched.size from
      hposition')
  refine ⟨{ returned with position := before.size }, ?_, ?_, rfl, ?_, ?_, ?_⟩
  · rw [faultUnless, bind_eq hproceed, bind_eq hfault, bind_eq hbranch,
      bind_eq (moveTo_eq _ _), bind_eq hret, moveTo_eq]
  · -- the branch is in the block that was being filled, the return in the second new one
    intro block
    show returned.code block = _
    rw [hreturned.code]
    show branched.code block ++ (if block = before.size + 1 then _ else _) = _
    rw [hbranched.code, hcreated.code, hcreated.position]
    grind
  · exact hreturned.size.trans hsize
  · exact hreturned.loops.trans (hbranched.loops.trans hcreated.loops)
  · exact Nat.le_trans hcreated.serial (Nat.le_trans hbranched.serial hreturned.serial)

/-! ## Instructions -/

/-- A move compares the data pointer with the limit, and changes it in a new block. -/
theorem exists_emitted_move (frame : Frame) (index : Nat) (comparison : Comparison) (limit : Int)
    (stem : Stem) (operation : Arithmetic) (h : before.position < before.size) :
    ∃ pointer inBounds moved after,
      move frame index comparison limit stem operation before = ((), after) ∧
      Emitted before after before.size (before.size + 2) before.loops
        [.load ⟨.pointer, pointer⟩ .word frame.slot,
          .compare ⟨.inBounds, inBounds⟩ comparison .word ⟨.pointer, pointer⟩ limit,
          .branch ⟨.inBounds, inBounds⟩ before.size (before.size + 1)]
        [.arithmetic ⟨stem, moved⟩ operation .word ⟨.pointer, pointer⟩ 1,
          .store .word (.named ⟨stem, moved⟩) frame.slot]
        [.ret index] := by
  obtain ⟨pointer, loaded, hload, hloaded⟩ := exists_pointer frame h
  obtain ⟨inBounds, compared, hcompare, hcompared⟩ := exists_compare .inBounds comparison .word
    ⟨.pointer, pointer⟩ limit (hloaded.position_lt h)
  have hstraight := hloaded.append hcompared
  obtain ⟨checked, hcheck, hchecked⟩ :=
    exists_faultUnless ⟨.inBounds, inBounds⟩ index (hstraight.position_lt h)
  rw [hstraight.size, hstraight.loops] at hchecked
  have hemitted := hstraight.after_adds hchecked
  -- the pointer is changed in the block that the check goes on in
  have hposition : checked.position < checked.size := by
    rw [hemitted.position, hemitted.size]
    omega
  obtain ⟨moved, computed, harithmetic, hcomputed⟩ :=
    exists_arithmetic stem operation .word ⟨.pointer, pointer⟩ 1 hposition
  obtain ⟨after, hstore, hafter⟩ :=
    exists_store .word (.named ⟨stem, moved⟩) frame.slot (hcomputed.position_lt hposition)
  refine ⟨pointer, inBounds, moved, after, ?_, hemitted.then_adds h (hcomputed.append hafter)⟩
  rw [move, bind_eq hload, bind_eq hcompare, bind_eq hcheck, bind_eq harithmetic, hstore]

/-- A change of the current cell stays in its block. -/
theorem exists_adds_change (frame : Frame) (stem : Stem) (operation : Arithmetic)
    (h : before.position < before.size) :
    ∃ pointer address element changed after,
      change frame stem operation before = ((), after) ∧
      Adds before after (elementCode frame pointer address element ++
        [.arithmetic ⟨stem, changed⟩ operation .byte ⟨.element, element⟩ 1,
          .store .byte (.named ⟨stem, changed⟩) ⟨.elementAddress, address⟩]) := by
  obtain ⟨pointer, address, element, loaded, hload, hloaded⟩ := exists_element frame h
  obtain ⟨changed, computed, harithmetic, hcomputed⟩ := exists_arithmetic stem operation .byte
    ⟨.element, element⟩ 1 (hloaded.position_lt h)
  have hstraight := hloaded.append hcomputed
  obtain ⟨after, hstore, hafter⟩ := exists_store .byte (.named ⟨stem, changed⟩)
    ⟨.elementAddress, address⟩ (hstraight.position_lt h)
  refine ⟨pointer, address, element, changed, after, ?_, hstraight.append hafter⟩
  simp only [change, bind_eq hload, bind_eq harithmetic, hstore]

/-- An output puts the current cell and checks the reply. -/
theorem exists_emitted_output (frame : Frame) (index : Nat) (h : before.position < before.size) :
    ∃ pointer address element reply written after, before.serial ≤ reply ∧
      output frame index before = ((), after) ∧
      Emitted before after before.size (before.size + 2) before.loops
        (elementCode frame pointer address element ++
          [.put ⟨.unnamed, reply⟩ ⟨.element, element⟩,
            .compare ⟨.written, written⟩ .equal .reply ⟨.unnamed, reply⟩ 0,
            .branch ⟨.written, written⟩ before.size (before.size + 1)])
        [] [.ret index] := by
  obtain ⟨pointer, address, element, loaded, hload, hloaded⟩ := exists_element frame h
  obtain ⟨declared, hdeclare, hdeclared⟩ := exists_declare .putByte loaded
  have hready := hloaded.append hdeclared
  obtain ⟨reply, named, put, hfresh, hpush, hput, hserial⟩ :=
    exists_fresh_push .unnamed (.put · ⟨.element, element⟩) (hready.position_lt h)
  have hasked := hready.append hput
  obtain ⟨written, compared, hcompare, hcompared⟩ := exists_compare .written .equal .reply
    ⟨.unnamed, reply⟩ 0 (hasked.position_lt h)
  have hstraight := hasked.append hcompared
  obtain ⟨after, hcheck, hchecked⟩ :=
    exists_faultUnless ⟨.written, written⟩ index (hstraight.position_lt h)
  rw [hstraight.size, hstraight.loops] at hchecked
  refine ⟨pointer, address, element, reply, written, after,
    Nat.le_trans hready.serial (hserial rfl), ?_, ?_⟩
  · simp only [output, bind_eq hload, bind_eq hdeclare, bind_eq hfresh, bind_eq hpush,
      bind_eq hcompare, hcheck]
  · have hemitted := hstraight.after_adds hchecked
    simpa using hemitted

/-- An input gets a byte, checks the reply, and stores the byte in a new block. -/
theorem exists_emitted_input (frame : Frame) (index : Nat) (h : before.position < before.size) :
    ∃ reply haveInput byte pointer address after, before.serial ≤ reply ∧
      input frame index before = ((), after) ∧
      Emitted before after before.size (before.size + 2) before.loops
        [.get ⟨.unnamed, reply⟩,
          .compare ⟨.haveInput, haveInput⟩ .signedAtLeast .reply ⟨.unnamed, reply⟩ 0,
          .branch ⟨.haveInput, haveInput⟩ before.size (before.size + 1)]
        [.truncate ⟨.inputByte, byte⟩ ⟨.unnamed, reply⟩,
          .load ⟨.pointer, pointer⟩ .word frame.slot,
          .element ⟨.elementAddress, address⟩ frame.tape ⟨.pointer, pointer⟩,
          .store .byte (.named ⟨.inputByte, byte⟩) ⟨.elementAddress, address⟩]
        [.ret index] := by
  obtain ⟨declared, hdeclare, hdeclared⟩ := exists_declare .getByte before
  obtain ⟨reply, named, got, hfresh, hpush, hgot, hserial⟩ :=
    exists_fresh_push .unnamed .get (hdeclared.position_lt h)
  have hasked := hdeclared.append hgot
  obtain ⟨haveInput, compared, hcompare, hcompared⟩ := exists_compare .haveInput .signedAtLeast
    .reply ⟨.unnamed, reply⟩ 0 (hasked.position_lt h)
  have hstraight := hasked.append hcompared
  obtain ⟨checked, hcheck, hchecked⟩ :=
    exists_faultUnless ⟨.haveInput, haveInput⟩ index (hstraight.position_lt h)
  rw [hstraight.size, hstraight.loops] at hchecked
  have hemitted := hstraight.after_adds hchecked
  -- the byte is stored in the block that the check goes on in
  have hposition : checked.position < checked.size := by
    rw [hemitted.position, hemitted.size]
    omega
  obtain ⟨byte, named', truncated, hfresh', hpush', htruncated, -⟩ :=
    exists_fresh_push .inputByte (.truncate · ⟨.unnamed, reply⟩) hposition
  obtain ⟨pointer, address, addressed, haddress, haddressed⟩ :=
    exists_elementAddress frame (htruncated.position_lt hposition)
  have hready := htruncated.append haddressed
  obtain ⟨after, hstore, hafter⟩ := exists_store .byte (.named ⟨.inputByte, byte⟩)
    ⟨.elementAddress, address⟩ (hready.position_lt hposition)
  refine ⟨reply, haveInput, byte, pointer, address, after,
    Nat.le_trans hdeclared.serial (hserial rfl), ?_,
    hemitted.then_adds h (hready.append hafter)⟩
  simp only [input, bind_eq hdeclare, bind_eq hfresh, bind_eq hpush, bind_eq hcompare,
    bind_eq hcheck, bind_eq hfresh', bind_eq hpush', bind_eq haddress, hstore]

/-- The code that compares the current cell with zero and goes on in one of two blocks. -/
def testCode (frame : Frame) (comparison : Comparison) (pointer address element tested : Nat)
    (ifTrue ifFalse : Nat) : List Instr :=
  elementCode frame pointer address element ++
    [.compare ⟨.compareZero, tested⟩ comparison .byte ⟨.element, element⟩ 0,
      .branch ⟨.compareZero, tested⟩ ifTrue ifFalse]

/-- The beginning of a loop tests the current cell and creates the blocks of the loop. -/
theorem exists_emitted_openLoop (frame : Frame) (index : Nat)
    (h : before.position < before.size) :
    ∃ pointer address element tested after, openLoop frame index before = ((), after) ∧
      Emitted before after before.size (before.size + 2)
        (⟨index, before.size, before.size + 1⟩ :: before.loops)
        (testCode frame .equal pointer address element tested (before.size + 1) before.size)
        [] [] := by
  obtain ⟨pointer, address, element, loaded, hload, hloaded⟩ := exists_element frame h
  obtain ⟨tested, compared, hcompare, hcompared⟩ := exists_compare .compareZero .equal .byte
    ⟨.element, element⟩ 0 (hloaded.position_lt h)
  have hstraight := hloaded.append hcompared
  -- the blocks are created between the test and the branch that ends the old block
  obtain ⟨middle, created, hbody, hafter, hcreated⟩ :=
    exists_createBlock_createBlock .loopBody .postLoop compared
  rw [hstraight.size] at hbody hafter hcreated
  have hposition : created.position < created.size := by
    rw [hcreated.position, hcreated.size, hstraight.position]
    omega
  obtain ⟨branched, hbranch, hbranched⟩ :=
    exists_branch ⟨.compareZero, tested⟩ (before.size + 1) before.size hposition
  refine ⟨pointer, address, element, tested,
    { branched with
      loops := ⟨index, before.size, before.size + 1⟩ :: branched.loops, position := before.size },
    ?_, ?_, rfl, ?_, ?_, ?_⟩
  · simp only [openLoop, bind_eq hload, bind_eq hcompare, bind_eq hbody, bind_eq hafter,
      bind_eq hbranch]
    rfl
  · intro block
    show branched.code block = _
    rw [hbranched.code, hcreated.code, hcreated.position, hstraight.code, hstraight.position]
    simp only [testCode]
    grind
  · exact hbranched.size.trans hcreated.size
  · show _ :: branched.loops = _
    rw [hbranched.loops, hcreated.loops, hstraight.loops]
  · exact Nat.le_trans hstraight.serial (Nat.le_trans hcreated.serial hbranched.serial)

/-- The end of a loop tests the current cell and goes on in the block after the loop. -/
theorem exists_emitted_closeLoop (frame : Frame) (opener : Nat) {loop : LoopBlocks}
    (hloop : before.loops.find? (·.opener = opener) = some loop)
    (h : before.position < before.size) :
    ∃ pointer address element tested after, closeLoop frame opener before = ((), after) ∧
      Emitted before after loop.after before.size (before.loops.erase loop)
        (testCode frame .notEqual pointer address element tested loop.body loop.after) [] [] := by
  obtain ⟨pointer, address, element, loaded, hload, hloaded⟩ := exists_element frame
    (show { before with loops := before.loops.erase loop : Builder }.position < before.size from h)
  obtain ⟨tested, compared, hcompare, hcompared⟩ := exists_compare .compareZero .notEqual .byte
    ⟨.element, element⟩ 0 (hloaded.position_lt h)
  have hstraight := hloaded.append hcompared
  obtain ⟨branched, hbranch, hbranched⟩ :=
    exists_branch ⟨.compareZero, tested⟩ loop.body loop.after (hstraight.position_lt h)
  have hadds := hstraight.append hbranched
  refine ⟨pointer, address, element, tested, { branched with position := loop.after }, ?_, ?_, rfl,
    hadds.size, hadds.loops, hadds.serial⟩
  · have hget : (get : Build Builder) before = (before, before) := rfl
    have hset : (set { before with loops := before.loops.erase loop } : Build PUnit) before =
      (.unit, { before with loops := before.loops.erase loop }) := rfl
    simp only [closeLoop, bind_eq hget, hloop, bind_eq hset, bind_eq hload, bind_eq hcompare,
      bind_eq hbranch, moveTo_eq]
  · intro block
    have hcode := hadds.code block
    rw [List.append_assoc] at hcode
    exact hcode

end Build

end Brainfuck.Native
