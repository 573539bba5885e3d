import Brainfuck.Proofs.Ir.Run
import Brainfuck.Proofs.Native.Build
import Brainfuck.Proofs.Pairing

/-! # Compiled code

Where the code of every instruction stands in the compiled function. The code from an instruction on
is what the build adds to the block being filled when it comes to the instruction; it carries out
the instruction and leads to the code from the next one on, across the blocks of the loops.

Main definitions: `Implements`, `Native.stage`, `codeFrom`, `Emits`. Main statement: the compiled
function implements every instruction of a linked program (`implements_compile`). -/

namespace Brainfuck

namespace Native

open Ir Build

/-! ## What the code of an instruction has to be -/

section Pieces

variable (function : Function) (index : Nat) (here next : List Instr)

/-- The code compares the data pointer with a limit, then changes it or returns the index. -/
def MoveCode (comparison : Comparison) (limit : Int) (stem : Stem) (operation : Arithmetic) :
    Prop :=
  ∃ pointer inBounds moved proceed fault others others',
    here = [.load ⟨.pointer, pointer⟩ .word frame.slot,
      .compare ⟨.inBounds, inBounds⟩ comparison .word ⟨.pointer, pointer⟩ limit,
      .branch ⟨.inBounds, inBounds⟩ proceed fault] ++ others ∧
    function.HasBlock proceed ([.arithmetic ⟨stem, moved⟩ operation .word ⟨.pointer, pointer⟩ 1,
      .store .word (.named ⟨stem, moved⟩) frame.slot] ++ next) ∧
    function.HasBlock fault ([.ret index] ++ others')

/-- The code changes the current cell by one. -/
def ChangeCode (stem : Stem) (operation : Arithmetic) : Prop :=
  ∃ pointer address element changed,
    here = elementCode frame pointer address element ++
      [.arithmetic ⟨stem, changed⟩ operation .byte ⟨.element, element⟩ 1,
        .store .byte (.named ⟨stem, changed⟩) ⟨.elementAddress, address⟩] ++ next

/-- The code puts the current cell, then goes on or returns the index. -/
def OutputCode : Prop :=
  ∃ pointer address element reply written proceed fault others others', 3 < reply ∧
    here = elementCode frame pointer address element ++
      [.put ⟨.unnamed, reply⟩ ⟨.element, element⟩,
        .compare ⟨.written, written⟩ .equal .reply ⟨.unnamed, reply⟩ 0,
        .branch ⟨.written, written⟩ proceed fault] ++ others ∧
    function.HasBlock proceed next ∧
    function.HasBlock fault ([.ret index] ++ others')

/-- The code gets a byte, then stores it or returns the index. -/
def InputCode : Prop :=
  ∃ reply haveInput byte pointer address proceed fault others others', 3 < reply ∧
    here = [.get ⟨.unnamed, reply⟩,
      .compare ⟨.haveInput, haveInput⟩ .signedAtLeast .reply ⟨.unnamed, reply⟩ 0,
      .branch ⟨.haveInput, haveInput⟩ proceed fault] ++ others ∧
    function.HasBlock proceed ([.truncate ⟨.inputByte, byte⟩ ⟨.unnamed, reply⟩,
      .load ⟨.pointer, pointer⟩ .word frame.slot,
      .element ⟨.elementAddress, address⟩ frame.tape ⟨.pointer, pointer⟩,
      .store .byte (.named ⟨.inputByte, byte⟩) ⟨.elementAddress, address⟩] ++ next) ∧
    function.HasBlock fault ([.ret index] ++ others')

/-- The code compares the current cell with zero, then goes on at one of two places. -/
def TestCode (comparison : Comparison) (ifTrue ifFalse : List Instr) : Prop :=
  ∃ pointer address element tested first second others,
    here = testCode frame comparison pointer address element tested first second ++ others ∧
    function.HasBlock first ifTrue ∧ function.HasBlock second ifFalse

end Pieces

/-- The code from an index on carries out the entry at the index, for a tape of `size` cells: it
leads to the code from the index on that the entry leads to. -/
def Implements (function : Function) (size : Int) (code : Nat → List Instr) (index : Nat)
    (entry : Linked) : Prop :=
  match entry with
  | .opener _ closer _ =>
    TestCode function (code index) .equal (code (closer + 1)) (code (index + 1))
  | .closer _ opener _ =>
    TestCode function (code index) .notEqual (code (opener + 1)) (code (index + 1))
  | .plain instruction =>
    match instruction.op with
    | .right => MoveCode function index (code index) (code (index + 1)) .unsignedLess (size - 1)
        .pointerUp .add
    | .left => MoveCode function index (code index) (code (index + 1)) .notEqual 0 .pointerDown .sub
    | .add => ChangeCode (code index) (code (index + 1)) .elementUp .add
    | .sub => ChangeCode (code index) (code (index + 1)) .elementDown .sub
    | .output => OutputCode function index (code index) (code (index + 1))
    | .input => InputCode function index (code index) (code (index + 1))
    | .loopStart => False
    | .loopEnd => False

/-! ## The compiled function -/

section Stages

variable (program : LinkedProgram) (size : Int)

/-- The build before the first instruction. -/
def entryBuilder : Builder := (entry {}).2

/-- The build after a number of instructions. -/
def stage (count : Nat) : Builder :=
  ((instructions frame size 0 (program.instructions.toList.take count)) entryBuilder).2

/-- The build after all instructions and the return. -/
def completed : Builder := (ret noFault (stage program size program.size)).2

/-- The code from the instruction at an index on. -/
def codeFrom (index : Nat) : List Instr :=
  (stage program size index).rest (completed program size)

/-- The names that are left when the slot gets its name. -/
def slotNames : NameSupply :=
  (((({} : NameSupply).fresh .unnamed).2.fresh .unnamed).2.fresh .entry).2

theorem serial_slotNames : slotNames.serial .unnamed = 3 := by
  simp [slotNames, NameSupply.serial_fresh, NameSupply.serial_empty, Stem.firstSerial]

/-- The tape and the slot have the first and the third of the names without a word. -/
theorem frame_entry : (entry {}).1 = frame := by
  have htape : ({} : NameSupply).serial .unnamed = 1 := NameSupply.serial_empty .unnamed
  show Frame.mk ⟨.unnamed, NameSupply.serial {} .unnamed⟩
    ⟨.unnamed, slotNames.serial .unnamed⟩ = frame
  rw [htape, serial_slotNames]
  rfl

theorem entry_eq : entry {} = (frame, entryBuilder) := by
  rw [← frame_entry]
  rfl

theorem sound_entryBuilder : entryBuilder.Sound := by
  refine ⟨by decide, by decide, ?_⟩
  -- the slot and the store that follows it take one name each
  show 3 < ((slotNames.fresh .unnamed).2.fresh .unnamed).2.serial .unnamed
  simp [NameSupply.serial_fresh, serial_slotNames]

theorem sound_stage (count : Nat) : (stage program size count).Sound :=
  (sound_instructions sound_entryBuilder size 0 _).1

variable {program}

theorem stage_succ {index : Nat} {entry : Linked} (h : program.instructions[index]? = some entry) :
    stage program size (index + 1) =
      ((instruction frame size index entry) (stage program size index)).2 := by
  have hentry : program.instructions.toList[index]? = some entry := by simpa using h
  obtain ⟨hindex, -⟩ := List.getElem?_eq_some_iff.mp hentry
  have hlength : (program.instructions.toList.take index).length = index := by
    rw [List.length_take]
    omega
  rw [stage, List.take_add_one, hentry, instructions_append, hlength, Nat.zero_add]
  rfl

/-- All instructions have been emitted from the size of the program on. -/
theorem stage_of_size_le {count : Nat} (h : program.size ≤ count) :
    stage program size count = stage program size program.size := by
  have hlength : program.instructions.toList.length ≤ count := by
    simpa [LinkedProgram.size] using h
  rw [stage, stage, List.take_of_length_le hlength, List.take_of_length_le]
  simp [LinkedProgram.size]

variable (program)

theorem stage_size : stage program size program.size =
    ((instructions frame size 0 program.instructions.toList) entryBuilder).2 := by
  rw [stage, List.take_of_length_le]
  simp [LinkedProgram.size]

/-- Every stage is a point of the whole build. -/
theorem extends_completed (count : Nat) :
    (stage program size count).Extends (completed program size) := by
  -- the instructions that are left, then the return
  have hstages : (stage program size count).Extends (stage program size program.size) := by
    rw [stage_size, ← List.take_append_drop count program.instructions.toList, instructions_append]
    exact (sound_instructions (sound_stage program size count) size _ _).2
  obtain ⟨after, hret, hadds⟩ :=
    exists_ret noFault (sound_stage program size program.size).position
  rw [completed, hret]
  exact hstages.trans (hadds.extends_of_le (Nat.le_refl _))

/-- Building the function goes through all stages. -/
theorem function_eq : Build.function program size {} = (frame.tape, completed program size) := by
  rw [Build.function, bind_eq entry_eq, completed, stage_size]
  rfl

/-- The parameter of the compiled function is the tape. -/
theorem parameter_compile : (compile program size).function.parameter = frame.tape := by
  simp only [compile, StateT.run, function_eq]

/-- The blocks of the compiled function are those of the build. -/
theorem hasBlock_compile {block : Nat} (h : block < (completed program size).size) :
    (compile program size).function.HasBlock block ((completed program size).code block) := by
  unfold Builder.size at h
  refine ⟨((completed program size).blocks[block]).label, ?_⟩
  simp only [compile, StateT.run, function_eq, Builder.code, Array.getElem?_map,
    Array.getElem?_eq_getElem h]
  rfl

end Stages

/-! ## Every instruction is implemented -/

section Implemented

variable {program : LinkedProgram} {size : Int} {index : Nat}

/-- The code from the end of the program on returns. -/
theorem exists_codeFrom_of_size_le (h : program.size ≤ index) :
    ∃ others, codeFrom program size index = [.ret noFault] ++ others := by
  obtain ⟨after, hret, hadds⟩ :=
    exists_ret noFault (sound_stage program size program.size).position
  have hrest := hadds.rest_eq (.refl after)
  rw [codeFrom, stage_of_size_le size h, completed, hret]
  exact ⟨_, hrest⟩

/-- The first block sets the data pointer to zero and goes on with the first instruction. -/
theorem hasBlock_zero_compile (program : LinkedProgram) (size : Int) :
    (compile program size).function.HasBlock 0
      ([.reserve frame.slot, .store .word (.literal 0) frame.slot] ++
        codeFrom program size 0) := by
  have hextends := extends_completed program size 0
  have hcode : entryBuilder.code 0 =
      [.reserve frame.slot, .store .word (.literal 0) frame.slot] := by
    rw [← frame_entry]
    rfl
  have hblock := hasBlock_compile program size
    (Nat.lt_of_lt_of_le (sound_stage program size 0).position hextends.size)
  rw [hextends.code_eq] at hblock
  exact hcode ▸ hblock

/-- Code that stays in its block is followed by the code from the next instruction on. -/
theorem codeFrom_of_adds {here : List Instr}
    (h : (stage program size index).Adds (stage program size (index + 1)) here) :
    codeFrom program size index = here ++ codeFrom program size (index + 1) := by
  have hrest := h.rest_eq (extends_completed program size (index + 1))
  rw [codeFrom, hrest, codeFrom, Builder.rest, h.position]

/-- A check is followed by the code from the next instruction on in the first of its blocks, and by
a return in the second. -/
theorem codeFrom_of_check {here next fault : List Instr}
    (h : Builder.Emitted (stage program size index) (stage program size (index + 1))
      (stage program size index).size ((stage program size index).size + 2)
      (stage program size index).loops here next fault) :
    ∃ others others', codeFrom program size index = here ++ others ∧
      (compile program size).function.HasBlock (stage program size index).size
        (next ++ codeFrom program size (index + 1)) ∧
      (compile program size).function.HasBlock ((stage program size index).size + 1)
        (fault ++ others') := by
  have hextends := extends_completed program size (index + 1)
  have hposition := (sound_stage program size index).position
  have hsize := hextends.size
  rw [h.size] at hsize
  have hnext := hasBlock_compile program size (show (stage program size index).size < _ by omega)
  have hfault :=
    hasBlock_compile program size (show (stage program size index).size + 1 < _ by omega)
  rw [h.code_next hextends hposition] at hnext
  rw [h.code_fault hextends hposition] at hfault
  refine ⟨_, _, h.rest_eq hextends, ?_, hfault⟩
  rw [codeFrom, Builder.rest, h.position]
  exact hnext

section Plain

variable {instruction : Instruction}
  (hentry : program.instructions[index]? = some (.plain instruction))
include hentry

/-- The code of a plain instruction that is emitted as a move. -/
theorem moveCode_of_instruction {comparison : Comparison} {limit : Int} {stem : Stem}
    {operation : Arithmetic}
    (h : Build.instruction frame size index (.plain instruction) =
      move frame index comparison limit stem operation) :
    MoveCode (compile program size).function index (codeFrom program size index)
      (codeFrom program size (index + 1)) comparison limit stem operation := by
  obtain ⟨pointer, inBounds, moved, after, hmove, hemitted⟩ := exists_emitted_move frame index
    comparison limit stem operation (sound_stage program size index).position
  have hstage := stage_succ size hentry
  simp only [h, hmove] at hstage
  rw [← hstage] at hemitted
  obtain ⟨others, others', hhere, hnext, hfault⟩ := codeFrom_of_check hemitted
  exact ⟨pointer, inBounds, moved, _, _, others, others', hhere, hnext, hfault⟩

/-- The code of a plain instruction that is emitted as a change of the current cell. -/
theorem changeCode_of_instruction {stem : Stem} {operation : Arithmetic}
    (h : Build.instruction frame size index (.plain instruction) =
      change frame stem operation) :
    ChangeCode (codeFrom program size index) (codeFrom program size (index + 1)) stem
      operation := by
  obtain ⟨pointer, address, element, changed, after, hchange, hadds⟩ :=
    exists_adds_change frame stem operation (sound_stage program size index).position
  have hstage := stage_succ size hentry
  simp only [h, hchange] at hstage
  rw [← hstage] at hadds
  exact ⟨pointer, address, element, changed, codeFrom_of_adds hadds⟩

/-- The code of a plain operation. -/
theorem implements_plain {operation : Primitive} (hop : instruction.op = operation.op) :
    Implements (compile program size).function size (codeFrom program size) index
      (.plain instruction) := by
  have hposition := (sound_stage program size index).position
  have hserial := (sound_stage program size index).serial
  have hstage := stage_succ size hentry
  cases operation with
  | right =>
    simp only [Implements, hop, Primitive.op]
    exact moveCode_of_instruction hentry (by simp only [Build.instruction, hop, Primitive.op])
  | left =>
    simp only [Implements, hop, Primitive.op]
    exact moveCode_of_instruction hentry (by simp only [Build.instruction, hop, Primitive.op])
  | add =>
    simp only [Implements, hop, Primitive.op]
    exact changeCode_of_instruction hentry (by simp only [Build.instruction, hop, Primitive.op])
  | sub =>
    simp only [Implements, hop, Primitive.op]
    exact changeCode_of_instruction hentry (by simp only [Build.instruction, hop, Primitive.op])
  | output =>
    obtain ⟨pointer, address, element, reply, written, after, hreply, houtput, hemitted⟩ :=
      exists_emitted_output frame index hposition
    simp only [Build.instruction, hop, Primitive.op, houtput] at hstage
    rw [← hstage] at hemitted
    obtain ⟨others, others', hhere, hnext, hfault⟩ := codeFrom_of_check hemitted
    simp only [Implements, hop, Primitive.op]
    exact ⟨pointer, address, element, reply, written, _, _, others, others',
      Nat.lt_of_lt_of_le hserial hreply, hhere, hnext, hfault⟩
  | input =>
    obtain ⟨reply, haveInput, byte, pointer, address, after, hreply, hinput, hemitted⟩ :=
      exists_emitted_input frame index hposition
    simp only [Build.instruction, hop, Primitive.op, hinput] at hstage
    rw [← hstage] at hemitted
    obtain ⟨others, others', hhere, hnext, hfault⟩ := codeFrom_of_check hemitted
    simp only [Implements, hop, Primitive.op]
    exact ⟨reply, haveInput, byte, pointer, address, _, _, others, others',
      Nat.lt_of_lt_of_le hserial hreply, hhere, hnext, hfault⟩

end Plain

/-- Emitting the entries that stand at a place of the program leads from one stage to another. -/
theorem stage_append (size : Int) {first entries last : List Linked}
    (h : program.instructions.toList = first ++ (entries ++ last)) :
    stage program size (first.length + entries.length) =
      ((instructions frame size first.length entries) (stage program size first.length)).2 := by
  rw [stage, stage, h, List.take_left, List.take_length_add_append, List.take_left,
    instructions_append, Nat.zero_add]

section Loop

variable {tree : Tree} {first : Nat} {start finish : Cursor} {body : Tree}

/-- The body of a loop closes the loops it opens. -/
theorem encloses_body (htree : program.instructions = (tree.layout 0).toArray)
    (hloop : tree.LoopAt first start body finish) :
    (stage program size (first + 1)).Encloses (stage program size (first + body.length + 1)) := by
  obtain ⟨before, after, rfl, hlayout⟩ := hloop.exists_layout_eq 0
  rw [Nat.zero_add] at hlayout
  have hlist : program.instructions.toList =
      (before ++ [.opener (start.instruction .loopStart) (before.length + body.length + 1)
        (finish.instruction .loopEnd)]) ++ (body.layout (before.length + 1) ++
          .closer (finish.instruction .loopEnd) before.length (start.instruction .loopStart) ::
            after) := by
    rw [htree, List.toList_toArray, hlayout]
    simp
  have hstage := stage_append size hlist
  have hlength : before.length + 1 + body.length = before.length + body.length + 1 := by omega
  simp only [List.length_append, List.length_singleton, Tree.length_layout, hlength] at hstage
  rw [hstage]
  exact encloses_layout body size (before.length + 1) (sound_stage program size _)

/-- The tests at both ends of a loop lead to the code from its body on and to the code from its end
on. -/
theorem tests_of_loopAt (htree : program.instructions = (tree.layout 0).toArray)
    (hloop : tree.LoopAt first start body finish) :
    TestCode (compile program size).function (codeFrom program size first) .equal
        (codeFrom program size (first + body.length + 2)) (codeFrom program size (first + 1)) ∧
      TestCode (compile program size).function (codeFrom program size (first + body.length + 1))
        .notEqual (codeFrom program size (first + 1))
        (codeFrom program size (first + body.length + 2)) := by
  have hopener := hloop.getElem?_layout_start 0
  have hcloser := hloop.getElem?_layout_end 0
  rw [← List.getElem?_toArray, ← htree] at hopener hcloser
  have hopenStage := stage_succ size hopener
  have hcloseStage := stage_succ size hcloser
  have hposition := (sound_stage program size first).position
  obtain ⟨pointer, address, element, tested, opened, hopen, hopened⟩ :=
    exists_emitted_openLoop frame first hposition
  simp only [Build.instruction, hopen] at hopenStage
  subst hopenStage
  obtain ⟨pointer', address', element', tested', closed, hclose, hclosed, hsame⟩ :=
    exists_emitted_closeLoop_of_encloses hopened (encloses_body htree hloop)
      (sound_stage program size _).position
  simp only [Build.instruction, Nat.zero_add, hclose] at hcloseStage
  subst hcloseStage
  have hopenExtends := extends_completed program size (first + 1)
  have hcloseExtends := extends_completed program size (first + body.length + 2)
  have hsize := hopenExtends.size
  rw [hopened.size] at hsize
  -- the loop start created the block of the body, and the build went on in it
  have hbody : (compile program size).function.HasBlock (stage program size first).size
      (codeFrom program size (first + 1)) := by
    have hblock := hasBlock_compile program size (show (stage program size first).size < _ by omega)
    rw [hopened.code_next hopenExtends hposition] at hblock
    rw [codeFrom, Builder.rest, hopened.position]
    exact hblock
  -- it also created the block after the loop, which was empty when the build came back to it
  have hafter : (compile program size).function.HasBlock ((stage program size first).size + 1)
      (codeFrom program size (first + body.length + 2)) := by
    have hblock :=
      hasBlock_compile program size (show (stage program size first).size + 1 < _ by omega)
    rw [hcloseExtends.code_eq, hsame, hopened.code, Builder.code_eq_nil (Nat.le_succ _),
      if_neg (by omega), if_neg (by omega), if_pos rfl] at hblock
    rw [codeFrom, Builder.rest, hclosed.position]
    exact hblock
  exact ⟨⟨pointer, address, element, tested, _, _, _, hopened.rest_eq hopenExtends, hafter, hbody⟩,
    ⟨pointer', address', element', tested', _, _, _, hclosed.rest_eq hcloseExtends, hbody, hafter⟩⟩

end Loop

/-- The compiled function implements every instruction of a linked program. -/
theorem implements_compile {source : Program} (hlink : source.link = .ok program) {entry : Linked}
    (hentry : program.instructions[index]? = some entry) :
    Implements (compile program size).function size (codeFrom program size) index entry := by
  -- the linked program is a laid-out tree, whose loops tell where its brackets lead
  obtain ⟨tree, -, rfl⟩ := Program.link_eq_ok_iff.mp hlink
  cases entry with
  | opener instruction last partner =>
    have hlayout := hentry
    rw [List.getElem?_toArray] at hlayout
    obtain ⟨_, _, _, hloop, -, rfl, -⟩ := Tree.exists_loopAt_opener hlayout
    exact (tests_of_loopAt rfl hloop).1
  | closer instruction first partner =>
    have hlayout := hentry
    rw [List.getElem?_toArray] at hlayout
    obtain ⟨_, _, _, hloop, -, rfl, -⟩ := Tree.exists_loopAt_closer hlayout
    exact (tests_of_loopAt rfl hloop).2
  | plain instruction =>
    have hmem : .plain instruction ∈ tree.layout 0 := by
      rw [List.getElem?_toArray] at hentry
      exact List.mem_of_getElem? hentry
    obtain ⟨hs, he⟩ := Tree.op_of_plain_mem_layout hmem
    obtain ⟨operation, hop⟩ := Primitive.exists_op_eq hs he
    exact implements_plain hentry hop.symm

/-! ## What an instruction was emitted for -/

/-- The instruction of the code was emitted for the instruction of the program at an index. -/
def Emits (program : LinkedProgram) (size : Int) (index : Nat) (instr : Instr) : Prop :=
  ∃ block, instr ∈ (stage program size index).since (stage program size (index + 1)) block

/-- What is added to the block being filled was emitted for the instruction. -/
theorem emits_of_emitted {position count : Nat} {loops : List LoopBlocks}
    {here next fault : List Instr}
    (h : (stage program size index).Emitted (stage program size (index + 1)) position count loops
      here next fault) {instr : Instr} (hinstr : instr ∈ here) :
    Emits program size index instr := by
  refine ⟨(stage program size index).position, ?_⟩
  rw [Builder.since, h.code, if_pos rfl, List.drop_left]
  exact hinstr

section Calls

variable {instruction : Instruction}
  (hentry : program.instructions[index]? = some (.plain instruction))
include hentry

/-- The call of an output stands three instructions into its code. -/
theorem exists_drop_codeFrom_of_output (hop : instruction.op = .output) :
    ∃ instr rest, (codeFrom program size index).drop 3 = instr :: rest ∧
      Emits program size index instr := by
  have hstage := stage_succ size hentry
  obtain ⟨pointer, address, element, reply, written, after, -, houtput, hemitted⟩ :=
    exists_emitted_output frame index (sound_stage program size index).position
  simp only [Build.instruction, hop, houtput] at hstage
  rw [← hstage] at hemitted
  rw [codeFrom, hemitted.rest_eq (extends_completed program size (index + 1))]
  exact ⟨.put ⟨.unnamed, reply⟩ ⟨.element, element⟩, _, rfl,
    emits_of_emitted hemitted (by simp)⟩

/-- The code of an input begins with its call. -/
theorem exists_codeFrom_of_input (hop : instruction.op = .input) :
    ∃ instr rest, codeFrom program size index = instr :: rest ∧
      Emits program size index instr := by
  have hstage := stage_succ size hentry
  obtain ⟨reply, haveInput, byte, pointer, address, after, -, hinput, hemitted⟩ :=
    exists_emitted_input frame index (sound_stage program size index).position
  simp only [Build.instruction, hop, hinput] at hstage
  rw [← hstage] at hemitted
  rw [codeFrom, hemitted.rest_eq (extends_completed program size (index + 1))]
  exact ⟨.get ⟨.unnamed, reply⟩, _, rfl, emits_of_emitted hemitted (by simp)⟩

end Calls

end Implemented

end Native

end Brainfuck
