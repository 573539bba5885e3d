import Brainfuck.Proofs.Balance

/-! # Programs as trees

A program with balanced brackets is a sequence of plain operations and loops, where a loop has a
body that is again such a sequence. Written out, a tree is a list of instructions; linked, it is a
list in which every bracket knows its partner, which the tree tells without any search.

Main definitions: `Primitive`, `Tree`, `Tree.flatten`, `Tree.layout`. Main statements: exactly the
balanced lists are written-out trees (`balanced_iff_exists_flatten`), and linking a written-out tree
lays it out (`Program.link_eq_ok_iff`). -/

namespace Brainfuck

/-! ## Trees -/

/-- The operations other than brackets. -/
inductive Primitive where
  /-- Move the data pointer one cell to the right. -/
  | right
  /-- Move the data pointer one cell to the left. -/
  | left
  /-- Add one to the current cell. -/
  | add
  /-- Subtract one from the current cell. -/
  | sub
  /-- Write the current cell to the output. -/
  | output
  /-- Read one byte of input into the current cell. -/
  | input
deriving DecidableEq, Repr

namespace Primitive

/-- A plain operation as an operation. -/
def op : Primitive → Op
  | right => .right
  | left => .left
  | add => .add
  | sub => .sub
  | output => .output
  | input => .input

theorem op_ne_loopStart (primitive : Primitive) : primitive.op ≠ .loopStart := by
  cases primitive <;> simp [op]

theorem op_ne_loopEnd (primitive : Primitive) : primitive.op ≠ .loopEnd := by
  cases primitive <;> simp [op]

/-- Every operation that is not a bracket is a plain one. -/
theorem exists_op_eq {operation : Op} (hs : operation ≠ .loopStart) (he : operation ≠ .loopEnd) :
    ∃ primitive : Primitive, primitive.op = operation := by
  cases operation with
  | right => exact ⟨.right, rfl⟩
  | left => exact ⟨.left, rfl⟩
  | add => exact ⟨.add, rfl⟩
  | sub => exact ⟨.sub, rfl⟩
  | output => exact ⟨.output, rfl⟩
  | input => exact ⟨.input, rfl⟩
  | loopStart => contradiction
  | loopEnd => contradiction

end Primitive

/-- The instruction that stands at a place. -/
def Cursor.instruction (place : Cursor) (op : Op) : Instruction := ⟨op, place.line, place.column⟩

@[simp] theorem Cursor.op_instruction (place : Cursor) (op : Op) :
    (place.instruction op).op = op := rfl

/-- Every instruction stands at some place. -/
theorem Cursor.exists_instruction_eq (instruction : Instruction) :
    ∃ place : Cursor, place.instruction instruction.op = instruction :=
  ⟨⟨instruction.line, instruction.column⟩, rfl⟩

/-- A sequence of plain operations and loops, each with its place in the source. -/
inductive Tree where
  /-- The empty sequence. -/
  | done
  /-- A plain operation and what follows it. -/
  | plain (operation : Primitive) (place : Cursor) (rest : Tree)
  /-- A loop, with the places of its brackets around its body, and what follows it. -/
  | loop (start : Cursor) (body : Tree) (finish : Cursor) (rest : Tree)
deriving DecidableEq, Repr

namespace Tree

/-- The instructions of a tree in source order. -/
def flatten : Tree → List Instruction
  | done => []
  | plain operation place rest => place.instruction operation.op :: rest.flatten
  | loop start body finish rest =>
    start.instruction .loopStart :: (body.flatten ++ finish.instruction .loopEnd :: rest.flatten)

/-- The number of instructions of a tree. -/
def length : Tree → Nat
  | done => 0
  | plain _ _ rest => rest.length + 1
  | loop _ body _ rest => body.length + rest.length + 2

/-- The linked instructions of a tree whose first instruction has the index `base`. -/
def layout (base : Nat) : Tree → List Linked
  | done => []
  | plain operation place rest =>
    .plain (place.instruction operation.op) :: rest.layout (base + 1)
  | loop start body finish rest =>
    .opener (start.instruction .loopStart) (base + body.length + 1)
        (finish.instruction .loopEnd) ::
      (body.layout (base + 1) ++
        .closer (finish.instruction .loopEnd) base (start.instruction .loopStart) ::
          rest.layout (base + body.length + 2))

@[simp] theorem length_flatten (tree : Tree) : tree.flatten.length = tree.length := by
  induction tree with
  | done => rfl
  | plain _ _ rest ih => simp [flatten, length, ih]
  | loop _ body _ rest ihBody ihRest =>
    simp only [flatten, length, List.length_cons, List.length_append, ihBody, ihRest]
    omega

@[simp] theorem length_layout (tree : Tree) (base : Nat) :
    (tree.layout base).length = tree.length := by
  induction tree generalizing base with
  | done => rfl
  | plain _ _ rest ih => simp [layout, length, ih]
  | loop _ body _ rest ihBody ihRest =>
    simp only [layout, length, List.length_cons, List.length_append, ihBody, ihRest]
    omega

/-- Dropping the links of a laid-out tree gives back its instructions. -/
@[simp] theorem map_instruction_layout (tree : Tree) (base : Nat) :
    (tree.layout base).map Linked.instruction = tree.flatten := by
  induction tree generalizing base with
  | done => rfl
  | plain _ _ rest ih => simp [layout, flatten, Linked.instruction, ih]
  | loop _ body _ rest ihBody ihRest =>
    simp [layout, flatten, Linked.instruction, ihBody, ihRest]

end Tree

/-! ## Balanced lists are written-out trees -/

/-- A written-out tree leaves the depth as it was. -/
theorem balancedFrom_flatten_append_iff (tree : Tree) (depth : Nat) (rest : List Instruction) :
    BalancedFrom depth (tree.flatten ++ rest) ↔ BalancedFrom depth rest := by
  induction tree generalizing depth rest with
  | done => rfl
  | plain operation place after ih =>
    rw [Tree.flatten, List.cons_append,
      balancedFrom_plain_iff operation.op_ne_loopStart operation.op_ne_loopEnd, ih]
  | loop start body finish after ihBody ihAfter =>
    rw [Tree.flatten, List.cons_append, List.append_assoc, List.cons_append,
      balancedFrom_start_iff rfl, ihBody, balancedFrom_end_iff rfl, ihAfter]
    simp

/-- A list that closes `depth` open loops begins with a tree, after which the list ends or the
innermost of the loops does. -/
theorem exists_tree_of_balancedFrom (depth : Nat) (instructions : List Instruction)
    (balanced : BalancedFrom depth instructions) :
    ∃ tree : Tree, (depth = 0 ∧ instructions = tree.flatten) ∨
      ∃ finish rest, 0 < depth ∧
        instructions = tree.flatten ++ Cursor.instruction finish .loopEnd :: rest ∧
        BalancedFrom (depth - 1) rest := by
  -- A loop start is followed by its body and by what stands after its end, which is a shorter list
  -- but not the tail of the first one, so the induction is on the length.
  induction hlength : instructions.length using Nat.strongRecOn
    generalizing depth instructions with
  | ind length ih =>
    cases instructions with
    | nil => exact ⟨.done, .inl ⟨balancedFrom_nil_iff.mp balanced, rfl⟩⟩
    | cons instruction tail =>
      rw [List.length_cons] at hlength
      obtain ⟨place, hplace⟩ := Cursor.exists_instruction_eq instruction
      by_cases hs : instruction.op = .loopStart
      · -- the tail is the body, the loop end, and what follows the loop
        rw [balancedFrom_start_iff hs] at balanced
        obtain ⟨body, ⟨h, -⟩ | ⟨finish, rest, -, rfl, hrest⟩⟩ :=
          ih tail.length (by omega) (depth + 1) tail balanced rfl
        · omega
        have shorter : rest.length < length := by
          rw [← hlength, List.length_append, List.length_cons]
          omega
        obtain ⟨after, hafter⟩ := ih rest.length shorter depth rest hrest rfl
        refine ⟨.loop place body finish after, ?_⟩
        rw [hs] at hplace
        rcases hafter with ⟨h, rfl⟩ | ⟨outer, others, h, rfl, hothers⟩
        · exact .inl ⟨h, by rw [Tree.flatten, hplace]⟩
        · exact .inr ⟨outer, others, h, by simp [Tree.flatten, hplace], hothers⟩
      · by_cases he : instruction.op = .loopEnd
        · -- the loop end belongs to a loop that was open before, so the tree is empty
          rw [balancedFrom_end_iff he] at balanced
          rw [he] at hplace
          exact ⟨.done, .inr ⟨place, tail, balanced.1, by simp [Tree.flatten, hplace],
            balanced.2⟩⟩
        · rw [balancedFrom_plain_iff hs he] at balanced
          obtain ⟨operation, hop⟩ := Primitive.exists_op_eq hs he
          rw [← hop] at hplace
          obtain ⟨after, hafter⟩ := ih tail.length (by omega) depth tail balanced rfl
          refine ⟨.plain operation place after, ?_⟩
          rcases hafter with ⟨h, rfl⟩ | ⟨outer, others, h, rfl, hothers⟩
          · exact .inl ⟨h, by rw [Tree.flatten, hplace]⟩
          · exact .inr ⟨outer, others, h, by simp [Tree.flatten, hplace], hothers⟩

/-- A list of instructions is balanced exactly if it is some tree, written out. -/
theorem balanced_iff_exists_flatten {instructions : List Instruction} :
    Balanced instructions ↔ ∃ tree : Tree, tree.flatten = instructions := by
  rw [← balancedFrom_zero_iff]
  constructor
  · intro balanced
    rcases exists_tree_of_balancedFrom 0 instructions balanced with ⟨tree, ⟨-, h⟩ | ⟨_, _, h, -⟩⟩
    · exact ⟨tree, h.symm⟩
    · omega
  · rintro ⟨tree, rfl⟩
    have h := balancedFrom_flatten_append_iff tree 0 []
    rw [List.append_nil] at h
    exact h.mpr (balancedFrom_nil_iff.mpr rfl)

/-! ## Linking lays out a tree -/

namespace Program

/-- Linking a written-out tree appends its layout and leaves the open loops as they were. -/
theorem linkFrom_flatten_append (file : String) (loops : List OpenLoop)
    (linked : Array (Option Linked)) (tree : Tree) (rest : List Instruction) :
    linkFrom file loops linked (tree.flatten ++ rest) =
      linkFrom file loops (linked ++ ((tree.layout linked.size).map some).toArray) rest := by
  induction tree generalizing loops linked rest with
  | done => simp [Tree.flatten, Tree.layout]
  | plain operation place after ih =>
    rw [Tree.flatten, List.cons_append,
      linkFrom_plain _ _ _ _ operation.op_ne_loopStart operation.op_ne_loopEnd, ih]
    simp [Tree.layout]
  | loop start body finish after ihBody ihAfter =>
    rw [Tree.flatten, List.cons_append, List.append_assoc, List.cons_append,
      linkFrom_start _ _ _ _ rfl, ihBody, linkFrom_end_cons _ _ _ _ rfl, ihAfter]
    congr 1
    -- the empty entry of the loop start stands at the end of `linked`, and is filled in there
    apply Array.toList_inj.mp
    simp [Tree.layout, Nat.add_assoc]

/-- A written-out tree is linked by laying it out. -/
theorem link_flatten (file : String) (tree : Tree) :
    link ⟨file, tree.flatten⟩ = .ok ⟨file, (tree.layout 0).toArray⟩ := by
  have happend := linkFrom_flatten_append file [] #[] tree []
  have hentries : #[] ++ ((tree.layout (#[] : Array (Option Linked)).size).map some).toArray =
      (tree.layout 0).toArray.map some := by simp
  rw [List.append_nil, hentries, linkFrom_nil_nil, finish_map_some] at happend
  exact happend

/-- A program can be linked exactly if its brackets are balanced. -/
theorem exists_link_eq_ok_iff (program : Program) :
    (∃ linked, program.link = .ok linked) ↔ Balanced program.instructions := by
  constructor
  · rintro ⟨linked, h⟩
    refine program.link_ne_bracket_iff.mp fun error herror => ?_
    cases h.symm.trans herror
  · intro balanced
    obtain ⟨tree, htree⟩ := balanced_iff_exists_flatten.mp balanced
    refine ⟨⟨program.file, (tree.layout 0).toArray⟩, ?_⟩
    rw [← link_flatten, htree]

/-- Linking succeeds exactly on written-out trees, and lays them out. -/
theorem link_eq_ok_iff {program : Program} {linked : LinkedProgram} :
    program.link = .ok linked ↔
      ∃ tree : Tree, tree.flatten = program.instructions ∧
        linked = ⟨program.file, (tree.layout 0).toArray⟩ := by
  constructor
  · intro h
    obtain ⟨tree, htree⟩ :=
      balanced_iff_exists_flatten.mp (program.exists_link_eq_ok_iff.mp ⟨linked, h⟩)
    refine ⟨tree, htree, ?_⟩
    have hlink := link_flatten program.file tree
    rw [htree] at hlink
    exact Except.ok.inj (h.symm.trans hlink)
  · rintro ⟨tree, htree, rfl⟩
    rw [← link_flatten, htree]

/-- Every loop start is given its partner: no entry is empty in the end. -/
theorem link_ne_unpatched (program : Program) : program.link ≠ .error .unpatched := by
  intro h
  -- no bracket is to blame either, so the program would be linked
  have balanced : Balanced program.instructions :=
    program.link_ne_bracket_iff.mp fun error herror => by cases h.symm.trans herror
  obtain ⟨linked, hlinked⟩ := program.exists_link_eq_ok_iff.mpr balanced
  cases h.symm.trans hlinked

end Program

end Brainfuck
